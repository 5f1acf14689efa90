import Migration.Log.Entry
import Migration.Proofs.Json

/-!
# Log lines

An entry that has a time and a message is written as one line, whatever its texts are. The line is
an object with the texts of the entry as its members, and reading it gives these texts back.

* `Log.Entry.members` — the members of the line
* `Log.Entry.line_of_message` — the line of an entry is read back
-/

namespace Migration.Log

namespace Entry

/-- The members of the line of an entry about a change log, if it is about one. -/
def members (e : Entry) (timestamp : Timestamp) (message : String) (changeLog : Option String) :
    List (String × String) :=
  [("timestamp", timestamp.printStrict), ("level", levelName e.level), ("logger", e.logger),
    ("message", message)] ++ changeLog.toList.map ("change_log", ·) ++
    e.trace.toList.map ("exc_info", ·)

variable {e : Entry} {timestamp : Timestamp} {message : String} {changeLog : Option String}

/-- No name comes twice, so an object with these members has all of them. -/
theorem nodup_members (e : Entry) (timestamp : Timestamp) (message : String)
    (changeLog : Option String) : ((e.members timestamp message changeLog).map (·.1)).Nodup := by
  unfold members
  cases changeLog <;> cases e.trace <;> simp

/-- An entry with a time and a message is an object of texts. -/
theorem toJson_of_message (dated : e.created.timestamp = .ok timestamp)
    (told : Log.message e.template e.values = .ok message)
    (about : e.changeLog = changeLog.map .string) :
    e.toJson = .ok (.ofTexts (e.members timestamp message changeLog)) := by
  unfold toJson members Json.ofTexts
  rw [dated, told, about]
  cases changeLog <;> cases e.trace <;> rfl

/-- The line of an entry has no control characters and is an object with the texts of the entry as
its members, which are what is read of it. -/
theorem line_of_message (dated : e.created.timestamp = .ok timestamp)
    (told : Log.message e.template e.values = .ok message)
    (about : e.changeLog = changeLog.map .string) :
    ∃ line, e.line = .ok line ∧ (∀ c ∈ line.toList, 0x20 ≤ c.toNat) ∧
      Json.IsObject (e.members timestamp message changeLog) line.toList ∧
      Json.parse? line = some (.ofTexts (e.members timestamp message changeLog)) ∧
      ((e.members timestamp message changeLog).map (·.1)).Nodup := by
  have written : (String.ofList (Json.chars .unicode
      (.ofTexts (e.members timestamp message changeLog)))).toList = _ := String.toList_ofList
  have isObject : Json.IsObject _ _ :=
    Json.isObject_chars .unicode (e.members timestamp message changeLog)
  rw [← written] at isObject
  refine ⟨_, ?_, ?_, isObject, Json.parse?_of_isObject isObject,
    e.nodup_members timestamp message changeLog⟩
  · unfold line
    rw [toJson_of_message dated told about]
    rfl
  · rw [written]
    exact Json.isPrintable_chars .unicode (e.members timestamp message changeLog)

/-- Quotes, backslashes, ends of lines, control characters and characters beyond ASCII. -/
theorem line_of_message_escaped :
    let e : Entry := {
      logger := "a\"b\\c", level := 25, template := "1\r\n2\t\u0001\u007F", values := [],
      created := .whole 0, changeLog := some (.string "größe/😀.py"), trace := some "x\n  y\n" }
    let members := [("timestamp", "1970-01-01T00:00:00+00:00"), ("level", "Level 25"),
      ("logger", "a\"b\\c"), ("message", "1\r\n2\t\u0001\u007F"), ("change_log", "größe/😀.py"),
      ("exc_info", "x\n  y\n")]
    ∃ line, e.line = .ok line ∧ (∀ c ∈ line.toList, 0x20 ≤ c.toNat) ∧
      Json.parse? line = some (.ofTexts members) := by
  intro e members
  have dated : e.created.timestamp = .ok ⟨⟨1970, 1, 1⟩, ⟨0, 0, 0, 0⟩, some .zero⟩ := by
    decide +kernel
  have about : e.changeLog = (some "größe/😀.py").map .string := rfl
  have all : e.members ⟨⟨1970, 1, 1⟩, ⟨0, 0, 0, 0⟩, some .zero⟩ "1\r\n2\t\u0001\u007F"
      (some "größe/😀.py") = members := by decide +kernel
  obtain ⟨line, is, printable, -, read, -⟩ := line_of_message dated rfl about
  exact ⟨line, is, printable, all ▸ read⟩

end Entry
end Migration.Log
