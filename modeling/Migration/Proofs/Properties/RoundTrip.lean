import Migration.Proofs.Properties
import Migration.Proofs.Text

/-!
# Properties files are read back

Entries are written one a line and not indented, with blank lines and comments between them. Such a
file is read without faults: no line is taken for another kind of line, a blank line that is taken
for more of the value before it adds nothing to it, and a key that is written again takes the later
value.

* `Properties.IsKey`, `Properties.IsValue` — keys and values that can be written
* `Properties.IsWritten` — the lines that write entries
* `Properties.Reader.Holds` — a reader has read entries
* `Properties.parse_of_isWritten` — what is read are the entries, with the last value of each key
-/

namespace Migration.Properties

open Text Reader

/-! ## Lines -/

/-- A key that can be written: not empty, without `=` and `:`, without white space around it, and
not to be mistaken for a comment or a section. -/
@[mk_iff]
structure IsKey (key : String) : Prop where
  ne_empty : key ≠ ""
  noDelimiter : ∀ c ∈ key.toList, isDelimiter c = false
  starts : ∀ c ∈ key.toList.head?, isBlank c = false
  unmarked : ∀ c ∈ key.toList.head?, c ∉ ['#', ';', '[']
  ends : ∀ c ∈ key.toList.getLast?, isBlank c = false

/-- A value that can be written: one without white space around it. -/
@[mk_iff]
structure IsValue (value : String) : Prop where
  starts : ∀ c ∈ value.toList.head?, isBlank c = false
  ends : ∀ c ∈ value.toList.getLast?, isBlank c = false

instance (key : String) : Decidable (IsKey key) :=
  decidable_of_iff (key ≠ "" ∧ key.toList.all (!isDelimiter ·) ∧ key.toList.head?.all (!isBlank ·) ∧
      key.toList.head?.all (· ∉ ['#', ';', '[']) ∧ key.toList.getLast?.all (!isBlank ·)) <| by
    simp only [isKey_iff, List.all_eq_true, Option.all_eq_true, Option.mem_def, Bool.not_eq_true',
      decide_eq_true_eq]

instance (value : String) : Decidable (IsValue value) :=
  decidable_of_iff (value.toList.head?.all (!isBlank ·) ∧ value.toList.getLast?.all (!isBlank ·)) <| by
    simp only [isValue_iff, Option.all_eq_true, Option.mem_def, Bool.not_eq_true']

/-- There is white space only. -/
def IsWhite (cs : List Char) : Prop := ∀ c ∈ cs, isBlank c = true

instance : DecidablePred IsWhite := fun cs => List.decidableBAll _ cs

/-- Lines that write entries, one after the other. Blank lines and comments may stand between them,
and white space around the delimiter and at the end of the line. -/
inductive IsWritten : List (String × String) → List (List Char) → Prop
  | nil : IsWritten [] []
  | blank {entries line lines} (white : IsWhite line) (rest : IsWritten entries lines) :
      IsWritten entries (line :: lines)
  | comment {entries lines gap mark text} (white : IsWhite gap) (marks : mark = '#' ∨ mark = ';')
      (rest : IsWritten entries lines) : IsWritten entries ((gap ++ mark :: text) :: lines)
  | entry {entries lines key value before delimiter after gap} (isKey : IsKey key)
      (isValue : IsValue value) (delimits : isDelimiter delimiter = true) (white : IsWhite before)
      (white' : IsWhite after) (white'' : IsWhite gap) (rest : IsWritten entries lines) :
      IsWritten ((key, value) :: entries)
        ((key.toList ++ (before ++ delimiter :: (after ++ (value.toList ++ gap)))) :: lines)

/-- A delimiter is neither white space nor the start of a comment. -/
theorem isBlank_of_isDelimiter {c : Char} (h : isDelimiter c = true) : isBlank c = false := by
  unfold isDelimiter at h
  rcases Bool.or_eq_true _ _ ▸ h with is | is <;> rw [beq_iff_eq.1 is] <;> decide

theorem isDelimiter_of_isBlank {c : Char} (h : isBlank c = true) : isDelimiter c = false := by
  by_contra delimits
  rw [isBlank_of_isDelimiter (by simpa using delimits)] at h
  cases h

theorem IsWhite.append {cs ds : List Char} (h : IsWhite cs) (h' : IsWhite ds) :
    IsWhite (cs ++ ds) :=
  List.forall_mem_append.2 ⟨h, h'⟩

/-- The text that ends a line. -/
theorem isWhite_lineFeed : IsWhite ['\n'] := by decide

/-- What is left of the value of an entry without the white space around it. -/
theorem IsValue.trimChars {value : String} (h : IsValue value) {after gap : List Char}
    (white : IsWhite after) (white' : IsWhite gap) :
    trimChars (trimEnd (after ++ (value.toList ++ gap))) = value.toList := by
  by_cases empty : value.toList = []
  · rw [empty, List.nil_append, trimEnd_of_forall (white.append white')]
    rfl
  · have ends : ∀ c ∈ (after ++ value.toList).getLast?, isBlank c = false := by
      rw [List.getLast?_append_of_ne_nil _ empty]
      exact h.ends
    rw [← List.append_assoc, trimEnd_append white', trimEnd_of_ends ends, Text.trimChars,
      trimStart_append white, trimStart_of_starts h.starts, trimEnd_of_ends h.ends]

namespace Reader

/-! ## Look-ups -/

/-- A value that is computed from a key and its old value is found under the key. -/
theorem lookup_map {α β : Type} (f : String → α → β) (entries : List (String × α)) (key : String) :
    (entries.map fun entry => (entry.1, f entry.1 entry.2)).lookup key =
      (entries.lookup key).map (f key) := by
  induction entries with
  | nil => rfl
  | cons entry rest ih =>
    rw [List.map_cons, List.lookup_cons, List.lookup_cons, ih]
    cases same : key == entry.1 with
    | true =>
      rw [beq_iff_eq.1 same]
      rfl
    | false => rfl

theorem lookup_assign (entries : List Entry) (key : String) (values : List String)
    (other : String) : (assign entries key values).lookup other =
      if other = key then some values else entries.lookup other := by
  unfold assign
  split
  · next there =>
    have moved : (entries.map fun entry : Entry =>
        if entry.1 == key then (entry.1, values) else (entry.1, entry.2)) =
          entries.map fun entry => (entry.1, if entry.1 == key then values else entry.2) :=
      List.map_congr_left fun entry _ => by split <;> rfl
    refine (congrArg (List.lookup other) moved).trans ?_
    rw [lookup_map fun k old => if k == key then values else old]
    by_cases same : other = key
    · obtain ⟨entry, mem, is⟩ := List.any_eq_true.1 there
      cases found : entries.lookup other with
      | none =>
        have differs := List.lookup_eq_none_iff.1 found entry mem
        rw [same, beq_iff_eq.1 is] at differs
        simp at differs
      | some old => simp [same]
    · simp [same]
  · next absent =>
    rw [List.lookup_append, List.lookup_cons, List.lookup_nil]
    by_cases same : other = key
    · have missing : entries.lookup key = none :=
        List.lookup_eq_none_iff.2 fun entry mem => bne_iff_ne.2 fun is =>
          absent (List.any_eq_true.2 ⟨entry, mem, beq_iff_eq.2 is.symm⟩)
      rw [same, missing]
      simp
    · have differs : (other == key) = false := beq_eq_false_iff_ne.2 same
      simp [differs, same]

theorem lookup_extend (entries : List Entry) (key line other : String) :
    (extend entries key line).lookup other =
      (entries.lookup other).map fun values => if other = key then line :: values else values := by
  have moved : extend entries key line =
      entries.map fun entry => (entry.1, if entry.1 = key then line :: entry.2 else entry.2) := by
    refine List.map_congr_left fun entry _ => ?_
    show (if entry.1 == key then (entry.1, line :: entry.2) else (entry.1, entry.2)) = _
    simp only [beq_iff_eq]
    split <;> rfl
  rw [moved, lookup_map fun k old => if k = key then line :: old else old]

/-- Entries with keys of their own are put behind the others. -/
theorem foldl_assign {entries later : List Entry} (nodup : (keysOf (entries ++ later)).Nodup) :
    later.foldl (fun all entry => assign all entry.1 entry.2) entries = entries ++ later := by
  induction later generalizing entries with
  | nil => rw [List.append_nil]; rfl
  | cons entry rest ih =>
    have new : ¬entries.any (·.1 == entry.1) = true := by
      intro there
      obtain ⟨old, mem, same⟩ := List.any_eq_true.1 there
      unfold keysOf at nodup
      rw [List.map_append, List.map_cons, List.nodup_append] at nodup
      exact nodup.2.2 old.1 (List.mem_map_of_mem mem) entry.1 List.mem_cons_self (beq_iff_eq.1 same)
    have put : assign entries entry.1 entry.2 = entries ++ [entry] := by
      unfold assign
      rw [if_neg new]
    rw [List.foldl_cons, put, ih (by rwa [List.append_assoc]), List.append_assoc]
    rfl

end Reader

/-- A blank line more adds nothing to a value. -/
theorem valueOf_cons_empty (lines : List String) : valueOf ("" :: lines) = valueOf lines := by
  unfold valueOf trimRight join
  congr 1
  rw [List.reverse_cons, String.toList_intercalate, String.toList_intercalate, List.map_append]
  cases lines.reverse with
  | nil => rfl
  | cons first rest =>
    have longer := intercalate_concat '\n' first.toList (rest.map String.toList) []
    rw [List.map_cons, List.map_singleton]
    exact congrArg trimEnd longer |>.trans (trimEnd_append isWhite_lineFeed _)

/-- A single line is the value. -/
theorem valueOf_singleton {value : String} (h : IsValue value) : valueOf [value] = value := by
  unfold valueOf trimRight
  rw [List.reverse_singleton, show join "\n" [value] = value from String.intercalate_singleton ..,
    trimEnd_of_ends h.ends, String.ofList_toList]

namespace Reader

variable {r : Reader} {entries done : List (String × String)} {key value : String}

/-! ## Reading lines -/

/-- The reader has read entries: their keys in the order in which they came up, each with its last
value, in the section that counts, and nothing has gone wrong. -/
structure Holds (r : Reader) (entries : List (String × String)) : Prop where
  current : r.current = .properties
  indent : r.indent = 0
  defaults : r.defaults = []
  faults : r.faults = []
  keys : keysOf r.properties = (keysOf entries).eraseDups
  values : ∀ key, (r.properties.lookup key).map valueOf = entries.reverse.lookup key

theorem holds_start : Holds {} [] := ⟨rfl, rfl, rfl, rfl, rfl, fun _ => rfl⟩

theorem update_of_properties (current : r.current = .properties) (f : List Entry → List Entry) :
    r.update f = { r with properties := f r.properties } := by
  unfold Reader.update
  rw [current]

/-- A blank line may go on with a value, but adds nothing to it. -/
theorem Holds.blank (h : r.Holds entries) {l : String} (white : IsWhite l.toList) (number : Nat) :
    (r.line number l).Holds entries := by
  have reads : r.line number l = r.continued "" := by
    unfold Reader.line
    rw [trimChars_of_blank white]
  rw [reads]
  cases hkey : r.key with
  | none =>
    have stays : r.continued "" = r := by
      unfold Reader.continued
      rw [hkey]
    rwa [stays]
  | some key =>
    have goes : r.continued "" = r.update (extend · key "") := by
      unfold Reader.continued
      rw [hkey]
    rw [goes, update_of_properties h.current]
    refine ⟨h.current, h.indent, h.defaults, h.faults, (keysOf_extend _ _ _).trans h.keys,
      fun other => ?_⟩
    rw [← h.values other, lookup_extend, Option.map_map]
    congr 1
    funext lines
    rw [Function.comp_apply]
    split
    · exact valueOf_cons_empty lines
    · rfl

/-- A comment is passed over, indented or not. -/
theorem Holds.comment (h : r.Holds entries) {l : String} {gap text : List Char} {mark : Char}
    (white : IsWhite gap) (marks : mark = '#' ∨ mark = ';')
    (writes : l.toList = gap ++ mark :: text) (number : Nat) : (r.line number l).Holds entries := by
  have solid : isBlank mark = false := by rcases marks with rfl | rfl <;> decide
  have trimmed : trimChars l.toList = mark :: trimEnd text := by
    rw [writes, trimChars, trimStart_append white, trimStart_of_starts (by simpa using solid)]
    exact trimEnd_append_cons solid [] text
  have reads : r.line number l = r := by
    unfold Reader.line
    rw [trimmed]
    dsimp only
    rw [if_pos (by simpa using marks)]
  rwa [reads]

/-- A line that is not indented and no comment starts something. -/
theorem line_of_unindented (indent : r.indent = 0) {l : String} {c : Char} {rest : List Char}
    (writes : l.toList = c :: rest) (solid : isBlank c = false) (unmarked : c ∉ ['#', ';'])
    (number : Nat) : r.line number l = r.start number l (trimChars l.toList) := by
  have trimmed : trimChars l.toList = c :: trimEnd rest := by
    rw [writes, trimChars, trimStart_of_starts (by simpa using solid)]
    exact trimEnd_append_cons solid [] rest
  have unindented : l.toList.takeWhile isBlank = [] := by
    rw [writes]
    exact List.takeWhile_cons_of_neg (by simp [solid])
  have same : { r with indent := 0 } = r := by
    rw [← indent]
  unfold Reader.line
  dsimp only
  rw [trimmed, unindented]
  dsimp only [List.length_nil]
  rw [if_neg (by simpa using unmarked), if_neg (by simp), same]

/-- What stands before the first delimiter is a key, and what stands behind it a value. -/
theorem start_of_delimiter {front rest : List Char} {delimiter : Char}
    (noSection : front.head? ≠ some '[') (noDelimiter : ∀ c ∈ front, isDelimiter c = false)
    (delimits : isDelimiter delimiter = true) (named : String.ofList (trimEnd front) = key)
    (ne_empty : key ≠ "") (number : Nat) (l : String) :
    r.start number l (front ++ delimiter :: rest) =
      { r.update (assign · key [String.ofList (trimChars rest)]) with key := some key } := by
  have noHeader : header? (front ++ delimiter :: rest) = none := by
    cases front with
    | nil => rw [← named] at ne_empty; exact absurd rfl ne_empty
    | cons c front =>
      unfold header?
      split
      · next eq => exact absurd (congrArg List.head? eq) noSection
      · rfl
  have passes : ∀ c ∈ front, (!isDelimiter c) = true := fun c mem => by simp [noDelimiter c mem]
  have behind : (front ++ delimiter :: rest).dropWhile (!isDelimiter ·) = delimiter :: rest := by
    rw [List.dropWhile_append_of_pos passes, List.dropWhile_cons_of_neg (by simp [delimits])]
  have ahead : (front ++ delimiter :: rest).takeWhile (!isDelimiter ·) = front := by
    rw [List.takeWhile_append_of_pos passes, List.takeWhile_cons_of_neg (by simp [delimits]),
      List.append_nil]
  have isNamed : ¬key.isEmpty = true := fun nothing => ne_empty (String.isEmpty_iff.1 nothing)
  unfold Reader.start
  rw [noHeader, behind, ahead, named]
  dsimp only
  rw [if_neg isNamed, if_neg isNamed]

/-- An entry more: its key comes last if it is new, and its value replaces the one before. -/
theorem Holds.assign (h : r.Holds entries) {next : Option String} (isValue : IsValue value) :
    Holds { r with key := next, properties := assign r.properties key [value] }
      (entries ++ [(key, value)]) := by
  refine ⟨h.current, h.indent, h.defaults, h.faults, ?_, fun other => ?_⟩
  · have split : keysOf (entries ++ [(key, value)]) = keysOf entries ++ [key] := List.map_append
    rw [split, List.eraseDups_append, ← h.keys]
    by_cases old : key ∈ keysOf entries
    · have old' : key ∈ keysOf r.properties := by rwa [h.keys, List.mem_eraseDups]
      rw [keysOf_assign_of_mem old', List.removeAll]
      simp [old]
    · have new : key ∉ keysOf r.properties := by rwa [h.keys, List.mem_eraseDups]
      rw [keysOf_assign_of_not_mem new, List.removeAll]
      simp [old, List.eraseDups_cons]
  · rw [lookup_assign, List.reverse_append, List.reverse_singleton, List.singleton_append,
      List.lookup_cons, ← h.values other]
    by_cases same : other = key
    · rw [if_pos same, beq_iff_eq.2 same]
      exact congrArg some (valueOf_singleton isValue)
    · rw [if_neg same, beq_eq_false_iff_ne.2 same]

/-- The line of an entry adds the entry. -/
theorem Holds.entry (h : r.Holds entries) {l : String} {before after gap : List Char}
    {delimiter : Char} (isKey : IsKey key) (isValue : IsValue value)
    (delimits : isDelimiter delimiter = true) (white : IsWhite before) (white' : IsWhite after)
    (white'' : IsWhite gap)
    (writes : l.toList = key.toList ++ (before ++ delimiter :: (after ++ (value.toList ++ gap))))
    (number : Nat) : (r.line number l).Holds (entries ++ [(key, value)]) := by
  obtain ⟨c, rest, hkey⟩ := List.exists_cons_of_ne_nil fun nothing =>
    isKey.ne_empty (String.toList_eq_nil_iff.1 nothing)
  have solid : isBlank c = false := isKey.starts c (by rw [hkey]; rfl)
  have unmarked := isKey.unmarked c (by rw [hkey]; rfl)
  simp only [List.mem_cons, List.not_mem_nil, or_false, not_or] at unmarked
  have noDelimiter : ∀ c ∈ key.toList ++ before, isDelimiter c = false :=
    List.forall_mem_append.2 ⟨isKey.noDelimiter, fun c mem => isDelimiter_of_isBlank (white c mem)⟩
  have named : String.ofList (trimEnd (key.toList ++ before)) = key := by
    rw [trimEnd_append white, trimEnd_of_ends isKey.ends, String.ofList_toList]
  have trimmed : trimChars l.toList =
      (key.toList ++ before) ++ delimiter :: trimEnd (after ++ (value.toList ++ gap)) := by
    rw [writes, trimChars, trimStart_of_starts (by rw [hkey]; simpa using solid),
      ← List.append_assoc,
      trimEnd_append_cons (isBlank_of_isDelimiter delimits)]
  rw [line_of_unindented h.indent (writes.trans (by rw [hkey]; rfl)) solid
      (by simp [unmarked.1, unmarked.2.1]), trimmed,
    start_of_delimiter (by simpa [hkey] using unmarked.2.2) noDelimiter delimits named
      isKey.ne_empty,
    isValue.trimChars white' white'', String.ofList_toList, update_of_properties h.current]
  exact h.assign isValue

end Reader

/-! ## The lines of a file -/

/-- A line as it is read: with white space behind it, such as its line feed. -/
def Ends (part : List Char) (l : String) : Prop := ∃ gap, IsWhite gap ∧ l.toList = part ++ gap

/-- The lines of a file are what stands between its line feeds, but for the last one if there is
nothing on it. -/
theorem exists_ends_linesOf (s : String) : ∃ parts, List.Forall₂ Ends parts (linesOf s) ∧
    (s.toList.splitOn '\n' = parts ∨ s.toList.splitOn '\n' = parts ++ [[]]) := by
  obtain split | ⟨front, last, split⟩ := List.eq_nil_or_concat (s.toList.splitOn '\n')
  · exact absurd split (List.splitOn_ne_nil _ _)
  have ended : List.Forall₂ Ends front (front.map fun part => String.ofList (part ++ ['\n'])) :=
    List.forall₂_map_right_iff.2 (List.forall₂_same.2 fun part _ =>
      ⟨['\n'], isWhite_lineFeed, String.toList_ofList⟩)
  unfold linesOf
  rw [splitOn_eq, split]
  rw [List.concat_eq_append]
  dsimp only
  rw [List.dropLast_concat, List.getLast?_concat]
  cases last with
  | nil => exact ⟨front, ended, .inr rfl⟩
  | cons c rest =>
    have whole : Ends (c :: rest) (String.ofList (c :: rest)) :=
      ⟨[], nofun, by rw [String.toList_ofList, List.append_nil]⟩
    exact ⟨front ++ [c :: rest], List.rel_append ended (.cons whole .nil), .inl rfl⟩

/-- A line at the end on which there is nothing can be left out. -/
theorem IsWritten.of_concat_nil {entries : List (String × String)} {parts : List (List Char)}
    (h : IsWritten entries (parts ++ [[]])) : IsWritten entries parts := by
  generalize all : parts ++ [[]] = lines at h
  induction h generalizing parts with
  | nil => exact absurd all (List.append_ne_nil_of_right_ne_nil _ (List.cons_ne_nil _ _))
  | blank white rest ih =>
    cases parts with
    | nil =>
      cases all
      exact rest
    | cons part parts =>
      cases all
      exact .blank white (ih rfl)
  | comment white marks rest ih =>
    cases parts with
    | nil => simp at all
    | cons part parts =>
      cases all
      exact .comment white marks (ih rfl)
  | entry isKey isValue delimits white white' white'' rest ih =>
    cases parts with
    | nil => simp at all
    | cons part parts =>
      cases all
      exact .entry isKey isValue delimits white white' white'' (ih rfl)

/-- The entries of the lines are read one after the other. -/
theorem Reader.Holds.lines {r : Reader} {done entries : List (String × String)}
    {parts : List (List Char)} {ls : List String} (h : r.Holds done)
    (writes : IsWritten entries parts) (ends : List.Forall₂ Ends parts ls) (number : Nat) :
    (r.lines number ls).Holds (done ++ entries) := by
  induction writes generalizing r done ls number with
  | nil =>
    cases ends
    rwa [List.append_nil]
  | blank white rest ih =>
    obtain _ | ⟨⟨gap, white', reads⟩, ends⟩ := ends
    exact ih (h.blank (reads ▸ white.append white') number) ends (number + 1)
  | comment white marks rest ih =>
    obtain _ | ⟨⟨gap, white', reads⟩, ends⟩ := ends
    rw [List.append_assoc, List.cons_append] at reads
    exact ih (h.comment white marks reads number) ends (number + 1)
  | entry isKey isValue delimits white white' white'' rest ih =>
    obtain _ | ⟨⟨gap', white₃, reads⟩, ends⟩ := ends
    simp only [List.append_assoc, List.cons_append] at reads
    have step := h.entry isKey isValue delimits white white' (white''.append white₃) reads number
    have holds := ih step ends (number + 1)
    rwa [List.append_assoc] at holds

/-- What is read of a file are the entries that it writes: the keys in the order in which they first
come up, each with the last value that is given for it. -/
theorem parse_of_isWritten {entries : List (String × String)} {s : String}
    (writes : IsWritten entries (s.toList.splitOn '\n')) :
    ∃ result, parse s = .ok result ∧ keysOf result = (keysOf entries).eraseDups ∧
      ∀ key, result.lookup key = entries.reverse.lookup key := by
  obtain ⟨parts, ends, split⟩ := exists_ends_linesOf s
  have writes' : IsWritten entries parts := by
    obtain same | ended := split
    · rwa [same] at writes
    · exact (ended ▸ writes).of_concat_nil
  have holds : (Reader.lines {} 2 (linesOf s)).Holds entries := holds_start.lines writes' ends 2
  have sound : (Reader.lines {} 2 (linesOf s)).IsSound := IsSound.lines ⟨.nil, .nil⟩ 2 (linesOf s)
  unfold parse
  dsimp only
  generalize Reader.lines {} 2 (linesOf s) = r at holds sound
  have all : r.properties.foldl (fun all entry => assign all entry.1 entry.2) [] = r.properties :=
    foldl_assign sound.properties.nodup
  refine ⟨r.properties.map fun entry => (entry.1, valueOf entry.2), ?_, ?_, fun key => ?_⟩
  · rw [holds.faults, holds.defaults]
    exact congrArg (fun found : List Entry =>
      Except.ok (found.map fun entry => (entry.1, valueOf entry.2))) all
  · rw [← holds.keys]
    unfold keysOf
    rw [List.map_map]
    rfl
  · rw [← holds.values key]
    exact lookup_map (fun _ lines => valueOf lines) r.properties key

/-- Keys that differ in their case are two, a key that is written twice is one, and a value may hold
delimiters, brackets and comment marks. -/
theorem parse_of_isWritten_repeated :
    let s := "# main\n\n  ; indented\nUrl = db:a=b#c\n\t\nurl:[x]\nno value =\n#\nUrl : last"
    let entries := [("Url", "db:a=b#c"), ("url", "[x]"), ("no value", ""), ("Url", "last")]
    IsWritten entries (s.toList.splitOn '\n') ∧ ∃ result, parse s = .ok result ∧
      keysOf result = ["Url", "url", "no value"] ∧ result.lookup "Url" = some "last" ∧
      result.lookup "url" = some "[x]" ∧ result.lookup "no value" = some "" := by
  intro s entries
  have written : IsWritten entries (s.toList.splitOn '\n') := by
    have lines : s.toList.splitOn '\n' =
        [[] ++ '#' :: " main".toList, [], [' ', ' '] ++ ';' :: " indented".toList,
          "Url".toList ++ ([' '] ++ '=' :: ([' '] ++ ("db:a=b#c".toList ++ []))), ['\t'],
          "url".toList ++ ([] ++ ':' :: ([] ++ ("[x]".toList ++ []))),
          "no value".toList ++ ([' '] ++ '=' :: ([] ++ ("".toList ++ []))), [] ++ '#' :: [],
          "Url".toList ++ ([' '] ++ ':' :: ([' '] ++ ("last".toList ++ [])))] := by decide +kernel
    have isKey : IsKey "Url" ∧ IsKey "url" ∧ IsKey "no value" := by decide +kernel
    have isValue : IsValue "db:a=b#c" ∧ IsValue "[x]" ∧ IsValue "" ∧ IsValue "last" := by
      decide +kernel
    have none : IsWhite [] := nofun
    have space : IsWhite [' '] := by decide
    rw [lines]
    exact .comment none (.inl rfl) <| .blank none <| .comment (space.append space) (.inr rfl) <|
      .entry isKey.1 isValue.1 rfl space space none <| .blank (by decide) <|
      .entry isKey.2.1 isValue.2.1 rfl none none none <|
      .entry isKey.2.2 isValue.2.2.1 rfl space none none <| .comment none (.inl rfl) <|
      .entry isKey.1 isValue.2.2.2 rfl space space none .nil
  obtain ⟨result, read, keys, values⟩ := parse_of_isWritten written
  exact ⟨written, result, read, keys.trans (by decide +kernel),
    (values _).trans (by decide +kernel),
    (values _).trans (by decide +kernel), (values _).trans (by decide +kernel)⟩

end Migration.Properties
