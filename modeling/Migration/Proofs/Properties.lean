import Mathlib.Data.List.Nodup
import Migration.Properties

/-!
# The keys of a properties file

Every key of a properties file stands for one entry: it is not empty, and a key that is written
again keeps its place and takes the later value. A line without a key is a fault, and files with
faults have no entries at all.

* `Properties.Reader.IsSound` — what holds of the entries at every line
* `Properties.keys_of_parse` — the keys of a file are distinct and none is empty
-/

namespace Migration.Properties

/-- The keys of entries, in order. -/
def keysOf {α : Type} (entries : List (String × α)) : List String := entries.map (·.1)

namespace Reader

variable {entries : List Entry} {key : String} {values : List String}

theorem keysOf_assign_of_mem (old : key ∈ keysOf entries) (values : List String) :
    keysOf (assign entries key values) = keysOf entries := by
  have there : entries.any (·.1 == key) = true := by
    obtain ⟨entry, mem, rfl⟩ := List.mem_map.1 old
    exact List.any_eq_true.2 ⟨entry, mem, beq_self_eq_true _⟩
  unfold assign keysOf
  rw [if_pos there, List.map_map]
  refine List.map_congr_left fun entry _ => ?_
  show (if entry.1 == key then (entry.1, values) else (entry.1, entry.2)).1 = entry.1
  split <;> rfl

theorem keysOf_assign_of_not_mem (new : key ∉ keysOf entries) (values : List String) :
    keysOf (assign entries key values) = keysOf entries ++ [key] := by
  have absent : ¬entries.any (·.1 == key) = true := by
    intro there
    obtain ⟨entry, mem, same⟩ := List.any_eq_true.1 there
    exact new (List.mem_map.2 ⟨entry, mem, beq_iff_eq.1 same⟩)
  unfold assign keysOf
  rw [if_neg absent, List.map_append]
  rfl

theorem nodup_assign (nodup : (keysOf entries).Nodup) (key : String) (values : List String) :
    (keysOf (assign entries key values)).Nodup := by
  by_cases old : key ∈ keysOf entries
  · rw [keysOf_assign_of_mem old]
    exact nodup
  · rw [keysOf_assign_of_not_mem old]
    refine List.nodup_append.2 ⟨nodup, List.nodup_singleton key, ?_⟩
    rintro other mem _ mem' rfl
    exact old (List.mem_singleton.1 mem' ▸ mem)

theorem mem_keysOf_assign {other : String} :
    other ∈ keysOf (assign entries key values) ↔ other ∈ keysOf entries ∨ other = key := by
  by_cases old : key ∈ keysOf entries
  · rw [keysOf_assign_of_mem old]
    exact ⟨.inl, fun h => h.elim id fun same => same ▸ old⟩
  · rw [keysOf_assign_of_not_mem old, List.mem_append, List.mem_singleton]

theorem keysOf_extend (entries : List Entry) (key line : String) :
    keysOf (extend entries key line) = keysOf entries := by
  unfold extend keysOf
  rw [List.map_map]
  refine List.map_congr_left fun entry _ => ?_
  show (if entry.1 == key then (entry.1, line :: entry.2) else (entry.1, entry.2)).1 = entry.1
  split <;> rfl

/-- The keys of a section are distinct, and none is empty. -/
structure HasKeys (entries : List Entry) (clean : Prop) : Prop where
  nodup : (keysOf entries).Nodup
  nonempty : clean → "" ∉ keysOf entries

theorem HasKeys.nil {clean : Prop} : HasKeys [] clean := ⟨List.nodup_nil, fun _ => List.not_mem_nil⟩

/-- A section whose keys are those of another one. -/
theorem HasKeys.of_keysOf_eq {clean : Prop} {entries' : List Entry}
    (same : keysOf entries' = keysOf entries) (h : HasKeys entries clean) :
    HasKeys entries' clean := by
  obtain ⟨nodup, nonempty⟩ := h
  rw [← same] at nodup nonempty
  exact ⟨nodup, nonempty⟩

theorem HasKeys.assign {clean clean' : Prop} (h : HasKeys entries clean) (stays : clean' → clean)
    (named : clean' → key ≠ "") (values : List String) :
    HasKeys (Reader.assign entries key values) clean' where
  nodup := nodup_assign h.nodup key values
  nonempty := fun isClean mem => (mem_keysOf_assign.1 mem).elim (h.nonempty (stays isClean))
    fun same => named isClean same.symm

/-- The entries of a section over those of another one. -/
theorem HasKeys.foldl {later : List Entry} (h : HasKeys entries True) (named : "" ∉ keysOf later) :
    HasKeys (later.foldl (fun all entry => Reader.assign all entry.1 entry.2) entries) True := by
  induction later generalizing entries with
  | nil => exact h
  | cons entry rest ih =>
    refine ih (h.assign id (fun _ same => named ?_) _) fun mem => named (List.mem_cons_of_mem _ mem)
    exact List.mem_cons.2 (.inl same.symm)

/-- What has been read so far has distinct keys, and as long as there are no faults, none is
empty. -/
structure IsSound (r : Reader) : Prop where
  defaults : HasKeys r.defaults (r.faults = [])
  properties : HasKeys r.properties (r.faults = [])

variable {r : Reader}

theorem IsSound.update (h : r.IsSound) {f : List Entry → List Entry}
    (keeps : ∀ entries, HasKeys entries (r.faults = []) → HasKeys (f entries) (r.faults = [])) :
    (r.update f).IsSound := by
  unfold Reader.update
  cases r.current with
  | properties => exact ⟨h.defaults, keeps _ h.properties⟩
  | defaults => exact ⟨keeps _ h.defaults, h.properties⟩
  | other => exact h

theorem IsSound.continued (h : r.IsSound) (line : String) : (r.continued line).IsSound := by
  unfold Reader.continued
  cases r.key with
  | none => exact h
  | some key => exact h.update fun entries has => has.of_keysOf_eq (keysOf_extend entries key line)

theorem IsSound.fault (h : r.IsSound) (number : Nat) (line : String) :
    (r.fault number line).IsSound where
  defaults := ⟨h.defaults.nodup, nofun⟩
  properties := ⟨h.properties.nodup, nofun⟩

theorem IsSound.start (h : r.IsSound) (number : Nat) (line : String) (cs : List Char) :
    (r.start number line cs).IsSound := by
  unfold Reader.start
  cases header? cs with
  | some name => exact ⟨h.defaults, h.properties⟩
  | none =>
    dsimp only
    split
    · exact h.fault number line
    · next c value _ =>
      generalize String.ofList (Text.trimEnd (cs.takeWhile (!isDelimiter ·))) = key
      by_cases empty : key.isEmpty = true
      · -- the empty key is kept, but the file has a fault from here on
        rw [if_pos empty]
        have faulty := h.fault number line
        have fails : (r.fault number line).faults ≠ [] := List.cons_ne_nil _ _
        have updated := faulty.update (f := (assign · key [String.ofList (Text.trimChars value)]))
          fun entries has => has.assign (absurd · fails) (absurd · fails) _
        exact ⟨updated.defaults, updated.properties⟩
      · rw [if_neg empty]
        have named : key ≠ "" := by
          rintro rfl
          exact empty rfl
        have updated := h.update (f := (assign · key [String.ofList (Text.trimChars value)]))
          fun entries has => has.assign id (fun _ => named) _
        exact ⟨updated.defaults, updated.properties⟩

theorem IsSound.line (h : r.IsSound) (number : Nat) (line : String) :
    (r.line number line).IsSound := by
  unfold Reader.line
  dsimp only
  split
  · exact h.continued ""
  · split
    · exact h
    · split
      · exact h.continued _
      · have moved : IsSound { r with indent := (line.toList.takeWhile Text.isBlank).length } :=
          ⟨h.defaults, h.properties⟩
        exact moved.start number line _

theorem IsSound.lines (h : r.IsSound) (number : Nat) (ls : List String) :
    (r.lines number ls).IsSound := by
  induction ls generalizing r number with
  | nil => exact h
  | cons l rest ih => exact ih (h.line number l) (number + 1)

end Reader

open Reader

/-- The entries of a file are told apart by their keys, and every entry has one. -/
theorem keys_of_parse {s : String} {entries : List (String × String)} (h : parse s = .ok entries) :
    (keysOf entries).Nodup ∧ "" ∉ keysOf entries := by
  unfold parse at h
  dsimp only at h
  generalize read : Reader.lines {} 2 (linesOf s) = r at h
  have sound : r.IsSound := read ▸ IsSound.lines ⟨.nil, .nil⟩ 2 (linesOf s)
  split at h
  case isFalse => cases h
  case isTrue clean =>
    have clean : r.faults = [] := List.isEmpty_iff.1 clean
    have all : HasKeys (r.properties.foldl (fun all entry => assign all entry.1 entry.2) r.defaults)
        True :=
      HasKeys.foldl ⟨sound.defaults.nodup, fun _ => sound.defaults.nonempty clean⟩
        (sound.properties.nonempty clean)
    have keys : keysOf entries =
        keysOf (r.properties.foldl (fun all entry => assign all entry.1 entry.2) r.defaults) := by
      cases h
      unfold keysOf
      rw [List.map_map]
      rfl
    rw [keys]
    exact ⟨all.nodup, all.nonempty trivial⟩

end Migration.Properties
