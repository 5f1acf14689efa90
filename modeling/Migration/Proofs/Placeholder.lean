import Migration.Proofs.Path
import Migration.Proofs.Step

/-!
# Values without placeholders

A text in which no placeholder starts expands to itself, whatever the parameters are. A path of this
kind is taken as it is if it is written the way paths are.

* `Value.IsPlain` — values without placeholders
* `SessionM.expand_of_isPlain` — what they expand to
* `Path.IsClean` — paths that stand for themselves
* `SessionM.readInclude_file` — an include that says nothing but such a path
-/

namespace Migration

/-- No placeholder starts in a text. -/
def Text.IsPlain (s : String) : Prop := ¬['$', '{'] <:+: s.toList

instance (s : String) : Decidable (Text.IsPlain s) :=
  inferInstanceAs (Decidable (¬_))

/-- A value in whose text, if it has any, no placeholder starts. -/
def Value.IsPlain (v : Value) : Prop := ∀ s, v.asText? = some s → Text.IsPlain s

/-- A value as it is after expansion, if there is nothing to expand in it: what counts as text is
text. -/
def Value.expanded (v : Value) : Value :=
  match v.asText? with
  | some s => .text s
  | none => v

theorem Segment.ofChars_of_isPlain {cs : List Char} (h : ¬['$', '{'] <:+: cs) :
    ofChars cs = cs.map literal := by
  fun_induction ofChars cs with
  | case1 => rfl
  | case2 rest | case3 rest | case4 rest => exact absurd ⟨[], rest, rfl⟩ h
  | case5 c rest notStart ih =>
    rw [List.map_cons, ih fun inside => h (List.infix_cons inside)]

/-- Characters that stand for themselves expand to themselves. -/
theorem Table.mapM_literal (t : Table) (document : Option DocumentId) (cs : List Char) :
    (cs.map Segment.literal).mapM (t.expandSegment document) = .ok (cs.map fun c => [c]) := by
  induction cs with
  | nil => rfl
  | cons c rest ih =>
    rw [List.map_cons, List.mapM_cons, ih]
    rfl

/-- A text that is nothing but its characters expands to itself. -/
theorem Table.expand_of_literals {s : String} (h : Segment.ofChars s.toList = s.toList.map .literal)
    (t : Table) (document : Option DocumentId) : t.expand s document = .ok s := by
  unfold expand
  rw [h, t.mapM_literal]
  show Except.ok (String.ofList (s.toList.map fun c => [c]).flatten) = .ok s
  rw [← List.flatMap_def, List.flatMap_singleton', String.ofList_toList]

theorem Table.expand_of_isPlain {s : String} (h : Text.IsPlain s) (t : Table)
    (document : Option DocumentId) : t.expand s document = .ok s :=
  t.expand_of_literals (Segment.ofChars_of_isPlain h) document

/-- A value without placeholders expands to itself, as text if it counts as text. -/
theorem Table.expandValue_of_isPlain {v : Value} (h : v.IsPlain) (t : Table)
    (document : Option DocumentId) : t.expandValue v document = .ok v.expanded := by
  unfold expandValue Value.expanded
  cases text : v.asText? with
  | none => rfl
  | some s =>
    show Value.text <$> t.expand s document = .ok (.text s)
    rw [t.expand_of_isPlain (h s text)]
    rfl

/-- Elements expand values as the table does. -/
theorem SessionM.expand_of_ok {v w : Value} {document : DocumentId} {s : Session}
    (h : s.table.expandValue v (some document) = .ok w) : expand document v s = (.ok w, s) := by
  show ofFilter (s.table.expandValue v (some document)) s = _
  rw [h]
  rfl

theorem SessionM.expand_of_error {v : Value} {document : DocumentId} {s : Session}
    {m : Filter.Malformed} (h : s.table.expandValue v (some document) = .error m) :
    expand document v s = (.error (.mishap (.malformedFilter m)), s) := by
  show ofFilter (s.table.expandValue v (some document)) s = _
  rw [h]
  rfl

theorem SessionM.expand_of_isPlain {v : Value} (h : v.IsPlain) (document : DocumentId)
    (s : Session) :
    expand document v s = (.ok v.expanded, s) :=
  expand_of_ok (s.table.expandValue_of_isPlain h _)

theorem Value.isPlain_text {s : String} : (Value.text s).IsPlain ↔ Text.IsPlain s := by
  constructor
  · exact fun h => h s rfl
  · intro h s' same
    cases same
    exact h

theorem Text.isPlain_of_noDollar {s : String} (h : '$' ∉ s.toList) : Text.IsPlain s := by
  intro inside
  exact h (inside.subset List.mem_cons_self)

/-! ## Paths that stand for themselves -/

namespace Path

/-- A path that expansion leaves as it is: without dollar signs and backslashes, and without white
space around it. -/
structure IsClean (path : String) : Prop where
  noDollar : '$' ∉ path.toList
  noBackslash : '\\' ∉ path.toList
  starts : ∀ c ∈ path.toList.head?, Text.isBlank c = false
  ends : ∀ c ∈ path.toList.getLast?, Text.isBlank c = false

/-- A first or a last character, if there is one, can be tested for white space. -/
theorem noBlank_iff {o : Option Char} :
    o.all (fun c => !Text.isBlank c) = true ↔ ∀ c ∈ o, Text.isBlank c = false := by
  cases o <;> simp

instance (path : String) : Decidable (IsClean path) :=
  decidable_of_iff
    ('$' ∉ path.toList ∧ '\\' ∉ path.toList ∧ path.toList.head?.all (fun c => !Text.isBlank c) = true ∧
      path.toList.getLast?.all (fun c => !Text.isBlank c) = true)
    ⟨fun ⟨noDollar, noBackslash, starts, ends⟩ =>
        ⟨noDollar, noBackslash, noBlank_iff.1 starts, noBlank_iff.1 ends⟩,
      fun h => ⟨h.noDollar, h.noBackslash, noBlank_iff.2 h.starts, noBlank_iff.2 h.ends⟩⟩

end Path

namespace SessionM

variable {path : String}

theorem checkedPath_of_isClean (clean : Path.IsClean path) (ne : path ≠ "")
    (name element : String) :
    checkedPath name element path = .ok path := by
  have noDollar : ¬path.toList.contains '$' = true := by
    rw [List.contains_iff_mem]
    exact clean.noDollar
  have some_ : ¬path.toList.isEmpty = true := by
    rw [List.isEmpty_iff]
    exact fun nothing => ne (String.toList_eq_nil_iff.1 nothing)
  unfold checkedPath
  rw [if_neg noDollar, Path.slashed_of_noBackslash clean.noBackslash,
    Text.trimChars_of_ends clean.starts clean.ends]
  dsimp only
  rw [if_neg some_, String.ofList_toList]
  rfl

/-- A clean path is taken as it is. -/
theorem expandPath_of_isClean {d : DocumentId} (clean : Path.IsClean path) (ne : path ≠ "")
    (name element : String) (s : Session) :
    expandPath d (.text path) name element s = (.ok path, s) := by
  have plain : (Value.text path).IsPlain :=
    Value.isPlain_text.2 (Text.isPlain_of_noDollar clean.noDollar)
  show (expand d (.text path) >>= fun v => ofCheck (checkedPath name element v.print)) s = _
  rw [Step.run_bind_of_ok (expand_of_isPlain plain d s)]
  show ofCheck (checkedPath name element path) s = _
  rw [checkedPath_of_isClean clean ne]
  rfl

/-- An include that says nothing but a clean path reads that path as it is. -/
theorem readInclude_file (clean : Path.IsClean path) (ne : path ≠ "") (d : DocumentId)
    (s : Session) :
    readInclude d [("file", .text path)] s =
      (.ok (none, path, { inheritance := {}, logicalPath := .null }), s) := by
  have valid : ofCheck (Attributes.validate [("file", .text path)] documentOwner "include"
      includeAttributes) s = (.ok (), s) := rfl
  have named : expandPath d (Attributes.get [("file", .text path)] "file") "file" "include" s =
      (.ok path, s) := expandPath_of_isClean clean ne _ _ s
  unfold readInclude
  rw [Step.run_bind_of_ok valid, Step.run_bind_of_ok named]
  rfl

end SessionM

end Migration
