import Migration.Proofs.Filter.Rejection
import Migration.Proofs.Parameter.Lookup
import Migration.Proofs.Step

/-!
# Parameters that do not apply

A parameter that does not apply inside a document might as well not be there: with any of these left
out, every look-up, every text and every bare name in the document comes to the same, down to the
error if a filter is malformed. With all of them left out, the last write of a name decides.

* `Table.Ignores` — the parameters that count as absent inside a document
* `Table.Thinned` — writes of which some that count as absent are left out
* `Table.same_of_thinned` — what a document can see is the same without them
-/

namespace Migration

namespace Table

/-- A parameter that counts as absent inside a document: it belongs to another document, or its
filters, which are evaluated one after the other, come to no match without an error. One with a
malformed filter before the one that has no match does not count as absent, since a look-up meets
the error. -/
inductive Ignores (t : Table) (document : Option DocumentId) (p : Parameter) : Prop
  | foreign (isLocal : p.isGlobal = false) (elsewhere : p.owner ≠ document)
  | contexts {filter} (given : p.contexts = some filter)
      (excludes : filter.admits t.contexts = .ok false)
  | labels (admits : ∀ filter, p.contexts = some filter → filter.admits t.contexts = .ok true)
      (excludes : t.labels.selects p.labels = .ok false)
  | databases (admits : ∀ filter, p.contexts = some filter → filter.admits t.contexts = .ok true)
      (selects : t.labels.selects p.labels = .ok true)
      (excludes : DatabaseFilter.admits (p.databases.getD []) t.database = false)

/-- Writes, the last one first, of which some that count as absent inside a document are left
out. -/
inductive Thinned (t : Table) (document : Option DocumentId) : List Parameter → List Parameter →
    Prop
  | nil : Thinned t document [] []
  | keep (p) {writes kept} (more : Thinned t document writes kept) :
      Thinned t document (p :: writes) (p :: kept)
  | drop (p) {writes kept} (ignored : t.Ignores document p)
      (more : Thinned t document writes kept) :
      Thinned t document (p :: writes) kept

variable {t : Table} {document : Option DocumentId} {p : Parameter} {name : String}
  {writes kept : List Parameter}

/-- What the context filter of a parameter makes of a run. -/
def admits (t : Table) (p : Parameter) : Except Filter.Malformed Bool :=
  match p.contexts with
  | none => .ok true
  | some filter => filter.admits t.contexts

theorem admits_eq_true_iff : t.admits p = .ok true ↔
    ∀ filter, p.contexts = some filter → filter.admits t.contexts = .ok true := by
  unfold admits
  cases p.contexts with
  | none => simp
  | some filter => simp

theorem admits_eq_false_iff : t.admits p = .ok false ↔
    ∃ filter, p.contexts = some filter ∧ filter.admits t.contexts = .ok false := by
  unfold admits
  cases p.contexts with
  | none => simp
  | some filter => simp

/-- The filters of a parameter are evaluated one after the other, up to one that has no match. -/
theorem applies_eq (t : Table) (p : Parameter) (document : Option DocumentId) :
    t.applies p document =
      if !p.isGlobal && p.owner != document then .ok false else
        match t.admits p with
        | .error m => .error m
        | .ok false => .ok false
        | .ok true =>
          match t.labels.selects p.labels with
          | .error m => .error m
          | .ok false => .ok false
          | .ok true => .ok (DatabaseFilter.admits (p.databases.getD []) t.database) := by
  unfold applies admits
  split
  · rfl
  · cases p.contexts with
    | none =>
      rcases t.labels.selects p.labels with m | ⟨_ | _⟩ <;> rfl
    | some filter =>
      dsimp only
      rcases filter.admits t.contexts with m | ⟨_ | _⟩
      · rfl
      · rfl
      · rcases t.labels.selects p.labels with m | ⟨_ | _⟩ <;> rfl

theorem ignores_iff : t.Ignores document p ↔ t.applies p document = .ok false := by
  rw [applies_eq]
  by_cases away : (!p.isGlobal && p.owner != document) = true
  · rw [if_pos away]
    simp only [Bool.and_eq_true, Bool.not_eq_true', bne_iff_ne] at away
    exact ⟨fun _ => rfl, fun _ => .foreign away.1 away.2⟩
  · rw [if_neg away]
    constructor
    · intro h
      cases h with
      | foreign isLocal elsewhere => exact absurd (by simp [isLocal, elsewhere]) away
      | contexts given excludes =>
        rw [admits_eq_false_iff.2 ⟨_, given, excludes⟩]
      | labels admits excludes =>
        rw [admits_eq_true_iff.2 admits, excludes]
      | databases admits selects excludes =>
        rw [admits_eq_true_iff.2 admits, selects, excludes]
    · intro h
      rcases admitted : t.admits p with m | ⟨_ | _⟩
      · rw [admitted] at h
        cases h
      · obtain ⟨filter, given, excludes⟩ := admits_eq_false_iff.1 admitted
        exact .contexts given excludes
      · rcases selected : t.labels.selects p.labels with m | ⟨_ | _⟩
        · rw [admitted, selected] at h
          cases h
        · exact .labels (admits_eq_true_iff.1 admitted) selected
        · rw [admitted, selected] at h
          exact .databases (admits_eq_true_iff.1 admitted) selected (Except.ok.inj h)

theorem passes_of_ignores (h : t.Ignores document p) : t.Passes name document p :=
  fun _ => ignores_iff.1 h

/-! ## Leaving writes out -/

/-- Which parameters apply does not depend on what else has been written. -/
theorem search_with (t : Table) (other : List Parameter) (name : String)
    (document : Option DocumentId) (writes : List Parameter) :
    { t with parameters := other }.search name document writes = t.search name document writes := by
  induction writes with
  | nil => rfl
  | cons p rest ih =>
    rw [search, search, ih]
    rfl

theorem search_of_thinned (h : t.Thinned document writes kept) (name : String) :
    t.search name document kept = t.search name document writes := by
  induction h with
  | nil => rfl
  | keep p more ih => rw [search, search, ih]
  | drop p ignored more ih => rw [search_cons_of_passes (passes_of_ignores ignored), ih]

/-- Among writes of which none counts as absent, the last one of a name decides. -/
theorem search_of_not_ignores (h : ∀ p ∈ writes, ¬t.Ignores document p) (name : String) :
    t.search name document writes =
      match writes.find? (·.key == name) with
      | none => .ok none
      | some p => (fun _ => some p) <$> t.applies p document := by
  induction writes with
  | nil => rfl
  | cons p rest ih =>
    by_cases named : p.key = name
    · have first : (p :: rest).find? (·.key == name) = some p :=
        List.find?_cons_of_pos (beq_iff_eq.2 named)
      rw [search_cons_of_key named, first]
      dsimp only
      rcases applies : t.applies p document with m | ⟨_ | _⟩
      · rfl
      · exact absurd (ignores_iff.2 applies) (h p List.mem_cons_self)
      · rfl
    · have other : (p :: rest).find? (·.key == name) = rest.find? (·.key == name) :=
        List.find?_cons_of_neg (by simpa using named)
      rw [search_cons_of_passes fun same => absurd same named, other]
      exact ih fun q mem => h q (List.mem_cons_of_mem _ mem)

/-- Whether a name has a value inside a document. -/
def has (t : Table) (name : String) (document : Option DocumentId) : Except Filter.Malformed Bool :=
  Option.isSome <$> t.find? name document

/-- The value of a name inside a document, if it has one. -/
def get (t : Table) (name : String) (document : Option DocumentId) :
    Except Filter.Malformed Value :=
  (fun found => (found.map (·.value)).getD .null) <$> t.find? name document

theorem expand_congr {t t' : Table} (same : ∀ name, t'.find? name document = t.find? name document)
    (s : String) : t'.expand s document = t.expand s document := by
  have segments : t'.expandSegment document = t.expandSegment document := by
    funext segment
    cases segment with
    | literal c => rfl
    | placeholder inside => rw [expandSegment, expandSegment, same]
  rw [expand, expand, segments]

theorem expandValue_congr {t t' : Table}
    (same : ∀ name, t'.find? name document = t.find? name document)
    (v : Value) : t'.expandValue v document = t.expandValue v document := by
  unfold expandValue
  cases v.asText? with
  | none => rfl
  | some s => exact congrArg (Value.text <$> ·) (expand_congr same s)

end Table

/-- A script that reads another table of parameters. -/
def Running.withTable (r : Running) (t : Table) : Running :=
  { r with session := { r.session with table := t } }

/-- What a bare name stands for depends on the parameters only through their look-ups in the
document of the script. -/
theorem ScriptM.resolve_withTable {t : Table} {r : Running}
    (same : ∀ name, t.find? name (some r.frame.document) =
      r.session.table.find? name (some r.frame.document)) (e : Engine) (name : String) :
    ∃ result, resolve e name r = (result, r) ∧
      resolve e name (r.withTable t) = (result, r.withTable t) := by
  refine ⟨_, resolve_eq e name r, ?_⟩
  have frame : (r.withTable t).frame = r.frame := rfl
  have table : (r.withTable t).session.table = t := rfl
  rw [resolve_eq, frame, table, same]

/-- What a document can see of the parameters is the same without writes that count as absent there;
and without all of them the last write of a name decides. -/
theorem Table.same_of_thinned {t : Table} {document : Option DocumentId} {kept : List Parameter}
    (h : t.Thinned document t.parameters kept) :
    let t' : Table := { t with parameters := kept }
    (∀ name, t'.find? name document = t.find? name document ∧
      t'.has name document = t.has name document ∧ t'.get name document = t.get name document) ∧
    (∀ s, t'.expand s document = t.expand s document) ∧
    (∀ v, t'.expandValue v document = t.expandValue v document) ∧
    (∀ (e : Engine) (name : String) (r : Running), r.session.table = t →
      some r.frame.document = document → ∃ result, ScriptM.resolve e name r = (result, r) ∧
        ScriptM.resolve e name (r.withTable t') = (result, r.withTable t')) ∧
    ((∀ p ∈ kept, ¬t.Ignores document p) → ∀ name, t.find? name document =
      match kept.find? (·.key == name) with
      | none => .ok none
      | some p => (fun _ => some p) <$> t.applies p document) := by
  intro t'
  have same (name : String) : t'.find? name document = t.find? name document :=
    (search_with t kept name document kept).trans (search_of_thinned h name)
  refine ⟨fun name => ⟨same name, ?_, ?_⟩, expand_congr same, expandValue_congr same, ?_, ?_⟩
  · rw [has, has, same]
  · rw [get, get, same]
  · rintro e name r rfl rfl
    exact ScriptM.resolve_withTable same e name
  · intro all name
    rw [← search_of_not_ignores all, search_of_thinned h]
    rfl

/-- Four later writes of a name do not apply: one to these contexts, one to these labels and one to
this database, and one belongs to another document and has a malformed filter besides. -/
theorem Table.same_of_thinned_shadowed :
    let x : Parameter := .ofText "x" "1"
    let t : Table := ⟨some "h2", ["qa"], .ofText "fast",
      [{ x with contexts := some (.ofText "dev") }, { x with labels := some (.ofText "slow") },
        { x with isGlobal := false, owner := some ⟨1⟩, contexts := some (.ofText "qa and") },
        { x with databases := some ["mysql"] }, x]⟩
    t.Thinned (some ⟨0⟩) t.parameters [x] ∧ t.expand "$\x7bx\x7d" (some ⟨0⟩) = .ok "1" ∧
      t.find? "x" (some ⟨0⟩) = (fun _ => some x) <$> t.applies x (some ⟨0⟩) := by
  intro x t
  have word {s : String} (words : List String)
      (tokens : Filter.Token.ofChars s.toList = [.word s]) (isOperand : Text.lower s ≠ "not") :
      Filter.evaluate s words = .ok (Filter.Expr.isAmong words s) :=
    Filter.evaluate_of_isTakenFrom (Filter.Expr.isTakenFrom_word tokens isOperand) words
  have dev : (ContextFilter.ofText "dev").admits ["qa"] = .ok false :=
    (word ["qa"] (by decide +kernel) (by decide +kernel)).trans (congrArg _ (by decide +kernel))
  have slow : (LabelFilter.ofText "fast").selects (some (.ofText "slow")) = .ok false :=
    (word ["slow"] (by decide +kernel) (by decide +kernel)).trans (congrArg _ (by decide +kernel))
  have thinned : t.Thinned (some ⟨0⟩) t.parameters [x] :=
    .drop _ (.contexts rfl dev) <| .drop _ (.labels nofun slow) <|
      .drop _ (.foreign rfl (by decide +kernel)) <|
      .drop _ (.databases nofun rfl (by decide +kernel)) <| .keep x .nil
  obtain ⟨-, expands, -, -, last⟩ := same_of_thinned thinned
  refine ⟨thinned, ?_, ?_⟩
  · rw [← expands]
    decide +kernel
  · have counts : t.applies x (some ⟨0⟩) ≠ .ok false := by decide +kernel
    exact last (fun p mem => by
      rw [List.mem_singleton.1 mem, ignores_iff]
      exact counts) "x"

end Migration
