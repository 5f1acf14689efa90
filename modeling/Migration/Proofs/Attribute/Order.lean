import Mathlib.Data.List.Nodup
import Migration.Proofs.Attribute.Filling
import Migration.Proofs.Call
import Migration.Proofs.Inclusion.Discovery

/-!
# The order of attributes

What an element does with its attributes depends on their names. An element looks them up, or it
fills a record with them; so if no two of them write different values into one field of that record,
it does the same with them in any order.

* `Attributes.Alike` — attributes that are given once each, in two orders
* `Element.fills` — the type of the record that an element fills
* `Scope.view` — what a script sees of a result that can be opened
* `SessionM.act_alike` — an element does the same with attributes in another order
-/

namespace Migration

namespace Attributes

/-- The same attributes, each given once, in another order. -/
structure Alike (a a' : Attributes) : Prop where
  perm : a'.Perm a
  nodup : a.keys.Nodup

/-! ## Looking attributes up -/

variable {a a' : Attributes} {name : String}

/-- An attribute that is given once has the value that it is given with. -/
theorem lookup_eq_some (nodup : a.keys.Nodup) {v : Value} :
    a.lookup name = some v ↔ (name, v) ∈ a :=
  lookup_eq_some_of_nodup nodup

namespace Alike

theorem nodup' (h : a.Alike a') : a'.keys.Nodup := (h.perm.map _).nodup_iff.2 h.nodup

theorem lookup (h : a.Alike a') (name : String) : a'.lookup name = a.lookup name :=
  Option.ext fun v => by
    rw [lookup_eq_some h.nodup', lookup_eq_some h.nodup, h.perm.mem_iff]

theorem get (h : a.Alike a') (name : String) : a'.get name = a.get name := by
  unfold Attributes.get
  rw [h.lookup]

theorem has (h : a.Alike a') (name : String) : a'.has name = a.has name := by
  unfold Attributes.has
  exact h.perm.any_eq

theorem given (h : a.Alike a') (name : String) : a'.given name = a.given name := by
  unfold Attributes.given
  rw [h.get]

theorem flag (h : a.Alike a') (name : String) (default : Bool) :
    a'.flag name default = a.flag name default := by
  unfold Attributes.flag
  rw [h.get]

theorem context (h : a.Alike a') : a'.context = a.context := by
  unfold Attributes.context
  rw [h.given, h.get, h.get]

theorem only (h : a.Alike a') (names : List String) : (a.only names).Alike (a'.only names) where
  perm := h.perm.filter _
  nodup := nodup_only h.nodup names

theorem cons (h : a.Alike a') (new : name ∉ a.keys) (v : Value) :
    Alike ((name, v) :: a) ((name, v) :: a') where
  perm := h.perm.cons _
  nodup := List.nodup_cons.2 ⟨new, h.nodup⟩

theorem isEmpty (h : a.Alike a') : a'.isEmpty = a.isEmpty := h.perm.isEmpty_eq

theorem argument (h : a.Alike a') (signature : Signature) (positional : List Value) :
    signature.argument positional a' = signature.argument positional a := by
  unfold Signature.argument
  cases signature <;> cases positional <;> first | rfl | exact h.get _

/-- Attributes that an element has are so in any order. -/
theorem validate (h : a.Alike a') {owner element : String} {allowed : List String}
    (valid : a.validate owner element allowed = .ok ()) :
    a'.validate owner element allowed = .ok () := by
  obtain ⟨absent, supported⟩ := validate_eq_ok.1 valid
  refine validate_eq_ok.2 ⟨fun entry mem same => (h.has _).trans (absent entry mem same), ?_⟩
  unfold unsupported? at supported ⊢
  rw [Option.map_eq_none_iff, List.find?_eq_none] at supported ⊢
  exact fun entry mem => supported entry (h.perm.mem_iff.1 mem)

end Alike
end Attributes

open Attributes

/-! ## Reading attributes -/

namespace SessionM

variable {e : Engine} {compiler : Compiler} {d : DocumentId} {a a' : Attributes} {s s₁ : Session}
  {α : Type}

/-- If one step does what another one does whenever that succeeds, so it does before the same
steps. -/
theorem bind_of_ok {β : Type} {m m' : SessionM α} {k : α → SessionM β} {y : β}
    (same : ∀ x s₂, m s = (.ok x, s₂) → m' s = (.ok x, s₂)) (h : (m >>= k) s = (.ok y, s₁)) :
    (m' >>= k) s = (.ok y, s₁) := by
  obtain ⟨x, s₂, hx, h⟩ := Step.bind_eq_ok.1 h
  exact Step.bind_eq_ok.2 ⟨x, s₂, same x s₂ hx, h⟩

theorem validate_alike (alike : a.Alike a') {owner element : String} {allowed : List String}
    (h : ofCheck (a.validate owner element allowed) s = (.ok (), s₁)) :
    ofCheck (a'.validate owner element allowed) s = (.ok (), s₁) := by
  cases valid : a.validate owner element allowed with
  | error failure =>
    rw [valid] at h
    cases h
  | ok =>
    rw [alike.validate valid]
    rwa [valid] at h

/-- What follows the check of attributes is done for them in any order. -/
theorem ofCheck_validate_bind (alike : a.Alike a') {owner element : String} {allowed : List String}
    {k : Unit → SessionM α} {x : α}
    (h : (ofCheck (a.validate owner element allowed) >>= k) s = (.ok x, s₁)) :
    (ofCheck (a'.validate owner element allowed) >>= k) s = (.ok x, s₁) :=
  bind_of_ok (fun _ _ => validate_alike alike) h

theorem changeLog_alike (alike : a.Alike a') (h : changeLog d a s = (.ok (), s₁)) :
    changeLog d a' s = (.ok (), s₁) := by
  unfold changeLog setLogicalPath setContexts contextFilter setQuotingStrategy at h ⊢
  simp only [alike.get, alike.given, alike.context]
  exact ofCheck_validate_bind alike h

theorem property_alike (alike : a.Alike a') (h : property e d a s = (.ok (), s₁)) :
    property e d a' s = (.ok (), s₁) := by
  unfold property propertiesOf at h ⊢
  simp only [alike.get, alike.given, alike.flag, alike.context]
  exact ofCheck_validate_bind alike h

theorem newChangeSet_alike (alike : a.Alike a') {c : DraftChangeSet}
    (h : newChangeSet d a s = (.ok c, s₁)) : newChangeSet d a' s = (.ok c, s₁) := by
  unfold newChangeSet quotingStrategy changeSetPath contextFilter optionalParts at h ⊢
  simp only [alike.get, alike.has, alike.given, alike.flag, alike.context]
  exact ofCheck_validate_bind alike h

theorem inclusionOf_alike (alike : a.Alike a') : inclusionOf d a' = inclusionOf d a := by
  unfold inclusionOf contextFilter labels
  simp only [alike.get, alike.flag, alike.context]

theorem discover_alike (alike : a.Alike a') (element : String) :
    discover e d a' element = discover e d a element := by
  unfold discover
  simp only [alike.get, alike.flag]

theorem include_alike (alike : a.Alike a') (h : SessionM.include e compiler d a s = (.ok (), s₁)) :
    SessionM.include e compiler d a' s = (.ok (), s₁) := by
  unfold SessionM.include readInclude at h ⊢
  simp only [alike.get, alike.flag, inclusionOf_alike alike, bind_assoc] at h ⊢
  exact ofCheck_validate_bind alike h

theorem includeAll_alike (alike : a.Alike a') (h : includeAll e compiler d a s = (.ok (), s₁)) :
    includeAll e compiler d a' s = (.ok (), s₁) := by
  unfold includeAll readIncludeAll at h ⊢
  simp only [discover_alike alike, inclusionOf_alike alike, bind_assoc] at h ⊢
  exact ofCheck_validate_bind alike h

theorem removeProperty_alike (alike : a.Alike a') (h : removeProperty e d a s = (.ok (), s₁)) :
    removeProperty e d a' s = (.ok (), s₁) := by
  unfold removeProperty readRemoval at h ⊢
  simp only [alike.get, bind_assoc] at h ⊢
  exact ofCheck_validate_bind alike h

theorem rollbackByReference_alike (alike : a.Alike a') {owner : String} {c : ChangeSetId}
    (h : rollbackByReference d owner c a s = (.ok (), s₁)) :
    rollbackByReference d owner c a' s = (.ok (), s₁) := by
  unfold rollbackByReference at h ⊢
  simp only [alike.get]
  exact ofCheck_validate_bind alike h

theorem visitorFilter_alike (alike : a.Alike a') (d : DocumentId) :
    ScriptM.visitorFilter d a' = ScriptM.visitorFilter d a := by
  unfold ScriptM.visitorFilter
  simp only [alike.get, alike.given, alike.flag, alike.context]

/-! ### Files of statements -/

/-- The attributes that go to the change for a file set different fields of it. -/
theorem isConsistent_sqlStepAttributes (nodup : a.keys.Nodup) (d : DocumentId) (s : Session) :
    IsConsistent d s Catalog.sqlFile (a.only sqlStepAttributes) := by
  have injective := List.inj_on_of_nodup_map (nodup_only nodup sqlStepAttributes)
  have fields : ∀ n ∈ sqlStepAttributes, ∀ m ∈ sqlStepAttributes, n ≠ m →
      (Catalog.sqlFile.field? n).map (·.name) ≠ (Catalog.sqlFile.field? m).map (·.name) := by
    decide +kernel
  refine isConsistent_of_fields rfl (fun x hx y hy ne f field g field' same => ?_) d s
  have names : x.1 ≠ y.1 := fun same => ne (injective hx hy same)
  refine fields x.1 (mem_keys_only.1 (List.mem_map_of_mem hx)).2 y.1
    (mem_keys_only.1 (List.mem_map_of_mem hy)).2 names ?_
  rw [field, field']
  exact congrArg some same

theorem newStatements_alike (alike : a.Alike a') {id path : String} {i : ChangeSetId}
    (h : newStatements d a id path s = (.ok i, s₁)) :
    newStatements d a' id path s = (.ok i, s₁) := by
  have new : "id" ∉ (a.only sqlChangeSetAttributes).keys := fun mem =>
    absurd (mem_keys_only.1 mem).2 (by decide)
  obtain ⟨c, s₂, makes, h⟩ := Step.bind_eq_ok.1 h
  obtain ⟨r, s₃, fills, h⟩ := Step.bind_eq_ok.1 h
  refine Step.bind_eq_ok.2 ⟨c, s₂, newChangeSet_alike ((alike.only _).cons new _) makes, ?_⟩
  exact Step.bind_eq_ok.2 ⟨r, s₃, fill_perm (alike.only _).perm
    (isConsistent_sqlStepAttributes alike.nodup d s₂) fills, h⟩

theorem includeStatementFiles_alike (alike : a.Alike a') {id : String → String}
    {paths : List String} (h : includeStatementFiles d a id paths s = (.ok (), s₁)) :
    includeStatementFiles d a' id paths s = (.ok (), s₁) := by
  induction paths generalizing s with
  | nil => exact h
  | cons path rest ih =>
    obtain ⟨_, s₂, includes, h⟩ := Step.bind_eq_ok.1 h
    obtain ⟨i, s₃, makes, appends⟩ := Step.bind_eq_ok.1 includes
    exact Step.bind_eq_ok.2 ⟨(), s₂,
      Step.bind_eq_ok.2 ⟨i, s₃, newStatements_alike alike makes, appends⟩,
      ih h⟩

theorem includeAllSql_alike (alike : a.Alike a') (h : includeAllSql e d a s = (.ok (), s₁)) :
    includeAllSql e d a' s = (.ok (), s₁) := by
  obtain ⟨⟨paths, id⟩, s₂, reads, h⟩ := Step.bind_eq_ok.1 h
  have reads' : readIncludeAllSql e d a' s = (.ok (paths, id), s₂) := by
    unfold readIncludeAllSql at reads ⊢
    simp only [alike.get, alike.flag, discover_alike (alike.only _)]
    exact ofCheck_validate_bind alike reads
  exact Step.bind_eq_ok.2 ⟨(paths, id), s₂, reads', includeStatementFiles_alike alike h⟩

/-! ## Filling records -/

end SessionM

/-- The type of the record that the attributes of an element fill, if they fill one. -/
def Element.fills (s : Session) : Element → Option RecordType
  | preconditions .. => some Catalog.container
  | change _ _ type _ _ | precondition _ _ type _ | visitor _ type _ _ => some type
  | column _ _ i =>
    some (((s.store.changes.get? i).getD default).record.type.columns.getD .plain).type
  | param .. => some Catalog.column
  | constraints _ _ i => some (s.constraintsOf i).type
  | _ => none

namespace SessionM

variable {e : Engine} {compiler : Compiler} {d : DocumentId} {a a' : Attributes} {s s₁ : Session}

/-- The positional argument is set first, whatever the order of the attributes. -/
theorem withPositional_alike (alike : a.Alike a') {owner element : String} {type : RecordType}
    {positional : List Value} {b : Attributes}
    (h : withPositional owner element type positional a = .ok b) :
    ∃ first : Attributes, b = first ++ a ∧
      withPositional owner element type positional a' = .ok (first ++ a') := by
  unfold withPositional at h ⊢
  cases positional with
  | nil =>
    cases h
    exact ⟨[], rfl, rfl⟩
  | cons v more =>
    cases placed : type.positional with
    | none =>
      simp only [placed] at h
      cases h
    | some name =>
      simp only [placed] at h ⊢
      rw [alike.has]
      by_cases single : (!more.isEmpty) = true
      · rw [if_pos single] at h
        cases h
      · rw [if_neg single] at h ⊢
        by_cases twice : a.has name = true
        · rw [if_pos twice] at h
          cases h
        · rw [if_neg twice] at h ⊢
          cases h
          exact ⟨[(name, v)], rfl, rfl⟩

theorem fill_append_perm {owner : String} {target : Target} {r r' : Record} {first : Attributes}
    (perm : a'.Perm a) (consistent : IsConsistent d s r.type a)
    (h : fill d owner target r (first ++ a) s = (.ok r', s₁)) :
    fill d owner target r (first ++ a') s = (.ok r', s₁) := by
  -- a field that the positional argument sets may be set again, but after it in both orders
  induction first generalizing r with
  | nil => exact fill_perm perm consistent h
  | cons x rest ih =>
    obtain ⟨entries, writes, h⟩ := fill_cons_eq_ok.1 h
    refine fill_cons_eq_ok.2 ⟨entries, writes, ih ?_ h⟩
    rwa [Record.type_putAll]

theorem newRecord_alike (alike : a.Alike a') {owner element : String} {target : Target}
    {type : RecordType} {positional : List Value} {r : Record}
    (consistent : IsConsistent d s type a)
    (h : newRecord d owner element target type positional a s = (.ok r, s₁)) :
    newRecord d owner element target type positional a' s = (.ok r, s₁) := by
  obtain ⟨b, s₂, given, h⟩ := Step.bind_eq_ok.1 h
  cases placed : withPositional owner element type positional a with
  | error failure =>
    rw [placed] at given
    cases given
  | ok b' =>
    rw [placed] at given
    cases given
    obtain ⟨first, rfl, placed'⟩ := withPositional_alike alike placed
    refine Step.bind_eq_ok.2 ⟨first ++ a', s, ?_, fill_append_perm alike.perm consistent h⟩
    rw [placed']
    rfl

end SessionM

/-! ## Results -/

/-- What a script sees of a result that can be opened: what it is opened as, and the rest as it
is. -/
structure Scope.View where
  opens : DocumentId → SessionM Body
  required : Option String
  completion : Completion
  mark : Option Nat

/-- The view of a result that can be opened. Attributes that are only read when it is opened do not
show in it. -/
def Scope.view (x : Scope) : View where
  opens := fun d => ScriptM.openBody d x.opening
  required := x.required
  completion := x.completion
  mark := x.mark

/-- Two results that look the same to a script. -/
inductive Result.Alike : Result → Result → Prop
  | refl (x : Result) : Alike x x
  | scope {x x' : Scope} (same : x'.view = x.view) : Alike (.scope x) (.scope x')

namespace SessionM

variable {e : Engine} {compiler : Compiler} {d : DocumentId} {a a' : Attributes} {s s₁ : Session}

theorem rollback_alike (alike : a.Alike a') {owner : String} {i : ChangeSetId}
    {positional : List Value} {x : Result} (h : rollback d owner i positional a s = (.ok x, s₁)) :
    rollback d owner i positional a' s = (.ok x, s₁) := by
  unfold rollback at h ⊢
  cases positional with
  | cons sql more =>
    dsimp only at h ⊢
    rwa [alike.isEmpty]
  | nil =>
    dsimp only at h ⊢
    rw [alike.isEmpty]
    split at h
    · next empty =>
      rw [if_pos empty]
      exact h
    · next given =>
      rw [if_neg given]
      exact bind_of_ok (fun _ _ => rollbackByReference_alike alike) h

theorem preconditions_alike (alike : a.Alike a') (consistent : IsConsistent d s Catalog.container a)
    {owner : String} {i : Option ChangeSetId} {x : Result}
    (h : preconditions d owner i a s = (.ok x, s₁)) :
    preconditions d owner i a' s = (.ok x, s₁) :=
  bind_of_ok (fun _ _ => bind_of_ok fun _ _ => fill_perm alike.perm consistent) h

theorem visitor_alike (alike : a.Alike a') {type : RecordType}
    (consistent : IsConsistent d s type a) {owner : String} {i : ChangeSetId}
    {filter : VisitorFilter} (h : visitor d owner type i filter a s = (.ok (), s₁)) :
    visitor d owner type i filter a' s = (.ok (), s₁) :=
  bind_of_ok (fun _ _ => fill_perm alike.perm consistent) h

theorem param_alike (alike : a.Alike a') (consistent : IsConsistent d s Catalog.column a)
    {owner name : String} {i : ChangeId} (h : param d owner name i a s = (.ok (), s₁)) :
    param d owner name i a' s = (.ok (), s₁) :=
  bind_of_ok (fun _ _ => fill_perm alike.perm consistent) h

theorem column_alike (alike : a.Alike a') {owner name : String} {i : ChangeId}
    (consistent : ∀ t ∈ (Element.column owner name i).fills s, IsConsistent d s t a) {c : ColumnId}
    (h : column d owner name i a s = (.ok c, s₁)) : column d owner name i a' s = (.ok c, s₁) := by
  obtain ⟨c, s₂, found, h⟩ := Step.bind_eq_ok.1 h
  cases found
  refine Step.bind_eq_ok.2 ⟨_, s, rfl, bind_of_ok (fun _ _ => ?_) h⟩
  exact fill_perm alike.perm (consistent _ rfl)

/-- A filter says the same of visitors in any order of its attributes. -/
theorem modifySql_alike (alike : a.Alike a') {owner : String} {i : ChangeSetId}
    {positional : List Value} {x : Result}
    (h : act e compiler d (.modifySql owner i) positional a s = (.ok x, s₁)) :
    ∃ x', act e compiler d (.modifySql owner i) positional a' s = (.ok x', s₁) ∧
      Result.Alike x x' := by
  obtain ⟨_, s₂, checks, h⟩ := Step.bind_eq_ok.1 h
  cases h
  refine ⟨.block "modifySql" (.visitors owner i a'), ?_, .scope ?_⟩
  · exact Step.bind_eq_ok.2 ⟨_, s₁, validate_alike alike checks, rfl⟩
  · unfold Scope.view ScriptM.openBody
    simp only [visitorFilter_alike alike]

/-- An element does the same with attributes in another order. -/
theorem act_alike (alike : a.Alike a') {element : Element} {positional : List Value} {x : Result}
    (consistent : ∀ t ∈ element.fills s, IsConsistent d s t a)
    (h : act e compiler d element positional a s = (.ok x, s₁)) :
    ∃ x', act e compiler d element positional a' s = (.ok x', s₁) ∧ Result.Alike x x' := by
  have argument := alike.argument element.signature positional
  -- only a filter leaves its attributes behind, all others read them at once
  cases element with
  | changeLog => exact ⟨x, bind_of_ok (fun _ _ => changeLog_alike alike) h, .refl x⟩
  | property => exact ⟨x, bind_of_ok (fun _ _ => property_alike alike) h, .refl x⟩
  | changeSet => exact ⟨x, bind_of_ok (fun _ _ => newChangeSet_alike alike) h, .refl x⟩
  | «include» => exact ⟨x, bind_of_ok (fun _ _ => include_alike alike) h, .refl x⟩
  | includeAll => exact ⟨x, bind_of_ok (fun _ _ => includeAll_alike alike) h, .refl x⟩
  | includeAllSql => exact ⟨x, bind_of_ok (fun _ _ => includeAllSql_alike alike) h, .refl x⟩
  | preconditions owner i =>
    exact ⟨x, preconditions_alike alike (consistent _ rfl) h, .refl x⟩
  | removeProperty => exact ⟨x, bind_of_ok (fun _ _ => removeProperty_alike alike) h, .refl x⟩
  | rollback owner i => exact ⟨x, rollback_alike alike h, .refl x⟩
  | modifySql owner i => exact modifySql_alike alike h
  | change owner name type i undoes =>
    exact ⟨x, bind_of_ok (fun _ _ => newRecord_alike alike (consistent _ rfl)) h, .refl x⟩
  | column owner name i =>
    exact ⟨x, bind_of_ok (fun _ _ => column_alike alike consistent) h, .refl x⟩
  | param owner name i =>
    exact ⟨x, bind_of_ok (fun _ _ => param_alike alike (consistent _ rfl)) h, .refl x⟩
  | constraints owner name i =>
    exact ⟨x, bind_of_ok (fun _ _ => constraints_perm alike.perm (consistent _ rfl)) h, .refl x⟩
  | precondition owner name type parent =>
    exact ⟨x, bind_of_ok (fun _ _ => newRecord_alike alike (consistent _ rfl)) h, .refl x⟩
  | visitor owner type i filter =>
    exact ⟨x, bind_of_ok (fun _ _ => visitor_alike alike (consistent _ rfl)) h, .refl x⟩
  | comment | checkSum | whereClause | constraint =>
    unfold act at h ⊢
    rw [argument]
    exact ⟨x, h, .refl x⟩
  | whereParams | group => exact ⟨x, h, .refl x⟩

end SessionM
end Migration
