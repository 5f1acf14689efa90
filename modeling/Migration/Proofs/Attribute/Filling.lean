import Migration.Proofs.Record

/-!
# Filling in either order

An attribute writes the field that it names, and the fields that follow from it. Two attributes that
do not write different values into one field can be set in either order, so a record, or the
constraints of a column, can be filled in any order.

* `RecordType.writes?` — what an attribute writes into a record
* `Attributes.IsConsistent` — no two attributes write different values into one field
* `SessionM.fill_eq_ok`, `SessionM.constraints_eq_ok` — what attributes make of a record
* `SessionM.fill_perm`, `SessionM.constraints_perm` — the order of attributes does not matter
-/

namespace Migration

/-! ## Writing fields -/

namespace RecordType

/-- The fields that an attribute writes, with their values, if it can be set: the one that it names,
and those that follow from it. -/
def writes? (t : RecordType) (spelling : String) (v : Value) : Option (List (String × Value)) :=
  match t.field? spelling with
  | none => none
  | some f =>
    match f.type with
    | none => none
    | some type =>
      match type.coerce v with
      | .error _ => none
      | .ok w => some <|
        (f.name, w) :: (t.consequences.filter fun (n, _, _) => n == f.name && w.isTruthy).map (·.2)

/-- If no fields follow from others, an attribute writes the field that it names. -/
theorem name_of_writes? {t : RecordType} (alone : t.consequences = []) {spelling : String} {v : Value}
    {entries : List (String × Value)} (h : t.writes? spelling v = some entries) :
    ∃ f w, t.field? spelling = some f ∧ entries = [(f.name, w)] := by
  unfold writes? at h
  split at h
  · cases h
  · next f field =>
    split at h
    · cases h
    · split at h
      · cases h
      · next w _ =>
        rw [alone] at h
        exact ⟨f, w, field, (Option.some.inj h).symm⟩

end RecordType

namespace Record

variable {r : Record} {spelling : String} {v : Value}

/-- The record with several fields written, one after the other. -/
def putAll (r : Record) (entries : List (String × Value)) : Record :=
  entries.foldl (fun r p => r.put p.1 p.2) r

@[simp] theorem type_putAll (r : Record) (entries : List (String × Value)) :
    (r.putAll entries).type = r.type := by
  unfold putAll
  induction entries generalizing r with
  | nil => rfl
  | cons p rest ih => exact ih (r.put p.1 p.2)

theorem put_putAll (r : Record) {p : String × Value} {entries : List (String × Value)}
    (agree : ∀ q ∈ entries, p.1 = q.1 → p.2 = q.2) :
    (r.put p.1 p.2).putAll entries = (r.putAll entries).put p.1 p.2 := by
  unfold putAll
  induction entries generalizing r with
  | nil => rfl
  | cons q rest ih =>
    have swap : (r.put p.1 p.2).put q.1 q.2 = (r.put q.1 q.2).put p.1 p.2 := by
      by_cases same : p.1 = q.1
      · rw [same, agree q List.mem_cons_self same]
      · exact put_comm same r p.2 q.2
    rw [List.foldl_cons, List.foldl_cons, swap]
    exact ih (r.put q.1 q.2) fun q mem => agree q (List.mem_cons_of_mem _ mem)

/-- Fields are written in either order if no two values are written into one of them. -/
theorem putAll_comm (r : Record) {entries others : List (String × Value)}
    (agree : ∀ p ∈ entries, ∀ q ∈ others, p.1 = q.1 → p.2 = q.2) :
    (r.putAll entries).putAll others = (r.putAll others).putAll entries := by
  induction entries generalizing r with
  | nil => rfl
  | cons p rest ih =>
    show ((r.put p.1 p.2).putAll rest).putAll others = ((r.putAll others).put p.1 p.2).putAll rest
    rw [ih _ fun p mem => agree p (List.mem_cons_of_mem _ mem),
      put_putAll r fun q mem => agree p List.mem_cons_self q mem]

theorem set_eq_putAll (r : Record) (name : String) (v : Value) :
    r.set name v = r.putAll ((name, v) ::
      (r.type.consequences.filter fun (n, _, _) => n == name && v.isTruthy).map (·.2)) := by
  unfold set putAll
  rw [List.foldl_cons, List.foldl_map]

/-- An attribute is set if it can be, and that writes its fields. -/
theorem bind_eq_ok {r' : Record} : r.bind spelling v = .ok r' ↔
    ∃ entries, r.type.writes? spelling v = some entries ∧ r' = r.putAll entries := by
  unfold bind RecordType.writes?
  cases r.type.field? spelling with
  | none => exact ⟨nofun, nofun⟩
  | some f =>
    dsimp only
    cases f.type with
    | none => exact ⟨nofun, nofun⟩
    | some type =>
      dsimp only
      cases type.coerce v with
      | error cause => exact ⟨nofun, nofun⟩
      | ok w =>
        dsimp only
        constructor
        · intro h
          cases h
          exact ⟨_, rfl, set_eq_putAll r f.name w⟩
        · rintro ⟨entries, is, rfl⟩
          cases is
          exact congrArg Except.ok (set_eq_putAll r f.name w)

end Record

/-! ## Attributes in a session -/

namespace Attributes

variable {d : DocumentId} {s : Session} {t : RecordType} {a a' : Attributes}

/-- What an attribute writes into a record once its placeholders have been replaced, if it can be
set. -/
def written? (d : DocumentId) (s : Session) (t : RecordType) (x : String × Value) :
    Option (List (String × Value)) :=
  match (SessionM.expand d x.2 s).1 with
  | .ok v => t.writes? x.1 v
  | .error _ => none

/-- No two attributes write different values into one field of a record, neither by themselves nor
by what follows from them. -/
def IsConsistent (d : DocumentId) (s : Session) (t : RecordType) (a : Attributes) : Prop :=
  ∀ x ∈ a, ∀ y ∈ a, x ≠ y → ∀ p ∈ (written? d s t x).getD [], ∀ q ∈ (written? d s t y).getD [],
    p.1 = q.1 → p.2 = q.2

theorem written?_of_expand {x : String × Value} {v : Value}
    (expands : SessionM.expand d x.2 s = (.ok v, s)) : written? d s t x = t.writes? x.1 v := by
  unfold written?
  rw [expands]

theorem expand_of_written? {x : String × Value} {entries : List (String × Value)}
    (h : written? d s t x = some entries) :
    ∃ v, SessionM.expand d x.2 s = (.ok v, s) ∧ t.writes? x.1 v = some entries := by
  unfold written? at h
  rcases expands : SessionM.expand d x.2 s with ⟨failure | v, s₂⟩
  · rw [expands] at h
    cases h
  · obtain rfl : s = s₂ := (SessionM.keeps_expand d x.2).of_run (R := (· = ·)) expands
    rw [expands] at h
    exact ⟨v, rfl, h⟩

theorem written?_congr {s' : Session} (same : s'.table = s.table) (d : DocumentId) :
    written? d s' t = written? d s t := by
  funext x
  unfold written?
  rw [SessionM.expand_congr same]

/-- If no fields follow from others, attributes that name different fields are consistent. -/
theorem isConsistent_of_fields (alone : t.consequences = [])
    (distinct : ∀ x ∈ a, ∀ y ∈ a, x ≠ y → ∀ f, t.field? x.1 = some f → ∀ g, t.field? y.1 = some g →
      f.name ≠ g.name) (d : DocumentId) (s : Session) : IsConsistent d s t a := by
  have named : ∀ {x : String × Value} {p}, p ∈ (written? d s t x).getD [] →
      ∃ f, t.field? x.1 = some f ∧ p.1 = f.name := by
    intro x p mem
    unfold written? at mem
    split at mem
    · next v _ =>
      cases writes : t.writes? x.1 v with
      | none =>
        rw [writes] at mem
        cases mem
      | some entries =>
        obtain ⟨f, w, field, rfl⟩ := RecordType.name_of_writes? alone writes
        rw [writes] at mem
        obtain rfl := List.mem_singleton.1 mem
        exact ⟨f, field, rfl⟩
    · cases mem
  intro x hx y hy ne p hp q hq same
  obtain ⟨f, field, name⟩ := named hp
  obtain ⟨g, field', name'⟩ := named hq
  exact absurd (name.symm.trans (same.trans name')) (distinct x hx y hy ne f field g field')

-- fields follow from others in one type only
example : (Catalog.all.filter fun t => !t.consequences.isEmpty).map (·.element) =
    ["addForeignKeyConstraint"] := by decide +kernel

end Attributes

open Attributes

namespace SessionM

variable {d : DocumentId} {owner : String} {target : Target} {a a' : Attributes} {s s₁ : Session}
  {r r' : Record}

/-- One attribute is set by writing its fields, and then the others are. -/
theorem fill_cons_eq_ok {x : String × Value} {rest : Attributes} :
    fill d owner target r (x :: rest) s = (.ok r', s₁) ↔
      ∃ entries, written? d s r.type x = some entries ∧
        fill d owner target (r.putAll entries) rest s = (.ok r', s₁) := by
  constructor
  · intro h
    obtain ⟨v, expands, h⟩ := (keeps_expand d x.2).bind_eq_ok.1 h
    cases binds : r.bind x.1 v with
    | error cause =>
      simp only [binds] at h
      cases h
    | ok r₁ =>
      simp only [binds] at h
      obtain ⟨entries, writes, rfl⟩ := Record.bind_eq_ok.1 binds
      exact ⟨entries, (written?_of_expand expands).trans writes, h⟩
  · rintro ⟨entries, writes, h⟩
    obtain ⟨v, expands, accepted⟩ := expand_of_written? writes
    exact (fill_cons expands (Record.bind_eq_ok.2 ⟨entries, accepted, rfl⟩)).trans h

/-- A record is filled if every attribute can be set, and that writes their fields in order. -/
theorem fill_eq_ok : fill d owner target r a s = (.ok r', s₁) ↔
    s₁ = s ∧ (∀ x ∈ a, (written? d s r.type x).isSome) ∧
      r' = a.foldl (fun z x => z.putAll ((written? d s r.type x).getD [])) r := by
  induction a generalizing r with
  | nil =>
    constructor
    · intro h
      cases h
      exact ⟨rfl, nofun, rfl⟩
    · rintro ⟨rfl, -, rfl⟩
      rfl
  | cons x rest ih =>
    rw [List.forall_mem_cons, List.foldl_cons, fill_cons_eq_ok]
    constructor
    · rintro ⟨entries, writes, h⟩
      obtain ⟨rfl, others, rfl⟩ := ih.1 h
      rw [Record.type_putAll] at others ⊢
      rw [writes]
      exact ⟨rfl, ⟨rfl, others⟩, rfl⟩
    · rintro ⟨rfl, ⟨first, others⟩, rfl⟩
      obtain ⟨entries, writes⟩ := Option.isSome_iff_exists.1 first
      refine ⟨entries, writes, ih.2 ⟨rfl, by rwa [Record.type_putAll], ?_⟩⟩
      rw [Record.type_putAll, writes]
      rfl

/-- Attributes that are consistent write their fields in any order. -/
theorem foldl_putAll_perm {t : RecordType} (perm : a'.Perm a) (consistent : IsConsistent d s t a)
    (r : Record) :
    a'.foldl (fun z x => z.putAll ((written? d s t x).getD [])) r =
      a.foldl (fun z x => z.putAll ((written? d s t x).getD [])) r := by
  refine (perm.symm.foldl_eq' (fun x hx y hy z => ?_) r).symm
  -- consistency speaks of two attributes, and one attribute commutes with itself anyway
  by_cases same : x = y
  · rw [same]
  · exact z.putAll_comm (consistent x hx y hy same)

/-- A record can be filled in any order. -/
theorem fill_perm (perm : a'.Perm a) (consistent : IsConsistent d s r.type a)
    (h : fill d owner target r a s = (.ok r', s₁)) : fill d owner target r a' s = (.ok r', s₁) := by
  obtain ⟨rfl, accepted, rfl⟩ := fill_eq_ok.1 h
  exact fill_eq_ok.2 ⟨rfl, fun x mem => accepted x (perm.mem_iff.1 mem),
    (foldl_putAll_perm perm consistent r).symm⟩

end SessionM

/-! ## Constraints in place -/

namespace Pool

variable {entity : Entity} {α : Type} {p : Pool entity α} {i : Place entity} {f g : α → α}

/-- Only what a change does to the thing at its place matters. -/
theorem modify_congr (same : ∀ x, p.get? i = some x → f x = g x) : p.modify i f = p.modify i g := by
  unfold modify
  refine congrArg Pool.mk (Array.ext_getElem? fun j => ?_)
  rw [Array.getElem?_modify, Array.getElem?_modify]
  split
  · next here =>
    subst here
    cases found : p.items[i.index]? with
    | none => rfl
    | some x => exact congrArg some (same x found)
  · rfl

theorem modify_modify : (p.modify i f).modify i g = p.modify i (g ∘ f) := by
  unfold modify
  refine congrArg Pool.mk (Array.ext_getElem? fun j => ?_)
  rw [Array.getElem?_modify, Array.getElem?_modify, Array.getElem?_modify]
  split
  · rw [Option.map_map]
  · rfl

end Pool

namespace Session

variable {s : Session} {i : ColumnId}

/-- The constraints of a column; fresh ones if it has none yet. -/
def constraintsOf (s : Session) (i : ColumnId) : Record :=
  ((s.store.columns.get? i).getD default).constraints.getD (.fresh Catalog.constraints)

/-- The session with several fields of the constraints of a column written. -/
def amend (s : Session) (i : ColumnId) (entries : List (String × Value)) : Session :=
  { s with store := { s.store with columns := s.store.columns.modify i fun c =>
    { c with
      constraints := some ((c.constraints.getD (.fresh Catalog.constraints)).putAll entries) } } }

@[simp] theorem type_constraintsOf_amend (s : Session) (i : ColumnId)
    (entries : List (String × Value)) :
    ((s.amend i entries).constraintsOf i).type = (s.constraintsOf i).type := by
  have found : (s.amend i entries).store.columns.get? i = _ :=
    (Pool.get?_modify ..).trans (if_pos rfl)
  unfold constraintsOf
  rw [found]
  cases s.store.columns.get? i with
  | none => rfl
  | some c => exact Record.type_putAll _ entries

/-- Fields of the constraints of a column are written in either order if no two values are written
into one of them. -/
theorem amend_comm {entries others : List (String × Value)}
    (agree : ∀ p ∈ entries, ∀ q ∈ others, p.1 = q.1 → p.2 = q.2) :
    (s.amend i entries).amend i others = (s.amend i others).amend i entries := by
  unfold amend
  dsimp only
  rw [Pool.modify_modify, Pool.modify_modify]
  refine congrArg (fun columns => { s with store := { s.store with columns } })
    (Pool.modify_congr fun c _ => ?_)
  show { c with constraints := some ((Record.putAll _ entries).putAll others) } =
    ({ c with constraints := some ((Record.putAll _ others).putAll entries) } : Column)
  rw [Record.putAll_comm _ agree]

end Session

namespace SessionM

variable {d : DocumentId} {owner name : String} {i : ColumnId} {a a' : Attributes} {s s₁ : Session}

/-- The constraints of a column are looked up once the placeholders of an attribute have been
replaced. An attribute that they refuse ends the setting of constraints. -/
theorem constraints_cons_of_error {x : String × Value} {rest : Attributes} {v : Value}
    (expands : expand d x.2 s = (.ok v, s)) {cause : BindError}
    (binds : (s.constraintsOf i).bind x.1 v = .error cause) :
    constraints d owner name i (x :: rest) s =
      (.error (.parse (.invalidAttribute owner x.1 (.constraint name)) (some cause)), s) := by
  have found : (get : SessionM Session) s = (.ok s, s) := rfl
  unfold Session.constraintsOf at binds
  rw [constraints, Step.run_bind_of_ok expands, Step.run_bind_of_ok found]
  simp only [binds]
  rfl

/-- An attribute that they accept is set by writing its fields in place. -/
theorem constraints_cons_of_ok {x : String × Value} {rest : Attributes} {v : Value}
    (expands : expand d x.2 s = (.ok v, s)) {entries : List (String × Value)}
    (binds : (s.constraintsOf i).bind x.1 v = .ok ((s.constraintsOf i).putAll entries)) :
    constraints d owner name i (x :: rest) s =
      constraints d owner name i rest (s.amend i entries) := by
  have found : (get : SessionM Session) s = (.ok s, s) := rfl
  have writes : modifyColumn i (fun c =>
      { c with constraints := some ((s.constraintsOf i).putAll entries) }) s =
        (.ok (), s.amend i entries) := by
    refine congrArg (fun columns => (Except.ok (), { s with store := { s.store with columns } }))
      (Pool.modify_congr fun c found => ?_)
    unfold Session.constraintsOf
    rw [found]
    rfl
  unfold Session.constraintsOf at binds writes
  rw [constraints, Step.run_bind_of_ok expands, Step.run_bind_of_ok found]
  simp only [binds]
  rw [Step.run_bind_of_ok writes]

/-- One constraint is set by writing its fields in place. -/
theorem constraints_cons_eq_ok {x : String × Value} {rest : Attributes} :
    constraints d owner name i (x :: rest) s = (.ok (), s₁) ↔
      ∃ entries, written? d s (s.constraintsOf i).type x = some entries ∧
        constraints d owner name i rest (s.amend i entries) = (.ok (), s₁) := by
  constructor
  · intro h
    obtain ⟨v, expands, -⟩ := (keeps_expand d x.2).bind_eq_ok.1 h
    cases binds : (s.constraintsOf i).bind x.1 v with
    | error cause =>
      rw [constraints_cons_of_error expands binds] at h
      cases h
    | ok r =>
      obtain ⟨entries, written, rfl⟩ := Record.bind_eq_ok.1 binds
      rw [constraints_cons_of_ok expands binds] at h
      exact ⟨entries, (written?_of_expand expands).trans written, h⟩
  · rintro ⟨entries, written, h⟩
    obtain ⟨v, expands, accepted⟩ := expand_of_written? written
    rw [constraints_cons_of_ok expands (Record.bind_eq_ok.2 ⟨entries, accepted, rfl⟩)]
    exact h

/-- The constraints of a column are set if every attribute can be, and that writes their fields in
order. -/
theorem constraints_eq_ok : constraints d owner name i a s = (.ok (), s₁) ↔
    (∀ x ∈ a, (written? d s (s.constraintsOf i).type x).isSome) ∧
      s₁ = a.foldl (fun z x => z.amend i ((written? d s (s.constraintsOf i).type x).getD [])) s := by
  induction a generalizing s with
  | nil =>
    constructor
    · intro h
      cases h
      exact ⟨nofun, rfl⟩
    · rintro ⟨-, rfl⟩
      rfl
  | cons x rest ih =>
    rw [List.forall_mem_cons, List.foldl_cons, constraints_cons_eq_ok]
    have same : ∀ entries, written? d (s.amend i entries) = written? d s := fun entries =>
      funext fun t => written?_congr (show (s.amend i entries).table = s.table from rfl) d
    constructor
    · rintro ⟨entries, writes, h⟩
      obtain ⟨others, rfl⟩ := ih.1 h
      rw [same, Session.type_constraintsOf_amend] at others ⊢
      rw [writes]
      exact ⟨⟨rfl, others⟩, rfl⟩
    · rintro ⟨⟨first, others⟩, rfl⟩
      obtain ⟨entries, writes⟩ := Option.isSome_iff_exists.1 first
      refine ⟨entries, writes, ih.2 ?_⟩
      rw [same, Session.type_constraintsOf_amend, writes]
      exact ⟨others, rfl⟩

/-- The constraints of a column can be set in any order. -/
theorem constraints_perm (perm : a'.Perm a)
    (consistent : IsConsistent d s (s.constraintsOf i).type a)
    (h : constraints d owner name i a s = (.ok (), s₁)) :
    constraints d owner name i a' s = (.ok (), s₁) := by
  obtain ⟨accepted, rfl⟩ := constraints_eq_ok.1 h
  refine constraints_eq_ok.2 ⟨fun x mem => accepted x (perm.mem_iff.1 mem), ?_⟩
  refine perm.symm.foldl_eq' (fun x hx y hy z => ?_) s
  by_cases same : x = y
  · rw [same]
  · exact Session.amend_comm (consistent x hx y hy same)

end SessionM
end Migration
