import Migration.Proofs.Advance

/-!
# Primitive steps

What putting a thing into the store does, and changing one. A script may change what is its own, but
not what includes put on its change sets.

* `Session.Extends.of_add` — one thing more
* `Session.Advances.of_modify` — a change of one thing
* `Session.Advances.nest`, `Session.Advances.changeSet` — changes of what came in on the way
* `Session.Quiet` — what most steps do: their document gains nothing
-/

namespace Migration

variable {α : Type}

namespace Session

/-! ## Effects on the session -/

namespace Extends

variable {s s' : Session}

/-- Putting one thing into the store changes nothing that was there. -/
theorem of_add (entity : Entity) (x : entity.Item) (chain : s'.chain = s.chain)
    (added : s'.store.pool entity = (s.store.pool entity).add x)
    (others : ∀ other, other ≠ entity → s'.store.pool other = s.store.pool other)
    (documents : ∀ i d, s'.store.documents.get? i = some d → ¬s.store.Has i →
      d.IsNew s.store s'.store)
    (preconditions : ∀ i p, s'.store.preconditions.get? i = some p → ¬s.store.Has i →
      ∀ j ∈ p.nested, s.store.Added s'.store j) : s.Extends s' where
  chain := chain
  grows other := by
    by_cases h : other = entity
    · subst h
      rw [added, Pool.size_add]
      exact Nat.le_succ _
    · exact Nat.le_of_eq (by rw [others other h])
  kept {other} i hi := by
    by_cases h : other = entity
    · subst h
      have hne : i ≠ (s.store.pool other).next := fun eq => s.store.not_has_next other (eq ▸ hi)
      rw [added, Pool.get?_add, if_neg hne]
    · rw [others other h]
  newDocuments := documents
  newPreconditions := preconditions

/-- A document with parts that came in on the way is put into the store. -/
theorem addDocument {s₁ : Session} (h : s.Extends s₁) {d : DraftDocument}
    (parts : d.IsNew s.store s₁.store) :
    s.Extends { s₁ with store := { s₁.store with documents := s₁.store.documents.add d } } := by
  have sizes : s₁.store.Grows { s₁.store with documents := s₁.store.documents.add d } := by
    intro entity
    cases entity
    case document =>
      exact Nat.le_of_lt (Nat.lt_of_lt_of_eq (Nat.lt_succ_self _) (Pool.size_add ..).symm)
    all_goals exact Nat.le_refl _
  refine ⟨h.chain, h.grows.trans sizes, ?_, ?_,
    fun i p hp new j hj => (h.newPreconditions i p hp new j hj).mono sizes⟩
  · intro entity i hi
    rw [← h.kept i hi]
    cases entity <;> try rfl
    have hne : i ≠ s₁.store.documents.next := fun eq =>
      s₁.store.not_has_next .document (eq ▸ h.grows.has hi)
    exact (Pool.get?_add ..).trans (if_neg hne)
  · intro i doc hd new
    have hd : (s₁.store.documents.add d).get? i = some doc := hd
    rw [Pool.get?_add] at hd
    split at hd
    · cases hd
      exact parts.mono sizes
    · exact (h.newDocuments i doc hd new).mono sizes

end Extends

namespace Advances

variable {b : Store} {d : DocumentId} {g : Gain} {s s' : Session}

/-- Changing one thing that the script owns, apart from preconditions. -/
theorem of_modify (entity : Entity) (i : Place entity) (f : entity.Item → entity.Item)
    (owned : ¬b.Has i) (chain : s'.chain = s.chain)
    (modified : s'.store.pool entity = (s.store.pool entity).modify i f)
    (same : ∀ other, other ≠ entity → s'.store.pool other = s.store.pool other)
    (preconditions : s'.store.preconditions = s.store.preconditions)
    (document : ∀ doc, s.store.documents.get? d = some doc →
      ∃ doc', s'.store.documents.get? d = some doc' ∧ Document.Gains g doc doc')
    (others : ∀ i, s.store.Has i → i ≠ d →
      s'.store.documents.get? i = s.store.documents.get? i)
    (tags : ∀ i c, s.store.changeSets.get? i = some c →
      ∃ c', s'.store.changeSets.get? i = some c' ∧ c'.tags = c.tags) :
    Advances b d g s s' := by
  have sizes : ∀ other, (s'.store.pool other).size = (s.store.pool other).size := by
    intro other
    by_cases h : other = entity
    · subst h
      rw [modified, Pool.size_modify]
    · rw [same other h]
  have nothingNew : ∀ {other : Entity} (j : Place other), s'.store.Has j → s.store.Has j := by
    intro other j hj
    unfold Store.Has at hj ⊢
    rwa [sizes] at hj
  refine ⟨chain, .of_same (fun other => Nat.le_of_eq (sizes other).symm) preconditions, ?_, document,
    others, tags, fun i _ h new => absurd (nothingNew i (Store.has_of_get? h)) new⟩
  intro other j hj
  by_cases h : other = entity
  · subst h
    have hne : i ≠ j := fun eq => owned (eq ▸ hj)
    rw [modified, Pool.get?_modify, if_neg hne]
  · rw [same other h]

variable {s₁ : Session}

/-- A precondition that came in on the way is put into one that the script owns. -/
theorem nest (h : Advances b d g s s₁) {parent i : PreconditionId} (owned : ¬b.Has parent)
    (new : s.store.Added s₁.store i) :
    Advances b d g s { s₁ with store := { s₁.store with
      preconditions := s₁.store.preconditions.modify parent fun p =>
        { p with nested := p.nested ++ [i] } } } := by
  refine ⟨h.chain, h.deepens.nest new, ?_, h.document, h.others, h.tags, fun j doc hd hj => ?_⟩
  · intro entity j hj
    rw [← h.kept j hj]
    cases entity <;> try rfl
    refine (Pool.get?_modify ..).trans (if_neg ?_)
    rintro rfl
    exact owned hj
  · refine (h.newDocuments j doc hd hj).mono fun entity => ?_
    cases entity <;> first | exact Nat.le_refl _ | exact Nat.le_of_eq (Pool.size_modify ..).symm

/-- A change set that came in on the way is changed. -/
theorem changeSet (base : b.Grows s.store) (h : Advances b d g s s₁) {i : ChangeSetId}
    (new : ¬s.store.Has i) (f : DraftChangeSet → DraftChangeSet) :
    Advances b d g s { s₁ with store := { s₁.store with
      changeSets := s₁.store.changeSets.modify i f } } := by
  have sizes : s₁.store.Grows { s₁.store with
      changeSets := s₁.store.changeSets.modify i f } := by
    intro entity
    cases entity <;> first | exact Nat.le_refl _ | exact Nat.le_of_eq (Pool.size_modify ..).symm
  refine ⟨h.chain, h.deepens.trans (.of_same sizes rfl), ?_, h.document, h.others, ?_,
    fun j doc hd hj => (h.newDocuments j doc hd hj).mono sizes⟩
  · intro entity j hj
    rw [← h.kept j hj]
    cases entity <;> try rfl
    refine (Pool.get?_modify ..).trans (if_neg ?_)
    rintro rfl
    exact new (base.has hj)
  · intro j c hc
    have hne : i ≠ j := fun eq => new (eq ▸ Store.has_of_get? hc)
    obtain ⟨c', hc', same⟩ := h.tags j c hc
    exact ⟨c', by rw [Pool.get?_modify, if_neg hne, hc'], same⟩

end Advances
end Session

namespace Session

variable (b : Store) (d : DocumentId)

/-- What a step of a script does unless its document gains something by it. -/
def Quiet (s s' : Session) : Prop := b.Grows s.store → s.store.Has d → Advances b d {} s s'

variable {b d}

instance : IsPreorder Session (Quiet b d) where
  refl _ base _ := .refl base
  trans _ _ _ h h' base known :=
    (h base known).trans (h' (base.trans (h base known).grows) ((h base known).grows.has known)) known

/-- A relation that allows whatever leaves alone the store and the chain: parameters and warnings
may be noted. -/
class AllowsNotes (R : Session → Session → Prop) : Prop extends IsPreorder Session R where
  of_same : ∀ {s s' : Session}, s'.store = s.store → s'.chain = s.chain → R s s'

/-- A relation that allows whatever leaves alone what was there. -/
class AllowsGrowth (R : Session → Session → Prop) : Prop extends IsPreorder Session R where
  of_extends : ∀ {s s'}, s.Extends s' → R s s'

instance {R : Session → Session → Prop} [AllowsGrowth R] : AllowsNotes R :=
  ⟨fun store chain => AllowsGrowth.of_extends (.of_same store chain)⟩

instance : AllowsGrowth Extends := ⟨id⟩

instance : AllowsGrowth (Quiet b d) := ⟨fun h base _ => .of_extends base h⟩

end Session

/-! ## Steps -/

namespace SessionM

open Session

variable {R : Session → Session → Prop}

@[grind ←] theorem keeps_warn [AllowsNotes R] (w : Warning) : Keeps R (warn w) := fun _ =>
  AllowsNotes.of_same rfl rfl

variable [AllowsGrowth R]

@[grind ←] theorem keeps_addColumn (c : Column) : Keeps R (addColumn c) := fun _ =>
  AllowsGrowth.of_extends <|
    .of_add .column c rfl rfl (fun other h => by cases other <;> first | rfl | contradiction)
      (fun _ _ h new => absurd (Store.has_of_get? h) new)
      (fun _ _ h new => absurd (Store.has_of_get? h) new)

@[grind ←] theorem keeps_addChange (c : DraftChange) : Keeps R (addChange c) := fun _ =>
  AllowsGrowth.of_extends <|
    .of_add .change c rfl rfl (fun other h => by cases other <;> first | rfl | contradiction)
      (fun _ _ h new => absurd (Store.has_of_get? h) new)
      (fun _ _ h new => absurd (Store.has_of_get? h) new)

@[grind ←] theorem keeps_addChangeSet (c : DraftChangeSet) : Keeps R (addChangeSet c) := fun _ =>
  AllowsGrowth.of_extends <|
    .of_add .changeSet c rfl rfl (fun other h => by cases other <;> first | rfl | contradiction)
      (fun _ _ h new => absurd (Store.has_of_get? h) new)
      (fun _ _ h new => absurd (Store.has_of_get? h) new)

/-- A precondition is put into the store without any inside it. -/
@[grind ←] theorem keeps_addPrecondition (r : Record) :
    Keeps R (addPrecondition { record := r }) := fun s =>
  AllowsGrowth.of_extends <|
    .of_add .precondition { record := r } rfl rfl
      (fun other h => by cases other <;> first | rfl | contradiction)
      (fun _ _ h new => absurd (Store.has_of_get? h) new)
      (fun i p h new j hj => by
        have h : (s.store.preconditions.add { record := r }).get? i = some p := h
        rw [Pool.get?_add] at h
        split at h
        · cases h
          cases hj
        · exact absurd (Store.has_of_get? h) new)

/-! ## Changes of one thing -/

@[grind ←] theorem grows_modifyDocument (i : DocumentId) (f : DraftDocument → DraftDocument) :
    Keeps Grows (modifyDocument i f) := by
  intro s entity
  cases entity <;> first | exact Nat.le_refl _ | exact Nat.le_of_eq (Pool.size_modify ..).symm

@[grind ←] theorem grows_modifyChangeSet (i : ChangeSetId) (f : DraftChangeSet → DraftChangeSet) :
    Keeps Grows (modifyChangeSet i f) := by
  intro s entity
  cases entity <;> first | exact Nat.le_refl _ | exact Nat.le_of_eq (Pool.size_modify ..).symm

@[grind ←] theorem grows_modifyPrecondition (i : PreconditionId)
    (f : DraftPrecondition → DraftPrecondition) : Keeps Grows (modifyPrecondition i f) := by
  intro s entity
  cases entity <;> first | exact Nat.le_refl _ | exact Nat.le_of_eq (Pool.size_modify ..).symm

theorem grows_modifyColumn (i : ColumnId) (f : Column → Column) :
    Keeps Grows (modifyColumn i f) := by
  intro s entity
  cases entity <;> first | exact Nat.le_refl _ | exact Nat.le_of_eq (Pool.size_modify ..).symm

theorem grows_modifyChange (i : ChangeId) (f : DraftChange → DraftChange) :
    Keeps Grows (modifyChange i f) := by
  intro s entity
  cases entity <;> first | exact Nat.le_refl _ | exact Nat.le_of_eq (Pool.size_modify ..).symm

variable {b : Store} {d : DocumentId}

theorem quiet_modifyColumn {i : ColumnId} (owned : ¬b.Has i) (f : Column → Column) :
    Keeps (Quiet b d) (modifyColumn i f) := fun _ _ _ =>
  .of_modify .column i f owned rfl rfl (fun other h => by cases other <;> first | rfl | contradiction)
    rfl (fun doc h => ⟨doc, h, .refl doc⟩) (fun _ _ _ => rfl) (fun _ c h => ⟨c, h, rfl⟩)

theorem quiet_modifyChange {i : ChangeId} (owned : ¬b.Has i) (f : DraftChange → DraftChange) :
    Keeps (Quiet b d) (modifyChange i f) := fun _ _ _ =>
  .of_modify .change i f owned rfl rfl (fun other h => by cases other <;> first | rfl | contradiction)
    rfl (fun doc h => ⟨doc, h, .refl doc⟩) (fun _ _ _ => rfl) (fun _ c h => ⟨c, h, rfl⟩)

/-- A script may change its change sets, except for what includes put on them. -/
theorem quiet_modifyChangeSet {i : ChangeSetId} (owned : ¬b.Has i)
    {f : DraftChangeSet → DraftChangeSet} (hf : ∀ c, (f c).tags = c.tags) :
    Keeps (Quiet b d) (modifyChangeSet i f) := fun s _ _ =>
  .of_modify .changeSet i f owned rfl rfl
    (fun other h => by cases other <;> first | rfl | contradiction)
    rfl (fun doc h => ⟨doc, h, .refl doc⟩) (fun _ _ _ => rfl) (fun j c h => by
      show ∃ c', (s.store.changeSets.modify i f).get? j = some c' ∧ c'.tags = c.tags
      rw [Pool.get?_modify, h]
      split
      · exact ⟨f c, rfl, hf c⟩
      · exact ⟨c, rfl, rfl⟩)

theorem advances_modifyDocument {g : Gain} {s : Session} (owned : ¬b.Has d)
    {f : DraftDocument → DraftDocument}
    (hf : ∀ doc, s.store.documents.get? d = some doc → Document.Gains g doc (f doc)) :
    Advances b d g s (modifyDocument d f s).2 :=
  .of_modify .document d f owned rfl rfl
    (fun other h => by cases other <;> first | rfl | contradiction)
    rfl (fun doc h => ⟨f doc, by
      show (s.store.documents.modify d f).get? d = some (f doc)
      rw [Pool.get?_modify, if_pos rfl, h]
      rfl, hf doc h⟩)
    (fun j _ hne => by
      show (s.store.documents.modify d f).get? j = s.store.documents.get? j
      rw [Pool.get?_modify, if_neg fun eq => hne eq.symm])
    (fun _ c h => ⟨c, h, rfl⟩)

theorem quiet_modifyDocument (owned : ¬b.Has d) {f : DraftDocument → DraftDocument}
    (hf : ∀ doc, Document.Gains {} doc (f doc)) : Keeps (Quiet b d) (modifyDocument d f) :=
  fun _ _ _ => advances_modifyDocument owned fun doc _ => hf doc

/-- A precondition is put into one that the script owns. -/
theorem quiet_nest {parent : PreconditionId} (owned : ¬b.Has parent) (r : Record) :
    Keeps (Quiet b d) (SessionM.nest parent r) := by
  intro s base known
  have first : s.Extends (addPrecondition { record := r } s).2 := keeps_addPrecondition r s
  refine (Advances.of_extends base first).nest owned ⟨s.store.not_has_next .precondition, ?_⟩
  show s.store.preconditions.size < (s.store.preconditions.add _).size
  rw [Pool.size_add]
  exact Nat.lt_succ_self _

end SessionM
end Migration
