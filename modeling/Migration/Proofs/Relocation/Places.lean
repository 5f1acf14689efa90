import Migration.Proofs.Element

/-!
# Relocation

Two sessions may hold the same things at other places: the things that came in after one store in
the first session stand, in the same order, after another store in the second one. Every place is
moved by the same distance, and what a thing refers to is moved with it.

* `Store.IsSelfContained` — what came in refers only to what came in as well
* `Relocation` — from which store the places of one session are counted, and from which those of the
  other
* `Relocation.Relates` — one session holds what the other one holds, with every place moved
* `Relocation.Relates.put`, `Relocation.Relates.modify` — putting things in and changing them on
  both sides
-/

namespace Migration

/-! ## References -/

namespace Store

variable {b s s' : Store} {entity : Entity}

/-- What a thing refers to came in between two stores; a precondition came in before the ones that
are inside it. -/
def Refers (b s : Store) : {entity : Entity} → Place entity → entity.Item → Prop
  | .column, _, _ => True
  | .change, _, c => ∀ j ∈ c.columns, b.Added s j
  | .precondition, i, p => ∀ j ∈ p.nested, b.Added s j ∧ i.index < j.index
  | .changeSet, _, c =>
    (∀ j ∈ c.changes, b.Added s j) ∧ (∀ j ∈ c.rollback, b.Added s j) ∧
      ∀ j ∈ c.preconditions, b.Added s j
  | .document, _, d => d.IsNew b s

theorem Refers.mono (h : s.Grows s') {i : Place entity} {x : entity.Item}
    (refers : b.Refers s i x) :
    b.Refers s' i x := by
  cases entity with
  | column => trivial
  | change => exact fun j hj => (refers j hj).mono h
  | precondition => exact fun j hj => ⟨(refers j hj).1.mono h, (refers j hj).2⟩
  | changeSet =>
    obtain ⟨changes, rollback, preconditions⟩ := refers
    exact ⟨fun j hj => (changes j hj).mono h, fun j hj => (rollback j hj).mono h,
      fun j hj => (preconditions j hj).mono h⟩
  | document => exact Document.IsNew.mono h refers

/-- What came into a store after another one refers only to what came in as well. -/
def IsSelfContained (b s : Store) : Prop :=
  ∀ {entity : Entity} (i : Place entity) (x : entity.Item), (s.pool entity).get? i = some x →
    ¬b.Has i → b.Refers s i x

/-! ## Changes of a store -/

/-- A store with one thing more. -/
structure Puts (s s' : Store) (entity : Entity) (x : entity.Item) : Prop where
  added : s'.pool entity = (s.pool entity).add x
  others : ∀ other, other ≠ entity → s'.pool other = s.pool other

/-- A store with one thing changed. -/
structure Modifies (s s' : Store) (entity : Entity) (i : Place entity)
    (f : entity.Item → entity.Item) : Prop where
  modified : s'.pool entity = (s.pool entity).modify i f
  others : ∀ other, other ≠ entity → s'.pool other = s.pool other

namespace Puts

variable {x : entity.Item}

theorem column (s : Store) (c : Column) :
    s.Puts { s with columns := s.columns.add c } .column c :=
  ⟨rfl, fun other h => by cases other <;> first | rfl | contradiction⟩

theorem change (s : Store) (c : DraftChange) :
    s.Puts { s with changes := s.changes.add c } .change c :=
  ⟨rfl, fun other h => by cases other <;> first | rfl | contradiction⟩

theorem precondition (s : Store) (p : DraftPrecondition) :
    s.Puts { s with preconditions := s.preconditions.add p } .precondition p :=
  ⟨rfl, fun other h => by cases other <;> first | rfl | contradiction⟩

theorem changeSet (s : Store) (c : DraftChangeSet) :
    s.Puts { s with changeSets := s.changeSets.add c } .changeSet c :=
  ⟨rfl, fun other h => by cases other <;> first | rfl | contradiction⟩

theorem document (s : Store) (d : DraftDocument) :
    s.Puts { s with documents := s.documents.add d } .document d :=
  ⟨rfl, fun other h => by cases other <;> first | rfl | contradiction⟩

theorem grows (h : s.Puts s' entity x) : s.Grows s' := fun other => by
  by_cases same : other = entity
  · subst same
    rw [h.added, Pool.size_add]
    exact Nat.le_succ _
  · exact Nat.le_of_eq (by rw [h.others other same])

end Puts

namespace Modifies

theorem column (s : Store) (i : ColumnId) (f : Column → Column) :
    s.Modifies { s with columns := s.columns.modify i f } .column i f :=
  ⟨rfl, fun other h => by cases other <;> first | rfl | contradiction⟩

theorem change (s : Store) (i : ChangeId) (f : DraftChange → DraftChange) :
    s.Modifies { s with changes := s.changes.modify i f } .change i f :=
  ⟨rfl, fun other h => by cases other <;> first | rfl | contradiction⟩

theorem precondition (s : Store) (i : PreconditionId) (f : DraftPrecondition → DraftPrecondition) :
    s.Modifies { s with preconditions := s.preconditions.modify i f } .precondition i f :=
  ⟨rfl, fun other h => by cases other <;> first | rfl | contradiction⟩

theorem changeSet (s : Store) (i : ChangeSetId) (f : DraftChangeSet → DraftChangeSet) :
    s.Modifies { s with changeSets := s.changeSets.modify i f } .changeSet i f :=
  ⟨rfl, fun other h => by cases other <;> first | rfl | contradiction⟩

theorem document (s : Store) (i : DocumentId) (f : DraftDocument → DraftDocument) :
    s.Modifies { s with documents := s.documents.modify i f } .document i f :=
  ⟨rfl, fun other h => by cases other <;> first | rfl | contradiction⟩

variable {i : Place entity} {f : entity.Item → entity.Item}

theorem size (h : s.Modifies s' entity i f) (other : Entity) :
    (s'.pool other).size = (s.pool other).size := by
  by_cases same : other = entity
  · subst same
    rw [h.modified, Pool.size_modify]
  · rw [h.others other same]

theorem grows (h : s.Modifies s' entity i f) : s.Grows s' :=
  fun other => Nat.le_of_eq (h.size other).symm

/-- A change shows at its place only. -/
theorem get?_of_ne (h : s.Modifies s' entity i f) {other : Entity} (j : Place other)
    (ne : ∀ same : other = entity, same ▸ j ≠ i) :
    (s'.pool other).get? j = (s.pool other).get? j := by
  by_cases same : other = entity
  · subst same
    rw [h.modified, Pool.get?_modify, if_neg fun eq => ne rfl eq.symm]
  · rw [h.others other same]

end Modifies

namespace IsSelfContained

variable {u : Store}

/-- What is put in may refer to what came in. -/
theorem put {x : entity.Item} (closed : b.IsSelfContained s) (hu : s.Puts u entity x)
    (refers : b.Refers u (s.pool entity).next x) : b.IsSelfContained u := by
  intro other i y hy new
  by_cases same : other = entity
  · subst same
    rw [hu.added, Pool.get?_add] at hy
    split at hy
    · next eq =>
      cases hy
      exact eq ▸ refers
    · exact (closed i y hy new).mono hu.grows
  · rw [hu.others other same] at hy
    exact (closed i y hy new).mono hu.grows

/-- What came in may be changed to refer to what came in. -/
theorem modify {i : Place entity} {f : entity.Item → entity.Item} (closed : b.IsSelfContained s)
    (hu : s.Modifies u entity i f)
    (refers : ¬b.Has i → ∀ x, (s.pool entity).get? i = some x → b.Refers s i x →
      b.Refers u i (f x)) :
    b.IsSelfContained u := by
  intro other j y hy new
  by_cases same : other = entity
  · subst same
    rw [hu.modified, Pool.get?_modify] at hy
    split at hy
    · next eq =>
      subst eq
      obtain ⟨x, hx, rfl⟩ := Option.map_eq_some_iff.1 hy
      exact refers new x hx (closed i x hx new)
    · exact (closed j y hy new).mono hu.grows
  · rw [hu.others other same] at hy
    exact (closed j y hy new).mono hu.grows

end IsSelfContained
end Store

/-! ## Moved places -/

/-- From which store on the places of one session are counted, and from which those of the other
one; and what the two have in common: the document that includes, and the parameters. A parameter
that is only visible in the document that declares it was declared before. -/
structure Relocation where
  source : Store
  target : Store
  /-- What stands for the documents that were there before. -/
  document : DocumentId
  table : Table
  owners : ∀ p ∈ table.parameters, p.isGlobal = false → ∀ o ∈ p.owner, source.Has o ∧ target.Has o

namespace Relocation

variable (m : Relocation)

/-- The place that a place is moved to. -/
def place {entity : Entity} (i : Place entity) : Place entity :=
  ⟨i.index + (m.target.pool entity).size - (m.source.pool entity).size⟩

/-- What stands for a document that includes another one. -/
def parent (i : DocumentId) : DocumentId :=
  if i.index < m.source.documents.size then m.document else m.place i

/-- A thing with everything that it refers to moved. -/
def item : (entity : Entity) → entity.Item → entity.Item
  | .column, c => c
  | .change, c => { c with columns := c.columns.map m.place }
  | .precondition, p => { p with nested := p.nested.map m.place }
  | .changeSet, c => {
      c with
      changes := c.changes.map m.place
      rollback := c.rollback.map m.place
      preconditions := c.preconditions.map m.place }
  | .document, d => {
      d with
      changeSets := d.changeSets.map m.place
      preconditions := m.place d.preconditions
      parent := d.parent.map m.parent }

/-- A session holds what another one holds that came in after the source, with every place moved. -/
structure Relates (s t : Session) : Prop where
  base : m.source.Grows s.store
  sizes : ∀ entity, (t.store.pool entity).size + (m.source.pool entity).size =
    (s.store.pool entity).size + (m.target.pool entity).size
  items : ∀ {entity : Entity} (i : Place entity), ¬m.source.Has i →
    (t.store.pool entity).get? (m.place i) = ((s.store.pool entity).get? i).map (m.item entity)
  closed : m.source.IsSelfContained s.store
  tables : s.table = m.table ∧ t.table = m.table
  chain : t.chain = s.chain

variable {m} {entity : Entity} {i j : Place entity}

theorem index_place (new : ¬m.source.Has i) :
    (m.place i).index + (m.source.pool entity).size = i.index + (m.target.pool entity).size := by
  unfold Store.Has at new
  show i.index + _ - _ + _ = _
  omega

theorem place_injective (hi : ¬m.source.Has i) (hj : ¬m.source.Has j) (h : m.place i = m.place j) :
    i = j := by
  have first := index_place hi
  have second := index_place hj
  rw [h] at first
  have same : i.index = j.index := by omega
  cases i
  exact congrArg Place.mk same

/-- What is moved comes after the target. -/
theorem not_has_place (new : ¬m.source.Has i) : ¬m.target.Has (m.place i) := by
  have := index_place new
  unfold Store.Has at *
  omega

/-- A new document stands for itself, wherever it is. -/
theorem parent_eq {i : DocumentId} (new : ¬m.source.Has i) : m.parent i = m.place i :=
  if_neg new

/-- A document that was there is stood for. -/
theorem parent_of_has {i : DocumentId} (old : m.source.Has i) : m.parent i = m.document :=
  if_pos old

namespace Relates

variable {s t : Session} {u v : Store}

theorem not_has_next (h : m.Relates s t) (entity : Entity) :
    ¬m.source.Has (s.store.pool entity).next :=
  fun old => s.store.not_has_next entity (h.base.has old)

theorem get?_place (h : m.Relates s t) {i : Place entity} (new : ¬m.source.Has i) {x : entity.Item}
    (hx : (s.store.pool entity).get? i = some x) :
    (t.store.pool entity).get? (m.place i) = some (m.item entity x) := by
  rw [h.items i new, hx]
  rfl

/-- Both sessions put the next thing at the same place, after moving. -/
theorem place_next (h : m.Relates s t) (entity : Entity) :
    m.place (s.store.pool entity).next = (t.store.pool entity).next := by
  have := index_place (h.not_has_next entity)
  have := h.sizes entity
  show Place.mk _ = Place.mk _
  rw [Place.mk.injEq]
  simp only [Pool.next] at *
  omega

/-- Where both sessions start from, there is nothing to be moved yet. -/
theorem start (hs : s.store = m.source)
    (ht : t.store = m.target) (tables : s.table = m.table ∧ t.table = m.table)
    (same : t.chain = s.chain) : m.Relates s t where
  base := hs ▸ Store.Grows.refl _
  sizes entity := by rw [hs, ht, Nat.add_comm]
  items i new := by
    rw [hs, ht, Store.get?_eq_none_of_not_has new, Store.get?_eq_none_of_not_has (not_has_place new)]
    rfl
  closed i x hx new := absurd (Store.has_of_get? (hs ▸ hx)) new
  tables := tables
  chain := same

/-- Both sessions put a thing in. -/
theorem put (h : m.Relates s t) {x : entity.Item} (hu : s.store.Puts u entity x)
    (hv : t.store.Puts v entity (m.item entity x))
    (refers : m.source.Refers u (s.store.pool entity).next x) :
    m.Relates { s with store := u } { t with store := v } where
  base := h.base.trans hu.grows
  sizes other := by
    have sizes := h.sizes other
    show (v.pool other).size + _ = (u.pool other).size + _
    by_cases same : other = entity
    · subst same
      rw [hu.added, hv.added, Pool.size_add, Pool.size_add]
      omega
    · rw [hu.others other same, hv.others other same, sizes]
  items {other} i new := by
    show (v.pool other).get? _ = ((u.pool other).get? i).map _
    by_cases same : other = entity
    · subst same
      rw [hu.added, hv.added, Pool.get?_add, Pool.get?_add, ← h.place_next]
      by_cases next : i = (s.store.pool other).next
      · rw [if_pos next, if_pos (congrArg m.place next)]
        rfl
      · rw [if_neg next, if_neg fun eq => next (place_injective new (h.not_has_next other) eq),
          h.items i new]
    · rw [hu.others other same, hv.others other same, h.items i new]
  closed := Store.IsSelfContained.put h.closed hu refers
  tables := h.tables
  chain := h.chain

/-- Both sessions change the same new thing. -/
theorem modify (h : m.Relates s t) {i : Place entity} (new : ¬m.source.Has i)
    {f g : entity.Item → entity.Item} (hu : s.store.Modifies u entity i f)
    (hv : t.store.Modifies v entity (m.place i) g)
    (commutes : ∀ x, (s.store.pool entity).get? i = some x → g (m.item entity x) = m.item entity (f x))
    (refers : ∀ x, (s.store.pool entity).get? i = some x → m.source.Refers s.store i x →
      m.source.Refers u i (f x)) :
    m.Relates { s with store := u } { t with store := v } where
  base := h.base.trans hu.grows
  sizes other := by
    show (v.pool other).size + _ = (u.pool other).size + _
    rw [hu.size, hv.size, h.sizes]
  items {other} j hj := by
    show (v.pool other).get? _ = ((u.pool other).get? j).map _
    by_cases same : other = entity
    · subst same
      rw [hu.modified, hv.modified, Pool.get?_modify, Pool.get?_modify, h.items j hj]
      by_cases eq : i = j
      · subst eq
        rw [if_pos rfl, if_pos rfl]
        cases hx : (s.store.pool other).get? i with
        | none => rfl
        | some x => exact congrArg some (commutes x hx)
      · rw [if_neg eq, if_neg fun placed => eq (place_injective new hj placed)]
    · rw [hu.others other same, hv.others other same, h.items j hj]
  closed := Store.IsSelfContained.modify h.closed hu fun _ => refers
  tables := h.tables
  chain := h.chain

/-- The first session changes a thing that was there before. -/
theorem modify_source (h : m.Relates s t) {i : Place entity} (old : m.source.Has i)
    {f : entity.Item → entity.Item} (hu : s.store.Modifies u entity i f) :
    m.Relates { s with store := u } t where
  base := h.base.trans hu.grows
  sizes other := by
    show _ = (u.pool other).size + _
    rw [hu.size, h.sizes]
  items {other} j hj := by
    show _ = ((u.pool other).get? j).map _
    rw [hu.get?_of_ne j (by rintro rfl rfl; exact hj old), h.items j hj]
  closed := Store.IsSelfContained.modify h.closed hu fun new => absurd old new
  tables := h.tables
  chain := h.chain

/-- The second session changes a thing that was there before. -/
theorem modify_target (h : m.Relates s t) {i : Place entity} (old : m.target.Has i)
    {f : entity.Item → entity.Item} (hv : t.store.Modifies v entity i f) :
    m.Relates s { t with store := v } where
  base := h.base
  sizes other := by
    show (v.pool other).size + _ = _
    rw [hv.size, h.sizes]
  items {other} j hj := by
    show (v.pool other).get? _ = _
    rw [hv.get?_of_ne (m.place j) (by rintro rfl rfl; exact not_has_place hj old), h.items j hj]
  closed := h.closed
  tables := h.tables
  chain := h.chain

end Relates
end Relocation
end Migration
