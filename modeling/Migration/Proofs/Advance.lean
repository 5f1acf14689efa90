import Migration.Proofs.Step

/-!
# How a compile advances

The store only grows, and scripts change only what came into it after they were opened. What one
step of a script can do to the session is said once, by a relation that holds of every element, and
what a whole compile can do by another one.

* `Store.Grows`, `Store.Added` — places are never taken away; places that came in between
* `Session.Extends` — nothing that was there has changed, and what is new refers only to what is new
* `Session.Advances` — a document has gained something, and its script has touched only what is its
  own
-/

namespace Migration

/-! ## Places -/

/-- What stands at a place of some kind. -/
def Entity.Item : Entity → Type
  | column => Column
  | change => DraftChange
  | precondition => DraftPrecondition
  | changeSet => DraftChangeSet
  | document => DraftDocument

namespace Store

/-- The pool of the things of one kind. -/
def pool (s : Store) : (entity : Entity) → Pool entity entity.Item
  | .column => s.columns
  | .change => s.changes
  | .precondition => s.preconditions
  | .changeSet => s.changeSets
  | .document => s.documents

/-- Something stands at a place. -/
def Has (s : Store) {entity : Entity} (i : Place entity) : Prop := i.index < (s.pool entity).size

/-- A store has all the places that another one has. -/
def Grows (s s' : Store) : Prop := ∀ entity, (s.pool entity).size ≤ (s'.pool entity).size

/-- A place came in between two stores. -/
def Added (s s' : Store) {entity : Entity} (i : Place entity) : Prop := ¬s.Has i ∧ s'.Has i

variable {s s' s'' : Store} {entity : Entity} {i : Place entity}

theorem Grows.refl (s : Store) : s.Grows s := fun _ => Nat.le_refl _

theorem Grows.trans (h : s.Grows s') (h' : s'.Grows s'') : s.Grows s'' :=
  fun entity => Nat.le_trans (h entity) (h' entity)

theorem Grows.has (h : s.Grows s') (hi : s.Has i) : s'.Has i := Nat.lt_of_lt_of_le hi (h entity)

theorem Added.mono (h : s'.Grows s'') (hi : s.Added s' i) : s.Added s'' i := ⟨hi.1, h.has hi.2⟩

theorem Added.of_grows (h : s.Grows s') (hi : s'.Added s'' i) : s.Added s'' i :=
  ⟨fun old => hi.1 (h.has old), hi.2⟩

theorem has_of_get? {x : entity.Item} (h : (s.pool entity).get? i = some x) : s.Has i := by
  unfold Pool.get? at h
  exact (Array.getElem?_eq_some_iff.1 h).1

theorem exists_get?_of_has (h : s.Has i) : ∃ x, (s.pool entity).get? i = some x :=
  ⟨_, Array.getElem?_eq_getElem h⟩

theorem get?_eq_none_of_not_has (h : ¬s.Has i) : (s.pool entity).get? i = none :=
  Array.getElem?_eq_none (Nat.le_of_not_lt h)

theorem not_has_next (s : Store) (entity : Entity) : ¬s.Has (s.pool entity).next :=
  Nat.lt_irrefl _

theorem added_next {b : Store} (base : b.Grows s) (entity : Entity)
    (size : (s'.pool entity).size = (s.pool entity).size + 1) :
    b.Added s' (s.pool entity).next :=
  ⟨fun old => s.not_has_next entity (base.has old),
    Nat.lt_of_lt_of_eq (Nat.lt_succ_self _) size.symm⟩

/-- Preconditions come to stand behind those that are inside others already, but only new ones
do. -/
structure Deepens (s s' : Store) : Prop where
  grows : s.Grows s'
  nested : ∀ i p, s.preconditions.get? i = some p →
    ∃ p' more, s'.preconditions.get? i = some p' ∧ p'.nested = p.nested ++ more ∧
      ∀ j ∈ more, s.Added s' j
  newPreconditions : ∀ i p, s'.preconditions.get? i = some p → ¬s.Has i →
    ∀ j ∈ p.nested, s.Added s' j

namespace Deepens

theorem trans (h : s.Deepens s') (h' : s'.Deepens s'') : s.Deepens s'' where
  grows := h.grows.trans h'.grows
  nested i p hp := by
    obtain ⟨p', more, hp', heq, hmore⟩ := h.nested i p hp
    obtain ⟨p'', more', hp'', heq', hmore'⟩ := h'.nested i p' hp'
    refine ⟨p'', more ++ more', hp'', by rw [heq', heq, List.append_assoc], fun j hj => ?_⟩
    rcases List.mem_append.1 hj with hj | hj
    · exact (hmore j hj).mono h'.grows
    · exact (hmore' j hj).of_grows h.grows
  newPreconditions i p hp new j hj := by
    by_cases old : s'.Has i
    · obtain ⟨p₁, hp₁⟩ := exists_get?_of_has old
      obtain ⟨p', more, hp', heq, hmore⟩ := h'.nested i p₁ hp₁
      obtain rfl : p' = p := Option.some.inj (hp'.symm.trans hp)
      rw [heq] at hj
      rcases List.mem_append.1 hj with hj | hj
      · exact (h.newPreconditions i p₁ hp₁ new j hj).mono h'.grows
      · exact (hmore j hj).of_grows h.grows
    · exact (h'.newPreconditions i p hp old j hj).of_grows h.grows

theorem of_same (grows : s.Grows s') (same : s'.preconditions = s.preconditions) :
    s.Deepens s' where
  grows := grows
  nested i p hp := ⟨p, [], same ▸ hp, (List.append_nil _).symm, by simp⟩
  newPreconditions i p hp new := absurd (has_of_get? (same ▸ hp)) new

/-- A precondition that came in on the way is put into another one. -/
theorem nest (h : s.Deepens s') {parent i : PreconditionId} (new : s.Added s' i) :
    s.Deepens { s' with preconditions := s'.preconditions.modify parent fun p =>
      { p with nested := p.nested ++ [i] } } := by
  have sizes : s'.Grows { s' with preconditions := s'.preconditions.modify parent fun p =>
      { p with nested := p.nested ++ [i] } } := by
    intro entity
    cases entity <;> first | exact Nat.le_refl _ | exact Nat.le_of_eq (Pool.size_modify ..).symm
  refine ⟨h.grows.trans sizes, fun j p hp => ?_, fun j p hp hj k hk => ?_⟩
  · obtain ⟨p', more, hp', heq, hmore⟩ := h.nested j p hp
    by_cases hj : parent = j
    · refine ⟨{ p' with nested := p'.nested ++ [i] }, more ++ [i], ?_, ?_, fun k hk => ?_⟩
      · rw [Pool.get?_modify, if_pos hj, hp']
        rfl
      · rw [heq, List.append_assoc]
      · rcases List.mem_append.1 hk with hk | hk
        · exact (hmore k hk).mono sizes
        · obtain rfl := List.mem_singleton.1 hk
          exact new.mono sizes
    · exact ⟨p', more, by rw [Pool.get?_modify, if_neg hj, hp'], heq,
        fun k hk => (hmore k hk).mono sizes⟩
  · rw [Pool.get?_modify] at hp
    split at hp
    · obtain ⟨q, hq, rfl⟩ := Option.map_eq_some_iff.1 hp
      rcases List.mem_append.1 hk with hk | hk
      · exact (h.newPreconditions j q hq hj k hk).mono sizes
      · obtain rfl := List.mem_singleton.1 hk
        exact new.mono sizes
    · exact (h.newPreconditions j p hp hj k hk).mono sizes

end Deepens
end Store

/-! ## What includes put on change sets -/

/-- What a change set has from the includes that bring it in, or else by itself. -/
structure Tags extends Inheritance where
  filePath : Value

/-- What includes can put on a change set. -/
def ChangeSet.tags {Part Check : Type} (s : ChangeSet Part Check) : Tags where
  contexts := s.contexts
  labels := s.labels
  ignore := s.ignore
  filePath := s.filePath

/-! ## What a document gains -/

/-- What a document gains: change sets and removals at the end, and perhaps another container for
its preconditions. -/
@[ext] structure Gain where
  changeSets : List ChangeSetId := []
  removals : List Removal := []
  container : Option PreconditionId := none

namespace Gain

/-- One gain after the other. -/
def append (g h : Gain) : Gain where
  changeSets := g.changeSets ++ h.changeSets
  removals := g.removals ++ h.removals
  container := h.container.or g.container

instance : Append Gain := ⟨append⟩

@[simp] theorem changeSets_append (g h : Gain) :
    (g ++ h).changeSets = g.changeSets ++ h.changeSets := rfl

@[simp] theorem removals_append (g h : Gain) : (g ++ h).removals = g.removals ++ h.removals := rfl

@[simp] theorem container_append (g h : Gain) :
    (g ++ h).container = h.container.or g.container := rfl

@[simp] theorem append_empty (g : Gain) : g ++ ({} : Gain) = g :=
  Gain.ext (List.append_nil _) (List.append_nil _) rfl

@[simp] theorem empty_append (g : Gain) : ({} : Gain) ++ g = g :=
  Gain.ext rfl rfl (Option.or_none)

theorem append_assoc (g h k : Gain) : g ++ h ++ k = g ++ (h ++ k) :=
  Gain.ext (List.append_assoc _ _ _) (List.append_assoc _ _ _) (Option.or_assoc).symm

/-- What is gained came in between two stores. -/
structure IsNew (b s : Store) (g : Gain) : Prop where
  changeSets : ∀ i ∈ g.changeSets, b.Added s i
  container : ∀ i ∈ g.container, b.Added s i

theorem isNew_empty (b s : Store) : ({} : Gain).IsNew b s where
  changeSets := by simp
  container := by simp

theorem isNew_changeSet {b s : Store} {i : ChangeSetId} (h : b.Added s i) :
    ({ changeSets := [i] } : Gain).IsNew b s where
  changeSets j hj := by
    obtain rfl := List.mem_singleton.1 hj
    exact h
  container := by simp

theorem isNew_container {b s : Store} {c : PreconditionId} (h : b.Added s c) :
    ({ container := some c } : Gain).IsNew b s where
  changeSets := by simp
  container j hj := by
    obtain rfl := Option.mem_some.1 hj
    exact h

theorem IsNew.append {b s : Store} {g h : Gain} (hg : g.IsNew b s) (hh : h.IsNew b s) :
    (g ++ h).IsNew b s where
  changeSets i hi := by
    rcases List.mem_append.1 hi with hi | hi
    · exact hg.changeSets i hi
    · exact hh.changeSets i hi
  container i hi := by
    rw [container_append] at hi
    rcases hc : h.container with _ | c <;> rw [hc] at hi
    · exact hg.container i hi
    · exact hh.container i (hc ▸ hi)

theorem IsNew.mono {b s s' : Store} {g : Gain} (h : s.Grows s') (hg : g.IsNew b s) :
    g.IsNew b s' where
  changeSets i hi := (hg.changeSets i hi).mono h
  container i hi := (hg.container i hi).mono h

theorem IsNew.of_grows {b s s' : Store} {g : Gain} (h : b.Grows s) (hg : g.IsNew s s') :
    g.IsNew b s' where
  changeSets i hi := (hg.changeSets i hi).of_grows h
  container i hi := (hg.container i hi).of_grows h

end Gain

/-- A document after a gain. What it is apart from its parts may have been set. -/
structure Document.Gains (g : Gain) (d d' : DraftDocument) : Prop where
  changeSets : d'.changeSets = d.changeSets ++ g.changeSets
  removals : d'.removals = d.removals ++ g.removals
  preconditions : d'.preconditions = g.container.getD d.preconditions
  inheritance : d'.inheritance = d.inheritance
  physicalPath : d'.physicalPath = d.physicalPath
  parent : d'.parent = d.parent

namespace Document.Gains

variable {d d' d'' : DraftDocument} {g h : Gain}

theorem of_same (changeSets : d'.changeSets = d.changeSets) (removals : d'.removals = d.removals)
    (preconditions : d'.preconditions = d.preconditions)
    (inheritance : d'.inheritance = d.inheritance) (physicalPath : d'.physicalPath = d.physicalPath)
    (parent : d'.parent = d.parent) : Gains {} d d' where
  changeSets := by rw [changeSets, List.append_nil]
  removals := by rw [removals, List.append_nil]
  preconditions := preconditions
  inheritance := inheritance
  physicalPath := physicalPath
  parent := parent

theorem refl (d : DraftDocument) : Gains {} d d := of_same rfl rfl rfl rfl rfl rfl

theorem trans (hg : Gains g d d') (hh : Gains h d' d'') : Gains (g ++ h) d d'' where
  changeSets := by rw [hh.changeSets, hg.changeSets, List.append_assoc]; rfl
  removals := by rw [hh.removals, hg.removals, List.append_assoc]; rfl
  preconditions := by
    rw [hh.preconditions, hg.preconditions, Gain.container_append]
    cases h.container <;> rfl
  inheritance := hh.inheritance.trans hg.inheritance
  physicalPath := hh.physicalPath.trans hg.physicalPath
  parent := hh.parent.trans hg.parent

end Document.Gains

/-- The parts of a document came in between two stores. -/
structure Document.IsNew (b s : Store) (d : DraftDocument) : Prop where
  changeSets : ∀ i ∈ d.changeSets, b.Added s i
  preconditions : b.Added s d.preconditions

namespace Document.IsNew

variable {b s s' : Store} {d d' : DraftDocument} {g : Gain}

theorem mono (h : s.Grows s') (hd : d.IsNew b s) : d.IsNew b s' where
  changeSets i hi := (hd.changeSets i hi).mono h
  preconditions := hd.preconditions.mono h

theorem of_grows (h : b.Grows s) (hd : d.IsNew s s') : d.IsNew b s' where
  changeSets i hi := (hd.changeSets i hi).of_grows h
  preconditions := hd.preconditions.of_grows h

theorem gains (hd : d.IsNew b s) (hg : g.IsNew b s) (h : Document.Gains g d d') :
    d'.IsNew b s where
  changeSets i hi := by
    rw [h.changeSets] at hi
    rcases List.mem_append.1 hi with hi | hi
    · exact hd.changeSets i hi
    · exact hg.changeSets i hi
  preconditions := by
    rw [h.preconditions]
    rcases hc : g.container with _ | c
    · exact hd.preconditions
    · exact hg.container c hc

end Document.IsNew

namespace Session

/-- The store has grown between two sessions. -/
def Grows (s s' : Session) : Prop := s.store.Grows s'.store

instance : IsPreorder Session Grows where
  refl s := Store.Grows.refl s.store
  trans _ _ _ := Store.Grows.trans

/-! ## What a compile does -/

/-- Nothing that was there has changed, and what is new refers only to what is new. -/
structure Extends (s s' : Session) : Prop where
  chain : s'.chain = s.chain
  grows : s.store.Grows s'.store
  kept : ∀ {entity : Entity} (i : Place entity), s.store.Has i →
    (s'.store.pool entity).get? i = (s.store.pool entity).get? i
  newDocuments : ∀ i d, s'.store.documents.get? i = some d → ¬s.store.Has i →
    d.IsNew s.store s'.store
  newPreconditions : ∀ i p, s'.store.preconditions.get? i = some p → ¬s.store.Has i →
    ∀ j ∈ p.nested, s.store.Added s'.store j

namespace Extends

variable {s s' s'' : Session}

theorem of_same (store : s'.store = s.store) (chain : s'.chain = s.chain) : s.Extends s' where
  chain := chain
  grows := store ▸ Store.Grows.refl _
  kept _ _ := by rw [store]
  newDocuments i _ h new := absurd (store ▸ Store.has_of_get? h) new
  newPreconditions i _ h new := absurd (store ▸ Store.has_of_get? h) new

theorem refl (s : Session) : s.Extends s := of_same rfl rfl

/-- What stays as it was has the same preconditions inside. -/
theorem deepens (h : s.Extends s') : s.store.Deepens s'.store where
  grows := h.grows
  nested i p hp := by
    have old : s.store.Has i := Store.has_of_get? hp
    exact ⟨p, [], (h.kept i old).trans hp, (List.append_nil _).symm, by simp⟩
  newPreconditions := h.newPreconditions

theorem trans (h : s.Extends s') (h' : s'.Extends s'') : s.Extends s'' where
  chain := h'.chain.trans h.chain
  grows := h.grows.trans h'.grows
  kept i hi := (h'.kept i (h.grows.has hi)).trans (h.kept i hi)
  newDocuments i d hd new := by
    by_cases old : s'.store.Has i
    · have hd' : s'.store.documents.get? i = some d := (h'.kept i old).symm.trans hd
      exact (h.newDocuments i d hd' new).mono h'.grows
    · exact (h'.newDocuments i d hd old).of_grows h.grows
  newPreconditions := (h.deepens.trans h'.deepens).newPreconditions

instance : IsPreorder Session Extends where
  refl := refl
  trans _ _ _ := trans

end Extends

/-! ## What a script does -/

/-- A document has gained something. The script that builds it was opened on the store `b`, and has
changed nothing that was there by then. -/
structure Advances (b : Store) (d : DocumentId) (g : Gain) (s s' : Session) : Prop where
  chain : s'.chain = s.chain
  deepens : s.store.Deepens s'.store
  kept : ∀ {entity : Entity} (i : Place entity), b.Has i →
    (s'.store.pool entity).get? i = (s.store.pool entity).get? i
  document : ∀ doc, s.store.documents.get? d = some doc →
    ∃ doc', s'.store.documents.get? d = some doc' ∧ Document.Gains g doc doc'
  others : ∀ i, s.store.Has i → i ≠ d → s'.store.documents.get? i = s.store.documents.get? i
  tags : ∀ i c, s.store.changeSets.get? i = some c →
    ∃ c', s'.store.changeSets.get? i = some c' ∧ c'.tags = c.tags
  newDocuments : ∀ i doc, s'.store.documents.get? i = some doc → ¬s.store.Has i →
    doc.IsNew s.store s'.store

namespace Advances

variable {b : Store} {d : DocumentId} {g h : Gain} {s s' s'' : Session}

theorem grows (h : Advances b d g s s') : s.store.Grows s'.store := h.deepens.grows

/-- What changes nothing that was there changes nothing of a script. -/
theorem of_extends (base : b.Grows s.store) (hs : s.Extends s') : Advances b d {} s s' where
  chain := hs.chain
  deepens := hs.deepens
  kept i hi := hs.kept i (base.has hi)
  document doc hd := by
    have old : s.store.Has d := Store.has_of_get? hd
    exact ⟨doc, (hs.kept d old).trans hd, .refl doc⟩
  others i hi _ := hs.kept i hi
  tags i c hc := by
    have old : s.store.Has i := Store.has_of_get? hc
    exact ⟨c, (hs.kept i old).trans hc, rfl⟩
  newDocuments := hs.newDocuments

theorem refl (base : b.Grows s.store) : Advances b d {} s s := of_extends base (.refl s)

/-- What the document of an advance has gained. -/
theorem gains (h : Advances b d g s s') {doc doc' : DraftDocument}
    (hd : s.store.documents.get? d = some doc) (hd' : s'.store.documents.get? d = some doc') :
    Document.Gains g doc doc' := by
  obtain ⟨found, hf, gains⟩ := h.document doc hd
  obtain rfl : found = doc' := Option.some.inj (hf.symm.trans hd')
  exact gains

theorem trans (h₁ : Advances b d g s s') (h₂ : Advances b d h s' s'')
    (known : s.store.Has d) : Advances b d (g ++ h) s s'' where
  chain := h₂.chain.trans h₁.chain
  deepens := h₁.deepens.trans h₂.deepens
  kept i hi := (h₂.kept i hi).trans (h₁.kept i hi)
  document doc hd := by
    obtain ⟨doc', hd', gains⟩ := h₁.document doc hd
    obtain ⟨doc'', hd'', gains'⟩ := h₂.document doc' hd'
    exact ⟨doc'', hd'', gains.trans gains'⟩
  others i hi hne := (h₂.others i (h₁.grows.has hi) hne).trans (h₁.others i hi hne)
  tags i c hc := by
    obtain ⟨c', hc', same⟩ := h₁.tags i c hc
    obtain ⟨c'', hc'', same'⟩ := h₂.tags i c' hc'
    exact ⟨c'', hc'', same'.trans same⟩
  newDocuments i doc hd new := by
    by_cases old : s'.store.Has i
    · have hne : i ≠ d := fun eq => new (eq ▸ known)
      have hd' : s'.store.documents.get? i = some doc := (h₂.others i old hne).symm.trans hd
      exact (h₁.newDocuments i doc hd' new).mono h₂.grows
    · exact (h₂.newDocuments i doc hd old).of_grows h₁.grows

end Advances
end Session
end Migration
