import Mathlib.Data.List.Basic
import Migration.Proofs.Relocation.Places

/-!
# Copies put in place

A store may hold a copy of what came into another one, with every place moved. Once the parts are in
place nothing is left of the places: the copies are the same changes, change sets and preconditions.

* `Relocation.Copies` — a store holds what another one holds, with every place moved
* `Relocation.changeSet?_place`, `Relocation.precondition?_place` — copies are the same once they
  are in place
-/

namespace Migration

theorem Store.preconditionTree_of_get? {s : Store} {i : PreconditionId} {p : DraftPrecondition}
    (h : s.preconditions.get? i = some p) (depth : Nat) : s.preconditionTree (depth + 1) i =
      some (.node p.record (p.nested.filterMap (s.preconditionTree depth))) := by
  rw [preconditionTree, h]
  rfl

/-- Where a store holds some preconditions of another one at other places, with what is inside them,
and each comes before what is inside it, the trees are the same at all depths that leave room for
what comes after them. -/
theorem Store.preconditionTree_of_copies {s u : Store} {place : PreconditionId → PreconditionId}
    {K : PreconditionId → Prop} (copies : ∀ i p, K i → s.preconditions.get? i = some p →
      u.preconditions.get? (place i) = some { p with nested := p.nested.map place })
    (closed : ∀ i p, K i → s.preconditions.get? i = some p →
      ∀ j ∈ p.nested, K j ∧ s.Has j ∧ i.index < j.index)
    (depth depth' : Nat) {i : PreconditionId} (hi : K i) (known : s.Has i)
    (room : s.preconditions.size ≤ i.index + depth)
    (room' : s.preconditions.size ≤ i.index + depth') :
    u.preconditionTree depth' (place i) = s.preconditionTree depth i := by
  have within : i.index < s.preconditions.size := known
  induction depth generalizing i depth' with
  | zero => omega
  | succ depth ih =>
    cases depth' with
    | zero => omega
    | succ depth' =>
      obtain ⟨p, hp⟩ := Store.exists_get?_of_has known
      have nested : (p.nested.map place).filterMap (u.preconditionTree depth') =
          p.nested.filterMap (s.preconditionTree depth) := by
        rw [List.filterMap_map]
        refine List.filterMap_congr fun j hj => ?_
        obtain ⟨hj, known, later⟩ := closed i p hi hp j hj
        exact ih depth' hj known (by omega) (by omega) known
      rw [preconditionTree_of_get? (copies i p hi hp), preconditionTree_of_get? hp, nested]

namespace Relocation

variable (m : Relocation)

/-- A store holds a copy of what came into another one. -/
def Copies (s u : Store) : Prop :=
  ∀ {entity : Entity} (i : Place entity), m.source.Added s i →
    (u.pool entity).get? (m.place i) = ((s.pool entity).get? i).map (m.item entity)

variable {m} {s u : Store}

theorem Relates.copies {s t : Session} (h : m.Relates s t) : m.Copies s.store t.store :=
  fun i new => h.items i new.1

theorem filterMap_place {α : Type} {entity : Entity} {f g : Place entity → Option α}
    {places : List (Place entity)} (same : ∀ i ∈ places, g (m.place i) = f i) :
    (places.map m.place).filterMap g = places.filterMap f := by
  rw [List.filterMap_map]
  exact List.filterMap_congr same

theorem change?_place (copies : m.Copies s u) (closed : m.source.IsSelfContained s) {i : ChangeId}
    (new : m.source.Added s i) : u.change? (m.place i) = s.change? i := by
  have placed : u.changes.get? (m.place i) = (s.changes.get? i).map (m.item .change) := copies i new
  unfold Store.change?
  rw [placed]
  cases hc : s.changes.get? i with
  | none => rfl
  | some c =>
    have refers : ∀ j ∈ c.columns, m.source.Added s j := @closed .change i c hc new.1
    have columns : (c.columns.map m.place).filterMap u.columns.get? =
        c.columns.filterMap s.columns.get? :=
      filterMap_place fun j hj => by
        have column : u.columns.get? (m.place j) = (s.columns.get? j).map id :=
          copies j (refers j hj)
        rw [column, Option.map_id, id]
    show some _ = some _
    unfold Store.completeChange
    rw [← columns]
    rfl

/-- What is inside a precondition came in after it, so at any depth that leaves room for what came
in after it the tree is the same. -/
theorem preconditionTree_place (copies : m.Copies s u) (closed : m.source.IsSelfContained s)
    (depth depth' : Nat) {i : PreconditionId} (new : m.source.Added s i)
    (room : s.preconditions.size ≤ i.index + depth)
    (room' : s.preconditions.size ≤ i.index + depth') :
    u.preconditionTree depth' (m.place i) = s.preconditionTree depth i := by
  refine Store.preconditionTree_of_copies (fun j p hj hp => ?_) (fun j p hj hp k hk => ?_) depth depth'
    new new.2 room room'
  · have placed : u.preconditions.get? (m.place j) =
        (s.preconditions.get? j).map (m.item .precondition) := copies j hj
    rw [placed, hp]
    rfl
  · obtain ⟨added, later⟩ := @closed .precondition j p hp hj.1 k hk
    exact ⟨added, added.2, later⟩

/-- So it is at any depth that leaves room in the store that is copied. -/
theorem precondition?_place (copies : m.Copies s u) (closed : m.source.IsSelfContained s) {depth : Nat}
    {i : PreconditionId} (new : m.source.Added s i)
    (room : s.preconditions.size ≤ i.index + depth) :
    u.precondition? (m.place i) = s.preconditionTree depth i := by
  refine preconditionTree_place copies closed _ _ new room ?_
  -- the copy of the last precondition shows how many there are at least
  have known : i.index < s.preconditions.size := new.2
  have after : ¬i.index < m.source.preconditions.size := new.1
  let last : PreconditionId := ⟨s.preconditions.size - 1⟩
  have added : m.source.Added s last := by
    constructor
    · show ¬s.preconditions.size - 1 < m.source.preconditions.size
      omega
    · show s.preconditions.size - 1 < s.preconditions.size
      omega
  obtain ⟨p, hp⟩ := Store.exists_get?_of_has added.2
  have placed := copies last added
  rw [hp] at placed
  have there : (m.place last).index < u.preconditions.size := Store.has_of_get? placed
  have index : (m.place last).index + m.source.preconditions.size =
    s.preconditions.size - 1 + m.target.preconditions.size := index_place added.1
  omega

theorem changeSet?_place (copies : m.Copies s u) (closed : m.source.IsSelfContained s)
    {i : ChangeSetId} (new : m.source.Added s i) : u.changeSet? (m.place i) = s.changeSet? i := by
  have placed : u.changeSets.get? (m.place i) = (s.changeSets.get? i).map (m.item .changeSet) :=
    copies i new
  unfold Store.changeSet?
  rw [placed]
  cases hc : s.changeSets.get? i with
  | none => rfl
  | some c =>
    obtain ⟨changes, rollback, preconditions⟩ := @closed .changeSet i c hc new.1
    have tree : (c.preconditions.map m.place).bind u.precondition? =
        c.preconditions.bind s.precondition? := by
      cases hp : c.preconditions with
      | none => rfl
      | some p => exact precondition?_place copies closed (preconditions p hp) (by omega)
    show some _ = some _
    unfold Store.completeChangeSet
    rw [← tree,
      ← filterMap_place (g := u.change?) fun j hj => change?_place copies closed (changes j hj),
      ← filterMap_place (g := u.change?) fun j hj => change?_place copies closed (rollback j hj)]
    rfl

end Relocation
end Migration
