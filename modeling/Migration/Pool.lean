/-!
# Pools

Things that are referred to from several places, and whose later changes show in all of them, are
kept in pools and referred to by their place. Nothing is ever taken out of a pool.

* `Pool.add` — puts a thing in at a fresh place
* `Pool.get?` — the thing at a place
* `Pool.modify` — changes the thing at a place
-/

namespace Migration

/-- What a place in a pool can hold. -/
inductive Entity where
  | column
  | change
  | precondition
  | changeSet
  | document
  deriving DecidableEq, Repr

/-- A place in the pool of one kind of things. -/
structure Place (entity : Entity) where
  index : Nat
  deriving DecidableEq, Repr, Inhabited

/-- Things of one kind, numbered in the order in which they were put in. -/
structure Pool (entity : Entity) (α : Type) where
  items : Array α

namespace Pool

variable {entity : Entity} {α : Type}

/-- No things. -/
def empty : Pool entity α := ⟨#[]⟩

/-- How many things there are. -/
def size (p : Pool entity α) : Nat := p.items.size

/-- The thing at a place. -/
def get? (p : Pool entity α) (i : Place entity) : Option α := p.items[i.index]?

/-- The place of the next thing. -/
def next (p : Pool entity α) : Place entity := ⟨p.size⟩

/-- The pool with one thing more, at the next place. -/
def add (p : Pool entity α) (x : α) : Pool entity α := ⟨p.items.push x⟩

/-- The pool with the thing at a place changed. -/
def modify (p : Pool entity α) (i : Place entity) (f : α → α) : Pool entity α :=
  ⟨p.items.modify i.index f⟩

@[simp] theorem size_empty : (empty : Pool entity α).size = 0 := rfl

@[simp] theorem size_add (p : Pool entity α) (x : α) : (p.add x).size = p.size + 1 := by
  simp [add, size]

@[simp] theorem size_modify (p : Pool entity α) (i : Place entity) (f : α → α) :
    (p.modify i f).size = p.size := by
  simp [modify, size]

/-- A new thing is found at its place, and the others stay at theirs. -/
theorem get?_add (p : Pool entity α) (x : α) (i : Place entity) :
    (p.add x).get? i = if i = p.next then some x else p.get? i := by
  cases i
  simp only [get?, add, next, size, Place.mk.injEq, Array.getElem?_push]

/-- A change shows at its place only. -/
theorem get?_modify (p : Pool entity α) (i j : Place entity) (f : α → α) :
    (p.modify i f).get? j = if i = j then (p.get? j).map f else p.get? j := by
  cases i; cases j
  simp only [get?, modify, Place.mk.injEq, Array.getElem?_modify]

end Pool
end Migration
