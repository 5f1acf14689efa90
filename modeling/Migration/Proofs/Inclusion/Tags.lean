import Migration.Proofs.Contribution

/-!
# What includes put on change sets

A merge puts the filters, the flag and the path of one include on the change sets that come in with
it. Along a chain of includes the innermost filter stays, the flags add up, and the outermost path
wins.

* `Tags.under` — what one include makes of a change set
* `Tags.Inherits` — what a chain of includes makes of it
* `Tags.inherits_through` — one include after the other comes to that
* `SessionM.get?_merge` — a merge puts an include on every change set that comes in, once
-/

namespace Migration

/-! ## Filters -/

section

variable {α : Type}

/-- A filter, unless there is nothing in it. -/
def present (isEmpty : α → Bool) (x : Option α) : Option α := x.filter (!isEmpty ·)

/-- The filter of an include, if there is one, in the place of an absent or empty filter. -/
def inherited (isEmpty : α → Bool) (outer inner : Option α) : Option α :=
  if outer.isSome && inner.all isEmpty then outer else inner

theorem present_inherited (isEmpty : α → Bool) (outer inner : Option α) :
    present isEmpty (inherited isEmpty outer inner) =
      (present isEmpty inner).or (present isEmpty outer) := by
  unfold inherited present
  cases inner with
  | none => cases outer <;> rfl
  | some x =>
    by_cases hx : isEmpty x = true
    · have nothing : Option.filter (!isEmpty ·) (some x) = none := by
        rw [Option.filter_some, hx]
        rfl
      rw [nothing]
      cases outer <;> simp [hx]
    · have all : Option.filter (!isEmpty ·) (some x) = some x := by
        rw [Option.filter_some, Bool.eq_false_iff.2 hx]
        rfl
      simp [hx, all]

theorem inherited_inherited (isEmpty : α → Bool) (outer inner : Option α) :
    inherited isEmpty outer (inherited isEmpty outer inner) = inherited isEmpty outer inner := by
  unfold inherited
  by_cases h : (outer.isSome && inner.all isEmpty) = true
  · rw [if_pos h]
    exact ite_self _
  · rw [if_neg h, if_neg h]

end

/-! ## Chains of includes -/

namespace Tags

/-- What an include makes of what a change set has. -/
def under (h : Inheritance) (path : Value) (t : Tags) : Tags where
  contexts := inherited ContextFilter.isEmpty h.contexts t.contexts
  labels := inherited Labels.isEmpty h.labels t.labels
  ignore := t.ignore || h.ignore
  filePath := if path.isTruthy then path else t.filePath

/-- What includes make of it one after the other, from the last one of the chain to the first. -/
def through (chain : List Request) (t : Tags) : Tags :=
  chain.foldr (fun r t => t.under r.inheritance r.logicalPath) t

/-- What a change set has after the includes of a chain, the outermost one first: the filters that
are nearest to it, its own ones before all others; the flag if it or any include has it; and the
path of the outermost include that gives one, or else its own. -/
structure Inherits (own : Tags) (chain : List Request) (t : Tags) : Prop where
  contexts : present ContextFilter.isEmpty t.contexts =
    (own.contexts :: chain.reverse.map (·.inheritance.contexts)).findSome?
      (present ContextFilter.isEmpty)
  labels : present Labels.isEmpty t.labels =
    (own.labels :: chain.reverse.map (·.inheritance.labels)).findSome? (present Labels.isEmpty)
  ignore : t.ignore = (own.ignore || chain.any (·.inheritance.ignore))
  filePath : t.filePath =
    ((chain.find? (·.logicalPath.isTruthy)).map (·.logicalPath)).getD own.filePath

theorem inherits_nil (own : Tags) : own.Inherits [] own where
  contexts := by simp
  labels := by simp
  ignore := by simp
  filePath := rfl

/-- One more include around the others. -/
theorem Inherits.under {own t : Tags} {chain : List Request} (h : own.Inherits chain t)
    (r : Request) : own.Inherits (r :: chain) (t.under r.inheritance r.logicalPath) where
  contexts := by
    show present _ (inherited _ _ _) = _
    rw [present_inherited, h.contexts, List.reverse_cons, List.map_append, ← List.cons_append,
      List.findSome?_append]
    simp
  labels := by
    show present _ (inherited _ _ _) = _
    rw [present_inherited, h.labels, List.reverse_cons, List.map_append, ← List.cons_append,
      List.findSome?_append]
    simp
  ignore := by
    show (t.ignore || r.inheritance.ignore) = _
    rw [h.ignore, List.any_cons, Bool.or_assoc, Bool.or_comm r.inheritance.ignore]
  filePath := by
    show (if _ then _ else t.filePath) = _
    rw [List.find?_cons]
    by_cases given : r.logicalPath.isTruthy = true
    · rw [if_pos given, given]
      rfl
    · rw [if_neg given, h.filePath, Bool.eq_false_iff.2 given]

/-- What includes make of a change set one after the other is what their chain makes of it. -/
theorem inherits_through (own : Tags) (chain : List Request) :
    own.Inherits chain (own.through chain) := by
  induction chain with
  | nil => exact inherits_nil own
  | cons r rest ih => exact ih.under r

end Tags

/-! ## Merges -/

theorem tags_applyTo (h : Inheritance) (path : Value) (c : DraftChangeSet) :
    (h.applyTo path c).tags = c.tags.under h path :=
  rfl

/-- An include that comes to a change set once more changes nothing. -/
theorem applyTo_applyTo (h : Inheritance) (path : Value) (c : DraftChangeSet) :
    h.applyTo path (h.applyTo path c) = h.applyTo path c := by
  have contexts := inherited_inherited ContextFilter.isEmpty h.contexts c.contexts
  have labels := inherited_inherited Labels.isEmpty h.labels c.labels
  unfold inherited at contexts labels
  unfold Inheritance.applyTo
  dsimp only
  rw [contexts, labels, Bool.or_assoc, Bool.or_self]
  congr 1
  split <;> rfl

namespace SessionM

variable {d : DocumentId} {s : Session}

/-- What change sets have after a merge: those that come in have been under the include. -/
theorem get?_mergeChangeSets (h : Inheritance) (path : Value) (ids : List ChangeSetId) (s : Session)
    (i : ChangeSetId) :
    (mergeChangeSets d h path ids s).2.store.changeSets.get? i =
      if i ∈ ids then (s.store.changeSets.get? i).map (h.applyTo path)
      else s.store.changeSets.get? i := by
  induction ids generalizing s with
  | nil => rfl
  | cons j rest ih =>
    let s₁ := (modifyDocument d (fun d => { d with changeSets := d.changeSets ++ [j] })
      (modifyChangeSet j (h.applyTo path) s).2).2
    have first : s₁.store.changeSets.get? i =
        if j = i then (s.store.changeSets.get? i).map (h.applyTo path)
        else s.store.changeSets.get? i := Pool.get?_modify ..
    refine (ih s₁).trans ?_
    rw [first]
    by_cases hj : j = i
    · subst hj
      rw [if_pos rfl, if_pos List.mem_cons_self]
      split
      · rw [Option.map_map]
        refine congrArg (Option.map · _) (funext fun c => ?_)
        exact applyTo_applyTo h path c
      · rfl
    · have same : i ∈ j :: rest ↔ i ∈ rest := by
        rw [List.mem_cons, or_iff_right fun eq => hj eq.symm]
      rw [if_neg hj]
      simp only [same]

theorem changeSets_nestContainer (container : PreconditionId) (s : Session) :
    (nestContainer d container s).2.store.changeSets = s.store.changeSets := by
  show ((if _ then _ else _ : SessionM Unit) s).2.store.changeSets = _
  split <;> rfl

/-- A merge puts the include on the change sets that come in, and leaves the others alone. -/
theorem get?_merge {child : DocumentId} {c : DraftDocument}
    (hc : s.store.documents.get? child = some c) (path : Value) (i : ChangeSetId) :
    (merge d child path s).2.store.changeSets.get? i =
      if i ∈ c.changeSets then (s.store.changeSets.get? i).map (c.inheritance.applyTo path)
      else s.store.changeSets.get? i := by
  rw [merge_eq hc, ← get?_mergeChangeSets]
  exact congrArg (·.get? i) (changeSets_nestContainer _ _)

end SessionM
end Migration
