import Migration.Proofs.Relocation.Reading

/-!
# What elements do in two sessions

An element does the same in two sessions that hold the same things at other places, as long as it
works on what came in: the sessions go on to hold the same things, and what the element leaves
behind in the one session is what it leaves behind in the other one, with every place moved.
Parameters and references to earlier change sets are left out: there it matters what else a session
holds.

* `Relocation.body`, `Relocation.element`, `Relocation.result` — what blocks, elements and results
  refer to, moved
* `Relocation.Pairs` — two steps give the same with every place moved
* `SessionM.act_pairs` — every element that neither declares a parameter, refers to a change set,
  nor includes a file
-/

namespace Migration

/-- An element neither declares a parameter nor refers to an earlier change set. -/
def Element.IsIndependent (x : Element) (positional : List Value) (a : Attributes) : Prop :=
  x ≠ .property ∧ ∀ owner i, x = .rollback owner i → positional = [] → a = []

namespace Relocation

variable (m : Relocation)

/-! ## Moved references -/

/-- A block with what it is about moved. -/
def body : Body → Body
  | .script => .script
  | .changeLog => .changeLog
  | .changeSet owner i => .changeSet owner (m.place i)
  | .rollback owner i => .rollback owner (m.place i)
  | .change owner name i => .change owner name (m.place i)
  | .whereParams owner name i => .whereParams owner name (m.place i)
  | .column owner name i => .column owner name (m.place i)
  | .preconditions owner i => .preconditions owner (m.place i)
  | .leaf owner element => .leaf owner element
  | .modifySql owner i filter => .modifySql owner (m.place i) filter

/-- What opening a result works on, moved. -/
def opening : Opening → Opening
  | .body inner => .body (m.body inner)
  | .constraints owner name i => .constraints owner name (m.place i)
  | .visitors owner i a => .visitors owner (m.place i) a

/-- What leaving a block works on, moved. -/
def completion : Completion → Completion
  | .nothing => .nothing
  | .appendChangeSet i => .appendChangeSet (m.place i)
  | .setPreconditions i => .setPreconditions (m.place i)
  | .setChangeSetPreconditions i container => .setChangeSetPreconditions (m.place i)
      (m.place container)

/-- A result that can be opened, with what it works on moved. -/
def scope (x : Scope) : Scope :=
  { x with opening := m.opening x.opening, completion := m.completion x.completion }

/-- What an element leaves behind, moved. -/
def result : Result → Result
  | .nothing => .nothing
  | .object type => .object type
  | .scope x => .scope (m.scope x)

/-- An element with what it works on moved. -/
def element : Element → Element
  | .changeLog => .changeLog
  | .property => .property
  | .changeSet => .changeSet
  | .include => .include
  | .includeAll => .includeAll
  | .includeAllSql => .includeAllSql
  | .preconditions owner i => .preconditions owner (i.map m.place)
  | .removeProperty => .removeProperty
  | .comment i => .comment (m.place i)
  | .checkSum i => .checkSum (m.place i)
  | .rollback owner i => .rollback owner (m.place i)
  | .modifySql owner i => .modifySql owner (m.place i)
  | .change owner name type i undoes => .change owner name type (m.place i) undoes
  | .column owner name i => .column owner name (m.place i)
  | .whereClause owner name i => .whereClause owner name (m.place i)
  | .whereParams owner name i => .whereParams owner name (m.place i)
  | .param owner name i => .param owner name (m.place i)
  | .constraints owner name i => .constraints owner name (m.place i)
  | .constraint owner name i key => .constraint owner name (m.place i) key
  | .group owner type i => .group owner type (m.place i)
  | .precondition owner name type i => .precondition owner name type (m.place i)
  | .visitor owner type i filter => .visitor owner type (m.place i) filter

/-! ## Steps that give places -/

/-- Two steps fail in the same way, or what the first one gives fits the store and the second one
gives the same moved. -/
def Pairs {α : Type} (c : Store) (Fits : Store → α → Prop) (move : α → α) (x y : SessionM α) :
    Prop :=
  ∀ ⦃s t⦄, m.At c s t → (y t).1 = (x s).1.map move ∧ m.At c (x s).2 (y t).2 ∧
    ∀ a, (x s).1 = .ok a → Fits (x s).2.store a

/-- A place came in after both stores. -/
def Fresh (c : Store) {entity : Entity} (s : Store) (i : Place entity) : Prop :=
  m.source.Added s i ∧ ¬c.Has i

end Relocation

open Relocation

variable {α β : Type} {m : Relocation} {c : Store}

namespace Relocation

theorem At.mono {c' : Store} {s t : Session} (grows : c.Grows c') (h : m.At c' s t) : m.At c s t :=
  ⟨h.relates, grows.trans h.grown⟩

namespace Pairs

variable {Fits : Store → α → Prop} {Fits' : Store → β → Prop} {move : α → α} {move' : β → β}
  {x y : SessionM α} {f g : α → SessionM β}

theorem pure {a : α} (fits : ∀ s, c.Grows s → Fits s a) :
    m.Pairs c Fits move (Pure.pure a) (Pure.pure (move a)) :=
  fun s _ h => ⟨rfl, h, fun b hb => by
    cases hb
    exact fits s.store h.grown⟩

theorem throw (e : Failure) :
    m.Pairs c Fits move (MonadExcept.throw e : SessionM α) (MonadExcept.throw e) :=
  fun _ _ h => ⟨rfl, h, fun _ hb => by cases hb⟩

theorem throw_bind (e : Failure) (f g : β → SessionM α) :
    m.Pairs c Fits move (MonadExcept.throw e >>= f) (MonadExcept.throw e >>= g) :=
  fun _ _ h => ⟨rfl, h, fun _ hb => by cases hb⟩

theorem ite {p : Prop} [Decidable p] {x' y' : SessionM α} (hx : m.Pairs c Fits move x y)
    (hx' : m.Pairs c Fits move x' y') :
    m.Pairs c Fits move (if p then x else x') (if p then y else y') := by
  split <;> assumption

theorem imp {Weaker : Store → α → Prop} (hx : m.Pairs c Fits move x y)
    (h : ∀ s a, Fits s a → Weaker s a) : m.Pairs c Weaker move x y := by
  intro s t related
  obtain ⟨same, related', fits⟩ := hx related
  exact ⟨same, related', fun a ha => h _ a (fits a ha)⟩

/-- A step that gives the same in both sessions, and one after it. -/
theorem bind_agrees (hx : Agrees (m.At c) x y) (hf : ∀ a, m.Pairs c Fits' move' (f a) (g a)) :
    m.Pairs c Fits' move' (x >>= f) (y >>= g) := by
  intro s t h
  obtain ⟨same, related⟩ := hx h
  rw [Step.run_bind, Step.run_bind]
  rcases hxs : x s with ⟨_ | a, s'⟩
  all_goals
    rcases hyt : y t with ⟨_ | b, t'⟩
    all_goals
      rw [hxs, hyt] at same related
      cases same
  · exact ⟨rfl, related, fun _ hb => by cases hb⟩
  · exact hf a related

/-- A step that gives a place, and one after it. -/
theorem bind (hx : m.Pairs c Fits move x y)
    (hf : ∀ c' a, c.Grows c' → Fits c' a → m.Pairs c' Fits' move' (f a) (g (move a))) :
    m.Pairs c Fits' move' (x >>= f) (y >>= g) := by
  intro s t h
  obtain ⟨same, related, fits⟩ := hx h
  rw [Step.run_bind, Step.run_bind]
  rcases hxs : x s with ⟨_ | a, s'⟩
  all_goals
    rcases hyt : y t with ⟨_ | b, t'⟩
    all_goals
      rw [hxs, hyt] at same related
      rw [hxs] at fits
      cases same
  · exact ⟨rfl, related, fun _ hb => by cases hb⟩
  · obtain ⟨same', related', fits'⟩ :=
      hf s'.store a related.grown (fits a rfl) ⟨related.relates, .refl _⟩
    exact ⟨same', related'.mono related.grown, fits'⟩

end Pairs
end Relocation

/-- A step that gives a place, and one after it that gives the same in both sessions. -/
theorem Agrees.bind_pairs {Fits : Store → α → Prop} {move : α → α} {x y : SessionM α}
    {f g : α → SessionM β} (hx : m.Pairs c Fits move x y)
    (hf : ∀ c' a, c.Grows c' → Fits c' a → Agrees (m.At c') (f a) (g (move a))) :
    Agrees (m.At c) (x >>= f) (y >>= g) := by
  intro s t h
  obtain ⟨same, related, fits⟩ := hx h
  rw [Step.run_bind, Step.run_bind]
  rcases hxs : x s with ⟨_ | a, s'⟩
  all_goals
    rcases hyt : y t with ⟨_ | b, t'⟩
    all_goals
      rw [hxs, hyt] at same related
      rw [hxs] at fits
      cases same
  · exact ⟨rfl, related⟩
  · obtain ⟨same', related'⟩ :=
      hf s'.store a related.grown (fits a rfl) ⟨related.relates, .refl _⟩
    exact ⟨same', related'.mono related.grown⟩

namespace SessionM

/-! ## Changes of the store -/

/-- What is put into both stores gets the next places. -/
theorem pairs_of_puts (entity : Entity) {x : entity.Item} {f g : SessionM (Place entity)}
    {u v : Session → Store}
    (hf : ∀ s : Session, f s = (.ok (s.store.pool entity).next, { s with store := u s }))
    (hg : ∀ t : Session, g t = (.ok (t.store.pool entity).next, { t with store := v t }))
    (hu : ∀ s : Session, s.store.Puts (u s) entity x)
    (hv : ∀ t : Session, t.store.Puts (v t) entity (m.item entity x))
    (refers : ∀ s i, c.Grows s → m.source.Refers s i x) :
    m.Pairs c (m.Fresh c) m.place f g := by
  intro s t h
  rw [hf, hg]
  refine ⟨congrArg Except.ok (h.relates.place_next entity).symm,
    ⟨h.relates.put (hu s) (hv t) (refers _ _ (h.grown.trans (hu s).grows)),
      h.grown.trans (hu s).grows⟩, fun i hi => ?_⟩
  cases hi
  have size : ((u s).pool entity).size = (s.store.pool entity).size + 1 := by
    rw [(hu s).added, Pool.size_add]
  exact ⟨Store.added_next h.relates.base entity size,
    fun old => s.store.not_has_next entity (h.grown.has old)⟩

theorem addColumn_pairs (x : Column) : m.Pairs c (m.Fresh c) m.place (addColumn x) (addColumn x) :=
  pairs_of_puts .column (fun _ => rfl) (fun _ => rfl) (fun _ => .column _ _) (fun _ => .column _ _)
    fun _ _ _ => trivial

theorem addChange_pairs {x : DraftChange} (refers : ∀ j ∈ x.columns, m.source.Added c j) :
    m.Pairs c (m.Fresh c) m.place (addChange x) (addChange (m.item .change x)) :=
  pairs_of_puts .change (fun _ => rfl) (fun _ => rfl) (fun _ => .change _ _) (fun _ => .change _ _)
    fun _ _ grows j hj => (refers j hj).mono grows

/-- A precondition is put in without any inside it. -/
theorem addPrecondition_pairs (r : Record) :
    m.Pairs c (m.Fresh c) m.place (addPrecondition { record := r })
      (addPrecondition { record := r }) :=
  pairs_of_puts .precondition (fun _ => rfl) (fun _ => rfl) (fun _ => .precondition _ _)
    (fun _ => .precondition _ _) fun _ _ _ => nofun

theorem addChangeSet_pairs {x : DraftChangeSet}
    (refers : ∀ s (i : ChangeSetId), c.Grows s → m.source.Refers s i x) :
    m.Pairs c (m.Fresh c) m.place (addChangeSet x) (addChangeSet (m.item .changeSet x)) :=
  pairs_of_puts .changeSet (fun _ => rfl) (fun _ => rfl) (fun _ => .changeSet _ _)
    (fun _ => .changeSet _ _) refers

theorem addDocument_pairs {x : DraftDocument} (parts : x.IsNew m.source c) :
    m.Pairs c (m.Fresh c) m.place (addDocument x) (addDocument (m.item .document x)) :=
  pairs_of_puts .document (fun _ => rfl) (fun _ => rfl) (fun _ => .document _ _)
    (fun _ => .document _ _) fun _ _ grows => parts.mono grows

/-- A thing that came in is changed in both stores. -/
theorem agrees_of_modifies (entity : Entity) {i : Place entity} (known : m.source.Added c i)
    {f g : entity.Item → entity.Item} {x y : SessionM Unit} {u v : Session → Store}
    (hx : ∀ s : Session, x s = (.ok (), { s with store := u s }))
    (hy : ∀ t : Session, y t = (.ok (), { t with store := v t }))
    (hu : ∀ s : Session, s.store.Modifies (u s) entity i f)
    (hv : ∀ t : Session, t.store.Modifies (v t) entity (m.place i) g)
    (commutes : ∀ a, g (m.item entity a) = m.item entity (f a))
    (refers : ∀ s a, c.Grows s → m.source.Refers s i a → m.source.Refers s i (f a)) :
    Agrees (m.At c) x y := by
  intro s t h
  rw [hx, hy]
  have grows := h.grown.trans (hu s).grows
  exact ⟨rfl, h.relates.modify known.1 (hu s) (hv t) (fun a _ => commutes a)
    fun a _ old => refers _ a grows (old.mono (hu s).grows), grows⟩

theorem modifyColumn_agrees {i : ColumnId} (known : m.source.Added c i) (f : Column → Column) :
    Agrees (m.At c) (modifyColumn i f) (modifyColumn (m.place i) f) :=
  agrees_of_modifies .column known (fun _ => rfl) (fun _ => rfl) (fun _ => .column _ _ _)
    (fun _ => .column _ _ _) (fun _ => rfl) fun _ _ _ h => h

theorem modifyChange_agrees {i : ChangeId} (known : m.source.Added c i)
    {f g : DraftChange → DraftChange} (commutes : ∀ x, g (m.item .change x) = m.item .change (f x))
    (refers : ∀ x, ∀ j ∈ (f x).columns, j ∈ x.columns ∨ m.source.Added c j) :
    Agrees (m.At c) (modifyChange i f) (modifyChange (m.place i) g) :=
  agrees_of_modifies .change known (fun _ => rfl) (fun _ => rfl) (fun _ => .change _ _ _)
    (fun _ => .change _ _ _) commutes fun _ x grows h j hj =>
      (refers x j hj).elim (h j) fun new => new.mono grows

theorem modifyChangeSet_agrees {i : ChangeSetId} (known : m.source.Added c i)
    {f g : DraftChangeSet → DraftChangeSet}
    (commutes : ∀ x, g (m.item .changeSet x) = m.item .changeSet (f x))
    (refers : ∀ s x, c.Grows s → m.source.Refers s i x → m.source.Refers s i (f x)) :
    Agrees (m.At c) (modifyChangeSet i f) (modifyChangeSet (m.place i) g) :=
  agrees_of_modifies .changeSet known (fun _ => rfl) (fun _ => rfl) (fun _ => .changeSet _ _ _)
    (fun _ => .changeSet _ _ _) commutes refers

theorem modifyDocument_agrees {i : DocumentId} (known : m.source.Added c i)
    {f g : DraftDocument → DraftDocument}
    (commutes : ∀ x, g (m.item .document x) = m.item .document (f x))
    (refers : ∀ s x, c.Grows s → x.IsNew m.source s → (f x).IsNew m.source s) :
    Agrees (m.At c) (modifyDocument i f) (modifyDocument (m.place i) g) :=
  agrees_of_modifies .document known (fun _ => rfl) (fun _ => rfl) (fun _ => .document _ _ _)
    (fun _ => .document _ _ _) commutes refers

/-- A precondition that came in after another one is put into it. -/
theorem nested_agrees {parent i : PreconditionId} (known : m.source.Added c parent)
    (new : m.source.Added c i) (later : parent.index < i.index) :
    Agrees (m.At c) (modifyPrecondition parent fun p => { p with nested := p.nested ++ [i] })
      (modifyPrecondition (m.place parent) fun p => { p with nested := p.nested ++ [m.place i] }) :=
  agrees_of_modifies .precondition known (fun _ => rfl) (fun _ => rfl)
    (fun _ => .precondition _ _ _) (fun _ => .precondition _ _ _)
    (fun p => by
      simp only [Relocation.item, List.map_append, List.map_cons, List.map_nil]
      rfl)
    fun s p grows old j hj => by
      rcases List.mem_append.1 hj with hj | hj
      · exact old j hj
      · obtain rfl := List.mem_singleton.1 hj
        exact ⟨new.mono grows, later⟩

/-! ## Elements of a document -/

variable {d : DocumentId}

theorem changeLog_agrees (known : m.source.Added c d) (a : Attributes) :
    Agrees (m.At c) (changeLog d a) (changeLog (m.place d) a) := by
  refine .bind (ofCheck_agrees _) fun _ => .bind ?_ fun _ => .bind ?_ fun _ => ?_
  · refine document_bind_agrees known fun doc => .ite ?_ (.pure _)
    refine .bind (expand_agrees known _) fun v => ?_
    exact modifyDocument_agrees known (fun _ => rfl) fun _ _ _ h => ⟨h.changeSets, h.preconditions⟩
  · refine .bind (contextFilter_agrees known _) fun contexts => ?_
    cases contexts with
    | none => exact .pure _
    | some contexts =>
      exact modifyDocument_agrees known (fun _ => rfl) fun _ _ _ h =>
        ⟨h.changeSets, h.preconditions⟩
  · refine .ite (.bind (expand_agrees known _) fun v => ?_) (.pure _)
    refine .bind (choice_agrees _ _ _) fun _ => ?_
    exact modifyDocument_agrees known (fun _ => rfl) fun _ _ _ h => ⟨h.changeSets, h.preconditions⟩

theorem addRemovals_agrees (known : m.source.Added c d) (removals : List Removal) :
    Agrees (m.At c) (modifyDocument d fun d => { d with removals := d.removals ++ removals })
      (modifyDocument (m.place d) fun d => { d with removals := d.removals ++ removals }) :=
  modifyDocument_agrees known (fun _ => rfl) fun _ _ _ h => ⟨h.changeSets, h.preconditions⟩

theorem removeProperty_agrees (known : m.source.Added c d) (e : Engine) (a : Attributes) :
    Agrees (m.At c) (removeProperty e d a) (removeProperty e (m.place d) a) := by
  refine .bind (readRemoval_agrees known _ _) fun removal => ?_
  cases removal with
  | none => exact .pure _
  | some removal => exact addRemovals_agrees known [removal]

theorem newContainer_pairs (known : m.source.Added c d) (owner : String) (a : Attributes) :
    m.Pairs c (m.Fresh c) m.place (newContainer d owner a) (newContainer (m.place d) owner a) :=
  .bind_agrees (fill_agrees known _ _ _ _) fun record => addPrecondition_pairs record

/-! ## Elements of a change set -/

theorem item_of_isBare {x : DraftChangeSet} (bare : x.IsBare) : m.item .changeSet x = x := by
  cases x
  obtain ⟨rfl, rfl, rfl⟩ := bare
  rfl

theorem pure_pairs_of_isBare {x : DraftChangeSet} (bare : x.IsBare) :
    m.Pairs c (fun _ => ChangeSet.IsBare) (m.item .changeSet) (pure x) (pure x) := by
  have same : m.Pairs c (fun _ => ChangeSet.IsBare) (m.item .changeSet) (pure x)
      (pure (m.item .changeSet x)) := .pure fun _ _ => bare
  rwa [item_of_isBare bare] at same

/-- A change set whose only part is one change. -/
theorem item_append_of_isBare {x : DraftChangeSet} (bare : x.IsBare) (j : ChangeId) :
    m.item .changeSet { x with changes := x.changes ++ [j] } =
      { x with changes := x.changes ++ [m.place j] } := by
  cases x
  obtain ⟨rfl, rfl, rfl⟩ := bare
  rfl

theorem refers_of_isBare {b s : Store} {i : ChangeSetId} {x : DraftChangeSet} (bare : x.IsBare) :
    b.Refers s i x := by
  cases x
  obtain ⟨rfl, rfl, rfl⟩ := bare
  exact ⟨nofun, nofun, nofun⟩

theorem addChangeSet_pairs_of_isBare {x : DraftChangeSet} (bare : x.IsBare) :
    m.Pairs c (m.Fresh c) m.place (addChangeSet x) (addChangeSet x) := by
  have put := addChangeSet_pairs (m := m) (c := c) fun _ i _ => refers_of_isBare (i := i) bare
  rwa [item_of_isBare bare] at put

theorem optionalParts_pairs (known : m.source.Added c d) (owner : String) (a : Attributes)
    {s : DraftChangeSet} (bare : s.IsBare) :
    m.Pairs c (fun _ => ChangeSet.IsBare) (m.item .changeSet) (optionalParts d owner a s)
      (optionalParts (m.place d) owner a s) := by
  have expands : ∀ v, Agrees (m.At c) (expand d v) (expand (m.place d) v) := expand_agrees known
  unfold optionalParts
  -- each part is followed by the parts after it, so the last one comes first
  extract_lets s₀ last ignored ordered created labelled validated s₁
    ordered' created' labelled' validated'
  have ignores : ∀ s, s.IsBare → m.Pairs c (fun _ => ChangeSet.IsBare) (m.item .changeSet)
      (ignored () s) (ignored () s) := fun s bare =>
    .ite (pure_pairs_of_isBare bare) (pure_pairs_of_isBare bare)
  have orders : ∀ s, s.IsBare → m.Pairs c (fun _ => ChangeSet.IsBare) (m.item .changeSet)
      (ordered () s) (ordered' () s) := fun s bare =>
    .ite (.bind_agrees (expands _) fun _ => .ite (.throw_bind _ _ _) (ignores _ bare))
      (ignores s bare)
  have creates : ∀ s, s.IsBare → m.Pairs c (fun _ => ChangeSet.IsBare) (m.item .changeSet)
      (created () s) (created' () s) := fun s bare =>
    .ite (.bind_agrees (expands _) fun _ => orders _ bare) (orders s bare)
  have labels : ∀ s, s.IsBare → m.Pairs c (fun _ => ChangeSet.IsBare) (m.item .changeSet)
      (labelled () s) (labelled' () s) := fun s bare =>
    .ite (.bind_agrees (expands _) fun _ => creates _ bare) (creates s bare)
  have validates : ∀ s, s.IsBare → m.Pairs c (fun _ => ChangeSet.IsBare) (m.item .changeSet)
      (validated () s) (validated' () s) := fun s bare =>
    .ite (.bind_agrees (expands _) fun _ => .bind_agrees (choice_agrees _ _ _) fun _ =>
      labels _ bare) (labels s bare)
  exact .ite (validates _ bare) (validates _ bare)

/-- Attributes describe a change set without parts. -/
theorem newChangeSet_pairs (known : m.source.Added c d) (a : Attributes) :
    m.Pairs c (fun _ => ChangeSet.IsBare) (m.item .changeSet) (newChangeSet d a)
      (newChangeSet (m.place d) a) := by
  unfold newChangeSet
  refine .bind_agrees (ofCheck_agrees _) fun _ => ?_
  refine .bind_agrees (quotingStrategy_agrees known _ _) fun quoting => ?_
  refine .bind_agrees (changeSetPath_agrees known _) fun path => ?_
  refine .bind_agrees (contextFilter_agrees known _) fun contexts => ?_
  refine .bind_agrees (expand_agrees known _) fun id => ?_
  refine .bind_agrees (expand_agrees known _) fun author => ?_
  refine .bind_agrees (expand_agrees known _) fun dbms => ?_
  refine .bind_agrees (ofMishap_agrees _) fun databases => ?_
  refine .bind_agrees (expand_agrees known _) fun runWith => ?_
  refine .bind_agrees (expand_agrees known _) fun spoolFile => ?_
  cases h : changeSetOf id author path runWith spoolFile with
  | error mishap => exact .throw_bind _ _ _
  | ok x =>
    simp only [ofMishap, pure_bind]
    have bare := isBare_of_changeSetOf h
    exact optionalParts_pairs known _ _ ⟨bare.1, bare.2.1, bare.2.2⟩

theorem addRollback_agrees {i : ChangeSetId} (known : m.source.Added c i) {changes : List ChangeId}
    (new : ∀ j ∈ changes, m.source.Added c j) :
    Agrees (m.At c) (addRollback i changes) (addRollback (m.place i) (changes.map m.place)) :=
  modifyChangeSet_agrees known (fun x => by simp only [Relocation.item, List.map_append])
    fun s x grows h => ⟨h.1, fun j hj => (List.mem_append.1 hj).elim (h.2.1 j) fun hj =>
      (new j hj).mono grows, h.2.2⟩

theorem attachChange_agrees {i : ChangeSetId} (known : m.source.Added c i) (undoes : Bool)
    {j : ChangeId} (new : m.source.Added c j) :
    Agrees (m.At c) (attachChange i undoes j) (attachChange (m.place i) undoes (m.place j)) := by
  have new : ∀ k ∈ [j], m.source.Added c k := fun k hk => List.mem_singleton.1 hk ▸ new
  refine .ite (addRollback_agrees known new) ?_
  exact modifyChangeSet_agrees known
    (fun x => by simp only [Relocation.item, List.map_append, List.map_cons, List.map_nil])
    fun s x grows h => ⟨fun k hk => (List.mem_append.1 hk).elim (h.1 k) fun hk =>
      (new k hk).mono grows, h.2⟩

/-- A rollback agrees unless it refers to a change set. -/
theorem rollback_pairs (known : m.source.Added c d) {i : ChangeSetId} (new : m.source.Added c i)
    (owner : String) {positional : List Value} {a : Attributes} (plain : positional = [] → a = []) :
    m.Pairs c (Result.IsNew m.source) m.result (rollback d owner i positional a)
      (rollback (m.place d) owner (m.place i) positional a) := by
  cases positional with
  | nil =>
    obtain rfl := plain rfl
    exact .pure fun s grows => ⟨new.mono grows, trivial⟩
  | cons sql more =>
    have byStatement : Agrees (m.At c) (rollbackBySql d i sql)
        (rollbackBySql (m.place d) (m.place i) sql) := by
      refine .bind (expand_agrees known _) fun v => .ite (.throw_bind _ _ _) ?_
      refine .bind_pairs (addChange_pairs nofun) fun c' j grows fresh => ?_
      exact addRollback_agrees (new.mono grows) fun k hk => List.mem_singleton.1 hk ▸ fresh.1
    refine .ite (.throw_bind _ _ _) (.bind_agrees byStatement fun _ => ?_)
    exact .pure fun _ _ => trivial

theorem visitor_agrees (known : m.source.Added c d) {i : ChangeSetId} (new : m.source.Added c i)
    (owner : String) (type : RecordType) (filter : VisitorFilter) (a : Attributes) :
    Agrees (m.At c) (visitor d owner type i filter a)
      (visitor (m.place d) owner type (m.place i) filter a) :=
  .bind (fill_agrees known _ _ _ _) fun _ =>
    modifyChangeSet_agrees new (fun _ => rfl) fun _ _ _ h => h

/-! ## Elements of a change -/

/-- What is read of a change in the store is read of the relocated change. -/
theorem change_eq {s t : Session} (h : m.At c s t) {i : ChangeId} (new : ¬m.source.Has i) :
    ∃ x, change i s = (.ok x, s) ∧ change (m.place i) t = (.ok (m.item .change x), t) := by
  refine ⟨_, rfl, ?_⟩
  show (Except.ok ((t.store.changes.get? (m.place i)).getD default), t) = _
  have placed : t.store.changes.get? (m.place i) = (s.store.changes.get? i).map (m.item .change) :=
    h.relates.items i new
  rw [placed]
  cases s.store.changes.get? i <;> rfl

theorem change_bind_agrees {i : ChangeId} (new : ¬m.source.Has i) {f g : DraftChange → SessionM α}
    (h : ∀ x, Agrees (m.At c) (f x) (g (m.item .change x))) :
    Agrees (m.At c) (change i >>= f) (change (m.place i) >>= g) := by
  intro s t related
  obtain ⟨x, hs, ht⟩ := change_eq related new
  rw [Step.run_bind_of_ok hs, Step.run_bind_of_ok ht]
  exact h x related

theorem change_bind_pairs {i : ChangeId} (new : ¬m.source.Has i) {Fits : Store → α → Prop}
    {move : α → α} {f g : DraftChange → SessionM α}
    (h : ∀ x, m.Pairs c Fits move (f x) (g (m.item .change x))) :
    m.Pairs c Fits move (change i >>= f) (change (m.place i) >>= g) := by
  intro s t related
  obtain ⟨x, hs, ht⟩ := change_eq related new
  rw [Step.run_bind_of_ok hs, Step.run_bind_of_ok ht]
  exact h x related

theorem column_pairs (known : m.source.Added c d) {i : ChangeId} (new : m.source.Added c i)
    (owner name : String) (a : Attributes) :
    m.Pairs c (fun s => m.source.Added s) m.place (column d owner name i a)
      (column (m.place d) owner name (m.place i) a) := by
  refine change_bind_pairs new.1 fun x => .bind_agrees (fill_agrees known _ _ _ _) fun record => ?_
  refine .ite (.throw_bind _ _ _) (.bind (addColumn_pairs _) fun c' j grows fresh => ?_)
  refine .bind_agrees ?_ fun _ => .pure fun _ grows => fresh.1.mono grows
  exact modifyChange_agrees (new.mono grows)
    (fun x => by simp only [Relocation.item, List.map_append, List.map_cons, List.map_nil])
    fun x k hk => by
      rcases List.mem_append.1 hk with hk | hk
      · exact .inl hk
      · obtain rfl := List.mem_singleton.1 hk
        exact .inr fresh.1

theorem whereClause_agrees (known : m.source.Added c d) {i : ChangeId} (new : m.source.Added c i)
    (owner name : String) (v : Value) :
    Agrees (m.At c) (whereClause d owner name i v)
      (whereClause (m.place d) owner name (m.place i) v) := by
  refine change_bind_agrees new.1 fun x => .ite (.throw_bind _ _ _) ?_
  refine .bind (expand_agrees known _) fun v => ?_
  dsimp only [Relocation.item]
  cases x.record.bind "where" v with
  | ok record => exact modifyChange_agrees new (fun _ => rfl) fun _ _ => .inl
  | error cause => exact reject_agrees _ _

theorem param_agrees (known : m.source.Added c d) {i : ChangeId} (new : m.source.Added c i)
    (owner name : String) (a : Attributes) :
    Agrees (m.At c) (param d owner name i a) (param (m.place d) owner name (m.place i) a) := by
  refine .bind (fill_agrees known _ _ _ _) fun record => change_bind_agrees new.1 fun x => ?_
  exact .ite (.throw_bind _ _ _) (modifyChange_agrees new (fun _ => rfl) fun _ _ => .inl)

theorem constraints_agrees (known : m.source.Added c d) {i : ColumnId} (new : m.source.Added c i)
    (owner name : String) (a : Attributes) :
    Agrees (m.At c) (constraints d owner name i a)
      (constraints (m.place d) owner name (m.place i) a) := by
  induction a with
  | nil => exact .pure _
  | cons entry rest ih =>
    refine .bind (expand_agrees known _) fun v => get_bind_agrees fun s t h => ?_
    have placed : t.store.columns.get? (m.place i) = s.store.columns.get? i :=
      (h.items i new.1).trans Option.map_id'
    rw [placed]
    dsimp only
    cases (((s.store.columns.get? i).getD default).constraints.getD
      (.fresh Catalog.constraints)).bind entry.1 v with
    | ok record => exact .bind (modifyColumn_agrees new _) fun _ => ih
    | error cause => exact .throw_bind _ _ _

theorem nest_pairs {parent : PreconditionId} (known : m.source.Added c parent) (r : Record) :
    m.Pairs c (fun s => m.source.Added s) m.place (nest parent r) (nest (m.place parent) r) := by
  refine .bind (addPrecondition_pairs r) fun c' i grows fresh => ?_
  refine .bind_agrees ?_ fun _ => .pure fun _ grows => fresh.1.mono grows
  exact nested_agrees (known.mono grows) fresh.1
    (Nat.lt_of_lt_of_le known.2 (Nat.le_of_not_lt fresh.2))

/-! ## Files of statements -/

theorem newStatements_pairs (known : m.source.Added c d) (a : Attributes) (id path : String) :
    m.Pairs c (fun s => m.source.Added s) m.place (newStatements d a id path)
      (newStatements (m.place d) a id path) := by
  refine .bind (newChangeSet_pairs known _) fun c₁ x grows₁ bare => ?_
  rw [item_of_isBare bare]
  refine .bind_agrees (fill_agrees (known.mono grows₁) _ _ _ _) fun record => ?_
  refine .bind (addChange_pairs nofun) fun c₂ j grows₂ fresh => ?_
  have put := addChangeSet_pairs (m := m) (c := c₂) (x := { x with changes := x.changes ++ [j] })
    fun s i grows => by
      have refers := refers_of_isBare (b := m.source) (s := s) (i := i) bare
      refine ⟨fun k hk => ?_, refers.2⟩
      rcases List.mem_append.1 hk with hk | hk
      · exact refers.1 k hk
      · obtain rfl := List.mem_singleton.1 hk
        exact fresh.1.mono grows
  rw [item_append_of_isBare bare] at put
  exact put.imp fun _ _ fresh => fresh.1

theorem includeAllSql_agrees (known : m.source.Added c d) (e : Engine) (a : Attributes) :
    Agrees (m.At c) (includeAllSql e d a) (includeAllSql e (m.place d) a) := by
  refine .bind (readIncludeAllSql_agrees known e a) fun named => ?_
  obtain ⟨paths, id⟩ := named
  induction paths with
  | nil => exact .pure _
  | cons path rest ih =>
    refine .bind (.bind_pairs (newStatements_pairs known _ _ _) fun c' i grows new => ?_) fun _ => ih
    exact modifyDocument_agrees (known.mono grows)
      (fun x => by simp only [Relocation.item, List.map_append, List.map_cons, List.map_nil])
      fun s x grows h => ⟨fun j hj => by
        rcases List.mem_append.1 hj with hj | hj
        · exact h.changeSets j hj
        · obtain rfl := List.mem_singleton.1 hj
          exact new.mono grows, h.preconditions⟩

/-! ## All elements -/

/-- What an element does, and what it leaves behind, is the same in both sessions if the element
works on what came in. -/
theorem act_pairs {e : Engine} {compiler compiler' : Compiler} {x : Element}
    {positional : List Value} {a : Attributes} (known : m.source.Added c d)
    (new : x.IsNew m.source c) (independent : x.IsIndependent positional a)
    (local_ : x ≠ .include ∧ x ≠ .includeAll) :
    m.Pairs c (Result.IsNew m.source) m.result (act e compiler d x positional a)
      (act e compiler' (m.place d) (m.element x) positional a) := by
  have nothing : m.Pairs c (Result.IsNew m.source) m.result (pure .nothing) (pure .nothing) :=
    .pure fun _ _ => trivial
  cases x with
  | changeLog =>
    exact .bind_agrees (changeLog_agrees known a) fun _ => .pure fun _ _ => ⟨trivial, trivial⟩
  | property => exact absurd rfl independent.1
  | «include» => exact absurd rfl local_.1
  | includeAll => exact absurd rfl local_.2
  | changeSet =>
    -- a change set refers to nothing when it is made, so nothing of it is relocated
    refine .bind (newChangeSet_pairs known a) fun c₁ y grows bare => ?_
    rw [item_of_isBare bare]
    refine .bind (addChangeSet_pairs_of_isBare bare) fun c₂ i grows fresh => ?_
    exact .pure fun s grows => ⟨fresh.1.mono grows, fresh.1.mono grows⟩
  | includeAllSql => exact .bind_agrees (includeAllSql_agrees known e a) fun _ => nothing
  | preconditions owner i =>
    refine .bind (newContainer_pairs known owner a) fun c' j grows fresh => ?_
    cases i with
    | none => exact .pure fun s grows => ⟨fresh.1.mono grows, fresh.1.mono grows⟩
    | some i =>
      exact .pure fun s grows' =>
        ⟨fresh.1.mono grows', (new.mono grows).mono grows', fresh.1.mono grows'⟩
  | removeProperty => exact .bind_agrees (removeProperty_agrees known e a) fun _ => nothing
  | comment i =>
    refine .bind_agrees (expand_agrees known _) fun v => .bind_agrees ?_ fun _ => nothing
    exact modifyChangeSet_agrees new (fun _ => rfl) fun _ _ _ h => h
  | checkSum i =>
    refine .bind_agrees (expand_agrees known _) fun v => .bind_agrees ?_ fun _ => nothing
    exact modifyChangeSet_agrees new (fun _ => rfl) fun _ _ _ h => h
  | rollback owner i => exact rollback_pairs known new owner (independent.2 owner i rfl)
  | modifySql owner i =>
    exact .bind_agrees (ofCheck_agrees _) fun _ => .pure fun s grows => ⟨new.mono grows, trivial⟩
  | change owner name type i undoes =>
    refine .bind_agrees (newRecord_agrees known _ _ _ _ _ _) fun record => ?_
    refine .bind (addChange_pairs nofun) fun c' j grows fresh => ?_
    refine .bind_agrees (attachChange_agrees (new.mono grows) undoes fresh.1) fun _ => ?_
    exact .pure fun s grows => ⟨fresh.1.mono grows, trivial⟩
  | column owner name i =>
    refine .bind (column_pairs known new owner name a) fun c' j grows added => ?_
    exact .pure fun s grows => ⟨added.mono grows, trivial⟩
  | whereClause owner name i =>
    exact .bind_agrees (whereClause_agrees known new owner name _) fun _ => nothing
  | whereParams owner name i => exact .pure fun s grows => ⟨new.mono grows, trivial⟩
  | param owner name i =>
    exact .bind_agrees (param_agrees known new owner name a) fun _ => .pure fun _ _ => trivial
  | constraints owner name i =>
    exact .bind_agrees (constraints_agrees known new owner name a) fun _ => nothing
  | constraint owner name i key =>
    exact .bind_agrees (constraints_agrees known new owner name _) fun _ => nothing
  | group owner type parent =>
    refine .bind (nest_pairs new _) fun c' j grows added => ?_
    exact .pure fun s grows => ⟨added.mono grows, trivial⟩
  | precondition owner name type parent =>
    refine .bind_agrees (newRecord_agrees known _ _ _ _ _ _) fun record => ?_
    refine .bind (nest_pairs new record) fun c' j grows added => ?_
    exact .pure fun s grows => ⟨trivial, trivial⟩
  | visitor owner type i filter =>
    exact .bind_agrees (visitor_agrees known new owner type filter a) fun _ => .pure fun _ _ => trivial

end SessionM
end Migration
