import Migration.Proofs.Inclusion.Nesting
import Migration.Proofs.Relocation.Inclusions

/-!
# Merges into two documents

A document that is merged into two others, each in a session of its own, brings the same into both
of them. What is merged later changes only the document that it is merged into and the container of
that document.

* `Store.parts?` — what a document holds
* `Relocation.Brings` — a document of the one session and one of the other have gained the same
* `SessionM.merge_relates`, `SessionM.includeFile_brings` — merges and includes of files
* `Session.Spares` — what later includes leave alone
-/

namespace Migration

open SessionM Session

/-! ## What a document holds -/

/-- What a document holds: its change sets, its removals, and the preconditions right inside its
container. -/
@[ext] structure Parts where
  changeSets : List ChangeSetId := []
  removals : List Removal := []
  preconditions : List PreconditionId := []

namespace Parts

instance : Append Parts := ⟨fun p q => {
  changeSets := p.changeSets ++ q.changeSets
  removals := p.removals ++ q.removals
  preconditions := p.preconditions ++ q.preconditions }⟩

@[simp] theorem changeSets_append (p q : Parts) :
    (p ++ q).changeSets = p.changeSets ++ q.changeSets := rfl

@[simp] theorem removals_append (p q : Parts) : (p ++ q).removals = p.removals ++ q.removals := rfl

@[simp] theorem preconditions_append (p q : Parts) :
    (p ++ q).preconditions = p.preconditions ++ q.preconditions := rfl

@[simp] theorem append_empty (p : Parts) : p ++ ({} : Parts) = p :=
  Parts.ext (List.append_nil _) (List.append_nil _) (List.append_nil _)

theorem append_assoc (p q r : Parts) : p ++ q ++ r = p ++ (q ++ r) :=
  Parts.ext (List.append_assoc _ _ _) (List.append_assoc _ _ _) (List.append_assoc _ _ _)

/-- The parts came in between two stores. -/
structure IsNew (b s : Store) (p : Parts) : Prop where
  changeSets : ∀ i ∈ p.changeSets, b.Added s i
  preconditions : ∀ i ∈ p.preconditions, b.Added s i

end Parts

/-- What the document at a place holds. -/
def Store.parts? (s : Store) (d : DocumentId) : Option Parts := do
  let doc ← s.documents.get? d
  let container ← s.preconditions.get? doc.preconditions
  return {
    changeSets := doc.changeSets, removals := doc.removals, preconditions := container.nested }

theorem Store.parts?_of_get? {s : Store} {d : DocumentId} {doc : DraftDocument}
    {container : DraftPrecondition} (hd : s.documents.get? d = some doc)
    (hc : s.preconditions.get? doc.preconditions = some container) :
    s.parts? d = some {
      changeSets := doc.changeSets, removals := doc.removals
      preconditions := container.nested } := by
  unfold parts?
  rw [hd]
  show (s.preconditions.get? doc.preconditions).bind _ = _
  rw [hc]
  rfl

theorem Store.of_parts? {s : Store} {d : DocumentId} {parts : Parts} (h : s.parts? d = some parts) :
    ∃ doc container, s.documents.get? d = some doc ∧
      s.preconditions.get? doc.preconditions = some container ∧ parts = {
        changeSets := doc.changeSets
        removals := doc.removals
        preconditions := container.nested } := by
  obtain ⟨doc, hd, h⟩ := Option.bind_eq_some_iff.1 h
  obtain ⟨container, hc, h⟩ := Option.bind_eq_some_iff.1 h
  cases h
  exact ⟨doc, container, hd, hc, rfl⟩

/-- A document that a script owns has a container. -/
theorem exists_parts? {b : Store} {d : DocumentId} {s : Session} (owns : Owns b d s) :
    ∃ parts, s.store.parts? d = some parts := by
  obtain ⟨doc, hd, parts⟩ := owns.document
  obtain ⟨container, hc⟩ := Store.exists_get?_of_has parts.preconditions.2
  exact ⟨_, Store.parts?_of_get? hd hc⟩

/-- What an included document brings into the one that includes it. -/
def Store.brought (s : Store) (c : DraftDocument) : Parts where
  changeSets := c.changeSets
  removals := c.removals
  preconditions :=
    if (s.preconditions.get? c.preconditions).any (!·.nested.isEmpty) then [c.preconditions] else []

namespace SessionM

variable {d child : DocumentId} {c : DraftDocument} {s : Session}

theorem document_mergeChangeSets (h : Inheritance) (path : Value) (ids : List ChangeSetId)
    (s : Session) : (mergeChangeSets d h path ids s).2.store.documents.get? d =
      (s.store.documents.get? d).map fun doc =>
      { doc with changeSets := doc.changeSets ++ ids } := by
  induction ids generalizing s with
  | nil =>
    show s.store.documents.get? d = _
    simp only [List.append_nil, Option.map_id']
  | cons i rest ih =>
    refine (ih _).trans ?_
    refine (congrArg _ (Pool.get?_modify ..)).trans ?_
    rw [if_pos rfl]
    show ((s.store.documents.get? d).map _).map _ = _
    rw [Option.map_map]
    refine congrArg (Option.map · _) (funext fun doc => ?_)
    simp only [Function.comp, List.append_assoc, List.cons_append, List.nil_append]

theorem documents_nestContainer (container : PreconditionId) (s : Session) :
    (nestContainer d container s).2.store.documents = s.store.documents := by
  show ((if _ then _ else _ : SessionM Unit) s).2.store.documents = _
  split <;> rfl

theorem document_merge {doc : DraftDocument} (hc : s.store.documents.get? child = some c)
    (hd : s.store.documents.get? d = some doc) (path : Value) :
    (merge d child path s).2.store.documents.get? d = some { doc with
      changeSets := doc.changeSets ++ c.changeSets
      removals := doc.removals ++ c.removals } := by
  rw [merge_eq hc]
  refine (Pool.get?_modify ..).trans ?_
  rw [if_pos rfl, documents_nestContainer, document_mergeChangeSets, hd]
  rfl

/-- A merge brings in what the included document holds. -/
theorem parts?_merge (hc : s.store.documents.get? child = some c) {parts : Parts}
    (before : s.store.parts? d = some parts) (path : Value) :
    (merge d child path s).2.store.parts? d = some (parts ++ s.store.brought c) := by
  obtain ⟨doc, container, hd, hp, rfl⟩ := Store.of_parts? before
  obtain ⟨nested, kept⟩ := preconditions_merge hc hd path
  have merged := document_merge hc hd path
  unfold Store.brought
  by_cases full : (s.store.preconditions.get? c.preconditions).any (!·.nested.isEmpty) = true
  · rw [if_pos full]
    have more : (merge d child path s).2.store.preconditions.get? doc.preconditions =
        some { container with nested := container.nested ++ [c.preconditions] } := by
      rw [nested ((isFull_iff _ _).1 full), Pool.get?_modify, if_pos rfl, hp]
      rfl
    exact Store.parts?_of_get? merged more
  · rw [if_neg full]
    refine (Store.parts?_of_get? merged ?_).trans
      (congrArg some (Parts.ext rfl rfl (List.append_nil _).symm))
    rw [kept fun holds => full ((isFull_iff _ _).2 holds)]
    exact hp

end SessionM

/-! ## A fresh document and another one -/

namespace Relocation

variable (m : Relocation)

/-- Parts at other places. -/
def parts (p : Parts) : Parts :=
  { p with changeSets := p.changeSets.map m.place, preconditions := p.preconditions.map m.place }

/-- A document of the one session and a document of the other one, both of which were there, have
gained the same. -/
structure Brings (d₀ d : DocumentId) (added : Parts) (s s' t t' : Session) : Prop where
  relates : m.Relates s' t'
  isNew : added.IsNew m.source s'.store
  source : ∀ p, s.store.parts? d₀ = some p → s'.store.parts? d₀ = some (p ++ added)
  target : ∀ p, t.store.parts? d = some p → t'.store.parts? d = some (p ++ m.parts added)

variable {m} {d₀ d : DocumentId} {added : Parts} {s s₁ s' t t₁ t' : Session}

theorem parts?_of_extends (h : s.Extends s') {p : Parts} (hp : s.store.parts? d = some p) :
    s'.store.parts? d = some p := by
  obtain ⟨doc, container, hd, hc, rfl⟩ := Store.of_parts? hp
  exact Store.parts?_of_get? ((h.kept d (Store.has_of_get? hd)).trans hd)
    ((h.kept doc.preconditions (Store.has_of_get? hc)).trans hc)

/-- Where nothing that was there has changed, nothing has been brought in. -/
theorem Brings.nothing (h : m.Relates s' t') (hs : s.Extends s') (ht : t.Extends t') :
    m.Brings d₀ d {} s s' t t' where
  relates := h
  isNew := ⟨nofun, nofun⟩
  source p hp := by rw [Parts.append_empty, parts?_of_extends hs hp]
  target p hp := (parts?_of_extends ht hp).trans (congrArg some (Parts.append_empty p).symm)

theorem Brings.of_extends (hs : s.Extends s₁) (ht : t.Extends t₁)
    (h : m.Brings d₀ d added s₁ s' t₁ t') : m.Brings d₀ d added s s' t t' :=
  { h with
    source := fun p hp => h.source p (parts?_of_extends hs hp)
    target := fun p hp => h.target p (parts?_of_extends ht hp) }

end Relocation

namespace SessionM

open Relocation

variable {m : Relocation} {d₀ d child : DocumentId} {c : DraftDocument} {s t : Session}

theorem mergeChangeSets_relates (h : m.Relates s t) (old : m.source.Has d₀) (old' : m.target.Has d)
    (inherits : Inheritance) (path : Value) {ids : List ChangeSetId}
    (new : ∀ i ∈ ids, ¬m.source.Has i) :
    m.Relates (mergeChangeSets d₀ inherits path ids s).2
      (mergeChangeSets d inherits path (ids.map m.place) t).2 := by
  induction ids generalizing s t with
  | nil => exact h
  | cons i rest ih =>
    have tagged :=
      h.modify (new i List.mem_cons_self) (.changeSet s.store i (inherits.applyTo path))
      (.changeSet t.store (m.place i) (inherits.applyTo path)) (fun _ _ => rfl) fun _ _ refers =>
        refers
    have first := tagged.modify_source old (.document _ d₀ fun doc =>
      { doc with changeSets := doc.changeSets ++ [i] })
    have both := first.modify_target old' (.document _ d fun doc =>
      { doc with changeSets := doc.changeSets ++ [m.place i] })
    exact ih both fun j hj => new j (List.mem_cons_of_mem _ hj)

/-- A container is put into those of two documents that were there. -/
theorem nestContainer_relates (h : m.Relates s t) {doc₀ doc : DraftDocument}
    (hd₀ : s.store.documents.get? d₀ = some doc₀) (hd : t.store.documents.get? d = some doc)
    (old : m.source.Has doc₀.preconditions) (old' : m.target.Has doc.preconditions)
    {container : PreconditionId} (new : ¬m.source.Has container) :
    m.Relates (nestContainer d₀ container s).2 (nestContainer d (m.place container) t).2 := by
  show m.Relates ((if _ then _ else _ : SessionM Unit) s).2
    ((if _ then _ else _ : SessionM Unit) t).2
  rw [isFull_place h new]
  split
  · rw [Step.run_bind_of_ok (document_eq hd₀), Step.run_bind_of_ok (document_eq hd)]
    exact (h.modify_source old (.precondition _ _ _)).modify_target old' (.precondition _ _ _)
  · exact h

/-- What a merge takes from a document is the same in both sessions. -/
theorem brought_place (h : m.Relates s t) (parts : c.IsNew m.source s.store) :
    t.store.brought (m.item .document c) = m.parts (s.store.brought c) := by
  have full := isFull_place h parts.preconditions.1
  unfold Store.brought Relocation.parts
  refine Parts.ext rfl rfl ?_
  show (if (t.store.preconditions.get? (m.place c.preconditions)).any (!·.nested.isEmpty) then
    [m.place c.preconditions] else []) = _
  rw [full]
  split <;> rfl

/-- A merge into documents that were there brings in the same in both sessions. -/
theorem merge_relates (h : m.Relates s t) {doc₀ doc : DraftDocument}
    (hd₀ : s.store.documents.get? d₀ = some doc₀) (hd : t.store.documents.get? d = some doc)
    (old : m.source.Has d₀ ∧ m.source.Has doc₀.preconditions)
    (old' : m.target.Has d ∧ m.target.Has doc.preconditions)
    (hc : s.store.documents.get? child = some c) (new : ¬m.source.Has child) (path : Value) :
    m.Brings d₀ d (s.store.brought c) s (merge d₀ child path s).2 t
      (merge d (m.place child) path t).2 := by
  have parts : c.IsNew m.source s.store := h.closed child c hc new
  have placed : t.store.documents.get? (m.place child) = some (m.item .document c) :=
    h.get?_place new hc
  -- the documents were there before, so what they gain is no part of what is moved
  have related : m.Relates (merge d₀ child path s).2 (merge d (m.place child) path t).2 := by
    have sets := mergeChangeSets_relates h old.1 old'.1 c.inheritance path fun i hi =>
      (parts.changeSets i hi).1
    have docs₀ := document_mergeChangeSets (d := d₀) c.inheritance path c.changeSets s
    have docs := document_mergeChangeSets (d := d) c.inheritance path (c.changeSets.map m.place) t
    rw [hd₀] at docs₀
    rw [hd] at docs
    have nested := nestContainer_relates sets docs₀ docs old.2 old'.2 parts.preconditions.1
    rw [merge_eq hc, merge_eq placed]
    exact (nested.modify_source old.1 (.document _ _ _)).modify_target old'.1 (.document _ _ _)
  refine ⟨related, ?_, fun p hp => parts?_merge hc hp path, fun p hp => ?_⟩
  · have grows := grows_merge (d := d₀) child path s
    refine ⟨fun i hi => (parts.changeSets i hi).mono grows, fun i hi => ?_⟩
    unfold Store.brought at hi
    dsimp only at hi
    split at hi
    · obtain rfl := List.mem_singleton.1 hi
      exact parts.preconditions.mono grows
    · cases hi
  · rw [← brought_place h parts]
    exact parts?_merge placed hp path

/-- A file brings the same into two documents that were there, if it is compiled alike. -/
theorem bringIn_brings {doc₀ doc : DraftDocument}
    (hd₀ : s.store.documents.get? d₀ = some doc₀) (hd : t.store.documents.get? d = some doc)
    (base : m.source = s.store) (base' : m.target = t.store)
    (inner : s.store.Has doc₀.preconditions) (inner' : t.store.Has doc.preconditions)
    {r r' : Request} {compile compile' : SessionM DocumentId} (compiles : Compiles r compile)
    (compiles' : Compiles r' compile') (alike : m.Matches m.place (compile s) (compile' t))
    (path : String) (i : Inclusion) {s' : Session}
    (ran : bringIn d₀ path i compile s = (.ok (), s')) :
    ∃ t' added, bringIn d path i compile' t = (.ok (), t') ∧ m.Brings d₀ d added s s' t t' := by
  obtain ⟨same, related⟩ := alike
  rcases hs : compile s with ⟨failure | child, s₁⟩
  all_goals
    rcases ht : compile' t with ⟨failure' | child', t₁⟩
    all_goals
      rw [hs, ht] at same related
      cases same
    have kept : s.Extends s₁ := compiles.keeps.of_run hs
    have kept' : t.Extends t₁ := compiles'.keeps.of_run ht
  · rw [bringIn_of_error hs] at ran
    rw [bringIn_of_error ht]
    obtain ⟨same, excused⟩ := excuse_agrees path i.required failure ⟨related, .refl s₁.store⟩
    rw [ran] at same excused
    refine ⟨(excuse path i.required failure t₁).2, {}, Prod.ext same rfl,
      .nothing excused.relates ?_ ?_⟩
    · exact kept.trans ((keeps_excuse path i.required failure).of_run ran)
    · exact kept'.trans (keeps_excuse path i.required failure t₁)
  · rw [bringIn_of_ok hs] at ran
    rw [bringIn_of_ok ht]
    obtain ⟨new, c, hc, -⟩ := compiles.document hs
    have old : s.store.Has d₀ := Store.has_of_get? hd₀
    have old' : t.store.Has d := Store.has_of_get? hd
    have brings := merge_relates related ((kept.kept d₀ old).trans hd₀)
      ((kept'.kept d old').trans hd)
      (base ▸ ⟨old, inner⟩) (base' ▸ ⟨old', inner'⟩) hc (base ▸ new) i.logicalPath
    rw [ran] at brings
    refine ⟨_, _, Prod.ext ?_ rfl, brings.of_extends kept kept'⟩
    rw [merge_eq (related.get?_place (base ▸ new) hc)]
    rfl

/-- A file brings the same into two documents that were there, if what it is accepted as is compiled
alike. -/
theorem includeFile_brings {e : Engine} {compiler : Compiler} (sound : compiler.IsSound)
    (h : m.Relates s t) {doc₀ doc : DraftDocument}
    (hd₀ : s.store.documents.get? d₀ = some doc₀) (hd : t.store.documents.get? d = some doc)
    (base : m.source = s.store) (base' : m.target = t.store)
    (inner : s.store.Has doc₀.preconditions) (inner' : t.store.Has doc.preconditions)
    (stands : m.document = d) {relativeTo : Option String} {path : String} {i : Inclusion}
    (alike : ∀ path' parser s₁,
      accept e relativeTo path i.skipsUnknown s = (.ok (some (path', parser)), s₁) →
      m.CompilesAlike e compiler compiler parser (i.request d₀ path') s₁)
    {s' : Session} (ran : includeFile e compiler d₀ relativeTo path i s = (.ok (), s')) :
    ∃ t' added, includeFile e compiler d relativeTo path i t = (.ok (), t') ∧
      m.Brings d₀ d added s s' t t' := by
  obtain ⟨same, related⟩ := accept_agrees (c := s.store) e relativeTo path i.skipsUnknown ⟨h, .refl _⟩
  obtain ⟨accepted, s₁, hs, goes⟩ := Step.bind_eq_ok.1 ran
  rcases ht : accept e relativeTo path i.skipsUnknown t with ⟨failure | accepted', t₁⟩
  all_goals
    rw [hs, ht] at same related
    cases same
  rcases accepted with _ | ⟨path', parser⟩
  · cases goes
    refine ⟨t₁, {}, Step.bind_eq_ok.2 ⟨none, t₁, ht, rfl⟩, .nothing related.relates ?_ ?_⟩
    · exact (keeps_accept e relativeTo path i.skipsUnknown).of_run hs
    · exact (keeps_accept e relativeTo path i.skipsUnknown).of_run ht
  · obtain ⟨-, -, -, -, rfl⟩ := of_accept hs
    obtain ⟨-, -, -, -, rfl⟩ := of_accept ht
    have compiled := alike path' parser s₁ hs t₁ h
    have asked : m.request (i.request d₀ path') = i.request d path' := by
      have old : m.source.Has d₀ := base ▸ Store.has_of_get? hd₀
      unfold Relocation.request Inclusion.request
      rw [Option.map_some, parent_of_has old, stands]
    rw [asked] at compiled
    obtain ⟨t', added, brought, brings⟩ := bringIn_brings hd₀ hd base base' inner inner'
      (compiles_compileWith sound parser _) (compiles_compileWith sound parser _) compiled path' i goes
    exact ⟨t', added, Step.bind_eq_ok.2 ⟨_, _, ht, brought⟩, brings⟩

end SessionM

/-! ## What later includes leave alone -/

/-- A place is neither that of a document nor that of its container. -/
def IsOther (d : DocumentId) (container : PreconditionId) : {entity : Entity} → Place entity → Prop
  | .document, i => i ≠ d
  | .precondition, i => i ≠ container
  | .column, _ | .change, _ | .changeSet, _ => True

/-- Nothing that was there has changed but a document and its container. -/
structure Session.Spares (d : DocumentId) (container : PreconditionId) (s s' : Session) : Prop where
  grows : s.store.Grows s'.store
  kept : ∀ {entity : Entity} (i : Place entity), s.store.Has i → IsOther d container i →
    (s'.store.pool entity).get? i = (s.store.pool entity).get? i

namespace Session.Spares

variable {d : DocumentId} {p : PreconditionId} {s s₁ s' : Session}

theorem refl (s : Session) : s.Spares d p s := ⟨.refl _, fun _ _ _ => rfl⟩

theorem trans (h : s.Spares d p s₁) (h' : s₁.Spares d p s') : s.Spares d p s' where
  grows := h.grows.trans h'.grows
  kept i hi other := (h'.kept i (h.grows.has hi) other).trans (h.kept i hi other)

theorem of_extends (h : s.Extends s') : s.Spares d p s' := ⟨h.grows, fun i hi _ => h.kept i hi⟩

/-- Something new, the document or the container has changed. -/
theorem modify (h : s.Spares d p s₁) {entity : Entity} {i : Place entity} {u : Store}
    {f : entity.Item → entity.Item} (hu : s₁.store.Modifies u entity i f)
    (free : s.store.Has i → ¬IsOther d p i) : s.Spares d p { s₁ with store := u } where
  grows := h.grows.trans hu.grows
  kept j hj other := by
    show (u.pool _).get? j = _
    rw [hu.get?_of_ne j (by rintro rfl rfl; exact free hj other), h.kept j hj other]

end Session.Spares

namespace SessionM

variable {d child : DocumentId} {p : PreconditionId} {s s₁ : Session}

theorem mergeChangeSets_spares (h : s.Spares d p s₁) (inherits : Inheritance) (path : Value)
    {ids : List ChangeSetId} (new : ∀ i ∈ ids, ¬s.store.Has i) :
    s.Spares d p (mergeChangeSets d inherits path ids s₁).2 := by
  induction ids generalizing s₁ with
  | nil => exact h
  | cons i rest ih =>
    have tagged := h.modify (.changeSet s₁.store i (inherits.applyTo path)) fun old =>
      absurd old (new i List.mem_cons_self)
    have appended := tagged.modify (.document _ d fun doc =>
      { doc with changeSets := doc.changeSets ++ [i] }) fun _ other => other rfl
    exact ih appended fun j hj => new j (List.mem_cons_of_mem _ hj)

theorem merge_spares (h : s.Spares d p s₁) {c doc : DraftDocument}
    (hd : s₁.store.documents.get? d = some doc) (stands : doc.preconditions = p)
    (hc : s₁.store.documents.get? child = some c) (new : ∀ i ∈ c.changeSets, ¬s.store.Has i)
    (path : Value) : s.Spares d p (merge d child path s₁).2 := by
  have sets := mergeChangeSets_spares h c.inheritance path new
  have docs := document_mergeChangeSets (d := d) c.inheritance path c.changeSets s₁
  rw [hd] at docs
  have nested : s.Spares d p
      (nestContainer d c.preconditions
        (mergeChangeSets d c.inheritance path c.changeSets s₁).2).2 := by
    show s.Spares d p ((if _ then _ else _ : SessionM Unit) _).2
    split
    · rw [Step.run_bind_of_ok (document_eq docs)]
      exact sets.modify (.precondition _ _ _) fun _ other => other stands
    · exact sets
  rw [merge_eq hc]
  exact nested.modify (.document _ _ _) fun _ other => other rfl

/-- The include of a file changes only the document and its container. -/
theorem includeFile_spares {e : Engine} {compiler : Compiler} (sound : compiler.IsSound)
    {doc : DraftDocument} (hd : s.store.documents.get? d = some doc) (relativeTo : Option String)
    (path : String) (i : Inclusion) :
    s.Spares d doc.preconditions (includeFile e compiler d relativeTo path i s).2 := by
  obtain ⟨failure, s₁, ha, run⟩ | ⟨s₁, ha, run⟩ |
    ⟨found, parser, s₁, s₂, ha, ⟨failure, hs, run⟩ | ⟨child, hs, run⟩⟩ :=
      includeFile_cases e compiler d relativeTo path i s
  all_goals rw [run]
  · exact .of_extends ((keeps_accept e relativeTo path i.skipsUnknown).of_run ha)
  · exact .of_extends ((keeps_accept e relativeTo path i.skipsUnknown).of_run ha)
  all_goals
    obtain ⟨-, -, -, -, rfl⟩ := of_accept ha
    have compiles := compiles_compileWith (e := e) sound parser (i.request d found)
    have kept : s₁.Extends s₂ := compiles.keeps.of_run hs
  · exact .of_extends (kept.trans (keeps_excuse found i.required failure s₂))
  · obtain ⟨new, c, hc, -⟩ := compiles.document hs
    have parts := kept.newDocuments child c hc new
    exact merge_spares (.of_extends kept) ((kept.kept d (Store.has_of_get? hd)).trans hd) rfl hc
      (fun j hj => (parts.changeSets j hj).1) i.logicalPath

end SessionM

end Migration
