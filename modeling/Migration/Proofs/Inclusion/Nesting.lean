import Migration.Proofs.Inclusion.Chain

/-!
# Preconditions inside others

Preconditions stand in containers and in groups, and the container of an included document stands in
that of the including one. The store only grows, and nothing that was there comes to stand in
something else, apart from the container that a merge brings in.

* `Store.Nests`, `Store.Holds` — a precondition is right inside another one, or somewhere inside it
* `Store.Deepens` — what is put inside other preconditions is new
* `Running.Renews` — the containers that a script may set are old ones or its own new ones
* `SessionM.nests_merge` — what a merge puts where
-/

namespace Migration

open SessionM Session

namespace Store

/-- A precondition is right inside another one. -/
def Nests (s : Store) (p c : PreconditionId) : Prop :=
  ∃ x, s.preconditions.get? p = some x ∧ c ∈ x.nested

/-- A precondition is somewhere inside another one, or it is that one. -/
def Holds (s : Store) : PreconditionId → PreconditionId → Prop := Relation.ReflTransGen s.Nests

/-- Whatever is inside a precondition is in the store. -/
def IsClosed (s : Store) : Prop := ∀ p c, s.Nests p c → s.Has c

/-- Something is inside a precondition. -/
def IsFull (s : Store) (c : PreconditionId) : Prop := ∃ j, s.Nests c j

/-- A precondition is inside no other one. -/
def IsRoot (s : Store) (c : PreconditionId) : Prop := ∀ p, ¬s.Nests p c

variable {s s' s'' : Store} {p c : PreconditionId}

theorem Nests.has (h : s.Nests p c) : s.Has p := by
  obtain ⟨x, hx, -⟩ := h
  exact has_of_get? hx

theorem Holds.has (h : s.Holds p c) (hc : s.Has c) : s.Has p := by
  induction h using Relation.ReflTransGen.head_induction_on with
  | refl => exact hc
  | head nests _ _ => exact nests.has

/-- What is inside no other precondition is only inside itself. -/
theorem Holds.eq_of_isRoot (h : s.Holds p c) (root : s.IsRoot c) : p = c := by
  cases h with
  | refl => rfl
  | tail _ nests => exact absurd nests (root _)

namespace Deepens

/-- What is inside a precondition stays there. -/
theorem nests (h : s.Deepens s') (hc : s.Nests p c) : s'.Nests p c := by
  obtain ⟨x, hx, mem⟩ := hc
  obtain ⟨x', more, hx', heq, -⟩ := h.nested p x hx
  exact ⟨x', hx', heq ▸ List.mem_append_left more mem⟩

/-- What was in the store is inside the same preconditions as before. -/
theorem nests_of_has (h : s.Deepens s') (hc : s'.Nests p c) (old : s.Has c) : s.Nests p c := by
  obtain ⟨x', hx', mem⟩ := hc
  by_cases hp : s.Has p
  · obtain ⟨x, hx⟩ := exists_get?_of_has hp
    obtain ⟨y, more, hy, heq, new⟩ := h.nested p x hx
    obtain rfl : y = x' := Option.some.inj (hy.symm.trans hx')
    rw [heq] at mem
    rcases List.mem_append.1 mem with mem | mem
    · exact ⟨x, hx, mem⟩
    · exact absurd old (new c mem).1
  · exact absurd old (h.newPreconditions p x' hx' hp c mem).1

theorem isClosed (h : s.Deepens s') (closed : s.IsClosed) : s'.IsClosed := by
  intro p c hc
  obtain ⟨x', hx', mem⟩ := hc
  by_cases hp : s.Has p
  · obtain ⟨x, hx⟩ := exists_get?_of_has hp
    obtain ⟨y, more, hy, heq, new⟩ := h.nested p x hx
    obtain rfl : y = x' := Option.some.inj (hy.symm.trans hx')
    rw [heq] at mem
    rcases List.mem_append.1 mem with mem | mem
    · exact h.grows.has (closed p c ⟨x, hx, mem⟩)
    · exact (new c mem).2
  · exact (h.newPreconditions p x' hx' hp c mem).2

theorem isRoot (h : s.Deepens s') (old : s.Has c) (root : s.IsRoot c) : s'.IsRoot c :=
  fun p hc => root p (h.nests_of_has hc old)

end Deepens
end Store

theorem Session.Works.deepens {b : Store} {d : DocumentId} {s s' : Session} (h : s.Works b d s')
    (owns : s.Owns b d) : s.store.Deepens s'.store := by
  obtain ⟨g, -, -, adv⟩ := h owns
  exact adv.deepens

/-! ## Containers of a script -/

namespace SessionM

variable {d : DocumentId} {s s₁ : Session}

/-- A precondition that is put down is inside no other one. -/
theorem isRoot_of_addPrecondition {r : Record} {i : PreconditionId} (closed : s.store.IsClosed)
    (h : addPrecondition { record := r } s = (.ok i, s₁)) : s₁.store.IsRoot i := by
  cases h
  rintro p ⟨x, hx, mem⟩
  have hx : (s.store.preconditions.add { record := r }).get? p = some x := hx
  rw [Pool.get?_add] at hx
  split at hx
  · cases hx
    cases mem
  · exact s.store.not_has_next .precondition (closed p _ ⟨x, hx, mem⟩)

/-- A block of preconditions is about a container that has been put down for it. -/
theorem preconditions_ok {e : Engine} {compiler : Compiler} {owner : String}
    {checked : Option ChangeSetId} {positional : List Value} {a : Attributes} {y : Scope}
    (h : act e compiler d (.preconditions owner checked) positional a s = (.ok (.scope y), s₁)) :
    ∃ record, addPrecondition { record } s = (.ok s.store.preconditions.next, s₁) ∧
      (checked = none → y.completion = .setPreconditions s.store.preconditions.next) ∧
      ∀ c, checked = some c →
        y.completion = .setChangeSetPreconditions c s.store.preconditions.next := by
  obtain ⟨i, s₂, makes, h⟩ := Step.bind_eq_ok.1 h
  obtain ⟨record, -, makes⟩ := (keeps_fill d owner _ _ a).bind_eq_ok.1 makes
  cases h
  cases makes
  refine ⟨record, rfl, fun checks => ?_, fun c checks => ?_⟩
  all_goals
    subst checks
    rfl

end SessionM

namespace Running

/-- A container that the document of a script has, or will have when some block is left. -/
def Sets (r : Running) (c : PreconditionId) : Prop :=
  (∃ doc, r.session.store.documents.get? r.frame.document = some doc ∧ doc.preconditions = c) ∨
    ∃ x ∈ r.frame.scopes, x.completion = .setPreconditions c

/-- A script may set the containers that it could set before, and new ones that are inside no other
precondition. -/
def Renews (b : Store) (r r' : Running) : Prop :=
  r.Owns b → r'.Owns b ∧ r.session.store.Deepens r'.session.store ∧
    ∀ c, r'.Sets c → r.Sets c ∨ (r.session.store.Added r'.session.store c ∧
      (r.session.store.IsClosed → r'.session.store.IsRoot c))

variable {b : Store} {g : Gain} {r r' : Running} {c : PreconditionId}

theorem Sets.has (h : r.Sets c) (owns : r.Owns b) : r.session.store.Has c := by
  rcases h with ⟨doc, hd, rfl⟩ | ⟨x, hx, completion⟩
  · obtain ⟨doc', hd', parts⟩ := owns.session.document
    obtain rfl : doc' = doc := Option.some.inj (hd'.symm.trans hd)
    exact parts.preconditions.2
  · have new := (owns.scopes x hx).completion
    rw [completion] at new
    exact new.2

instance : IsPreorder Running (Renews b) where
  refl r owns := ⟨owns, .of_same (.refl _) rfl, fun c hc => .inl hc⟩
  trans r r' r'' h h' owns := by
    obtain ⟨owns', deepens, renews⟩ := h owns
    obtain ⟨owns'', deepens', renews'⟩ := h' owns'
    refine ⟨owns'', deepens.trans deepens', fun c hc => ?_⟩
    rcases renews' c hc with hc | ⟨added, root⟩
    · rcases renews c hc with hc | ⟨added, root⟩
      · exact .inl hc
      · exact .inr ⟨added.mono deepens'.grows, fun closed => deepens'.isRoot added.2 (root closed)⟩
    · exact .inr ⟨added.of_grows deepens.grows, fun closed => root (deepens.isClosed closed)⟩

/-- When the document of a script gains something, the container that it has then is the one that it
had, or the one that it gains. -/
theorem sets_of_advances {s : Session} (owns : r.Owns b)
    (adv : r.session.Advances b r.frame.document g s) (h : Sets { r with session := s } c) :
    r.Sets c ∨ c ∈ g.container := by
  rcases h with ⟨doc', hd', rfl⟩ | h
  · obtain ⟨doc, hd, -⟩ := owns.session.document
    have gains := adv.gains hd hd'
    rw [gains.preconditions]
    cases hc : g.container with
    | none => exact .inl (.inl ⟨doc, hd, rfl⟩)
    | some c => exact .inr rfl
  · exact .inl (.inr h)

/-- No element sets a container. -/
theorem sets_of_works {s : Session} (owns : r.Owns b)
    (works : r.session.Works b r.frame.document s) (h : Sets { r with session := s } c) :
    r.Sets c := by
  obtain ⟨g, -, same, adv⟩ := works owns.session
  rcases sets_of_advances owns adv h with h | h
  · exact h
  · rw [same] at h
    cases h

end Running

namespace ScriptM

open Running

variable {b : Store} {e : Engine} {compiler : Compiler} {r r' : Running}

/-- A call that makes a script set another container has put that down. -/
theorem sets_of_call (sound : compiler.IsSound) (owns : r.Owns b) {c : Script.Call}
    {container : PreconditionId} (h : (call e compiler c r).2.Sets container) :
    r.Sets container ∨ ∃ record y,
      addPrecondition { record } r.session = (.ok container, (call e compiler c r).2.session) ∧
      (call e compiler c r).2.frame.scopes = r.frame.scopes.push y ∧
      y.completion = .setPreconditions container := by
  obtain ⟨plain, -, calls, -⟩ | ⟨x, result, s, prepares, acts, calls⟩ := call_cases e compiler c r
  all_goals rw [calls] at h ⊢
  · exact .inl h
  · have works : r.session.Works b r.frame.document s :=
      SessionM.works_act sound (prepare_isNew owns prepares) acts
    have before : Sets { r with session := s } container → r.Sets container :=
      sets_of_works owns works
    obtain same | ⟨y, rfl, puts⟩ := outcomeOf_cases result { r with session := s }
    · rw [same] at h
      exact .inl (before h)
    · rw [puts] at h ⊢
      rcases h with h | ⟨z, hz, completion⟩
      · exact .inl (before (.inl h))
      · rcases Array.mem_push.1 hz with hz | rfl
        · exact .inl (.inr ⟨z, hz, completion⟩)
        · -- only a block of preconditions sets a container, and it is a new one
          refine .inr ?_
          obtain ⟨-, -, none_⟩ | ⟨-, -, append⟩ | ⟨element, -, -⟩ | ⟨-, -, others⟩ | ⟨-, -, none_⟩ :=
            SessionM.act_leaves acts
          · cases none_.symm.trans completion
          · cases append.symm.trans completion
          · rw [element] at acts
            obtain ⟨record, adds, sets, -⟩ := preconditions_ok acts
            cases (sets rfl).symm.trans completion
            exact ⟨record, z, adds, rfl, completion⟩
          · cases others.symm.trans completion
          · cases none_.symm.trans completion

theorem renews_call (sound : compiler.IsSound) (c : Script.Call) :
    Keeps (Renews b) (call e compiler c) := by
  intro r owns
  obtain ⟨owns', g, -, adv⟩ := works_call sound c r owns
  refine ⟨owns', adv.session.deepens, fun container hc => ?_⟩
  rcases sets_of_call sound owns hc with hc | ⟨record, y, adds, -, -⟩
  · exact .inl hc
  · exact .inr ⟨added_of_addPrecondition (.refl _) adds,
      fun closed => isRoot_of_addPrecondition closed adds⟩

theorem sets_of_enter (owns : r.Owns b) {i : ScopeId} {container : PreconditionId}
    (h : (enter i r).2.Sets container) : r.Sets container := by
  have quiet := quiet_openBody owns.session.owned (scope_isNew owns i).opening
  obtain ⟨s, ⟨failure, opens, enters⟩ | ⟨body, opens, enters⟩⟩ := enter_cases i r
  all_goals
    rw [enters] at h
    have adv := quiet.of_run opens owns.session.base owns.known
  · rcases sets_of_advances owns adv h with h | h
    · exact h
    · cases h
  · rcases h with h | ⟨y, hy, completion⟩
    · rcases sets_of_advances owns adv (.inl h) with h | h
      · exact h
      · cases h
    · obtain ⟨z, hz, -, same⟩ := exists_of_mem_opened hy
      exact .inr ⟨z, hz, same.symm.trans completion⟩

theorem sets_of_leave (owns : r.Owns b) {i : ScopeId} {result : Except Failure Unit}
    {container : PreconditionId} (h : (leave i result r).2.Sets container) : r.Sets container := by
  obtain ⟨⟨stack, -, frame⟩, session⟩ := leave_cases i result r
  unfold Running.Sets at h
  rw [frame] at h
  rcases session with same | session
  · rw [same] at h
    exact h
  · rw [session] at h
    have adv := complete_advances owns.session (scope_isNew owns i).completion
    rcases sets_of_advances owns adv h with h | h
    · exact h
    · -- the block was opened from a result that sets the container
      have completion := eq_of_mem_container_gainOf h
      cases hs : r.frame.scopes[i]? with
      | none =>
        rw [hs] at completion
        cases completion
      | some x =>
        rw [hs] at completion
        exact .inr ⟨x, Array.mem_of_getElem? hs, completion⟩

/-- Whatever a script does, it sets only containers that are its own. -/
theorem renews_steady (sound : compiler.IsSound) : Steady e compiler (Renews b) where
  call := renews_call sound
  keep name result r owns := by
    obtain ⟨owns', g, -, adv⟩ := (works_steady (e := e) sound).keep name result r owns
    exact ⟨owns', adv.session.deepens, fun container hc => .inl hc⟩
  enter i r owns := by
    obtain ⟨owns', g, -, adv⟩ := works_enter i r owns
    exact ⟨owns', adv.session.deepens, fun container hc => .inl (sets_of_enter owns hc)⟩
  leave i result r owns := by
    obtain ⟨owns', g, -, adv⟩ := works_leave i result r owns
    exact ⟨owns', adv.session.deepens, fun container hc => .inl (sets_of_leave owns hc)⟩

end ScriptM

namespace SessionM

variable {b : Store} {d : DocumentId} {e : Engine} {compiler : Compiler} {s s₁ : Session}

/-! ## Containers of whole documents -/

/-- The container of a new document is inside no other precondition. -/
theorem isRoot_of_newDocument {r : Request} {logicalPath : Option String}
    (closed : s.store.IsClosed) (h : newDocument r logicalPath s = (.ok d, s₁)) :
    ∃ doc, s₁.store.documents.get? d = some doc ∧ s₁.store.IsRoot doc.preconditions := by
  rw [newDocument_eq] at h
  cases h
  have root : Store.IsRoot _ s.store.preconditions.next :=
    isRoot_of_addPrecondition (r := .fresh Catalog.container) closed rfl
  exact ⟨_, (Pool.get?_add ..).trans (if_pos rfl), root⟩

/-- Whatever a script can set as a container on its way is inside no other precondition. -/
theorem isRoot_of_sets (closed : s.store.IsClosed) {r : Request} {o : Opened}
    (opens : openScript e r s = (.ok o, s₁)) {running : Running}
    (renews : (Running.start o.path o.document (s₁.opening o.path)).Renews s.store running)
    {c : PreconditionId} (sets : running.Sets c) : running.session.store.IsRoot c := by
  obtain ⟨-, kept, -, -⟩ := openScript_ok opens
  obtain ⟨_, _, -, -, -, puts⟩ := of_openScript_ok opens
  obtain ⟨doc, hd, root⟩ := isRoot_of_newDocument closed puts
  obtain ⟨-, deepens, renews⟩ := renews (owns_of_open opens)
  rcases renews c sets with sets | ⟨-, new⟩
  · refine deepens.isRoot (sets.has (owns_of_open opens)) ?_
    rcases sets with ⟨doc', hd', rfl⟩ | ⟨x, hx, -⟩
    · obtain rfl : doc = doc' := Option.some.inj (hd.symm.trans hd')
      exact root
    · cases Array.not_mem_empty x hx
  · exact new (kept.deepens.isClosed closed)

/-- The container that a script leaves to its document is inside no other precondition. -/
theorem isRoot_of_compileWithin (sound : compiler.IsSound) (closed : s.store.IsClosed) {r : Request}
    (h : compileWithin e compiler r s = (.ok d, s₁)) :
    ∃ doc, s₁.store.documents.get? d = some doc ∧ s₁.store.IsRoot doc.preconditions := by
  obtain ⟨o, s₂, running, opens, runs, -, rfl, rfl⟩ := compileWithin_ok h
  have renews := ((ScriptM.renews_steady (b := s.store) sound).runNodes o.nodes).of_run runs
  obtain ⟨owns, _, -, adv⟩ := ((ScriptM.works_steady (b := s.store) sound).runNodes o.nodes).of_run
    runs (owns_of_open opens)
  obtain ⟨doc, hd, -⟩ := owns.session.document
  have document : running.frame.document = o.document := adv.frame.document
  refine ⟨doc, document ▸ hd, ?_⟩
  exact isRoot_of_sets closed opens renews (.inl ⟨doc, hd, rfl⟩)

/-- So is the container of a document that a parser of the host makes. -/
theorem isRoot_of_hostDocument (closed : s.store.IsClosed)
    {parse : String → Except ResourceError (List DraftChangeSet)} {r : Request}
    (h : hostDocument parse r s = (.ok d, s₁)) :
    ∃ doc, s₁.store.documents.get? d = some doc ∧ s₁.store.IsRoot doc.preconditions := by
  obtain ⟨made, -, h⟩ := (keeps_ofResource _).bind_eq_ok.1 h
  obtain ⟨ids, s₂, adds, h⟩ := Step.bind_eq_ok.1 h
  have kept : s.Extends s₂ := (keeps_addChangeSets made).of_run adds
  obtain ⟨document, s₃, puts, h⟩ := Step.bind_eq_ok.1 h
  obtain ⟨doc, hd, root⟩ := isRoot_of_newDocument (kept.deepens.isClosed closed) puts
  cases h
  refine ⟨{ doc with changeSets := ids, knowsParameters := false }, ?_, root⟩
  refine (Pool.get?_modify ..).trans ?_
  rw [if_pos rfl, hd]
  rfl

/-- So is that of any file which is compiled. -/
theorem isRoot_of_compileWith {depth : Nat} (closed : s.store.IsClosed) {parser : Parser} {r : Request}
    (h : compileWith e (compilerBelow e depth) parser r s = (.ok d, s₁)) :
    ∃ doc, s₁.store.documents.get? d = some doc ∧ s₁.store.IsRoot doc.preconditions := by
  cases parser with
  | host supports parse =>
    rw [compileWith_host] at h
    exact isRoot_of_hostDocument closed h
  | script suffix =>
    cases depth with
    | zero => cases h
    | succ depth =>
      have h : compileScript e depth r s = (.ok d, s₁) := h
      rw [compileScript_eq] at h
      exact isRoot_of_compileWithin (compilerBelow_isSound e depth) closed h

/-! ## Merges -/

theorem mergeChangeSets_spec (h : Inheritance) (path : Value) (ids : List ChangeSetId)
    (s : Session) : (mergeChangeSets d h path ids s).2.store.preconditions = s.store.preconditions ∧
      ((mergeChangeSets d h path ids s).2.store.documents.get? d).map (·.preconditions) =
        (s.store.documents.get? d).map (·.preconditions) := by
  induction ids generalizing s with
  | nil => exact ⟨rfl, rfl⟩
  | cons i rest ih =>
    obtain ⟨pool, container⟩ := ih _
    refine ⟨pool, container.trans ?_⟩
    refine (congrArg _ (Pool.get?_modify ..)).trans ?_
    rw [if_pos rfl]
    show ((s.store.documents.get? d).map _).map _ = _
    rw [Option.map_map]
    rfl

theorem isFull_iff (s : Store) (c : PreconditionId) :
    (s.preconditions.get? c).any (!·.nested.isEmpty) = true ↔ s.IsFull c := by
  constructor
  · intro h
    obtain ⟨x, hx, full⟩ := (Option.any_eq_true _ _).1 h
    obtain ⟨j, hj⟩ := List.exists_mem_of_ne_nil x.nested fun empty => by simp [empty] at full
    exact ⟨j, x, hx, hj⟩
  · rintro ⟨j, x, hx, hj⟩
    refine (Option.any_eq_true _ _).2 ⟨x, hx, ?_⟩
    cases hn : x.nested with
    | nil =>
      rw [hn] at hj
      cases hj
    | cons => rfl

/-- A merge puts the container of the included document into the container that the document has,
behind what is in there, unless nothing is inside it. -/
theorem preconditions_merge {child : DocumentId} {c doc : DraftDocument}
    (hc : s.store.documents.get? child = some c) (hd : s.store.documents.get? d = some doc)
    (path : Value) :
    (s.store.IsFull c.preconditions → (merge d child path s).2.store.preconditions =
      s.store.preconditions.modify doc.preconditions fun p =>
        { p with nested := p.nested ++ [c.preconditions] }) ∧
    (¬s.store.IsFull c.preconditions →
      (merge d child path s).2.store.preconditions = s.store.preconditions) := by
  obtain ⟨pool, container⟩ := mergeChangeSets_spec (d := d) c.inheritance path c.changeSets s
  rw [hd] at container
  obtain ⟨doc', hd', same⟩ := Option.map_eq_some_iff.1 container
  rw [merge_eq hc, ← isFull_iff, ← pool]
  generalize (mergeChangeSets d c.inheritance path c.changeSets s).2 = s₁ at hd'
  show (_ → ((if _ then _ else _ : SessionM Unit) s₁).2.store.preconditions = _) ∧
    (_ → ((if _ then _ else _ : SessionM Unit) s₁).2.store.preconditions = _)
  refine ⟨fun full => ?_, fun full => ?_⟩
  · rw [if_pos full, Step.run_bind_of_ok (document_eq hd'), same]
    rfl
  · rw [if_neg full]
    rfl

/-- What is inside what after a merge. -/
theorem nests_merge {child : DocumentId} {c doc : DraftDocument}
    (hc : s.store.documents.get? child = some c) (hd : s.store.documents.get? d = some doc)
    (known : s.store.Has doc.preconditions) (path : Value) {p j : PreconditionId} :
    (merge d child path s).2.store.Nests p j ↔ s.store.Nests p j ∨
      s.store.IsFull c.preconditions ∧ p = doc.preconditions ∧ j = c.preconditions := by
  obtain ⟨nested, same⟩ := preconditions_merge hc hd path
  unfold Store.Nests
  by_cases full : s.store.IsFull c.preconditions
  · rw [nested full]
    by_cases hp : doc.preconditions = p
    · subst hp
      obtain ⟨x, hx⟩ := Store.exists_get?_of_has known
      have hx : s.store.preconditions.get? doc.preconditions = some x := hx
      rw [Pool.get?_modify, if_pos rfl, hx]
      constructor
      · rintro ⟨y, hy, mem⟩
        cases hy
        rcases List.mem_append.1 mem with mem | mem
        · exact .inl ⟨x, rfl, mem⟩
        · exact .inr ⟨full, rfl, List.mem_singleton.1 mem⟩
      · rintro (⟨y, hy, mem⟩ | ⟨-, -, rfl⟩)
        · cases hy
          exact ⟨_, rfl, List.mem_append_left _ mem⟩
        · exact ⟨_, rfl, List.mem_append_right _ (List.mem_singleton_self _)⟩
    · rw [Pool.get?_modify, if_neg hp]
      exact ⟨.inl, fun h => h.resolve_right fun h => hp h.2.1.symm⟩
  · rw [same full]
    exact ⟨.inl, fun h => h.resolve_right fun h => full h.1⟩

end SessionM

end Migration
