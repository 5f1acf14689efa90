import Migration.Proofs.Inclusion.Chain
import Migration.Proofs.Inclusion.Tags

/-!
# Inheritance along includes

Every change set of a document was made at some point of its compile, by way of a chain of includes.
What it has in the document is what it was made with and what those includes make of it.

* `Makes`, `Builds` — where a change set is made
* `Session.Tagged` — the change sets of a document have what their includes put on them
* `ComesTo.tagged_call`, `tagged_compileScript` — so they do at every point of a script, and when it
  has been compiled
-/

namespace Migration

open SessionM Session

/-! ## Where change sets are made -/

section

variable (e : Engine) (compiler : Compiler)

/-- A call makes a change set: by a `changeSet` element, for a file of statements, or by a parser of
the host for a file that it includes. The chain of includes is empty but in the last case. -/
inductive Makes (c : Script.Call) (r : Running) :
    List Request → ChangeSetId → DraftChangeSet → Prop
  | element {x own s} (prepares : ScriptM.prepare e c r = (.ok x, r))
      (element : x.element = .changeSet)
      (reads : newChangeSet r.frame.document x.attributes r.session = (.ok own, s)) :
      Makes c r [] s.store.changeSets.next own
  | statements {x before path after name s s' i s'' own}
      (prepares : ScriptM.prepare e c r = (.ok x, r)) (element : x.element = .includeAllSql)
      (reads : readIncludeAllSql e r.frame.document x.attributes r.session =
        (.ok (before ++ path :: after, name), s))
      (earlier : includeStatementFiles r.frame.document x.attributes name before s = (.ok (), s'))
      (puts : newStatements r.frame.document x.attributes (name path) path s' = (.ok i, s''))
      (put : s''.store.changeSets.get? i = some own) : Makes c r [] i own
  | host {relativeTo path i s path' supports parse s₁ made ids s₂ j own}
      (meets : Meets e compiler c r relativeTo path i s)
      (accepts : accept e relativeTo path i.skipsUnknown s =
        (.ok (some (path', .host supports parse)), s₁))
      (parses : parse path' = .ok made) (puts : addChangeSets made s₁ = (.ok ids, s₂))
      (mem : j ∈ ids) (put : s₂.store.changeSets.get? j = some own) :
      Makes c r [i.request r.frame.document path'] j own

end

/-- The call that comes next at a point. -/
def Point.call? (p : Point) : Option Script.Call := p.steps.head?.bind (·.call?)

/-- A compile makes a change set by way of a chain of includes, the outermost one first. -/
def Builds (e : Engine) (depth : Nat) (r : Request) (s : Session) (chain : List Request)
    (i : ChangeSetId) (own : DraftChangeSet) : Prop :=
  ∃ p c inner, Visits e depth r s p ∧ p.call? = some c ∧
    Makes e (compilerBelow e p.depth) c p.running inner i own ∧ chain = p.opened.tail ++ inner

/-! ## Change sets as their includes left them -/

section

variable {B B' : List Request → ChangeSetId → DraftChangeSet → Prop}

/-- A change set has what it was made with and what the includes on its way make of that. -/
def Store.Tagged (B : List Request → ChangeSetId → DraftChangeSet → Prop) (s : Store)
    (i : ChangeSetId) : Prop :=
  ∃ c chain own, s.changeSets.get? i = some c ∧ B chain i own ∧ c.tags = own.tags.through chain

/-- So do all change sets of a document. -/
def Session.Tagged (B : List Request → ChangeSetId → DraftChangeSet → Prop) (d : DocumentId)
    (s : Session) : Prop :=
  ∀ doc, s.store.documents.get? d = some doc → ∀ i ∈ doc.changeSets, s.store.Tagged B i

variable {b : Store} {d : DocumentId} {g : Gain} {s s₁ : Session}

theorem Store.Tagged.advance {i : ChangeSetId} (h : s.store.Tagged B i)
    (adv : Advances b d g s s₁) : s₁.store.Tagged B i := by
  obtain ⟨c, chain, own, hc, made, tags⟩ := h
  obtain ⟨c', hc', same⟩ := adv.tags i c hc
  exact ⟨c', chain, own, hc', made, same.trans tags⟩

namespace Session.Tagged

/-- What a document gains must be tagged; what it has stays so. -/
theorem advance (h : s.Tagged B d) (known : s.store.Has d) (adv : Advances b d g s s₁)
    (new : ∀ i ∈ g.changeSets, s₁.store.Tagged B i) : s₁.Tagged B d := by
  intro doc' hd' i hi
  obtain ⟨doc, hd⟩ := Store.exists_get?_of_has known
  have gains := adv.gains hd hd'
  rw [gains.changeSets] at hi
  rcases List.mem_append.1 hi with hi | hi
  · exact (h doc hd i hi).advance adv
  · exact new i hi

theorem quiet (h : s.Tagged B d) (known : s.store.Has d) (adv : Advances b d {} s s₁) :
    s₁.Tagged B d :=
  h.advance known adv (by simp)

theorem extends_ (h : s.Tagged B d) (known : s.store.Has d) (hs : s.Extends s₁) : s₁.Tagged B d :=
  h.quiet known (.of_extends (.refl _) hs)

/-- A merge puts one more include on the change sets that come in. -/
theorem merge (h : s.Tagged B d) (owns : Owns b d s) (hs : s.Extends s₁) {child : DocumentId}
    {c : DraftDocument} {r : Request} (hc : s₁.store.documents.get? child = some c)
    (new : ¬s.store.Has child) (inherits : c.inheritance = r.inheritance)
    (made : ∀ i ∈ c.changeSets, s₁.store.Tagged B' i)
    (outer : ∀ chain i own, B' chain i own → ∃ r', r'.inheritance = r.inheritance ∧
      r'.logicalPath = r.logicalPath ∧ B (r' :: chain) i own) :
    (SessionM.merge d child r.logicalPath s₁).2.Tagged B d := by
  refine h.advance owns.known (advances_merge owns hs hc new r.logicalPath) fun i hi => ?_
  obtain ⟨a, chain, own, ha, builds, tags⟩ := made i hi
  obtain ⟨r', inheritance, logicalPath, builds'⟩ := outer chain i own builds
  refine ⟨c.inheritance.applyTo r.logicalPath a, r' :: chain, own, ?_, builds', ?_⟩
  · rw [get?_merge hc, if_pos hi, ha]
    rfl
  · rw [tags_applyTo, inherits, tags, ← inheritance, ← logicalPath]
    rfl

end Session.Tagged

end

/-! ## Calls of a script -/

/-- The script of a compile comes to a call. -/
def ComesTo (e : Engine) (depth : Nat) (r : Request) (s : Session) (c : Script.Call)
    (running : Running) : Prop :=
  ∃ o s₁ node rest, openScript e r s = (.ok o, s₁) ∧ Script.Node.call? node = some c ∧
    Reaches e (compilerBelow e depth) (o.nodes, .start o.path o.document (s₁.opening o.path))
      (node :: rest, running)

section

variable {e : Engine} {depth : Nat} {r : Request} {s : Session} {c : Script.Call}
  {running : Running}

/-- A script makes a change set where it comes to. -/
theorem ComesTo.builds (here : ComesTo e depth r s c running) {inner : List Request}
    {i : ChangeSetId} {own : DraftChangeSet}
    (makes : Makes e (compilerBelow e depth) c running inner i own) :
    Builds e depth r s inner i own := by
  obtain ⟨o, s₁, node, rest, opens, calls, reaches⟩ := here
  exact ⟨_, c, inner, .here opens reaches, calls, makes, rfl⟩

theorem Visits.exists_opened {p : Point} (h : Visits e depth r s p) :
    ∃ path rest, p.opened = { r with path } :: rest := by
  cases h with
  | here => exact ⟨_, _, rfl⟩
  | inside => exact ⟨_, _, rfl⟩

/-- What an included script makes, the including one makes by way of the include. -/
theorem ComesTo.builds_outer (here : ComesTo e (depth + 1) r s c running)
    {relativeTo : Option String} {path path' suffix : String} {i : Inclusion} {s₂ s₃ : Session}
    (meets : Meets e (compilerBelow e (depth + 1)) c running relativeTo path i s₂)
    (accepts : accept e relativeTo path i.skipsUnknown s₂ =
      (.ok (some (path', .script suffix)), s₃)) (chain : List Request) (j : ChangeSetId)
    (own : DraftChangeSet)
    (builds : Builds e depth (i.request running.frame.document path') s₃ chain j own) :
    ∃ r', r'.inheritance = i.inheritance ∧ r'.logicalPath = i.logicalPath ∧
      Builds e (depth + 1) r s (r' :: chain) j own := by
  obtain ⟨o, s₁, node, rest, opens, calls, reaches⟩ := here
  obtain ⟨p, c', inner, visits, calls', makes, rfl⟩ := builds
  obtain ⟨path₁, opened, hp⟩ := visits.exists_opened
  refine ⟨{ i.request running.frame.document path' with path := path₁ }, rfl, rfl, ?_⟩
  refine ⟨_, c', inner, .inside opens reaches calls meets accepts visits, calls', makes, ?_⟩
  show _ = p.opened ++ inner
  rw [hp]
  rfl

/-- What a parser of the host makes, the including script makes by way of the include. -/
theorem ComesTo.tagged_hostDocument (here : ComesTo e depth r s c running)
    {relativeTo : Option String} {path path' : String} {i : Inclusion} {s₁ s₂ : Session}
    {supports : String → Bool} {parse : String → Except ResourceError (List DraftChangeSet)}
    (meets : Meets e (compilerBelow e depth) c running relativeTo path i s₁)
    (accepts : accept e relativeTo path i.skipsUnknown s₁ =
      (.ok (some (path', .host supports parse)), s₁)) {child : DocumentId}
    (run : hostDocument parse (i.request running.frame.document path') s₁ = (.ok child, s₂)) :
    s₂.Tagged (fun chain j own => chain = [] ∧
      Builds e depth r s [i.request running.frame.document path'] j own) child := by
  obtain ⟨made, ids, s₃, doc, parses, puts, pool, hd, rfl, -⟩ := hostDocument_ok run
  intro doc' hd' j hj
  obtain rfl : doc = doc' := Option.some.inj (hd.symm.trans hd')
  obtain ⟨own, hown⟩ := Store.exists_get?_of_has (added_of_addChangeSets puts j hj).2
  exact ⟨own, [], own, pool ▸ hown, ⟨rfl, here.builds (.host meets accepts parses puts hj hown)⟩, rfl⟩

/-- The scripts inside a compile leave their documents tagged. -/
def TaggedBelow (e : Engine) (depth : Nat) : Prop :=
  ∀ inner, depth = inner + 1 → ∀ r s d s', compileScript e inner r s = (.ok d, s') →
    s'.Tagged (Builds e inner r s) d

/-- An included file leaves the document tagged if the scripts inside it do. -/
theorem ComesTo.tagged_includeFile (here : ComesTo e depth r s c running)
    (below : TaggedBelow e depth)
    {relativeTo : Option String} {path : String} {i : Inclusion} {s₁ : Session}
    (meets : Meets e (compilerBelow e depth) c running relativeTo path i s₁)
    (owns : Owns s.store running.frame.document s₁)
    (tagged : s₁.Tagged (Builds e depth r s) running.frame.document) :
    (includeFile e (compilerBelow e depth) running.frame.document relativeTo path i s₁).2.Tagged
      (Builds e depth r s) running.frame.document := by
  obtain ⟨failure, s₂, ha, run⟩ | ⟨s₂, ha, run⟩ |
    ⟨found, parser, s₂, s₃, ha, ⟨failure, hc, run⟩ | ⟨child, hc, run⟩⟩ :=
      includeFile_cases e (compilerBelow e depth) running.frame.document relativeTo path i s₁
  all_goals rw [run]
  · exact tagged.extends_ owns.known ((keeps_accept e _ path _).of_run ha)
  · exact tagged.extends_ owns.known ((keeps_accept e _ path _).of_run ha)
  all_goals
    obtain ⟨-, -, -, -, rfl⟩ := of_accept ha
    have compiles := compiles_compileWith (e := e) (compilerBelow_isSound e depth) parser
      (i.request running.frame.document found)
    have kept : s₂.Extends s₃ := compiles.keeps.of_run hc
  · exact tagged.extends_ owns.known (kept.trans (keeps_excuse found i.required failure s₃))
  · obtain ⟨new, doc, hd, inherits⟩ := compiles.document hc
    cases parser with
    | host supports parse =>
      have made := here.tagged_hostDocument meets ha (compileWith_host .. ▸ hc)
      refine tagged.merge (r := i.request running.frame.document found) owns kept hd new inherits
        (made doc hd) ?_
      rintro chain j own ⟨rfl, builds⟩
      exact ⟨_, rfl, rfl, builds⟩
    | script suffix =>
      cases depth with
      | zero => cases hc
      | succ depth =>
        exact tagged.merge (r := i.request running.frame.document found) owns kept hd new inherits
          (below depth rfl _ _ _ _ hc doc hd) (here.builds_outer meets ha)

/-- So do the files of a directory one after the other. -/
theorem ComesTo.tagged_includeFiles (here : ComesTo e depth r s c running)
    (below : TaggedBelow e depth) (before : List String) {rest : List String}
    {x : ScriptM.Application} {i : Inclusion} {s₀ s₁ : Session}
    (prepares : ScriptM.prepare e c running = (.ok x, running)) (element : x.element = .includeAll)
    (reads : readIncludeAll e running.frame.document x.attributes running.session =
      (.ok (before ++ rest, i), s₀))
    (earlier : includeFiles e (compilerBelow e depth) running.frame.document i before s₀ =
      (.ok (), s₁))
    (owns : Owns s.store running.frame.document s₁)
    (tagged : s₁.Tagged (Builds e depth r s) running.frame.document) :
    (includeFiles e (compilerBelow e depth) running.frame.document i rest s₁).2.Tagged
      (Builds e depth r s) running.frame.document := by
  induction rest generalizing before s₁ with
  | nil => exact tagged
  | cons path rest ih =>
    have included := here.tagged_includeFile below
      (.directory prepares element reads earlier) owns tagged
    have works := works_includeFile (e := e) (b := s.store) (d := running.frame.document)
      (compilerBelow_isSound e depth) none path i s₁
    unfold includeFiles
    rcases h : includeFile e (compilerBelow e depth) running.frame.document none path i s₁
      with ⟨failure | _, s₂⟩
    all_goals rw [h] at included works
    · rw [Step.run_bind_of_error h]
      exact included
    · rw [Step.run_bind_of_ok h]
      refine ih (before ++ [path]) ?_ ?_ (owns.works works) included
      · rw [List.append_assoc]
        exact reads
      · rw [SessionM.includeFiles_append, Step.run_bind_of_ok earlier]
        exact Step.run_bind_of_ok h _

/-- So do the files of statements one after the other. -/
theorem ComesTo.tagged_includeStatementFiles (here : ComesTo e depth r s c running)
    (before : List String) {rest : List String} {x : ScriptM.Application} {name : String → String}
    {s₀ s₁ : Session} (prepares : ScriptM.prepare e c running = (.ok x, running))
    (element : x.element = .includeAllSql)
    (reads : readIncludeAllSql e running.frame.document x.attributes running.session =
      (.ok (before ++ rest, name), s₀))
    (earlier : includeStatementFiles running.frame.document x.attributes name before s₀ =
      (.ok (), s₁))
    (owns : Owns s.store running.frame.document s₁)
    (tagged : s₁.Tagged (Builds e depth r s) running.frame.document) :
    (includeStatementFiles running.frame.document x.attributes name rest s₁).2.Tagged
      (Builds e depth r s) running.frame.document := by
  induction rest generalizing before s₁ with
  | nil => exact tagged
  | cons path rest ih =>
    rcases hi : newStatements running.frame.document x.attributes (name path) path s₁
      with ⟨failure | i, s₂⟩
    · have kept : s₁.Extends s₂ := (keeps_newStatements _ _ _).of_run hi
      have fails : includeStatements running.frame.document x.attributes (name path) path s₁ =
        (.error failure, s₂) := Step.run_bind_of_error hi _
      unfold includeStatementFiles
      rw [Step.run_bind_of_error fails]
      exact tagged.extends_ owns.known kept
    · have kept : s₁.Extends s₂ := (keeps_newStatements _ _ _).of_run hi
      have adv := advances_append owns kept i
      have done : includeStatements running.frame.document x.attributes (name path) path s₁ =
        modifyDocument running.frame.document
          (fun d => { d with changeSets := d.changeSets ++ [i] })
          s₂ := Step.run_bind_of_ok hi _
      obtain ⟨own, hown⟩ := Store.exists_get?_of_has (added_of_newStatements hi).2
      have builds := here.builds (.statements prepares element reads earlier hi hown)
      have included := tagged.advance owns.known adv fun j hj => by
        obtain rfl := List.mem_singleton.1 hj
        exact ⟨own, [], own, hown, builds, rfl⟩
      have works := works_includeStatements (b := s.store) (d := running.frame.document)
        x.attributes (name path) path s₁
      rw [done] at works
      unfold includeStatementFiles
      rw [Step.run_bind_of_ok done]
      refine ih (before ++ [path]) ?_ ?_ (owns.works works) included
      · rw [List.append_assoc]
        exact reads
      · rw [SessionM.includeStatementFiles_append, Step.run_bind_of_ok earlier]
        exact Step.run_bind_of_ok done _

/-- An element leaves the document tagged. -/
theorem ComesTo.tagged_act (here : ComesTo e depth r s c running) (below : TaggedBelow e depth)
    {x : ScriptM.Application} (prepares : ScriptM.prepare e c running = (.ok x, running))
    (owns : running.Owns s.store)
    (tagged : running.session.Tagged (Builds e depth r s) running.frame.document) :
    (act e (compilerBelow e depth) running.frame.document x.element x.positional x.attributes
      running.session).2.Tagged (Builds e depth r s) running.frame.document := by
  -- an element that does not contribute leaves all the change sets of the document where they are
  by_cases contributes : x.element.contributes = true
  · cases element : x.element with
    | «include» =>
      show ((«include» e _ _ x.attributes >>= fun _ => pure Result.nothing) _).2.Tagged _ _
      rw [Step.state_bind_pure]
      unfold «include»
      obtain ⟨failure, reads⟩ | ⟨⟨relativeTo, path, i⟩, reads⟩ :=
        (keeps_readInclude running.frame.document x.attributes).run_cases running.session
      · rw [Step.run_bind_of_error reads]
        exact tagged
      · rw [Step.run_bind_of_ok reads]
        exact here.tagged_includeFile below (.file prepares element reads) owns.session tagged
    | includeAll =>
      show ((includeAll e _ _ x.attributes >>= fun _ => pure Result.nothing) _).2.Tagged _ _
      rw [Step.state_bind_pure]
      unfold includeAll
      rcases reads : readIncludeAll e running.frame.document x.attributes running.session
        with ⟨failure | ⟨paths, i⟩, s₁⟩
      all_goals have kept : running.session.Extends s₁ := (keeps_readIncludeAll e _).of_run reads
      · rw [Step.run_bind_of_error reads]
        exact tagged.extends_ owns.known kept
      · rw [Step.run_bind_of_ok reads]
        exact here.tagged_includeFiles below [] prepares element reads rfl
          (owns.session.works (AllowsGrowth.of_extends kept)) (tagged.extends_ owns.known kept)
    | includeAllSql =>
      show ((includeAllSql e _ x.attributes >>= fun _ => pure Result.nothing) _).2.Tagged _ _
      rw [Step.state_bind_pure]
      unfold includeAllSql
      rcases reads : readIncludeAllSql e running.frame.document x.attributes running.session
        with ⟨failure | ⟨paths, name⟩, s₁⟩
      all_goals have kept : running.session.Extends s₁ := (keeps_readIncludeAllSql e _).of_run reads
      · rw [Step.run_bind_of_error reads]
        exact tagged.extends_ owns.known kept
      · rw [Step.run_bind_of_ok reads]
        exact here.tagged_includeStatementFiles [] prepares element reads rfl
          (owns.session.works (AllowsGrowth.of_extends kept)) (tagged.extends_ owns.known kept)
    | removeProperty =>
      show ((removeProperty e _ x.attributes >>= fun _ => pure Result.nothing) _).2.Tagged _ _
      rw [Step.state_bind_pure]
      obtain ⟨removals, adv⟩ := removeProperty_advances (e := e) owns.session x.attributes
      exact tagged.advance owns.known adv (by simp)
    | _ =>
      rw [element] at contributes
      cases contributes
  · have new := ScriptM.prepare_isNew owns prepares
    exact tagged.quiet owns.known
      (quiet_act owns.session.owned new (Bool.eq_false_iff.2 contributes)
      rfl owns.session.base owns.known)

/-- A change set that an element leaves behind is tagged before it is added to the document. -/
theorem ComesTo.tagged_of_leaves (here : ComesTo e depth r s c running) {x : ScriptM.Application}
    (prepares : ScriptM.prepare e c running = (.ok x, running)) {y : Scope} {s₁ : Session}
    (acts : act e (compilerBelow e depth) running.frame.document x.element x.positional x.attributes
      running.session = (.ok (.scope y), s₁)) {i : ChangeSetId}
    (completion : y.completion = .appendChangeSet i) :
    s₁.store.Tagged (Builds e depth r s) i := by
  cases act_leaves acts with
  | changeSet element =>
    rw [element] at acts
    obtain ⟨own, s₂, reads, acts⟩ := Step.bind_eq_ok.1 acts
    cases acts
    cases completion
    exact ⟨own, [], own, (Pool.get?_add ..).trans (if_pos rfl),
      here.builds (.element prepares element reads), rfl⟩
  | changeLog _ _ h | preconditions _ _ h | changeSetPreconditions _ _ h | part _ _ h =>
    rw [h] at completion
    cases completion

end

/-! ## Scripts -/

/-- The change sets of a running script are tagged, those that are still to be added included. -/
structure Running.Tagged (B : List Request → ChangeSetId → DraftChangeSet → Prop) (r : Running) :
    Prop where
  session : r.session.Tagged B r.frame.document
  scopes : ∀ x ∈ r.frame.scopes, ∀ i, x.completion = .appendChangeSet i → r.session.store.Tagged B i

section

variable {B : List Request → ChangeSetId → DraftChangeSet → Prop} {b : Store} {r : Running}

/-- What the script does to the session leaves it tagged if what the document gains is. -/
theorem Running.Tagged.advance (h : r.Tagged B) (owns : r.Owns b) {g : Gain} {s : Session}
    (adv : Session.Advances b r.frame.document g r.session s)
    (new : ∀ i ∈ g.changeSets, s.store.Tagged B i) : ({ r with session := s } : Running).Tagged B where
  session := h.session.advance owns.known adv new
  scopes x hx i hi := (h.scopes x hx i hi).advance adv

theorem Running.Tagged.scope (h : r.Tagged B) {i : ScopeId} {j : ChangeSetId}
    (completion : (r.frame.scopes[i]?.getD default).completion = .appendChangeSet j) :
    r.session.store.Tagged B j := by
  cases hx : r.frame.scopes[i]? with
  | none =>
    rw [hx] at completion
    cases completion
  | some x =>
    rw [hx] at completion
    exact h.scopes x (Array.mem_of_getElem? hx) j completion

theorem Running.Tagged.enter (h : r.Tagged B) (owns : r.Owns b) (i : ScopeId) :
    (ScriptM.enter i r).2.Tagged B := by
  have new := (ScriptM.scope_isNew owns i).opening
  obtain ⟨s, ⟨failure, opens, enters⟩ | ⟨body, opens, enters⟩⟩ := ScriptM.enter_cases i r
  all_goals
    rw [enters]
    have quiet := (ScriptM.quiet_openBody owns.session.owned new).of_run opens owns.session.base
      owns.known
    have same := h.advance owns quiet (by simp)
  · exact ⟨same.session, same.scopes⟩
  · refine ⟨same.session, fun x hx j hj => ?_⟩
    obtain ⟨y, hy, -, completion⟩ := ScriptM.exists_of_mem_opened hx
    exact same.scopes y hy j (completion.symm.trans hj)

/-- A change set is tagged when its block is left, and then it comes into the document. -/
theorem Running.Tagged.leave (h : r.Tagged B) (owns : r.Owns b) (i : ScopeId)
    (result : Except Failure Unit) : (ScriptM.leave i result r).2.Tagged B := by
  obtain ⟨⟨stack, -, frame⟩, session⟩ := ScriptM.leave_cases i result r
  have adv := ScriptM.complete_advances owns.session (ScriptM.scope_isNew owns i).completion
  have completed := h.advance owns adv fun j hj => (h.scope (ScriptM.eq_of_mem_gainOf hj)).advance adv
  rcases session with same | session
  · exact ⟨by rw [frame, same]; exact h.session, by rw [frame, same]; exact h.scopes⟩
  · exact ⟨by rw [frame, session]; exact completed.session,
      by rw [frame, session]; exact completed.scopes⟩

end

section

variable {e : Engine} {depth : Nat} {r : Request} {s : Session} {running : Running}

/-- A call leaves the script tagged. -/
theorem ComesTo.tagged_call {c : Script.Call} (here : ComesTo e depth r s c running)
    (below : TaggedBelow e depth) (owns : running.Owns s.store)
    (tagged : running.Tagged (Builds e depth r s)) :
    (ScriptM.call e (compilerBelow e depth) c running).2.Tagged (Builds e depth r s) := by
  obtain ⟨plain, -, calls, -⟩ | ⟨x, result, s₁, prepares, acts, calls⟩ :=
    ScriptM.call_cases e (compilerBelow e depth) c running
  all_goals rw [calls]
  · exact tagged
  · have acted := here.tagged_act below prepares owns tagged.session
    have works : running.session.Works s.store running.frame.document s₁ :=
      works_act (compilerBelow_isSound e depth) (ScriptM.prepare_isNew owns prepares) acts
    obtain ⟨g, -, -, adv⟩ := works owns.session
    have scopes : ∀ y ∈ running.frame.scopes, ∀ i, y.completion = .appendChangeSet i →
        s₁.store.Tagged (Builds e depth r s) i :=
      fun y hy i hi => (tagged.scopes y hy i hi).advance adv
    rw [acts] at acted
    obtain same | ⟨y, rfl, puts⟩ := ScriptM.outcomeOf_cases result { running with session := s₁ }
    · rw [same]
      exact ⟨acted, scopes⟩
    · rw [puts]
      refine ⟨acted, fun z hz i hi => ?_⟩
      rcases Array.mem_push.1 hz with hz | rfl
      · exact scopes z hz i hi
      · exact here.tagged_of_leaves prepares acts hi

/-- The compile of a script leaves its document tagged. -/
theorem tagged_compileWithin (below : TaggedBelow e depth) {d : DocumentId} {s' : Session}
    (h : compileWithin e (compilerBelow e depth) r s = (.ok d, s')) :
    s'.Tagged (Builds e depth r s) d := by
  obtain ⟨o, s₁, running, opens, runs, -, rfl, rfl⟩ := compileWithin_ok h
  have sound := compilerBelow_isSound e depth
  have steady := ScriptM.works_steady (e := e) (b := s.store) sound
  -- the script owns its document all the way, and what it has of change sets is tagged
  have lasts : Lasts e (compilerBelow e depth)
      (o.nodes, .start o.path o.document (s₁.opening o.path))
      fun r' => r'.Owns s.store ∧ r'.Tagged (Builds e depth r s) :=
    { call := fun {node rest r' c} reaches calls h =>
        ⟨(steady.call c r' h.1).1,
          ComesTo.tagged_call ⟨o, s₁, node, rest, opens, calls, reaches⟩ below h.1 h.2⟩
      keep := fun {r'} name result h =>
        ⟨(steady.keep name result r' h.1).1, h.2.session, h.2.scopes⟩
      enter := fun {r'} i h => ⟨(steady.enter i r' h.1).1, h.2.enter h.1 i⟩
      leave := fun {r'} i result h =>
        ⟨(steady.leave i result r' h.1).1, h.2.leave h.1 i result⟩ }
  obtain ⟨-, -, -, doc, hd, -, empty, -⟩ := openScript_ok opens
  have start : (Running.start o.path o.document (s₁.opening o.path)).Tagged
      (Builds e depth r s) := by
    refine ⟨fun doc' hd' i hi => ?_, fun x hx => by cases Array.not_mem_empty x hx⟩
    obtain rfl : doc = doc' := Option.some.inj (hd.symm.trans hd')
    rw [empty] at hi
    cases hi
  have tagged := (lasts.runNodes o.nodes .refl ⟨owns_of_open opens, start⟩).2
  rw [runs] at tagged
  have document : running.frame.document = o.document := by
    obtain ⟨-, _, -, adv⟩ := (steady.runNodes o.nodes).of_run runs (owns_of_open opens)
    exact adv.frame.document
  have session := tagged.session
  rw [document] at session
  exact session

theorem tagged_compileScript (depth : Nat) (r : Request) (s : Session) (d : DocumentId)
    (s' : Session) (h : compileScript e depth r s = (.ok d, s')) :
    s'.Tagged (Builds e depth r s) d := by
  induction depth generalizing r s d s' with
  | zero => exact tagged_compileWithin (fun _ eq => by cases eq) h
  | succ depth ih =>
    refine tagged_compileWithin (fun inner eq => ?_) h
    cases eq
    exact ih

end

/-! ## Compiles -/

/-- The compile of a change log makes a change set by way of a chain of includes: in the script that
it is or in one that this includes, or by the parser of the host that takes it. -/
inductive Engine.Builds (e : Engine) (table : Table) (path : String) :
    List Request → ChangeSetId → DraftChangeSet → Prop
  | script {suffix chain i own} (takes : e.parser? path = some (.script suffix))
      (builds : Migration.Builds e (e.settings.maxIncludeDepth - 1) { path } { table } chain i own) :
      Builds e table path chain i own
  | host {supports parse made ids s i own} (takes : e.parser? path = some (.host supports parse))
      (parses : parse path = .ok made) (puts : addChangeSets made { table } = (.ok ids, s))
      (mem : i ∈ ids) (put : s.store.changeSets.get? i = some own) : Builds e table path [] i own

/-- A script that includes another one in the context `test` and in the place of a third one. The
other one has a change set without a context. -/
def includingOnce : Engine := .ofScripts [
  ("a.py", [.block { element := "databaseChangeLog" } [
    .call {
      element := "include"
      attributes := [("file", .literal (.text "b.py")), ("context", .literal (.text "test")),
        ("logicalFilePath", .literal (.text "c.py"))] }]]),
  ("b.py", [.block { element := "databaseChangeLog" } [
    .block { element := "changeSet", attributes := [("id", .literal (.text "1"))] } []]])]

end Migration
