import Migration.Proofs.Stability.Whole

/-!
# Containers of change sets

A container of preconditions belongs to one document or to one change set. What is put into the
container of a document later is in no change set, then.

* `Running.Checks` — the containers that the change sets of a running script have or will have
* `Running.IsApart` — none of them is one that the document has or will have
* `ScriptM.settles_steady` — containers stay apart, whatever a script does
* `SessionM.compilerBelow_fills` — whatever a compile brings in refers to what is there
-/

namespace Migration

open SessionM Session

namespace Running

/-- A container that a change set has, or will have when some block is left. -/
def Checks (r : Running) (i : ChangeSetId) (k : PreconditionId) : Prop :=
  (∃ c, r.session.store.changeSets.get? i = some c ∧ c.preconditions = some k) ∨
    ∃ x ∈ r.frame.scopes, x.completion = .setChangeSetPreconditions i k

/-- No container is both that of a change set and that of the document. -/
def IsApart (r : Running) : Prop := ∀ i k, r.Checks i k → ¬r.Sets k

/-- What a script has brought in refers to what is there, the containers that change sets have got
are new, and those of the document are others. -/
def Settles (b : Store) (r r' : Running) : Prop :=
  r.Owns b → r'.Owns b ∧ r.session.store.Grows r'.session.store ∧
    (∀ i k, r'.Checks i k → r.Checks i k ∨ r.session.store.Added r'.session.store k) ∧
    (r.session.store.IsWhole → r'.session.store.IsWhole ∧ (r.IsApart → r'.IsApart))

variable {b : Store} {r r' : Running} {i : ChangeSetId} {k : PreconditionId}

instance : IsPreorder Running (Settles b) where
  refl r owns := ⟨owns, .refl _, fun i k checks => .inl checks, fun whole => ⟨whole, id⟩⟩
  trans r r' r'' h h' owns := by
    obtain ⟨owns', grows, checks, whole⟩ := h owns
    obtain ⟨owns'', grows', checks', whole'⟩ := h' owns'
    refine ⟨owns'', grows.trans grows', fun i k hk => ?_, fun old => ?_⟩
    · rcases checks' i k hk with hk | new
      · exact (checks i k hk).imp_right (·.mono grows')
      · exact .inr (new.of_grows grows)
    · obtain ⟨now, apart⟩ := whole old
      exact ⟨(whole' now).1, (whole' now).2 ∘ apart⟩

/-- What a change set has or will have as a container is in the store. -/
theorem Checks.has (h : r.Checks i k) (owns : r.Owns b) (whole : r.session.store.IsWhole) :
    r.session.store.Has k := by
  rcases h with ⟨c, hc, hk⟩ | ⟨x, hx, completion⟩
  · exact (whole.changeSet hc).2.2 k hk
  · have new := (owns.scopes x hx).completion
    rw [completion] at new
    exact new.2.2

/-- Containers stay apart where no container becomes one of the document, and those of change sets
are new ones. -/
theorem IsApart.of_checks (apart : r.IsApart) (owns : r.Owns b) {s' : Store}
    (checks : ∀ i k, r'.Checks i k → r.Checks i k ∨ r.session.store.Added s' k)
    (sets : ∀ k, r'.Sets k → r.Sets k) : r'.IsApart := by
  intro i k hk set
  rcases checks i k hk with hk | new
  · exact apart i k hk (sets k set)
  · exact new.1 ((sets k set).has owns)

theorem checks_of_fills {s : Session} (fills : r.session.Fills s)
    (h : Checks { r with session := s } i k) :
    r.Checks i k ∨ r.session.store.Added s.store k := by
  rcases h with ⟨c, hc, hk⟩ | h
  · exact (fills.checks i c k hc hk).imp_left .inl
  · exact .inl (.inr h)

end Running

namespace ScriptM

open Running

variable {b : Store} {e : Engine} {compiler : Compiler} {r : Running} {i : ChangeSetId}
  {k : PreconditionId}

/-! ## Steps of a script -/

/-- A container that a change set has or will have after a call, and not before it, is new. -/
theorem checks_of_call (sound : compiler.IsSound) (hosts : e.HostsAreBare) (fills : compiler.Fills)
    (owns : r.Owns b) {c : Script.Call} (h : (call e compiler c r).2.Checks i k) :
    r.Checks i k ∨ r.session.store.Added (call e compiler c r).2.session.store k := by
  obtain ⟨plain, -, calls, -⟩ | ⟨x, result, s, prepares, acts, calls⟩ := call_cases e compiler c r
  all_goals rw [calls] at h ⊢
  · exact .inl h
  · have fill : r.session.Fills s :=
      fills_act sound hosts fills owns.session (prepare_isNew owns prepares) acts
    obtain same | ⟨y, rfl, puts⟩ := outcomeOf_cases result { r with session := s }
    · rw [same] at h ⊢
      exact checks_of_fills fill h
    · rw [puts] at h ⊢
      rcases h with h | ⟨z, hz, completion⟩
      · exact checks_of_fills fill (.inl h)
      · rcases Array.mem_push.1 hz with hz | rfl
        · exact .inl (.inr ⟨z, hz, completion⟩)
        · -- only a block of preconditions is about a container, and it is a new one
          refine .inr ?_
          obtain ⟨-, -, others⟩ | ⟨-, -, others⟩ | ⟨-, -, others⟩ | ⟨element, -, -⟩ | ⟨-, -, others⟩ :=
            SessionM.act_leaves acts
          · cases others.symm.trans completion
          · cases others.symm.trans completion
          · cases others.symm.trans completion
          · rw [element] at acts
            obtain ⟨record, adds, -, checks⟩ := preconditions_ok acts
            cases (checks _ rfl).symm.trans completion
            exact added_of_addPrecondition (.refl _) adds
          · cases others.symm.trans completion

theorem isApart_of_call (sound : compiler.IsSound) (hosts : e.HostsAreBare) (fills : compiler.Fills)
    (owns : r.Owns b) (whole : r.session.store.IsWhole) (apart : r.IsApart) (c : Script.Call) :
    (call e compiler c r).2.IsApart := by
  intro i k checks sets
  rcases sets_of_call sound owns sets with sets | ⟨record, y, adds, scopes, completion⟩
  · rcases checks_of_call sound hosts fills owns checks with checks | new
    · exact apart i k checks sets
    · exact new.1 (sets.has owns)
  · -- the container has just been put down, so no change set has it
    have new : ¬r.session.store.Has k := (added_of_addPrecondition (.refl _) adds).1
    rcases checks with ⟨c, hc, hk⟩ | ⟨x, hx, checks⟩
    · have hc : (addPrecondition { record } r.session).2.store.changeSets.get? i = some c := by
        rw [adds]
        exact hc
      exact new ((whole.changeSet hc).2.2 k hk)
    · rw [scopes] at hx
      rcases Array.mem_push.1 hx with hx | rfl
      · exact new (Checks.has (.inr ⟨x, hx, checks⟩) owns whole)
      · cases completion.symm.trans checks

theorem settles_call (sound : compiler.IsSound) (hosts : e.HostsAreBare) (fills : compiler.Fills)
    (c : Script.Call) : Keeps (Settles b) (call e compiler c) := by
  intro r owns
  obtain ⟨owns', g, -, adv⟩ := works_call sound c r owns
  refine ⟨owns', adv.session.grows, fun i k => checks_of_call sound hosts fills owns,
    fun whole => ⟨?_,
    fun apart => isApart_of_call sound hosts fills owns whole apart c⟩⟩
  obtain ⟨plain, -, calls, -⟩ | ⟨x, result, s, prepares, acts, calls⟩ := call_cases e compiler c r
  all_goals rw [calls]
  · exact whole
  · have fill : r.session.Fills s :=
      fills_act sound hosts fills owns.session (prepare_isNew owns prepares) acts
    rcases result with failure | _ | type | y <;> exact fill.whole whole

theorem settles_enter (i : ScopeId) : Keeps (Settles b) (enter i) := by
  intro r owns
  obtain ⟨owns', g, -, adv⟩ := works_enter i r owns
  have opens := writes_openBody (d := r.frame.document) (scope_isNew owns i).opening r.session
  have checks : ∀ j k, (enter i r).2.Checks j k →
      r.Checks j k ∨ r.session.store.Added (enter i r).2.session.store k := by
    intro j k h
    obtain ⟨s, ⟨failure, ran, enters⟩ | ⟨body, ran, enters⟩⟩ := enter_cases i r
    all_goals
      rw [enters] at h ⊢
      rw [ran] at opens
    · exact checks_of_fills opens.fills h
    · rcases h with h | ⟨y, hy, completion⟩
      · exact checks_of_fills opens.fills (.inl h)
      · obtain ⟨z, hz, -, same⟩ := exists_of_mem_opened hy
        exact .inl (.inr ⟨z, hz, same.symm.trans completion⟩)
  refine ⟨owns', adv.session.grows, checks, fun whole => ⟨?_, fun apart =>
    apart.of_checks owns checks fun k => sets_of_enter owns⟩⟩
  rw [session_enter]
  exact opens.fills.whole whole

/-- What remains to be done when a block is left refers to what is there. -/
theorem isWhole_complete {d : DocumentId} {x : Completion} {s : Session} (whole : s.store.IsWhole)
    (new : x.IsNew b s.store) : (complete d x s).2.store.IsWhole := by
  cases x with
  | nothing => exact whole
  | appendChangeSet i => exact (Fills.append (d := d) new.2).whole whole
  | setPreconditions c =>
    exact (Fills.modifyDocument (f := fun doc => { doc with preconditions := c }) fun _ _ _ parts =>
      ⟨parts.changeSets, Store.added_empty new.2⟩).whole whole
  | setChangeSetPreconditions i c =>
    have hu := Store.Modifies.changeSet s.store i fun x => { x with preconditions := some c }
    refine ⟨Store.IsSelfContained.modify whole.closed hu fun _ x _ old => ⟨?_, ?_, fun j hj => ?_⟩⟩
    · exact fun j hj => (old.1 j hj).mono hu.grows
    · exact fun j hj => (old.2.1 j hj).mono hu.grows
    · obtain rfl := Option.mem_some.1 hj
      exact Store.added_empty (hu.grows.has new.2.2)

/-- A change set gets a container when the block of that is left. -/
theorem changeSet_complete {d : DocumentId} {x : Completion} {s : Session} {c : DraftChangeSet}
    (hc : (complete d x s).2.store.changeSets.get? i = some c) (hk : c.preconditions = some k) :
    (∃ c, s.store.changeSets.get? i = some c ∧ c.preconditions = some k) ∨
      x = .setChangeSetPreconditions i k := by
  cases x with
  | setChangeSetPreconditions j container =>
    have hc : (s.store.changeSets.modify j _).get? i = some c := hc
    rw [Pool.get?_modify] at hc
    split at hc
    · next same =>
      obtain ⟨old, -, rfl⟩ := Option.map_eq_some_iff.1 hc
      cases hk
      exact .inr (same ▸ rfl)
    · exact .inl ⟨c, hc, hk⟩
  | _ => exact .inl ⟨c, hc, hk⟩

theorem checks_of_leave {result : Except Failure Unit} {j : ScopeId}
    (h : (leave j result r).2.Checks i k) : r.Checks i k := by
  obtain ⟨⟨stack, -, frame⟩, session⟩ := leave_cases j result r
  unfold Checks at h
  rw [frame] at h
  rcases session with session | session
  all_goals rw [session] at h
  · exact h
  · rcases h with ⟨c, hc, hk⟩ | h
    · obtain old | completion := changeSet_complete hc hk
      · exact .inl old
      · cases hs : r.frame.scopes[j]? with
        | none =>
          rw [hs] at completion
          cases completion
        | some x =>
          rw [hs] at completion
          exact .inr ⟨x, Array.mem_of_getElem? hs, completion⟩
    · exact .inr h

theorem settles_leave (j : ScopeId) (result : Except Failure Unit) :
    Keeps (Settles b) (leave j result) := by
  intro r owns
  obtain ⟨owns', g, -, adv⟩ := works_leave j result r owns
  refine ⟨owns', adv.session.grows, fun i k checks => .inl (checks_of_leave checks),
    fun whole => ⟨?_,
    fun apart i k checks sets => apart i k (checks_of_leave checks) (sets_of_leave owns sets)⟩⟩
  obtain ⟨-, same | session⟩ := leave_cases j result r
  · rw [same]
    exact whole
  · rw [session]
    exact isWhole_complete whole (scope_isNew owns j).completion

/-- Containers stay apart, whatever a script does. -/
theorem settles_steady (sound : compiler.IsSound) (hosts : e.HostsAreBare)
    (fills : compiler.Fills) :
    Steady e compiler (Settles b) where
  call := settles_call sound hosts fills
  keep name result r owns := by
    obtain ⟨owns', g, -, adv⟩ := (works_steady (e := e) sound).keep name result r owns
    exact ⟨owns', adv.session.grows, fun i k checks => .inl checks, fun whole => ⟨whole, id⟩⟩
  enter := settles_enter
  leave := settles_leave

end ScriptM

/-! ## Compiles -/

namespace SessionM

variable {e : Engine} {compiler : Compiler} {s s₁ : Session}

/-- A script starts with a container that no change set has. -/
theorem isApart_of_openScript (whole : s.store.IsWhole) {r : Request} {o : Opened}
    (opens : openScript e r s = (.ok o, s₁)) :
    (Running.start o.path o.document (s₁.opening o.path)).IsApart := by
  obtain ⟨_, _, -, -, -, puts⟩ := of_openScript_ok opens
  obtain ⟨doc, hd, container, pool⟩ : ∃ doc, s₁.store.documents.get? o.document = some doc ∧
      doc.preconditions = s.store.preconditions.next ∧
      s₁.store.changeSets = s.store.changeSets := by
    rw [newDocument_eq] at puts
    obtain ⟨document, rfl⟩ := Prod.mk.inj puts
    rw [← Except.ok.inj document]
    exact ⟨_, (Pool.get?_add ..).trans (if_pos rfl), rfl, rfl⟩
  intro i k checks sets
  obtain ⟨c, hc, hk⟩ | ⟨x, hx, -⟩ := checks
  · obtain ⟨doc', hd', rfl⟩ | ⟨x, hx, -⟩ := sets
    · obtain rfl : doc = doc' := Option.some.inj (hd.symm.trans hd')
      have known := (whole.changeSet (pool ▸ hc)).2.2 _ hk
      rw [container] at known
      exact s.store.not_has_next .precondition known
    · cases Array.not_mem_empty x hx
  · cases Array.not_mem_empty x hx

/-- The steps of a script that has been opened. -/
theorem fills_runScript (sound : compiler.IsSound) (hosts : e.HostsAreBare) (fills : compiler.Fills)
    {b : Store} {d : DocumentId} (owns : Owns b d s) (path : String) (nodes : List Script.Node) :
    s.Fills (runScript e compiler path d nodes s).2 := by
  obtain ⟨-, grows, checks, whole⟩ :=
    (ScriptM.settles_steady (b := b) sound hosts fills).runNodes nodes
    (.start path d s) (Running.owns_start owns path)
  rw [session_runScript]
  refine ⟨grows, fun old => (whole old).1, fun i c k hc hk => ?_⟩
  obtain (old | ⟨x, hx, -⟩) | new := checks i k (.inl ⟨c, hc, hk⟩)
  · exact .inl old
  · cases Array.not_mem_empty x hx
  · exact .inr new

theorem fills_compileWithin (sound : compiler.IsSound) (hosts : e.HostsAreBare)
    (fills : compiler.Fills) (r : Request) : Keeps Fills (compileWithin e compiler r) := by
  refine fun s => Keeps.run_bind_of_ok (keeps_openScript fills_newDocument r s) fun o s₁ opens => ?_
  obtain ⟨-, -, owns, -⟩ := openScript_ok opens
  refine Keeps.run_bind ?_ fun _ => .pure _
  rw [inChain_eq]
  have opened : s₁.Fills (s₁.opening o.path) := .of_same rfl
  have ran := fills_runScript sound hosts fills (owns.opening o.path) o.path o.nodes
  exact opened.trans (ran.trans (.of_same rfl))

/-- Whatever the compile of a file brings in refers to what is there. -/
theorem compilerBelow_fills (hosts : e.HostsAreBare) (depth : Nat) :
    (compilerBelow e depth).Fills :=
  compilerBelow_induction
    (fun depth => fills_compileWithin (compilerBelow_isSound e depth) hosts) depth

end SessionM
end Migration
