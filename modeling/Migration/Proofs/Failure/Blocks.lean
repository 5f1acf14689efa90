import Migration.Proofs.Point

/-!
# Blocks that failures pass through

A failure leaves a script through the blocks around it. A block lets it pass if it is still the
innermost one, and that is so unless the script opens or closes blocks by hand, or opens a result
once more while its block is open.

* `IsTidy` — the next step does nothing of that kind
* `Frame.Restores` — blocks are open as they were before
* `ScriptM.restores_runNodes` — steps of a tidy script leave the blocks around them open, also if
  they fail
* `Failure.leavingBlock` — what a block makes of the failure of its steps
* `Leads`, `Leads.fails` — a script comes to steps whose failure nothing swallows, so it fails as
  they do, or with what the innermost block around them makes of it
-/

namespace Migration

/-- A block that a result was opened as is open: the last one, for opening a result again moves its
mark. -/
def Frame.IsOpen (f : Frame) (i : ScopeId) : Prop :=
  ∃ entry ∈ f.stack, (f.scopes[i]?).bind (·.mark) = some entry.1

/-- The step that is next does not open or close a block by hand, and does not open a result whose
block is open. -/
def IsTidy (e : Engine) : List Script.Node × Running → Prop
  | (.enter _ :: _, _) | (.exit _ :: _, _) => False
  | (.reopen name _ :: _, r) => ∀ i, ScriptM.keptScope e name .notABlock r = (.ok i, r) →
      ¬r.frame.IsOpen i
  | _ => True

mutual

/-- A step that opens no block but with a call, and leaves it where it ends. -/
def Script.Node.opensByCall : Script.Node → Bool
  | .call _ | .keep .. | .raise .. => true
  | .block _ body | .attempt body => Script.openByCalls body
  | .reopen .. | .enter _ | .exit _ => false

/-- Steps that open no block but with a call. -/
def Script.openByCalls : List Script.Node → Bool
  | [] => true
  | node :: rest => node.opensByCall && Script.openByCalls rest

end

/-- Every result that is kept under a name is one of the script. -/
def Frame.KeepsOwn (f : Frame) : Prop :=
  ∀ name i, (name, Outcome.scope i) ∈ f.kept → i < f.scopes.size

/-- The blocks that were open are open again, as the results they were opened from know. -/
structure Frame.Restores (f f' : Frame) : Prop where
  stack : f'.stack = f.stack
  marks : ∀ i, f.IsOpen i → (f'.scopes[i]?).bind (·.mark) = (f.scopes[i]?).bind (·.mark)
  keepsOwn : f.KeepsOwn → f'.KeepsOwn

namespace Frame

variable {f f₁ f' f'' : Frame} {i : ScopeId} {body : Body}

theorem Restores.isOpen (h : f.Restores f') (isOpen : f.IsOpen i) : f'.IsOpen i := by
  obtain ⟨entry, mem, mark⟩ := isOpen
  exact ⟨entry, h.stack ▸ mem, (h.marks i ⟨entry, mem, mark⟩).trans mark⟩

theorem Restores.trans (h : f.Restores f') (h' : f'.Restores f'') : f.Restores f'' where
  stack := h'.stack.trans h.stack
  marks i isOpen := (h'.marks i (h.isOpen isOpen)).trans (h.marks i isOpen)
  keepsOwn own := h'.keepsOwn (h.keepsOwn own)

theorem Restores.of_same (stack : f'.stack = f.stack) (scopes : f'.scopes = f.scopes)
    (kept : f'.kept = f.kept) : f.Restores f' where
  stack := stack
  marks _ _ := by rw [scopes]
  keepsOwn own name i mem := by
    rw [scopes]
    exact own name i (kept ▸ mem)

theorem Restores.refl (f : Frame) : f.Restores f := .of_same rfl rfl rfl

/-- Only results of the script can be open. -/
theorem IsOpen.lt_size (h : f.IsOpen i) : i < f.scopes.size := by
  obtain ⟨entry, -, mark⟩ := h
  obtain ⟨x, hx, -⟩ := Option.bind_eq_some_iff.1 mark
  exact (Array.getElem?_eq_some_iff.1 hx).1

/-- Putting down one more result leaves open what is open. -/
theorem restores_push (x : Scope) (pending : List ScopeId) :
    f.Restores { f with scopes := f.scopes.push x, pending } where
  stack := rfl
  marks i isOpen := by
    show ((f.scopes.push x)[i]?).bind _ = _
    rw [Array.getElem?_push_lt isOpen.lt_size, Array.getElem?_eq_getElem isOpen.lt_size]
  keepsOwn own name i mem := by
    show i < (f.scopes.push x).size
    rw [Array.size_push]
    exact Nat.lt_succ_of_lt (own name i mem)

/-- The block that a result was opened as is restored by what is done in it, and then it is taken
away. What was open before is open. -/
theorem Restores.of_opened (h₁ : f.Restores f₁) (other : ∀ j, f.IsOpen j → i ≠ j)
    (h : (ScriptM.opened i body f₁).Restores f') : f.Restores { f' with stack := f₁.stack } where
  stack := h₁.stack
  marks j isOpen := by
    -- opening the result moves no other mark
    have same : ((ScriptM.opened i body f₁).scopes[j]?).bind (·.mark) =
        (f₁.scopes[j]?).bind (·.mark) := by
      show ((f₁.scopes.modify i _)[j]?).bind _ = _
      rw [Array.getElem?_modify, if_neg (other j isOpen)]
    obtain ⟨entry, mem, mark⟩ := h₁.isOpen isOpen
    have inside : (ScriptM.opened i body f₁).IsOpen j :=
      ⟨entry, List.mem_cons_of_mem _ mem, same.trans mark⟩
    exact (h.marks j inside).trans (same.trans (h₁.marks j isOpen))
  keepsOwn own := h.keepsOwn fun name j mem => by
    show j < (f₁.scopes.modify i _).size
    rw [Array.size_modify]
    exact h₁.keepsOwn own name j mem

/-- A result that has been opened knows its block. -/
theorem mark_opened (body : Body) (own : i < f.scopes.size) :
    ((ScriptM.opened i body f).scopes[i]?).bind (·.mark) = some f.nextMark := by
  show ((f.scopes.modify i _)[i]?).bind _ = _
  rw [Array.getElem?_modify, if_pos rfl, Array.getElem?_eq_getElem own]
  rfl

end Frame

/-! ## Failures that leave a block -/

/-- A failure as it leaves a block: a name that stood for nothing in it does not belong there. -/
def Failure.leavingBlock (body : Body) : Failure → Failure
  | unbound name => .parse (.misplaced body.surroundings name)
  | failure => failure

namespace Failure

variable {failure : Failure} {body : Body}

theorem leavingBlock_of_bound (bound : ∀ name, failure ≠ .unbound name) :
    failure.leavingBlock body = failure := by
  cases failure with
  | unbound name => exact absurd rfl (bound name)
  | _ => rfl

/-- The blocks around leave a failure as it has left the first one. -/
theorem leavingBlock_leavingBlock (failure : Failure) (body outer : Body) :
    (failure.leavingBlock body).leavingBlock outer = failure.leavingBlock body := by
  cases failure <;> rfl

/-- A script does with a failure what its own block would do with it. -/
theorem leaving_leavingBlock (failure : Failure) (path : String) :
    (failure.leavingBlock .script).leaving path = failure.leaving path := by
  cases failure <;> rfl

end Failure

theorem Frame.innermostBody_congr {f f' : Frame} (same : f'.stack = f.stack) :
    f'.innermostBody = f.innermostBody := by
  unfold innermostBody
  rw [same]

theorem Running.keepsOwn_start (path : String) (d : DocumentId) (s : Session) :
    (Running.start path d s).frame.KeepsOwn :=
  fun _ _ mem => by cases mem

namespace ScriptM

variable {e : Engine} {compiler : Compiler} {f : Frame} {r r₁ r₂ : Running} {i : ScopeId}

/-! ## One block -/

/-- A call opens no block and leaves none. -/
theorem restores_call (c : Script.Call) (r : Running) :
    r.frame.Restores (call e compiler c r).2.frame := by
  obtain ⟨plain, -, calls, -⟩ | ⟨x, result, s, prepares, acts, calls⟩ := call_cases e compiler c r
  all_goals rw [calls]
  · exact .refl _
  · obtain same | ⟨y, rfl, puts⟩ := outcomeOf_cases result { r with session := s }
    · rw [same]
      exact .refl _
    · rw [puts]
      exact Frame.restores_push y _

/-- What a call leaves behind to be opened is a new result. -/
theorem scope_of_call {c : Script.Call} (calls : call e compiler c r = (.ok (.scope i), r₁)) :
    i = r.frame.scopes.size ∧ i < r₁.frame.scopes.size := by
  obtain ⟨failure | v, -, called, -⟩ | ⟨x, result, s, -, -, called⟩ := call_cases e compiler c r
  all_goals rw [called] at calls
  · cases calls
  · cases calls
  · rcases result with failure | _ | type | y <;> cases calls
    refine ⟨rfl, ?_⟩
    show r.frame.scopes.size < (r.frame.scopes.push y).size
    rw [Array.size_push]
    exact Nat.lt_succ_self _

/-- A result that a name stands for was kept under it. -/
theorem mem_kept_of_keptScope {name : String} {mishap : String → Mishap}
    (finds : keptScope e name mishap r = (.ok i, r₁)) : (name, .scope i) ∈ r.frame.kept := by
  obtain ⟨binding, r₂, resolves, h⟩ := Step.bind_eq_ok.1 finds
  cases binding with
  | kept result =>
    cases result with
    | scope j =>
      cases h
      exact mem_kept_of_resolve resolves
    | _ => cases h
  | _ => cases h

/-- A name that was kept for a result stands for one of the script. -/
theorem lt_size_of_keptScope {name : String} {mishap : String → Mishap} (own : r.frame.KeepsOwn)
    (finds : keptScope e name mishap r = (.ok i, r₁)) : i < r.frame.scopes.size :=
  own name i (mem_kept_of_keptScope finds)

/-- Opening a result either makes it the innermost block or leaves the blocks as they are. -/
theorem frame_of_enter (i : ScopeId) (r : Running) :
    (∃ body r₁, enter i r = (.ok (), r₁) ∧
      r₁.frame = opened i body { r.frame with pending := r.frame.pending.erase i }) ∨
    ∃ failure r₁, enter i r = (.error failure, r₁) ∧ r.frame.Restores r₁.frame := by
  obtain ⟨s, ⟨failure, -, enters⟩ | ⟨body, -, enters⟩⟩ := enter_cases i r
  · exact .inr ⟨failure, _, enters, .of_same rfl rfl rfl⟩
  · exact .inl ⟨body, _, enters, rfl⟩

theorem frame_of_enter_ok (enters : enter i r = (.ok (), r₁)) :
    ∃ body, r₁.frame = opened i body { r.frame with pending := r.frame.pending.erase i } := by
  obtain ⟨body, r₂, enters', frame⟩ | ⟨failure, r₂, enters', -⟩ := frame_of_enter i r <;>
    cases enters.symm.trans enters'
  exact ⟨body, frame⟩

theorem keepsOwn_enter (enters : enter i r = (.ok (), r₁)) (own : r.frame.KeepsOwn) :
    r₁.frame.KeepsOwn := by
  obtain ⟨body, frame⟩ := frame_of_enter_ok enters
  rw [frame]
  intro name j mem
  show j < (r.frame.scopes.modify i _).size
  rw [Array.size_modify]
  exact own name j mem

/-- A block that has been restored can be left. -/
theorem pop_of_restores (own : i < r.frame.scopes.size) (enters : enter i r = (.ok (), r₁))
    (h : r₁.frame.Restores r₂.frame) :
    pop i r₂ = (.ok r₁.frame.innermostBody,
      { r₂ with frame := { r₂.frame with stack := r.frame.stack } }) := by
  obtain ⟨body, frame⟩ := frame_of_enter_ok enters
  rw [frame] at h
  have mark := Frame.mark_opened (f := { r.frame with pending := r.frame.pending.erase i }) body own
  have known : (r₂.frame.scopes[i]?).bind (·.mark) = some r.frame.nextMark :=
    (h.marks i ⟨_, List.mem_cons_self, mark⟩).trans mark
  have stack : r₂.frame.stack = (r.frame.nextMark, body) :: r.frame.stack := h.stack
  rw [frame]
  exact pop_of_mark stack known

/-- Steps inside a block leave open what was open if they restore the block. -/
theorem restores_within {steps : ScriptM Unit} (h : f.Restores r.frame)
    (other : ∀ j, f.IsOpen j → i ≠ j) (own : i < r.frame.scopes.size)
    (hs : ∀ r', enter i r = (.ok (), r') → r'.frame.Restores (steps r').2.frame) :
    f.Restores (within i steps r).2.frame := by
  obtain ⟨body, r₁, enters, frame⟩ | ⟨failure, r₁, enters, restores⟩ := frame_of_enter i r
  · have inside := hs r₁ enters
    have pops := pop_of_restores own enters inside
    have left : f.Restores { (steps r₁).2.frame with stack := r.frame.stack } := by
      have forgets : f.Restores { r.frame with pending := r.frame.pending.erase i } :=
        h.trans (.of_same rfl rfl rfl)
      rw [frame] at inside
      exact forgets.of_opened other inside
    rw [within_eq enters]
    rcases result : (steps r₁).1 with failure | _
    · unfold leave
      rw [Step.run_bind_of_ok pops]
      cases failure <;> exact left
    · rw [leave_ok pops]
      exact left
  · rw [within_of_enter_error enters]
    exact h.trans restores

/-- A block that can be left is left with what it makes of the failure of its steps. -/
theorem leave_error {failure : Failure} {body : Body} (pops : pop i r = (.ok body, r₁)) :
    leave i (.error failure) r = (.error (failure.leavingBlock body), r₁) := by
  unfold leave
  rw [Step.run_bind_of_ok pops]
  cases failure <;> rfl

/-- So is a block that its steps restore. -/
theorem within_fails {steps : ScriptM Unit} {failure : Failure} (own : i < r.frame.scopes.size)
    (enters : enter i r = (.ok (), r₁)) (h : r₁.frame.Restores (steps r₁).2.frame)
    (fails : (steps r₁).1 = .error failure) :
    (within i steps r).1 = .error (failure.leavingBlock r₁.frame.innermostBody) := by
  rw [within_eq enters, fails, leave_error (pop_of_restores own enters h)]

/-- A block whose steps fail further in is left with what the innermost block there makes of the
failure. -/
theorem within_leads {steps : ScriptM Unit} {failure : Failure} {f : Frame}
    (own : i < r.frame.scopes.size) (enters : enter i r = (.ok (), r₁))
    (h : r₁.frame.Restores (steps r₁).2.frame)
    (fails : f.stack = r₁.frame.stack ∧ (steps r₁).1 = .error failure ∨
      (steps r₁).1 = .error (failure.leavingBlock f.innermostBody)) :
    (within i steps r).1 = .error (failure.leavingBlock f.innermostBody) := by
  obtain ⟨same, fails⟩ | fails := fails
  · rw [within_fails own enters h fails, Frame.innermostBody_congr same]
  · rw [within_fails own enters h fails, Failure.leavingBlock_leavingBlock]

theorem runNodes_call {result : Except Failure Outcome}
    (calls : call e compiler c r = (result, r₁)) :
    runNodes e compiler [.call c] r = (result.map fun _ => (), r₁) := by
  rw [runNodes_cons, runNode, Step.run_bind, Step.run_bind, calls]
  cases result <;> rfl

/-- A block with a single element is left when that succeeds. -/
theorem within_call_ok {outcome : Outcome} (own : i < r.frame.scopes.size)
    (enters : enter i r = (.ok (), r₁)) (calls : call e compiler c r₁ = (.ok outcome, r₂)) :
    within i (runNodes e compiler [.call c]) r = (.ok (), {
      session := (complete r₂.frame.document (r₂.frame.scopes[i]?.getD default).completion
        r₂.session).2
      frame := { r₂.frame with stack := r.frame.stack } }) := by
  have restores : r₁.frame.Restores (call e compiler c r₁).2.frame := restores_call c r₁
  rw [calls] at restores
  have pops := pop_of_restores own enters restores
  rw [within_eq enters, runNodes_call calls]
  exact leave_ok pops

/-- A block with a single element is left with its failure, unless that is about a name. -/
theorem within_call_error {failure : Failure} (own : i < r.frame.scopes.size)
    (enters : enter i r = (.ok (), r₁)) (calls : call e compiler c r₁ = (.error failure, r₂))
    (bound : ∀ name, failure ≠ .unbound name) :
    within i (runNodes e compiler [.call c]) r =
      (.error failure, { r₂ with frame := { r₂.frame with stack := r.frame.stack } }) := by
  have restores : r₁.frame.Restores (call e compiler c r₁).2.frame := restores_call c r₁
  rw [calls] at restores
  have pops := pop_of_restores own enters restores
  rw [within_eq enters, runNodes_call calls]
  show leave i (.error failure) r₂ = _
  rw [leave_error pops, Failure.leavingBlock_of_bound bound]

/-! ## The steps of a script -/

section

variable {start : List Script.Node × Running}

mutual

/-- A step of a tidy script leaves open what was open, whether it fails or not. -/
theorem restores_runNode (tidy : ∀ x, Reaches e compiler start x → IsTidy e x) (node : Script.Node)
    {rest : List Script.Node} {r : Running} (reaches : Reaches e compiler start (node :: rest, r))
    (own : r.frame.KeepsOwn) : r.frame.Restores (runNode e compiler node r).2.frame := by
  cases node with
  | call c =>
    rw [runNode_call_snd]
    exact restores_call c r
  | keep name c =>
    have called : r.frame.Restores (call e compiler c r).2.frame := restores_call c r
    rcases calls : call e compiler c r with ⟨failure | result, r'⟩ <;> rw [calls] at called
    · rw [runNode, Step.run_bind_of_error calls]
      exact called
    · rw [runNode, Step.run_bind_of_ok calls]
      refine ⟨called.stack, called.marks, fun own other i mem => ?_⟩
      rcases List.mem_cons.1 mem with new | mem
      · cases new
        exact (scope_of_call calls).2
      · exact called.keepsOwn own other i mem
  | block c body =>
    have called : r.frame.Restores (call e compiler c r).2.frame := restores_call c r
    rcases calls : call e compiler c r with ⟨failure | result, r'⟩ <;> rw [calls] at called
    · rw [runNode, Step.run_bind_of_error calls]
      exact called
    · cases result with
      | scope i =>
        obtain ⟨new, own'⟩ := scope_of_call calls
        rw [runNode_block calls]
        refine restores_within called (fun j isOpen => ?_) own' fun r'' enters => ?_
        · -- a result that has just been left is not open yet
          rintro rfl
          exact Nat.lt_irrefl _ (Nat.lt_of_lt_of_eq isOpen.lt_size new.symm)
        · exact restores_runNodes tidy body (reaches.tail (.block calls enters))
            (keepsOwn_enter enters (called.keepsOwn own))
      | _ =>
        rw [runNode, Step.run_bind_of_ok calls]
        exact called
  | reopen name body =>
    obtain ⟨failure, finds⟩ | ⟨i, finds⟩ := (keeps_keptScope e name .notABlock).run_cases r
    · rw [runNode, Step.run_bind_of_error finds]
      exact .refl _
    · have notOpen : ¬r.frame.IsOpen i := tidy _ reaches i finds
      rw [runNode_reopen finds]
      refine restores_within (.refl _) (fun j isOpen => ?_) (lt_size_of_keptScope own finds)
        fun r'' enters => ?_
      · rintro rfl
        exact notOpen isOpen
      · exact restores_runNodes tidy body (reaches.tail (.reopen finds enters))
          (keepsOwn_enter enters own)
  | enter name => exact (tidy _ reaches).elim
  | exit name => exact (tidy _ reaches).elim
  | raise kind text => exact .refl _
  | attempt body =>
    rw [runNode_attempt]
    exact restores_runNodes tidy body (reaches.tail .attempt) own

/-- So do the steps of a tidy script. -/
theorem restores_runNodes (tidy : ∀ x, Reaches e compiler start x → IsTidy e x)
    (nodes : List Script.Node) {r : Running} (reaches : Reaches e compiler start (nodes, r))
    (own : r.frame.KeepsOwn) : r.frame.Restores (runNodes e compiler nodes r).2.frame := by
  cases nodes with
  | nil => exact .refl _
  | cons node rest =>
    have ran := restores_runNode tidy node reaches own
    rw [runNodes_cons]
    rcases runs : runNode e compiler node r with ⟨failure | _, r'⟩ <;> rw [runs] at ran
    · rw [Step.run_bind_of_error runs]
      exact ran
    · rw [Step.run_bind_of_ok runs]
      exact ran.trans (restores_runNodes tidy rest (reaches.tail (.next runs)) (ran.keepsOwn own))

end

end

end ScriptM

/-! ## Scripts that open blocks with calls -/

section

variable {e : Engine} {compiler : Compiler} {x y : List Script.Node × Running}

theorem openByCalls_of_reaches (h : Reaches e compiler x y)
    (opens : Script.openByCalls x.1 = true) : Script.openByCalls y.1 = true := by
  induction h with
  | refl => exact opens
  | tail _ move ih =>
    cases move with
    | next => exact (Bool.and_eq_true_iff.1 ih).2
    | block | attempt => exact (Bool.and_eq_true_iff.1 ih).1
    | reopen => cases (Bool.and_eq_true_iff.1 ih).1

theorem isTidy_of_openByCalls (opens : Script.openByCalls x.1 = true) : IsTidy e x := by
  obtain ⟨_ | ⟨node, rest⟩, r⟩ := x
  · trivial
  · have first := (Bool.and_eq_true_iff.1 opens).1
    cases node <;> trivial

/-- If all scripts open blocks with calls only, every point of a compile is tidy. -/
theorem Visits.isTidy {depth : Nat} {r : Request} {s : Session} {p : Point}
    (h : Visits e depth r s p) (opens : ∀ nodes ∈ e.scripts, Script.openByCalls nodes = true) :
    IsTidy e (p.steps, p.running) := by
  induction h with
  | here opened reaches =>
    exact isTidy_of_openByCalls
      (openByCalls_of_reaches reaches (opens _ (nodes_of_openScript opened)))
  | inside _ _ _ _ _ _ ih => exact ih

end

/-! ## Steps that failures leave -/

/-- A script comes to where some steps are next, and would not swallow a failure of these. -/
inductive Leads (e : Engine) (compiler : Compiler) :
    List Script.Node × Running → List Script.Node × Running → Prop
  | refl (x) : Leads e compiler x x
  | next {node rest r r' y} (runs : ScriptM.runNode e compiler node r = (.ok (), r'))
      (more : Leads e compiler (rest, r') y) : Leads e compiler (node :: rest, r) y
  | block {c body rest r i r₁ r₂ y} (calls : ScriptM.call e compiler c r = (.ok (.scope i), r₁))
      (enters : ScriptM.enter i r₁ = (.ok (), r₂)) (more : Leads e compiler (body, r₂) y) :
      Leads e compiler (.block c body :: rest, r) y
  | reopen {name body rest r i r₁ r₂ y}
      (finds : ScriptM.keptScope e name .notABlock r = (.ok i, r₁))
      (enters : ScriptM.enter i r₁ = (.ok (), r₂)) (more : Leads e compiler (body, r₂) y) :
      Leads e compiler (.reopen name body :: rest, r) y

namespace Leads

variable {e : Engine} {compiler : Compiler} {start x y : List Script.Node × Running}

theorem reaches (h : Leads e compiler x y) : Reaches e compiler x y := by
  induction h with
  | refl => exact .refl
  | next runs _ ih => exact ih.head (.next runs)
  | block calls enters _ ih => exact ih.head (.block calls enters)
  | reopen finds enters _ ih => exact ih.head (.reopen finds enters)

/-- A tidy script fails as the steps do that it comes to, or with what the innermost block on the
way there makes of their failure. -/
theorem fails (h : Leads e compiler x y) (tidy : ∀ z, Reaches e compiler start z → IsTidy e z)
    (reaches : Reaches e compiler start x) (own : x.2.frame.KeepsOwn) {failure : Failure}
    (fails : (ScriptM.runNodes e compiler y.1 y.2).1 = .error failure) :
    y.2.frame.stack = x.2.frame.stack ∧ (ScriptM.runNodes e compiler x.1 x.2).1 = .error failure ∨
      (ScriptM.runNodes e compiler x.1 x.2).1 =
        .error (failure.leavingBlock y.2.frame.innermostBody) := by
  induction h with
  | refl => exact .inl ⟨rfl, fails⟩
  | @next node rest r r' y runs _ ih =>
    have restores := ScriptM.restores_runNode tidy node reaches own
    rw [runs] at restores
    dsimp only
    rw [ScriptM.runNodes_cons, Step.run_bind_of_ok runs, ← restores.stack]
    exact ih (reaches.tail (.next runs)) (restores.keepsOwn own) fails
  | @block c body rest r i r₁ r₂ y calls enters _ ih =>
    have called : r.frame.Restores (ScriptM.call e compiler c r).2.frame :=
      ScriptM.restores_call c r
    rw [calls] at called
    have inside := reaches.tail (.block calls enters)
    have own₂ := ScriptM.keepsOwn_enter enters (called.keepsOwn own)
    have left := ScriptM.within_leads (ScriptM.scope_of_call calls).2 enters
      (ScriptM.restores_runNodes tidy body inside own₂) (ih inside own₂ fails)
    rw [← ScriptM.runNode_block calls] at left
    right
    dsimp only
    rw [ScriptM.runNodes_cons, Step.run_bind_of_error (Prod.ext left rfl)]
  | @reopen name body rest r i r₁ r₂ y finds enters _ ih =>
    obtain rfl : r = r₁ := (ScriptM.keeps_keptScope e name _).of_run (R := (· = ·)) finds
    have inside := reaches.tail (.reopen finds enters)
    have own₂ := ScriptM.keepsOwn_enter enters own
    have left := ScriptM.within_leads (ScriptM.lt_size_of_keptScope own finds) enters
      (ScriptM.restores_runNodes tidy body inside own₂) (ih inside own₂ fails)
    rw [← ScriptM.runNode_reopen finds] at left
    right
    dsimp only
    rw [ScriptM.runNodes_cons, Step.run_bind_of_error (Prod.ext left rfl)]

end Leads
end Migration
