import Migration.Proofs.Failure.Blocks
import Migration.Proofs.Failure.Calls

/-!
# The discipline of blocks

Whatever a script opens and closes, by blocks or by hand, in any order and any number of times, its
own block stays at the bottom of the open ones, and a block is left only where it is the innermost
one and the last one that its result was opened as. Every opening that succeeds is given a number,
one after the other; the history of a script says which result each of them opened.

* `lastOpening` — the number of the last opening of a result
* `ScriptM.openings` — the results that steps open, the last one first
* `Comes` — what a script comes to, and what it has opened until then
* `Stands` — the states of a script, before its steps and at the ends of its blocks
* `ScriptM.Tracks`, `Stands.tracks` — what lasts whatever a script does holds in all of them
* `Frame.Disciplined` — what holds of the open blocks
* `discipline_of_stands` — what can be left, and what a block with its steps leaves open
-/

namespace Migration

/-! ## Histories -/

/-- The number of the last opening of a result, given what has been opened, the last one first. -/
def lastOpening : List ScopeId → ScopeId → Option Nat
  | [], _ => none
  | j :: earlier, i => if j = i then some (earlier.length + 1) else lastOpening earlier i

theorem pos_of_lastOpening {history : List ScopeId} {i : ScopeId} {n : Nat}
    (h : lastOpening history i = some n) : 0 < n := by
  induction history with
  | nil => cases h
  | cons j earlier ih =>
    unfold lastOpening at h
    split at h
    · cases h
      omega
    · exact ih h

theorem lastOpening_of_not_mem {history : List ScopeId} {i : ScopeId} (h : i ∉ history) :
    lastOpening history i = none := by
  induction history with
  | nil => rfl
  | cons j earlier ih =>
    have other : j ≠ i := fun same => h (same ▸ List.mem_cons_self)
    rw [lastOpening, if_neg other]
    exact ih fun mem => h (List.mem_cons_of_mem _ mem)

namespace ScriptM

/-- What is opened where a result is, if it can be, and then inside its block. -/
def entered (i : ScopeId) (r : Running) (inside : Running → List ScopeId) : List ScopeId :=
  match enter i r with
  | (.ok (), r₁) => inside r₁ ++ [i]
  | (.error _, _) => []

section

variable (e : Engine) (compiler : Compiler)

mutual

/-- The results that a step opens as blocks, the last one first. -/
def nodeOpenings : Script.Node → Running → List ScopeId
  | .block c body, r =>
    match call e compiler c r with
    | (.ok (.scope i), r₁) => entered i r₁ (openings body)
    | _ => []
  | .reopen name body, r =>
    match keptScope e name .notABlock r with
    | (.ok i, r₁) => entered i r₁ (openings body)
    | (.error _, _) => []
  | .enter name, r =>
    match keptScope e name (.noMember · "__enter__") r with
    | (.ok i, r₁) => entered i r₁ fun _ => []
    | (.error _, _) => []
  | .attempt body, r => openings body r
  | .call _, _ | .keep .., _ | .exit _, _ | .raise .., _ => []

/-- The results that steps open as blocks, the last one first. -/
def openings : List Script.Node → Running → List ScopeId
  | [], _ => []
  | node :: rest, r =>
    match runNode e compiler node r with
    | (.ok (), r₁) => openings rest r₁ ++ nodeOpenings node r
    | (.error _, _) => nodeOpenings node r

end

end

end ScriptM

section

variable (e : Engine) (compiler : Compiler)

/-- A script comes to where steps are next, after some results have been opened. -/
inductive Comes (start : List Script.Node × Running) :
    List ScopeId → List Script.Node × Running → Prop
  | start : Comes start [] start
  | next {history node rest r r'} (comes : Comes start history (node :: rest, r))
      (runs : ScriptM.runNode e compiler node r = (.ok (), r')) :
      Comes start (ScriptM.nodeOpenings e compiler node r ++ history) (rest, r')
  | block {history c body rest r i r₁ r₂} (comes : Comes start history (.block c body :: rest, r))
      (calls : ScriptM.call e compiler c r = (.ok (.scope i), r₁))
      (enters : ScriptM.enter i r₁ = (.ok (), r₂)) : Comes start (i :: history) (body, r₂)
  | reopen {history name body rest r i r₁ r₂}
      (comes : Comes start history (.reopen name body :: rest, r))
      (finds : ScriptM.keptScope e name .notABlock r = (.ok i, r₁))
      (enters : ScriptM.enter i r₁ = (.ok (), r₂)) : Comes start (i :: history) (body, r₂)
  | attempt {history body rest r} (comes : Comes start history (.attempt body :: rest, r)) :
      Comes start history (body, r)

/-- A script is in a state, after some results have been opened: before the steps that are next, or
where they have ended, also by a failure. -/
inductive Stands (start : List Script.Node × Running) : List ScopeId → Running → Prop
  | before {history steps r} (comes : Comes e compiler start history (steps, r)) :
      Stands start history r
  | after {history steps r} (comes : Comes e compiler start history (steps, r)) :
      Stands start (ScriptM.openings e compiler steps r ++ history)
        (ScriptM.runNodes e compiler steps r).2

end

/-- Whatever a script comes to, there is a history of what it has opened until then. -/
theorem exists_comes_of_reaches {e : Engine} {compiler : Compiler}
    {start x : List Script.Node × Running} (h : Reaches e compiler start x) :
    ∃ history, Comes e compiler start history x := by
  induction h with
  | refl => exact ⟨[], .start⟩
  | tail _ move ih =>
    obtain ⟨history, comes⟩ := ih
    cases move with
    | next runs => exact ⟨_, comes.next runs⟩
    | block calls enters => exact ⟨_, comes.block calls enters⟩
    | reopen finds enters => exact ⟨_, comes.reopen finds enters⟩
    | attempt => exact ⟨_, comes.attempt⟩

theorem Comes.reaches {e : Engine} {compiler : Compiler} {start x : List Script.Node × Running}
    {history : List ScopeId} (h : Comes e compiler start history x) :
    Reaches e compiler start x := by
  induction h with
  | start => exact .refl
  | next _ runs ih => exact ih.tail (.next runs)
  | block _ calls enters ih => exact ih.tail (.block calls enters)
  | reopen _ finds enters ih => exact ih.tail (.reopen finds enters)
  | attempt _ ih => exact ih.tail .attempt

/-! ## What elements leave behind -/

/-- A result that has not been opened, and is not opened as the block of a script. -/
def Result.IsFresh : Result → Prop
  | .nothing | .object _ => True
  | .scope y => y.mark = none ∧ y.opening ≠ .body .script

namespace SessionM

/-- Whatever an element leaves behind to be opened is new. -/
theorem gives_act (e : Engine) (compiler : Compiler) (d : DocumentId) (x : Element)
    (positional : List Value) (a : Attributes) :
    Gives Result.IsFresh (act e compiler d x positional a) := by
  intro s r s' acts
  cases act_yields acts with
  | nothing | object => trivial
  | _ => exact ⟨rfl, nofun⟩

end SessionM

/-- No result but that of a script is opened as the block of a script. -/
theorem ScriptM.openBody_ne_script {d : DocumentId} {x : Opening} (h : x ≠ .body .script) :
    Gives (· ≠ Body.script) (openBody d x) := by
  cases x with
  | body body => exact .pure fun same => h (congrArg Opening.body same)
  | constraints => exact .bind fun _ => .pure nofun
  | visitors => exact .bind fun _ => .pure nofun

/-! ## The open blocks -/

/-- After so many openings, what is open and what has been opened last is as the history says: the
blocks have the numbers of their openings, later ones stand on earlier ones, and the script is at
the bottom. -/
structure Frame.Disciplined (history : List ScopeId) (f : Frame) : Prop where
  counts : f.nextMark = history.length + 1
  known : ∀ i ∈ history, i < f.scopes.size
  marks : ∀ i, (f.scopes[i]?).bind (·.mark) = lastOpening history i
  bottom : ∃ blocks, f.stack = blocks ++ [(0, .script)] ∧ ∀ x ∈ blocks, x.1 ≠ 0 ∧ x.2 ≠ .script
  descends : f.stack.Pairwise fun x y => y.1 < x.1
  below : ∀ x ∈ f.stack, x.1 < f.nextMark
  openings : ∀ x ∈ f.scopes, x.opening ≠ .body .script
  keepsOwn : f.KeepsOwn

namespace Frame.Disciplined

variable {history : List ScopeId} {f : Frame}

theorem start (path : String) (document : DocumentId) :
    Disciplined [] { path, document : Frame } where
  counts := rfl
  known := by
    intro i mem
    cases mem
  marks := by
    intro i
    rfl
  bottom := ⟨[], rfl, by simp⟩
  descends := List.pairwise_singleton _ _
  below := by simp
  openings := by simp
  keepsOwn := by
    intro name i mem
    cases mem

/-- One more result that has not been opened. -/
theorem push (h : Disciplined history f) {x : Scope} (mark : x.mark = none)
    (opening : x.opening ≠ .body .script) (pending : List ScopeId) :
    Disciplined history { f with scopes := f.scopes.push x, pending } where
  counts := h.counts
  known := by
    intro i mem
    show i < (f.scopes.push x).size
    rw [Array.size_push]
    exact Nat.lt_succ_of_lt (h.known i mem)
  marks := by
    intro i
    show ((f.scopes.push x)[i]?).bind _ = _
    rw [Array.getElem?_push]
    split
    · -- the new result is in no history
      next new =>
      have absent : i ∉ history := fun mem => Nat.lt_irrefl _ (new ▸ h.known i mem)
      rw [lastOpening_of_not_mem absent]
      exact mark
    · exact h.marks i
  bottom := h.bottom
  descends := h.descends
  below := h.below
  openings := by
    intro y mem
    rcases Array.mem_push.1 mem with mem | rfl
    · exact h.openings y mem
    · exact opening
  keepsOwn := (restores_push x pending).keepsOwn h.keepsOwn

theorem keep (h : Disciplined history f) {name : String} {result : Outcome}
    (own : ∀ i, result = .scope i → i < f.scopes.size) :
    Disciplined history { f with kept := (name, result) :: f.kept } where
  counts := h.counts
  known := h.known
  marks := h.marks
  bottom := h.bottom
  descends := h.descends
  below := h.below
  openings := h.openings
  keepsOwn := by
    intro other i mem
    rcases List.mem_cons.1 mem with new | mem
    · cases new
      exact own i rfl
    · exact h.keepsOwn other i mem

theorem forget (h : Disciplined history f) (pending : List ScopeId) :
    Disciplined history { f with pending } :=
  ⟨h.counts, h.known, h.marks, h.bottom, h.descends, h.below, h.openings, h.keepsOwn⟩

/-- A result that is opened gets the next number, and its block is the innermost one. -/
theorem opened (h : Disciplined history f) {i : ScopeId} {body : Body} (own : i < f.scopes.size)
    (inner : body ≠ .script) : Disciplined (i :: history) (ScriptM.opened i body f) where
  counts := by
    -- marks count up with the openings, so the next one is that of the latest opening
    show f.nextMark + 1 = (history.length + 1) + 1
    rw [h.counts]
  known := by
    intro j mem
    show j < (f.scopes.modify i _).size
    rw [Array.size_modify]
    rcases List.mem_cons.1 mem with rfl | mem
    · exact own
    · exact h.known j mem
  marks := by
    intro j
    by_cases same : i = j
    · subst same
      rw [mark_opened body own, lastOpening, if_pos rfl, h.counts]
    · show ((f.scopes.modify i _)[j]?).bind _ = _
      rw [Array.getElem?_modify, if_neg same, lastOpening, if_neg same]
      exact h.marks j
  bottom := by
    obtain ⟨blocks, stack, others⟩ := h.bottom
    refine ⟨(f.nextMark, body) :: blocks, congrArg (_ :: ·) stack, fun x mem => ?_⟩
    rcases List.mem_cons.1 mem with rfl | mem
    · exact ⟨by rw [h.counts]; omega, inner⟩
    · exact others x mem
  descends := List.pairwise_cons.2 ⟨h.below, h.descends⟩
  below := by
    intro x mem
    show x.1 < f.nextMark + 1
    rcases List.mem_cons.1 mem with rfl | mem
    · exact Nat.lt_succ_self _
    · exact Nat.lt_succ_of_lt (h.below x mem)
  openings := by
    intro x mem
    obtain ⟨y, mem, opening, -⟩ := ScriptM.exists_of_mem_opened mem
    rw [opening]
    exact h.openings y mem
  keepsOwn := by
    intro name j mem
    show j < (f.scopes.modify i _).size
    rw [Array.size_modify]
    exact h.keepsOwn name j mem

/-- A block that has been opened can be taken away where it is the innermost one. -/
theorem pop (h : Disciplined history f) {n : Nat} {body : Body} {rest : List (Nat × Body)}
    (stack : f.stack = (n, body) :: rest) (positive : 0 < n) :
    Disciplined history { f with stack := rest } where
  counts := h.counts
  known := h.known
  marks := h.marks
  bottom := by
    obtain ⟨blocks, split, others⟩ := h.bottom
    rw [stack] at split
    cases blocks with
    | nil =>
      cases split
      omega
    | cons top blocks =>
      exact ⟨blocks, (List.cons.inj split).2, fun x mem => others x (List.mem_cons_of_mem _ mem)⟩
  descends := by
    have all := h.descends
    rw [stack] at all
    exact (List.pairwise_cons.1 all).2
  below := by
    intro x mem
    exact h.below x (stack ▸ List.mem_cons_of_mem _ mem)
  openings := h.openings
  keepsOwn := h.keepsOwn

end Frame.Disciplined

namespace ScriptM

variable {e : Engine} {compiler : Compiler} {history : List ScopeId} {r r₁ : Running} {i : ScopeId}

/-! ## One step -/

theorem disciplined_call (e : Engine) (compiler : Compiler) (h : Frame.Disciplined history r.frame)
    (c : Script.Call) :
    Frame.Disciplined history (call e compiler c r).2.frame := by
  obtain ⟨plain, -, calls, -⟩ | ⟨x, result, s, prepares, acts, calls⟩ := call_cases e compiler c r
  all_goals rw [calls]
  · exact h
  · obtain same | ⟨y, rfl, puts⟩ := outcomeOf_cases result { r with session := s }
    · rw [same]
      exact h
    · rw [puts]
      obtain ⟨mark, opening⟩ := SessionM.gives_act e compiler _ _ _ _ _ _ _ acts
      exact h.push mark opening _

theorem entered_of_ok (enters : enter i r = (.ok (), r₁)) (inside : Running → List ScopeId) :
    entered i r inside = inside r₁ ++ [i] := by
  unfold entered
  rw [enters]

theorem entered_of_error {failure : Failure} (enters : enter i r = (.error failure, r₁))
    (inside : Running → List ScopeId) : entered i r inside = [] := by
  unfold entered
  rw [enters]

/-- A result of the script that is opened gets the next number. -/
theorem disciplined_enter (h : Frame.Disciplined history r.frame) (own : i < r.frame.scopes.size)
    (enters : enter i r = (.ok (), r₁)) :
    Frame.Disciplined (i :: history) r₁.frame ∧
      ∃ body, r₁.frame.stack = (history.length + 1, body) :: r.frame.stack := by
  obtain ⟨s, ⟨failure, opens, enters'⟩ | ⟨body, opens, enters'⟩⟩ := enter_cases i r <;>
    cases enters'.symm.trans enters
  have opening : (r.frame.scopes[i]?.getD default).opening ≠ .body .script := by
    rw [Array.getElem?_eq_getElem own]
    exact h.openings _ (Array.getElem_mem own)
  have inner : body ≠ .script := openBody_ne_script opening _ _ _ opens
  refine ⟨(h.forget _).opened own inner, body, ?_⟩
  show (r.frame.nextMark, body) :: r.frame.stack = _
  rw [h.counts]

/-- A result that cannot be opened leaves everything open as it was. -/
theorem disciplined_enter_of_error (h : Frame.Disciplined history r.frame) {failure : Failure}
    (enters : enter i r = (.error failure, r₁)) : Frame.Disciplined history r₁.frame := by
  obtain ⟨s, ⟨failure, opens, enters'⟩ | ⟨body, opens, enters'⟩⟩ := enter_cases i r <;>
    cases enters'.symm.trans enters
  exact h.forget _

/-- Leaving a block takes away the innermost one, if the result was opened as that last. What
remains to be done is done only if the block is left without a failure. -/
theorem leave_of_mark {n : Nat} {body : Body} {rest : List (Nat × Body)}
    (stack : r.frame.stack = (n, body) :: rest)
    (known : (r.frame.scopes[i]?).bind (·.mark) = some n) (result : Except Failure Unit) :
    (leave i result r).2.frame = { r.frame with stack := rest } ∧
      (result = .ok () → (leave i result r).1 = .ok ()) ∧
      (result ≠ .ok () → (leave i result r).2.session = r.session) := by
  have pops := pop_of_mark stack known
  cases result with
  | ok _ =>
    rw [leave_ok pops]
    exact ⟨rfl, fun _ => rfl, fun failed => absurd rfl failed⟩
  | error failure =>
    unfold leave
    rw [Step.run_bind_of_ok pops]
    cases failure <;> exact ⟨rfl, nofun, fun _ => rfl⟩

/-- Leaving any other block fails and changes nothing at all. -/
theorem leave_of_not_mark
    (other : ∀ entry ∈ r.frame.stack.head?, (r.frame.scopes[i]?).bind (·.mark) ≠ some entry.1)
    (result : Except Failure Unit) :
    leave i result r = (.error (.parse (.outOfOrder r.frame.path)), r) := by
  obtain ⟨n, body, rest, stack, known, -⟩ | pops := pop_cases i r
  · exact absurd known (other (n, body) (by rw [stack]; rfl))
  · unfold leave
    rw [Step.run_bind_of_error pops]

theorem disciplined_leave (h : Frame.Disciplined history r.frame) (i : ScopeId)
    (result : Except Failure Unit) : Frame.Disciplined history (leave i result r).2.frame := by
  by_cases other : ∀ entry ∈ r.frame.stack.head?, (r.frame.scopes[i]?).bind (·.mark) ≠ some entry.1
  · rw [leave_of_not_mark other]
    exact h
  · obtain ⟨n, body, rest, stack, known, -⟩ | pops := pop_cases i r
    · rw [(leave_of_mark stack known result).1]
      exact h.pop stack (pos_of_lastOpening ((h.marks i).symm.trans known))
    · unfold leave
      rw [Step.run_bind_of_error pops]
      exact h

/-! ## The steps of a script -/

/-- A property of what a script has opened and of its state, which lasts whatever the script does,
also where it fails. -/
structure Tracks (e : Engine) (compiler : Compiler) (P : List ScopeId → Running → Prop) : Prop where
  keepsOwn : ∀ {history r}, P history r → r.frame.KeepsOwn
  call : ∀ {history r} c, P history r → P history (call e compiler c r).2
  keep : ∀ {history r outcome} name, P history r →
    (∀ i, outcome = .scope i → i < r.frame.scopes.size) →
    P history { r with frame := { r.frame with kept := (name, outcome) :: r.frame.kept } }
  enter : ∀ {history r i r₁}, P history r → i < r.frame.scopes.size →
    enter i r = (.ok (), r₁) → P (i :: history) r₁
  refuse : ∀ {history r i failure r₁}, P history r → ScriptM.enter i r = (.error failure, r₁) →
    P history r₁
  leave : ∀ {history r} i result, P history r → P history (leave i result r).2

namespace Tracks

variable {P : List ScopeId → Running → Prop}

/-- What holds inside a block, after its steps, holds where the block has been left. -/
theorem within (tracks : Tracks e compiler P) {steps : ScriptM Unit}
    {inside : Running → List ScopeId} (h : P history r) (own : i < r.frame.scopes.size)
    (hs : ∀ r', ScriptM.enter i r = (.ok (), r') → P (i :: history) r' →
      P (inside r' ++ i :: history) (steps r').2) :
    P (entered i r inside ++ history) (ScriptM.within i steps r).2 := by
  rcases enters : ScriptM.enter i r with ⟨failure | _, r'⟩
  · rw [within_of_enter_error enters, entered_of_error enters]
    exact tracks.refuse h enters
  · rw [within_eq enters, entered_of_ok enters, List.append_assoc, List.singleton_append]
    exact tracks.leave i _ (hs r' enters (tracks.enter h own enters))

mutual

/-- The property holds after a step, with the history that the step makes. -/
theorem runNode (tracks : Tracks e compiler P) (node : Script.Node) {history : List ScopeId}
    {r : Running} (h : P history r) :
    P (nodeOpenings e compiler node r ++ history) (runNode e compiler node r).2 := by
  cases node with
  | call c =>
    rw [runNode_call_snd]
    exact tracks.call c h
  | keep name c =>
    have called := tracks.call c h
    rcases calls : ScriptM.call e compiler c r with ⟨failure | result, r'⟩ <;> rw [calls] at called
    · rw [ScriptM.runNode, Step.run_bind_of_error calls]
      exact called
    · rw [ScriptM.runNode, Step.run_bind_of_ok calls]
      refine tracks.keep name called fun i same => ?_
      subst same
      exact (scope_of_call calls).2
  | block c body =>
    have called := tracks.call c h
    rcases calls : ScriptM.call e compiler c r with ⟨failure | result, r'⟩ <;> rw [calls] at called
    · rw [ScriptM.runNode, Step.run_bind_of_error calls, nodeOpenings, calls]
      exact called
    · cases result with
      | scope i =>
        -- the openings inside come after the one of the block, at the head of the history
        rw [runNode_block calls, nodeOpenings, calls]
        exact tracks.within called (scope_of_call calls).2 fun r'' _ inside =>
          runNodes tracks body inside
      | _ =>
        rw [ScriptM.runNode, Step.run_bind_of_ok calls, nodeOpenings, calls]
        exact called
  | reopen name body =>
    obtain ⟨failure, finds⟩ | ⟨i, finds⟩ := (keeps_keptScope e name .notABlock).run_cases r
    · rw [ScriptM.runNode, Step.run_bind_of_error finds, nodeOpenings, finds]
      exact h
    · rw [runNode_reopen finds, nodeOpenings, finds]
      exact tracks.within h (lt_size_of_keptScope (tracks.keepsOwn h) finds)
        fun r'' _ inside => runNodes tracks body inside
  | enter name =>
    obtain ⟨failure, finds⟩ | ⟨i, finds⟩ :=
      (keeps_keptScope e name (.noMember · "__enter__")).run_cases r
    · rw [ScriptM.runNode, Step.run_bind_of_error finds, nodeOpenings, finds]
      exact h
    · have own := lt_size_of_keptScope (tracks.keepsOwn h) finds
      rw [runNode_enter finds, nodeOpenings, finds]
      dsimp only
      rcases enters : ScriptM.enter i r with ⟨failure | _, r'⟩
      · rw [entered_of_error enters]
        exact tracks.refuse h enters
      · rw [entered_of_ok enters]
        exact tracks.enter h own enters
  | exit name =>
    obtain ⟨failure, finds⟩ | ⟨i, finds⟩ :=
      (keeps_keptScope e name (.noMember · "__exit__")).run_cases r
    · rw [ScriptM.runNode, Step.run_bind_of_error finds]
      exact h
    · rw [runNode_exit finds]
      exact tracks.leave i _ h
  | raise kind text => exact h
  | attempt body =>
    rw [runNode_attempt, nodeOpenings]
    exact runNodes tracks body h

/-- So it does after steps one after the other. -/
theorem runNodes (tracks : Tracks e compiler P) (nodes : List Script.Node) {history : List ScopeId}
    {r : Running} (h : P history r) :
    P (openings e compiler nodes r ++ history) (runNodes e compiler nodes r).2 := by
  cases nodes with
  | nil => exact h
  | cons node rest =>
    have ran := runNode tracks node h
    rw [runNodes_cons, openings]
    rcases runs : ScriptM.runNode e compiler node r with ⟨failure | _, r'⟩ <;> rw [runs] at ran
    · rw [Step.run_bind_of_error runs]
      exact ran
    · rw [Step.run_bind_of_ok runs, List.append_assoc]
      exact runNodes tracks rest ran

end

end Tracks

/-- The open blocks stay as the history says. -/
theorem tracks_disciplined :
    Tracks e compiler fun history r => Frame.Disciplined history r.frame where
  keepsOwn h := h.keepsOwn
  call c h := disciplined_call e compiler h c
  keep _ h own := h.keep own
  enter h own enters := (disciplined_enter h own enters).1
  refuse h enters := disciplined_enter_of_error h enters
  leave i result h := disciplined_leave h i result

end ScriptM

section

variable {e : Engine} {compiler : Compiler} {start x : List Script.Node × Running}
  {history : List ScopeId} {r : Running}

/-- What lasts whatever a script does holds wherever it comes to. -/
theorem Comes.tracks {P : List ScopeId → Running → Prop} (tracks : ScriptM.Tracks e compiler P)
    (h : Comes e compiler start history x) (starts : P [] start.2) : P history x.2 := by
  induction h with
  | start => exact starts
  | @next history node rest r r' _ runs ih =>
    have ran := tracks.runNode node ih
    rw [runs] at ran
    exact ran
  | @block history c _ _ _ _ _ _ _ calls enters ih =>
    have called := tracks.call c ih
    rw [calls] at called
    exact tracks.enter called (ScriptM.scope_of_call calls).2 enters
  | reopen _ finds enters ih =>
    obtain rfl := (ScriptM.keeps_keptScope e _ _).of_run (R := (· = ·)) finds
    exact tracks.enter ih (ScriptM.lt_size_of_keptScope (tracks.keepsOwn ih) finds) enters
  | attempt _ ih => exact ih

/-- So it does in all states of the script. -/
theorem Stands.tracks {P : List ScopeId → Running → Prop} (tracks : ScriptM.Tracks e compiler P)
    (h : Stands e compiler start history r) (starts : P [] start.2) : P history r := by
  cases h with
  | before comes => exact comes.tracks tracks starts
  | after comes => exact tracks.runNodes _ (comes.tracks tracks starts)

/-- In all of them it has changed only what it owns. -/
theorem Stands.works {b : Store} (sound : compiler.IsSound)
    (h : Stands e compiler start history r) :
    start.2.Works b r := by
  cases h with
  | before comes => exact comes.reaches.works sound
  | after comes =>
    exact trans_of _ (comes.reaches.works sound) ((ScriptM.works_steady sound).runNodes _ _)

theorem Comes.disciplined (h : Comes e compiler start history x)
    (starts : Frame.Disciplined [] start.2.frame) : Frame.Disciplined history x.2.frame :=
  h.tracks ScriptM.tracks_disciplined starts

theorem Stands.disciplined (h : Stands e compiler start history r)
    (starts : Frame.Disciplined [] start.2.frame) : Frame.Disciplined history r.frame :=
  h.tracks ScriptM.tracks_disciplined starts

namespace ScriptM

/-- A block whose steps restore it leaves open what was open, whether it completes or fails. -/
theorem stack_within {i : ScopeId} {steps : ScriptM Unit} (own : i < r.frame.scopes.size)
    (hs : ∀ r', enter i r = (.ok (), r') → r'.frame.Restores (steps r').2.frame) :
    (within i steps r).2.frame.stack = r.frame.stack := by
  obtain ⟨body, r₁, enters, -⟩ | ⟨failure, r₁, enters, restores⟩ := frame_of_enter i r
  · have pops := pop_of_restores own enters (hs r₁ enters)
    rw [within_eq enters]
    rcases result : (steps r₁).1 with failure | _
    · unfold leave
      rw [Step.run_bind_of_ok pops]
      cases failure <;> rfl
    · rw [leave_ok pops]
  · rw [within_of_enter_error enters]
    exact restores.stack

end ScriptM

/-- The steps in the block that a step opens. -/
def Script.Node.body? : Script.Node → Option (List Script.Node)
  | .block _ body | .reopen _ body => some body
  | .call _ | .keep .. | .enter _ | .exit _ | .raise .. | .attempt _ => none

/-- A step with a block leaves open what was open, if the steps in the block are tidy. -/
theorem stack_of_tidy (own : r.frame.KeepsOwn) {node : Script.Node} {body : List Script.Node}
    (opens : node.body? = some body)
    (tidy : ∀ i r₁ r₂, ScriptM.Opens e compiler node r i body r₁ →
      ScriptM.enter i r₁ = (.ok (), r₂) → ∀ x, Reaches e compiler (body, r₂) x → IsTidy e x) :
    (ScriptM.runNode e compiler node r).2.frame.stack = r.frame.stack := by
  cases node with
  | block c body' =>
    cases opens
    have called : r.frame.Restores (ScriptM.call e compiler c r).2.frame :=
      ScriptM.restores_call c r
    rcases calls : ScriptM.call e compiler c r with ⟨failure | result, r₁⟩ <;> rw [calls] at called
    · rw [ScriptM.runNode, Step.run_bind_of_error calls]
      exact called.stack
    · cases result with
      | scope i =>
        rw [ScriptM.runNode_block calls]
        refine (ScriptM.stack_within (ScriptM.scope_of_call calls).2 fun r₂ enters => ?_).trans
          called.stack
        exact ScriptM.restores_runNodes (tidy i r₁ r₂ (.block calls) enters) body .refl
          (ScriptM.keepsOwn_enter enters (called.keepsOwn own))
      | _ =>
        rw [ScriptM.runNode, Step.run_bind_of_ok calls]
        exact called.stack
  | reopen name body' =>
    cases opens
    obtain ⟨failure, finds⟩ | ⟨i, finds⟩ := (ScriptM.keeps_keptScope e name .notABlock).run_cases r
    · rw [ScriptM.runNode, Step.run_bind_of_error finds]
    · rw [ScriptM.runNode_reopen finds]
      refine ScriptM.stack_within (ScriptM.lt_size_of_keptScope own finds) fun r₂ enters => ?_
      exact ScriptM.restores_runNodes (tidy i r r₂ (.reopen finds) enters) body .refl
        (ScriptM.keepsOwn_enter enters own)
  | _ => cases opens

end

/-- A script that opens one result twice and leaves it once. -/
def openingTwice : List Script.Node :=
  [.keep "log" { element := "databaseChangeLog" }, .enter "log", .enter "log", .exit "log"]

end Migration
