import Migration.Proofs.Call
import Migration.Proofs.Failure.Blocks

/-!
# Blocks that must be opened

Some elements only make sense as blocks, but a script may keep what they leave behind and enter it
later, several times, or never. What has happened to the results of a script is told by its events;
where the script ends, it is refused for the blocks that were made and never entered, also for those
that were made in steps whose failure was swallowed.

* `ScriptM.Application.block?` — the elements that must be used as blocks
* `Event`, `ScriptM.events` — what happens to the results of a script, in order
* `Event.neverEntered` — the blocks that were made and not entered
* `Frame.Expects` — what a frame knows of the events
* `runScript_iff_entered` — when a script that runs to its end succeeds, and how it fails otherwise
-/

namespace Migration

/-! ## Events -/

/-- What happens to a result that can be opened as a block. -/
inductive Event where
  /-- An element that must be used as a block has left it behind. -/
  | made (i : ScopeId) (element : String)
  /-- It is entered. That fails where its attributes, which are read only then, are not as they
  should be. -/
  | entered (i : ScopeId) (opens : Bool)
  deriving DecidableEq, Repr

namespace Event

/-- The block that is made, with its element. -/
def block? : Event → Option (ScopeId × String)
  | made i element => some (i, element)
  | entered .. => none

/-- Whether a result is entered. -/
def enters (i : ScopeId) : Event → Bool
  | made .. => false
  | entered j _ => i == j

/-- The blocks that were made, in order. -/
def blocks (history : List Event) : List (ScopeId × String) := history.filterMap block?

/-- The blocks that were made and not entered, in the order in which they were made. -/
def neverEntered (history : List Event) : List (ScopeId × String) :=
  (blocks history).filter fun block => !history.any (enters block.1)

variable {history : List Event} {i : ScopeId} {element : String}

theorem mem_blocks : (i, element) ∈ blocks history ↔ made i element ∈ history := by
  unfold blocks
  rw [List.mem_filterMap]
  constructor
  · rintro ⟨event, mem, same⟩
    cases event with
    | made => cases same; exact mem
    | entered => cases same
  · exact fun mem => ⟨_, mem, rfl⟩

theorem any_enters : history.any (enters i) = true ↔ ∃ opens, entered i opens ∈ history := by
  rw [List.any_eq_true]
  constructor
  · rintro ⟨event, mem, same⟩
    cases event with
    | made => cases same
    | entered j opens => exact ⟨opens, beq_iff_eq.1 same ▸ mem⟩
  · rintro ⟨opens, mem⟩
    exact ⟨_, mem, beq_self_eq_true i⟩

/-- Nothing is left if every block was entered. -/
theorem neverEntered_eq_nil_iff : neverEntered history = [] ↔
    ∀ i element, made i element ∈ history → ∃ opens, entered i opens ∈ history := by
  unfold neverEntered
  rw [List.filter_eq_nil_iff]
  constructor
  · intro none i element mem
    have seen := none (i, element) (mem_blocks.2 mem)
    rw [Bool.not_eq_true', Bool.not_eq_false] at seen
    exact any_enters.1 seen
  · rintro all ⟨i, element⟩ mem
    rw [Bool.not_eq_true', Bool.not_eq_false]
    exact any_enters.2 (all i element (mem_blocks.1 mem))

/-- A block that is made after everything else has not been entered. -/
theorem neverEntered_made (new : ∀ opens, entered i opens ∉ history) (element : String) :
    neverEntered (history ++ [made i element]) = neverEntered history ++ [(i, element)] := by
  have unseen : ∀ j, (history ++ [made i element]).any (enters j) = history.any (enters j) := by
    intro j
    rw [List.any_append, List.any_cons, List.any_nil]
    simp [enters]
  have absent : history.any (enters i) = false := by
    rw [Bool.eq_false_iff]
    intro seen
    obtain ⟨opens, mem⟩ := any_enters.1 seen
    exact new opens mem
  unfold neverEntered blocks
  rw [List.filterMap_append, List.filter_append]
  simp only [unseen]
  simp [block?, absent]

/-- What is entered waits no longer, and everything else does. -/
theorem neverEntered_entered (i : ScopeId) (opens : Bool) :
    neverEntered (history ++ [entered i opens]) = (neverEntered history).filter (·.1 ≠ i) := by
  have none_made : [entered i opens].filterMap block? = [] := rfl
  unfold neverEntered blocks
  rw [List.filterMap_append, none_made, List.append_nil, List.filter_filter]
  refine List.filter_congr fun block _ => ?_
  rw [List.any_append, List.any_cons, List.any_nil, Bool.not_or, Bool.and_comm]
  by_cases same : block.1 = i <;> simp [enters, same]

/-! ### One more result

A result is made as a block, or it may be left alone and nothing happens. -/

section

variable {required : Option String} {j : ScopeId}

theorem made_mem_append : made j element ∈ history ++ (required.map (made i)).toList ↔
    made j element ∈ history ∨ j = i ∧ required = some element := by
  rw [List.mem_append]
  cases required <;> simp [eq_comm]

theorem entered_mem_append {opens : Bool} :
    entered j opens ∈ history ++ (required.map (made i)).toList ↔ entered j opens ∈ history := by
  rw [List.mem_append]
  cases required <;> simp

/-- The last block waits where it must be opened. -/
theorem map_neverEntered_append (new : ∀ opens, entered i opens ∉ history)
    (required : Option String) :
    (neverEntered (history ++ (required.map (made i)).toList)).map (·.1) =
      if required.isSome then (neverEntered history).map (·.1) ++ [i]
      else (neverEntered history).map (·.1) := by
  cases required with
  | none => simp
  | some element =>
    rw [Option.map_some, Option.toList_some, neverEntered_made new, List.map_append]
    rfl

/-- The blocks are made one after the other if the last one comes after all others. -/
theorem pairwise_blocks_append (ascends : ((blocks history).map (·.1)).Pairwise (· < ·))
    (last : ∀ j element, made j element ∈ history → j < i) (required : Option String) :
    ((blocks (history ++ (required.map (made i)).toList)).map (·.1)).Pairwise (· < ·) := by
  cases required with
  | none => simpa using ascends
  | some element =>
    unfold blocks
    rw [List.filterMap_append, List.map_append, List.pairwise_append]
    refine ⟨ascends, List.pairwise_singleton _ _, fun j mem k mem' => ?_⟩
    obtain ⟨⟨j, element'⟩, before, rfl⟩ := List.mem_map.1 mem
    obtain rfl := List.mem_singleton.1 mem'
    exact last j element' (mem_blocks.1 before)

end

end Event

/-- The element of a call, if it must be used as a block. -/
def ScriptM.Application.block? (x : ScriptM.Application) : Option String :=
  match x.element with
  | .changeLog => some "databaseChangeLog"
  | .changeSet => some "changeSet"
  | .preconditions .. => some "preConditions"
  | .rollback .. => if x.positional.isEmpty && x.attributes.isEmpty then some "rollback" else none
  | .modifySql .. => some "modifySql"
  | .whereParams .. => some "whereParams"
  | _ => none

namespace ScriptM

section

variable (e : Engine) (compiler : Compiler)

/-- The block that a call makes, if it is one of an element that must be used as a block. -/
def callEvents (c : Script.Call) (r : Running) : List Event :=
  match prepare e c r, call e compiler c r with
  | (.ok x, _), (.ok (.scope i), _) => (x.block?.map (Event.made i)).toList
  | _, _ => []

/-- What happens where a result is entered, and then inside its block. -/
def enterEvents (i : ScopeId) (r : Running) (inside : Running → List Event) : List Event :=
  match enter i r with
  | (.ok (), r₁) => .entered i true :: inside r₁
  | (.error _, _) => [.entered i false]

mutual

/-- What happens in a step, also if it fails. -/
def nodeEvents : Script.Node → Running → List Event
  | .call c, r | .keep _ c, r => callEvents e compiler c r
  | .block c body, r =>
    callEvents e compiler c r ++
      match call e compiler c r with
      | (.ok (.scope i), r₁) => enterEvents i r₁ (events body)
      | _ => []
  | .reopen name body, r =>
    match keptScope e name .notABlock r with
    | (.ok i, r₁) => enterEvents i r₁ (events body)
    | (.error _, _) => []
  | .enter name, r =>
    match keptScope e name (.noMember · "__enter__") r with
    | (.ok i, r₁) => enterEvents i r₁ fun _ => []
    | (.error _, _) => []
  | .attempt body, r => events body r
  | .exit _, _ | .raise .., _ => []

/-- What happens in steps one after the other, until one fails. -/
def events : List Script.Node → Running → List Event
  | [], _ => []
  | node :: rest, r =>
    nodeEvents node r ++
      match runNode e compiler node r with
      | (.ok (), r₁) => events rest r₁
      | (.error _, _) => []

end

end

end ScriptM

/-! ## What elements leave behind -/

namespace SessionM

/-- What an element leaves behind must be opened if the element is one of these, and only the
attributes of `modifySql` are read when it is entered. -/
theorem required_of_act {e : Engine} {compiler : Compiler} {d : DocumentId}
    {x : ScriptM.Application} {s s₁ : Session} {y : Scope}
    (acts : act e compiler d x.element x.positional x.attributes s = (.ok (.scope y), s₁)) :
    y.required = x.block? ∧
      ((∃ owner i a, y.opening = .visitors owner i a) → x.block? = some "modifySql") := by
  obtain ⟨element, positional, a⟩ := x
  cases act_yields acts with
  | modifySql => exact ⟨rfl, fun _ => rfl⟩
  | rollback noStatement noReference =>
    subst noStatement noReference
    exact ⟨rfl, by rintro ⟨_, _, _, ⟨⟩⟩⟩
  | _ => exact ⟨rfl, by rintro ⟨_, _, _, ⟨⟩⟩⟩

end SessionM

/-- Only the attributes of `modifySql` can keep a result from being opened. -/
theorem ScriptM.openBody_error {d : DocumentId} {x : Opening} {failure : Failure} {s s₁ : Session}
    (opens : openBody d x s = (.error failure, s₁)) : ∃ owner i a, x = .visitors owner i a := by
  cases x with
  | visitors owner i a => exact ⟨owner, i, a, rfl⟩
  | _ => cases opens

/-! ## What a frame knows -/

/-- After some events in the script at a path, the blocks that still must be opened are those that
were made and never entered, in the order in which they were made; only a `modifySql` can have been
entered in vain. -/
structure Frame.Expects (path : String) (history : List Event) (f : Frame) : Prop where
  path : f.path = path
  pending : f.pending = (Event.neverEntered history).map (·.1)
  required : ∀ i element, .made i element ∈ history →
    (f.scopes[i]?).bind (·.required) = some element
  ascends : ((Event.blocks history).map (·.1)).Pairwise (· < ·)
  known : ∀ i opens, .entered i opens ∈ history → i < f.scopes.size
  late : ∀ i x, f.scopes[i]? = some x → (∃ owner s a, x.opening = .visitors owner s a) →
    .made i "modifySql" ∈ history
  refused : ∀ i, .entered i false ∈ history → .made i "modifySql" ∈ history
  keepsOwn : f.KeepsOwn

namespace Frame.Expects

variable {path : String} {history : List Event} {f : Frame} {i : ScopeId}

theorem start (path : String) (document : DocumentId) :
    Expects path [] { path, document : Frame } where
  path := rfl
  pending := rfl
  required := by
    intro i element mem
    cases mem
  ascends := .nil
  known := by
    intro i opens mem
    cases mem
  late := by
    intro i x at_
    cases at_
  refused := by
    intro i mem
    cases mem
  keepsOwn := by
    intro name i mem
    cases mem

theorem lt_size_of_made (h : f.Expects path history) {element : String}
    (mem : .made i element ∈ history) : i < f.scopes.size := by
  obtain ⟨x, at_, -⟩ := Option.bind_eq_some_iff.1 (h.required i element mem)
  exact (Array.getElem?_eq_some_iff.1 at_).1

/-- The blocks that must be opened are different ones. -/
theorem nodup_pending (h : f.Expects path history) : f.pending.Nodup := by
  rw [h.pending]
  have all : ((Event.blocks history).map (·.1)).Nodup := h.ascends.imp Nat.ne_of_lt
  exact all.sublist (List.filter_sublist.map _)

/-- One more result, which may have to be opened. -/
theorem push (h : f.Expects path history) {x : Scope}
    (late : (∃ owner s a, x.opening = .visitors owner s a) → x.required = some "modifySql") :
    Expects path (history ++ (x.required.map (Event.made f.scopes.size)).toList)
      { f with
        scopes := f.scopes.push x
        pending := if x.required.isSome then f.pending ++ [f.scopes.size] else f.pending } := by
  have new : ∀ opens, Event.entered f.scopes.size opens ∉ history :=
    fun opens mem => Nat.lt_irrefl _ (h.known _ opens mem)
  refine ⟨h.path, ?_, fun i element mem => ?_, ?_, fun i opens mem => ?_, fun i y at_ isLate => ?_,
    fun i mem => ?_, (restores_push x _).keepsOwn h.keepsOwn⟩
  · rw [Event.map_neverEntered_append new, ← h.pending]
  · show ((f.scopes.push x)[i]?).bind (·.required) = some element
    obtain mem | ⟨rfl, required⟩ := Event.made_mem_append.1 mem
    · have own := h.lt_size_of_made mem
      rw [Array.getElem?_push_lt own, ← Array.getElem?_eq_getElem own]
      exact h.required i element mem
    · rw [Array.getElem?_push_size]
      exact required
  · exact Event.pairwise_blocks_append h.ascends (fun _ _ mem => h.lt_size_of_made mem) _
  · show i < (f.scopes.push x).size
    rw [Array.size_push]
    exact Nat.lt_succ_of_lt (h.known i opens (Event.entered_mem_append.1 mem))
  · rw [Event.made_mem_append]
    have at_ : (f.scopes.push x)[i]? = some y := at_
    rw [Array.getElem?_push] at at_
    split at at_
    next same =>
      cases at_
      exact .inr ⟨same, late isLate⟩
    next => exact .inl (h.late i y at_ isLate)
  · exact Event.made_mem_append.2 (.inl (h.refused i (Event.entered_mem_append.1 mem)))

theorem keep (h : f.Expects path history) {name : String} {result : Outcome}
    (own : ∀ i, result = .scope i → i < f.scopes.size) :
    Expects path history { f with kept := (name, result) :: f.kept } where
  path := h.path
  pending := h.pending
  required := h.required
  ascends := h.ascends
  known := h.known
  late := h.late
  refused := h.refused
  keepsOwn := by
    intro other i mem
    rcases List.mem_cons.1 mem with new | mem
    · cases new
      exact own i rfl
    · exact h.keepsOwn other i mem

theorem withStack (h : f.Expects path history) (stack : List (Nat × Body)) :
    Expects path history { f with stack } :=
  ⟨h.path, h.pending, h.required, h.ascends, h.known, h.late, h.refused, h.keepsOwn⟩

/-- A result that is entered need not be opened any more, whether it can be opened or not. -/
theorem entered (h : f.Expects path history) (own : i < f.scopes.size) {opens : Bool}
    (inVain : opens = false → .made i "modifySql" ∈ history) :
    Expects path (history ++ [.entered i opens]) { f with pending := f.pending.erase i } := by
  have made : ∀ j element, Event.made j element ∈ history ++ [.entered i opens] →
      .made j element ∈ history := by
    intro j element mem
    simpa using mem
  refine ⟨h.path, ?_, fun j element mem => h.required j element (made j element mem), ?_, ?_,
    fun j x at_ isLate => List.mem_append_left _ (h.late j x at_ isLate), ?_, h.keepsOwn⟩
  · show f.pending.erase i = _
    rw [h.nodup_pending.erase_eq_filter, h.pending, Event.neverEntered_entered, List.filter_map]
    refine congrArg _ (List.filter_congr fun block _ => ?_)
    by_cases same : block.1 = i <;> simp [same]
  · unfold Event.blocks
    rw [List.filterMap_append, show [Event.entered i opens].filterMap Event.block? = [] from rfl,
      List.append_nil]
    exact h.ascends
  · intro j opens' mem
    rcases List.mem_append.1 mem with mem | mem
    · exact h.known j opens' mem
    · cases List.mem_singleton.1 mem
      exact own
  · intro j mem
    rcases List.mem_append.1 mem with mem | mem
    · exact List.mem_append_left _ (h.refused j mem)
    · cases List.mem_singleton.1 mem
      exact List.mem_append_left _ (inVain rfl)

/-- Opening a result changes nothing about which ones must be opened. -/
theorem opened (h : f.Expects path history) (i : ScopeId) (body : Body) :
    Expects path history (ScriptM.opened i body f) := by
  have scopes : ∀ j, (ScriptM.opened i body f).scopes[j]? =
      if i = j then (f.scopes[j]?).map fun x => { x with mark := some f.nextMark }
      else f.scopes[j]? :=
    fun j => Array.getElem?_modify
  have size : (ScriptM.opened i body f).scopes.size = f.scopes.size := Array.size_modify
  refine ⟨h.path, h.pending, ?_, h.ascends, ?_, ?_, h.refused, ?_⟩
  · intro j element mem
    have required := h.required j element mem
    rw [scopes]
    split
    · rwa [Option.bind_map]
    · exact required
  · intro j opens mem
    rw [size]
    exact h.known j opens mem
  · intro j x at_ isLate
    rw [scopes] at at_
    split at at_
    · obtain ⟨y, before, rfl⟩ := Option.map_eq_some_iff.1 at_
      exact h.late j y before isLate
    · exact h.late j x at_ isLate
  · intro name j mem
    rw [size]
    exact h.keepsOwn name j mem

end Frame.Expects

namespace ScriptM

variable {e : Engine} {compiler : Compiler} {path : String} {history : List Event}
  {r r₁ : Running} {i : ScopeId}

/-! ## One step -/

/-- A call makes what its element leaves behind, and nothing else. -/
theorem expects_call (e : Engine) (compiler : Compiler) (h : r.frame.Expects path history)
    (c : Script.Call) :
    Frame.Expects path (history ++ callEvents e compiler c r) (call e compiler c r).2.frame := by
  obtain ⟨plain, failure, calls, prepares⟩ | ⟨x, result, s, prepares, acts, calls⟩ :=
    call_cases e compiler c r
  · have none : callEvents e compiler c r = [] := by
      unfold callEvents
      rw [prepares]
    rw [none, List.append_nil, calls]
    exact h
  · unfold callEvents
    rw [prepares, calls]
    rcases result with failure | _ | type | y
    · rw [show outcomeOf (.error failure) _ = (.error failure, _) from rfl, List.append_nil]
      exact h
    · rw [show outcomeOf (.ok .nothing) _ = (.ok .nothing, _) from rfl, List.append_nil]
      exact h
    · rw [show outcomeOf (.ok (.object type)) _ = (.ok (.object type), _) from rfl, List.append_nil]
      exact h
    · obtain ⟨required, late⟩ := SessionM.required_of_act acts
      show Frame.Expects path (history ++ (x.block?.map (Event.made r.frame.scopes.size)).toList) _
      rw [← required] at late ⊢
      exact h.push late

/-- What is entered is known, whether it is opened or not. -/
theorem expects_enter (h : r.frame.Expects path history) (own : i < r.frame.scopes.size) :
    (∀ r₁, enter i r = (.ok (), r₁) → r₁.frame.Expects path (history ++ [.entered i true])) ∧
      ∀ failure r₁, enter i r = (.error failure, r₁) →
        r₁.frame.Expects path (history ++ [.entered i false]) := by
  obtain ⟨s, ⟨failure, opens, enters⟩ | ⟨body, opens, enters⟩⟩ := enter_cases i r
  · refine ⟨fun r₁ enters' => ?_, fun failure' r₁ enters' => ?_⟩ <;> cases enters.symm.trans enters'
    refine h.entered own fun _ => ?_
    rw [Array.getElem?_eq_getElem own] at opens
    exact h.late i _ (Array.getElem?_eq_getElem own) (openBody_error opens)
  · refine ⟨fun r₁ enters' => ?_, fun failure' r₁ enters' => ?_⟩ <;> cases enters.symm.trans enters'
    have entered : Frame.Expects path (history ++ [.entered i true]) _ := h.entered own nofun
    exact entered.opened i body

theorem expects_leave (h : r.frame.Expects path history) (i : ScopeId)
    (result : Except Failure Unit) : (leave i result r).2.frame.Expects path history := by
  obtain ⟨⟨stack, -, frame⟩, -⟩ := leave_cases i result r
  rw [frame]
  exact h.withStack stack

/-! ## The steps of a script -/

/-- A block knows what happens inside it. -/
theorem expects_within {steps : ScriptM Unit} {inside : Running → List Event}
    (h : r.frame.Expects path history) (own : i < r.frame.scopes.size)
    (hs : ∀ r', r'.frame.Expects path (history ++ [.entered i true]) →
      (steps r').2.frame.Expects path (history ++ [.entered i true] ++ inside r')) :
    (within i steps r).2.frame.Expects path (history ++ enterEvents i r inside) := by
  unfold enterEvents
  rcases enters : enter i r with ⟨failure | _, r'⟩
  · rw [within_of_enter_error enters]
    exact (expects_enter h own).2 failure r' enters
  · rw [within_eq enters]
    have ran := hs r' ((expects_enter h own).1 r' enters)
    rw [List.append_assoc, List.singleton_append] at ran
    exact expects_leave ran i _

mutual

/-- After a step the frame knows what has happened in it, whether it has failed or not. -/
theorem expects_runNode (e : Engine) (compiler : Compiler) (node : Script.Node)
    {path : String} {history : List Event} {r : Running} (h : r.frame.Expects path history) :
    (runNode e compiler node r).2.frame.Expects path (history ++ nodeEvents e compiler node r) := by
  cases node with
  | call c =>
    rw [runNode_call_snd, nodeEvents]
    exact expects_call e compiler h c
  | keep name c =>
    have called := expects_call e compiler h c
    rw [nodeEvents]
    rcases calls : call e compiler c r with ⟨failure | result, r'⟩ <;> rw [calls] at called
    · rw [runNode, Step.run_bind_of_error calls]
      exact called
    · -- a result that is kept under a name is one that the call has left
      rw [runNode, Step.run_bind_of_ok calls]
      refine called.keep fun i same => ?_
      subst same
      exact (scope_of_call calls).2
  | block c body =>
    have called := expects_call e compiler h c
    rw [nodeEvents]
    rcases calls : call e compiler c r with ⟨failure | result, r'⟩ <;> rw [calls] at called
    · rw [runNode, Step.run_bind_of_error calls, List.append_nil]
      exact called
    · cases result with
      | scope i =>
        rw [runNode_block calls, ← List.append_assoc]
        exact expects_within called (scope_of_call calls).2
          fun r'' inside => expects_runNodes e compiler body inside
      | _ =>
        rw [runNode, Step.run_bind_of_ok calls, List.append_nil]
        exact called
  | reopen name body =>
    rw [nodeEvents]
    obtain ⟨failure, finds⟩ | ⟨i, finds⟩ := (keeps_keptScope e name .notABlock).run_cases r
    · rw [runNode, Step.run_bind_of_error finds, finds, List.append_nil]
      exact h
    · rw [runNode_reopen finds, finds]
      exact expects_within h (lt_size_of_keptScope h.keepsOwn finds)
        fun r'' inside => expects_runNodes e compiler body inside
  | enter name =>
    rw [nodeEvents]
    obtain ⟨failure, finds⟩ | ⟨i, finds⟩ :=
      (keeps_keptScope e name (.noMember · "__enter__")).run_cases r
    · rw [runNode, Step.run_bind_of_error finds, finds, List.append_nil]
      exact h
    · obtain ⟨opened, refused⟩ := expects_enter h (lt_size_of_keptScope h.keepsOwn finds)
      rw [runNode_enter finds, finds]
      dsimp only
      unfold enterEvents
      rcases enters : enter i r with ⟨failure | _, r'⟩
      · exact refused failure r' enters
      · exact opened r' enters
  | exit name =>
    rw [nodeEvents, List.append_nil]
    obtain ⟨failure, finds⟩ | ⟨i, finds⟩ :=
      (keeps_keptScope e name (.noMember · "__exit__")).run_cases r
    · rw [runNode, Step.run_bind_of_error finds]
      exact h
    · rw [runNode_exit finds]
      exact expects_leave h i _
  | raise kind text =>
    rw [nodeEvents, List.append_nil]
    exact h
  | attempt body =>
    rw [runNode_attempt, nodeEvents]
    exact expects_runNodes e compiler body h

/-- So it does after steps one after the other. -/
theorem expects_runNodes (e : Engine) (compiler : Compiler) (nodes : List Script.Node)
    {path : String} {history : List Event} {r : Running} (h : r.frame.Expects path history) :
    (runNodes e compiler nodes r).2.frame.Expects path (history ++ events e compiler nodes r) := by
  cases nodes with
  | nil =>
    rw [events, List.append_nil]
    exact h
  | cons node rest =>
    have ran := expects_runNode e compiler node h
    rw [runNodes_cons, events]
    rcases runs : runNode e compiler node r with ⟨failure | _, r'⟩ <;> rw [runs] at ran
    · rw [Step.run_bind_of_error runs, List.append_nil]
      exact ran
    · rw [Step.run_bind_of_ok runs, ← List.append_assoc]
      exact expects_runNodes e compiler rest ran

end

end ScriptM

/-! ## The end of a script -/

section

variable {path : String} {history : List Event}

/-- The elements that a frame names are those of the blocks that were never entered. -/
theorem Frame.Expects.elements {f : Frame} (h : f.Expects path history) :
    f.pending.filterMap (fun i => f.scopes[i]?.bind (·.required)) =
      (Event.neverEntered history).map (·.2) := by
  have named : ∀ blocks : List (ScopeId × String),
      (∀ block ∈ blocks, (f.scopes[block.1]?).bind (·.required) = some block.2) →
      (blocks.map (·.1)).filterMap (fun i => f.scopes[i]?.bind (·.required)) = blocks.map (·.2) := by
    intro blocks all
    induction blocks with
    | nil => rfl
    | cons block rest ih =>
      have others := ih fun other mem => all other (List.mem_cons_of_mem _ mem)
      simp only [List.map_cons, List.filterMap_cons, all block List.mem_cons_self, others]
  rw [h.pending]
  refine named _ fun block mem => ?_
  exact h.required block.1 block.2 (Event.mem_blocks.1 (List.mem_filter.1 mem).1)

/-- A script that has run to its end is refused for the blocks that were never entered. -/
theorem ScriptM.checkPending_of_expects {r : Running} (h : r.frame.Expects path history) :
    (checkPending r).1 =
      if Event.neverEntered history = [] then .ok ()
      else .error (.parse (.notOpened path ((Event.neverEntered history).map (·.2)))) := by
  unfold checkPending
  rw [Step.run_bind_of_ok (frame_eq r), h.elements, h.path]
  cases Event.neverEntered history <;> rfl

end

/-- A script that makes two change sets and a `modifySql`, one of the change sets in steps that
fail, and enters the other one, in which it enters the `modifySql` in vain. -/
def enteringSome : List Script.Node :=
  [.block { element := "databaseChangeLog" } [
    .attempt [.keep "lost" (.giving "changeSet" [("id", .text "1"), ("author", .text "a")]),
      .raise "ValueError" "stop"],
    .keep "found" (.giving "changeSet" [("id", .text "2"), ("author", .text "a")]),
    .reopen "found" [.attempt [.block (.giving "modifySql" [("dbms", .int 1)]) []]]]]

end Migration
