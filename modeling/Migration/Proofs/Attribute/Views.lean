import Migration.Proofs.Attribute.Order
import Migration.Proofs.Relocation.Reading

/-!
# Scripts that look alike

All that a script sees of a result that can be opened is its view. So it runs alike from two states
in which its results look the same: it gives the same, and does the same to the session.

* `Running.Alike` — two states of a script in which its results look the same
* `ScriptM.call_agrees` — an element does the same in both
* `ScriptM.runNodes_agrees` — steps do the same in both
-/

namespace Migration

/-! ## Results in two states -/

namespace Scope

variable {xs ys : Array Scope} (same : ys.map view = xs.map view) (i : ScopeId)
include same

theorem size_eq_of_views : ys.size = xs.size := by
  rw [← Array.size_map (f := view), same, Array.size_map]

theorem view_getElem? : ys[i]?.map view = xs[i]?.map view := by
  rw [← Array.getElem?_map, same, Array.getElem?_map]

theorem view_getD : (ys[i]?.getD default).view = (xs[i]?.getD default).view := by
  rw [← Option.getD_map (f := view), view_getElem? same, Option.getD_map]

theorem bind_eq_of_views {β : Type} (f : View → Option β) :
    (ys[i]?.bind fun x => f x.view) = xs[i]?.bind fun x => f x.view := by
  have views := congrArg (·.bind f) (view_getElem? same i)
  rwa [Option.bind_map, Option.bind_map] at views

theorem typeName_eq_of_views (result : Outcome) : result.typeName ys = result.typeName xs := by
  cases result with
  | scope i =>
    have required := bind_eq_of_views same i View.required
    unfold Outcome.typeName
    exact congrArg (fun x : Option String => if x.isSome then "Block" else "Handle") required
  | _ => rfl

/-- The results go on to look the same if one of them is marked. -/
theorem views_marked (mark : Option Nat) :
    (ys.modify i fun x => { x with mark }).map view =
    (xs.modify i fun x => { x with mark }).map view := by
  have marks := ScriptM.map_modify view (fun x => { x with mark }) (fun v => { v with mark })
    fun _ => rfl
  rw [marks, marks, same]

theorem views_push {x x' : Scope} (new : x'.view = x.view) :
    (ys.push x').map view = (xs.push x).map view := by
  rw [Array.map_push, Array.map_push, same, new]

end Scope

/-- The state of a script with other results. -/
def Running.withScopes (r : Running) (scopes : Array Scope) : Running :=
  { r with frame := { r.frame with scopes } }

/-- Two states of a script that differ in nothing but results that look the same. -/
def Running.Alike (r u : Running) : Prop :=
  ∃ scopes, u = r.withScopes scopes ∧ scopes.map Scope.view = r.frame.scopes.map Scope.view

theorem Running.Alike.refl (r : Running) : r.Alike r := ⟨r.frame.scopes, rfl, rfl⟩

theorem Running.Alike.session {r u : Running} (h : r.Alike u) : u.session = r.session := by
  obtain ⟨scopes, rfl, -⟩ := h
  rfl

theorem Running.Alike.typeName {r u : Running} (h : r.Alike u) (result : Outcome) :
    result.typeName u.frame.scopes = result.typeName r.frame.scopes := by
  obtain ⟨scopes, rfl, same⟩ := h
  exact Scope.typeName_eq_of_views same result

namespace ScriptM

open Running (Alike)

variable {e : Engine} {compiler : Compiler} {α : Type}

/-! ## Calls -/

theorem lift_agrees (m : SessionM α) : Agrees Alike (liftM m : ScriptM α) (liftM m) := by
  rintro r u ⟨scopes, rfl, same⟩
  exact ⟨rfl, scopes, rfl, same⟩

theorem document_agrees : Agrees Alike document document := by
  rintro r u ⟨scopes, rfl, same⟩
  exact ⟨rfl, scopes, rfl, same⟩

/-- What is done to a script, but not to its results, is done alike. -/
theorem modifyFrame_agrees {f : Frame → Frame}
    (apart : ∀ (x : Frame) (scopes : Array Scope), f { x with scopes } = { f x with scopes }) :
    Agrees Alike (modifyFrame f) (modifyFrame f) := by
  rintro r u ⟨scopes, rfl, same⟩
  have kept : (f r.frame).scopes = r.frame.scopes := by
    rw [show f r.frame = { f r.frame with scopes := r.frame.scopes } from apart _ _]
  refine ⟨rfl, scopes, congrArg (Running.mk r.session) (apart r.frame scopes), ?_⟩
  exact same.trans (congrArg (·.map Scope.view) kept.symm)

theorem namesAgree_alike : NamesAgree Alike e where
  defined := by
    rintro r u ⟨scopes, rfl, -⟩ name
    exact defined?_congr rfl rfl name
  found := by
    rintro r u ⟨scopes, rfl, -⟩ name
    rfl
  typeName _ _ h := h.typeName

theorem dispatch_agrees (name : String) (positional : List Value) (a : Attributes) :
    Agrees Alike (dispatch e name positional a) (dispatch e name positional a) := by
  rintro r u ⟨scopes, rfl, same⟩
  rw [run_dispatch, run_dispatch]
  exact ⟨rfl, scopes, rfl, same⟩

/-- What an element does with its arguments is known from its name and its arguments. -/
theorem prepare_agrees (c : Script.Call) : Agrees Alike (prepare e c) (prepare e c) := by
  have arguments : ∀ f : List Value → List (String × Value) → ScriptM Application,
      (∀ positional a, Agrees Alike (f positional a) (f positional a)) →
      Agrees Alike (evalItems e c.positional >>= fun positional =>
        evalAttributes e c.attributes >>= f positional)
        (evalItems e c.positional >>= fun positional =>
          evalAttributes e c.attributes >>= f positional) := fun f hf =>
    .bind (evalItems_agrees namesAgree_alike _) fun positional =>
      .bind (evalAttributes_agrees namesAgree_alike _) (hf positional)
  refine .bind (namesAgree_alike.resolve c.element) fun binding => ?_
  cases binding with
  | nothing => exact .throw _
  | value v => exact arguments _ fun _ _ => .throw _
  | builtin b => exact arguments _ fun _ _ => .throw _
  | element => exact arguments _ fun _ _ => dispatch_agrees _ _ _
  | kept result =>
    refine arguments _ fun _ _ => frame_bind_agrees fun r u h => ?_
    rw [h.typeName]
    exact .throw _

theorem newScope_eq (x : Scope) (r : Running) :
    newScope x r = (.ok (.scope r.frame.scopes.size), {
      session := r.session
      frame := {
        r.frame with
        scopes := r.frame.scopes.push x
        pending :=
          if x.required.isSome then r.frame.pending ++ [r.frame.scopes.size]
          else r.frame.pending } }) :=
  rfl

/-- Results that look the same are put down alike. -/
theorem newScope_agrees {x x' : Scope} (same : x'.view = x.view) :
    Agrees Alike (newScope x) (newScope x') := by
  rintro r u ⟨scopes, rfl, views⟩
  have required : x'.required = x.required := congrArg Scope.View.required same
  rw [newScope_eq, newScope_eq]
  -- there are as many results in both states, so the new one gets the same number
  simp only [Running.withScopes, required, Scope.size_eq_of_views views]
  exact ⟨trivial, scopes.push x', rfl, Scope.views_push views same⟩

/-- What elements leave behind is put down alike if it looks the same. -/
theorem outcomeOf_agrees {x x' : Result} (same : x.Alike x') :
    Agrees Alike (outcomeOf (.ok x)) (outcomeOf (.ok x')) := by
  cases same with
  | scope same => exact newScope_agrees same
  | refl =>
    cases x with
    | nothing => exact .pure _
    | object type => exact .pure _
    | scope x => exact newScope_agrees rfl

theorem callElement_agrees (c : Script.Call) :
    Agrees Alike (callElement e compiler c) (callElement e compiler c) := by
  refine .bind (prepare_agrees c) fun x => .bind document_agrees fun d => ?_
  refine .bind (lift_agrees _) fun result => ?_
  cases result with
  | nothing => exact .pure _
  | object type => exact .pure _
  | scope x => exact newScope_agrees rfl

theorem call_agrees (c : Script.Call) : Agrees Alike (call e compiler c) (call e compiler c) := by
  refine frame_bind_agrees fun r u h => ?_
  rw [namesAgree_alike.function? h]
  cases function? e r.frame c.element with
  | some f => exact callFunction_agrees namesAgree_alike f c
  | none => exact callElement_agrees c

/-! ## Blocks -/

theorem enter_agrees (i : ScopeId) : Agrees Alike (enter i) (enter i) := by
  rintro r u ⟨scopes, rfl, same⟩
  have opens : openBody r.frame.document (scopes[i]?.getD default).opening =
      openBody r.frame.document (r.frame.scopes[i]?.getD default).opening :=
    congrFun (congrArg Scope.View.opens (Scope.view_getD same i)) r.frame.document
  rw [enter_eq, enter_eq]
  simp only [Running.withScopes, opens]
  rcases openBody r.frame.document (r.frame.scopes[i]?.getD default).opening r.session
    with ⟨failure | body, s⟩
  · exact ⟨rfl, scopes, rfl, same⟩
  · exact ⟨rfl, _, rfl, Scope.views_marked same i _⟩

theorem pop_agrees (i : ScopeId) : Agrees Alike (pop i) (pop i) := by
  refine frame_bind_agrees fun r u h => ?_
  obtain ⟨scopes, rfl, same⟩ := h
  have mark : (scopes[i]?.bind (·.mark)) = r.frame.scopes[i]?.bind (·.mark) :=
    Scope.bind_eq_of_views same i Scope.View.mark
  simp only [Running.withScopes, mark]
  cases r.frame.stack with
  | nil => exact .throw _
  | cons entry rest =>
    exact .ite (.bind (modifyFrame_agrees fun _ _ => rfl) fun _ => .pure _) (.throw _)

theorem leave_agrees (i : ScopeId) (result : Except Failure Unit) :
    Agrees Alike (leave i result) (leave i result) := by
  refine .bind (pop_agrees i) fun body => ?_
  cases result with
  | ok =>
    refine frame_bind_agrees fun r u h => ?_
    obtain ⟨scopes, rfl, same⟩ := h
    have completion : (scopes[i]?.getD default).completion =
        (r.frame.scopes[i]?.getD default).completion :=
      congrArg Scope.View.completion (Scope.view_getD same i)
    simp only [Running.withScopes, completion]
    exact .bind document_agrees fun d => lift_agrees _
  | error failure =>
    cases failure with
    | unbound name => exact .throw _
    | _ => exact .throw _

/-- A step whose failure is handed on does the same in both states if it does so by itself. -/
theorem observe_agrees {x y : ScriptM α} (h : Agrees Alike x y) :
    Agrees Alike (observe x) (observe y) := by
  intro r u related
  rw [run_observe, run_observe]
  exact ⟨congrArg Except.ok (h related).1, (h related).2⟩

theorem within_agrees (i : ScopeId) {steps : ScriptM Unit} (h : Agrees Alike steps steps) :
    Agrees Alike (within i steps) (within i steps) :=
  .bind (enter_agrees i) fun _ => .bind (observe_agrees h) fun result => leave_agrees i result

/-! ## Steps -/

theorem kept_agrees (name : String) (mishap : String → Mishap) :
    Agrees Alike (keptScope e name mishap) (keptScope e name mishap) :=
  keptScope_agrees namesAgree_alike name mishap

mutual

/-- A step does the same in both states. -/
theorem runNode_agrees (node : Script.Node) :
    Agrees Alike (runNode e compiler node) (runNode e compiler node) := by
  cases node with
  | call c =>
    rw [runNode]
    exact .bind (call_agrees c) fun _ => .pure _
  | keep name c =>
    rw [runNode]
    exact .bind (call_agrees c) fun _ => modifyFrame_agrees fun _ _ => rfl
  | block c body =>
    rw [runNode]
    refine .bind (call_agrees c) fun result => ?_
    cases result with
    | scope i => exact within_agrees i (runNodes_agrees body)
    | _ => exact .throw _
  | reopen name body =>
    rw [runNode]
    exact .bind (kept_agrees name _) fun i => within_agrees i (runNodes_agrees body)
  | enter name =>
    rw [runNode]
    exact .bind (kept_agrees name _) enter_agrees
  | exit name =>
    rw [runNode]
    exact .bind (kept_agrees name _) fun i => leave_agrees i _
  | raise kind text =>
    rw [runNode]
    exact .throw _
  | attempt body =>
    rw [runNode]
    exact .bind (observe_agrees (runNodes_agrees body)) fun _ => .pure _

/-- So do the steps of a script. -/
theorem runNodes_agrees (nodes : List Script.Node) :
    Agrees Alike (runNodes e compiler nodes) (runNodes e compiler nodes) := by
  cases nodes with
  | nil => exact .pure _
  | cons node rest => exact .bind (runNode_agrees node) fun _ => runNodes_agrees rest

end

end ScriptM
end Migration
