import Migration.Proofs.Failure.Blocks
import Migration.Proofs.Inclusion.Order

/-!
# Structured scripts

Scripts that keep no results cannot open a result again, and if they do not open and leave blocks by
hand either, every block is opened from the call before it and left at its end.

* `Script.areStructured` — the steps keep no results and open no blocks by hand
* `Blockwise` — what lasts through the calls and the blocks of such steps
* `ScriptM.restores_of_structured` — such steps leave open what was open, also if they fail
* `ScriptM.runNodes_of_avoids` — outside of blocks nothing is done but by `databaseChangeLog`
-/

namespace Migration

/-! ## Structured scripts -/

mutual

/-- A step that keeps no result, and opens and leaves no block by hand. -/
def Script.Node.isStructured : Script.Node → Bool
  | .call _ | .raise .. => true
  | .block _ body | .reopen _ body | .attempt body => Script.areStructured body
  | .keep .. | .enter _ | .exit _ => false

/-- Steps that keep no results, and open and leave no blocks by hand. -/
def Script.areStructured : List Script.Node → Bool
  | [] => true
  | node :: rest => node.isStructured && Script.areStructured rest

end

mutual

/-- A step that calls no element of a name. -/
def Script.Node.avoids (name : String) : Script.Node → Bool
  | .call c | .keep _ c => c.element != name
  | .block c body => c.element != name && Script.avoid name body
  | .reopen _ body | .attempt body => Script.avoid name body
  | .enter _ | .exit _ | .raise .. => true

/-- Steps that call no element of a name. -/
def Script.avoid (name : String) : List Script.Node → Bool
  | [] => true
  | node :: rest => node.avoids name && Script.avoid name rest

end

theorem Script.areStructured_append (before after : List Script.Node) :
    areStructured (before ++ after) = (areStructured before && areStructured after) := by
  induction before with
  | nil => rfl
  | cons node rest ih =>
    show (node.isStructured && areStructured (rest ++ after)) = _
    rw [ih, ← Bool.and_assoc]
    rfl

/-- A property of running scripts that lasts through calls, and through the opening and the leaving
of what calls leave behind. No results are kept. -/
structure Blockwise (e : Engine) (compiler : Compiler) (own : ScopeId → Prop) (P : Running → Prop) :
    Prop where
  kept : ∀ {r}, P r → r.frame.kept = []
  call : ∀ {r} c, P r → P (ScriptM.call e compiler c r).2
  scope : ∀ {r c i r₁}, P r → ScriptM.call e compiler c r = (.ok (.scope i), r₁) → own i
  enter : ∀ {r i}, own i → P r → P (ScriptM.enter i r).2
  leave : ∀ {r i} result, own i → P r → P (ScriptM.leave i result r).2

namespace Blockwise

open ScriptM

variable {e : Engine} {compiler : Compiler} {own : ScopeId → Prop} {P : Running → Prop}

theorem within (h : Blockwise e compiler own P) {i : ScopeId} {steps : ScriptM Unit} {r : Running}
    (hi : own i) (hr : P r) (hs : ∀ r', P r' → P (steps r').2) :
    P (ScriptM.within i steps r).2 := by
  have entered := h.enter hi hr
  rcases enters : ScriptM.enter i r with ⟨failure | _, r'⟩ <;> rw [enters] at entered
  · rw [within_of_enter_error enters]
    exact entered
  · rw [within_eq enters]
    exact h.leave _ hi (hs r' entered)

mutual

theorem runNode (h : Blockwise e compiler own P) {node : Script.Node}
    (structured : node.isStructured = true) {r : Running} (hr : P r) :
    P (ScriptM.runNode e compiler node r).2 := by
  cases node with
  | call c =>
    rw [runNode_call_snd]
    exact h.call c hr
  | block c body =>
    have called := h.call c hr
    rcases calls : ScriptM.call e compiler c r with ⟨failure | result, r'⟩ <;> rw [calls] at called
    · rw [ScriptM.runNode, Step.run_bind_of_error calls]
      exact called
    · cases result with
      | scope i =>
        rw [runNode_block calls]
        exact h.within (h.scope hr calls) called fun r' hr' => runNodes h structured hr'
      | _ =>
        rw [ScriptM.runNode, Step.run_bind_of_ok calls]
        exact called
  | reopen name body =>
    rcases finds : keptScope e name .notABlock r with ⟨failure | i, r'⟩
    · obtain rfl : r = r' := (keeps_keptScope e name _).of_run (R := (· = ·)) finds
      rw [ScriptM.runNode, Step.run_bind_of_error finds]
      exact hr
    · -- nothing has been kept that could be opened again
      exact absurd finds (keptScope_of_kept_nil (h.kept hr) i r')
  | raise kind text => exact hr
  | attempt body =>
    rw [runNode_attempt]
    exact runNodes h structured hr
  | keep | enter | exit => cases structured

/-- What lasts through calls and blocks lasts through structured steps, whether they succeed or
not. -/
theorem runNodes (h : Blockwise e compiler own P) {nodes : List Script.Node}
    (structured : Script.areStructured nodes = true) {r : Running} (hr : P r) :
    P (ScriptM.runNodes e compiler nodes r).2 := by
  cases nodes with
  | nil => exact hr
  | cons node rest =>
    obtain ⟨first, others⟩ := Bool.and_eq_true_iff.1 structured
    have ran := runNode h first hr
    rw [runNodes_cons]
    rcases runs : ScriptM.runNode e compiler node r with ⟨failure | _, r'⟩ <;> rw [runs] at ran
    · rw [Step.run_bind_of_error runs]
      exact ran
    · rw [Step.run_bind_of_ok runs]
      exact runNodes h others ran

end

end Blockwise

namespace ScriptM

variable {e : Engine} {compiler : Compiler} {r : Running}

/-! ## No results are kept -/

theorem kept_enter (i : ScopeId) (r : Running) : (enter i r).2.frame.kept = r.frame.kept := by
  obtain ⟨s, ⟨failure, -, enters⟩ | ⟨body, -, enters⟩⟩ := enter_cases i r <;> rw [enters]
  rfl

theorem kept_leave (i : ScopeId) (result : Except Failure Unit) (r : Running) :
    (leave i result r).2.frame.kept = r.frame.kept := by
  obtain ⟨⟨stack, -, frame⟩, -⟩ := leave_cases i result r
  rw [frame]

theorem kept_blockwise (e : Engine) (compiler : Compiler) :
    Blockwise e compiler (fun _ => True) fun r => r.frame.kept = [] where
  kept := id
  call c kept := (kept_of_call (c := c) rfl).trans kept
  scope _ _ := trivial
  enter _ kept := (kept_enter _ _).trans kept
  leave result _ kept := (kept_leave _ result _).trans kept

/-! ## Blocks are left as they were found -/

/-- Wherever a structured script comes to, its steps are structured and nothing has been kept. -/
theorem areStructured_of_reaches {x y : List Script.Node × Running} (h : Reaches e compiler x y)
    (structured : Script.areStructured x.1 = true) (kept : x.2.frame.kept = []) :
    Script.areStructured y.1 = true ∧ y.2.frame.kept = [] := by
  induction h with
  | refl => exact ⟨structured, kept⟩
  | tail _ move ih =>
    obtain ⟨structured, kept⟩ := ih
    cases move with
    | next runs =>
      obtain ⟨first, others⟩ := Bool.and_eq_true_iff.1 structured
      have ran := (kept_blockwise e compiler).runNode first kept
      rw [runs] at ran
      exact ⟨others, ran⟩
    | @block c body rest r i r₁ r₂ calls enters =>
      have called : (call e compiler c r).2.frame.kept = r.frame.kept := kept_of_call rfl
      have opened := kept_enter i r₁
      rw [calls] at called
      rw [enters] at opened
      exact ⟨(Bool.and_eq_true_iff.1 structured).1, opened.trans (called.trans kept)⟩
    | reopen finds => exact absurd finds (keptScope_of_kept_nil kept _ _)
    | attempt => exact ⟨(Bool.and_eq_true_iff.1 structured).1, kept⟩

/-- Structured steps leave open what was open, whether they succeed or not. -/
theorem restores_of_structured {nodes : List Script.Node}
    (structured : Script.areStructured nodes = true) (kept : r.frame.kept = []) :
    r.frame.Restores (runNodes e compiler nodes r).2.frame := by
  have tidy : ∀ x, Reaches e compiler (nodes, r) x → IsTidy e x := by
    intro x reaches
    obtain ⟨structured, kept⟩ := areStructured_of_reaches reaches structured kept
    obtain ⟨_ | ⟨node, rest⟩, r'⟩ := x
    · trivial
    · have first := (Bool.and_eq_true_iff.1 structured).1
      cases node with
      | reopen name => exact fun i finds => absurd finds (keptScope_of_kept_nil kept i r')
      | enter | exit => cases first
      | _ => trivial
  refine restores_runNodes tidy nodes .refl fun _ _ mem => ?_
  rw [kept] at mem
  cases mem

/-! ## Outside of blocks -/

/-- No element but a change log may stand outside of all blocks. -/
theorem call_of_avoids {c : Script.Call} (outside : r.frame.innermostBody = .script)
    (other : c.element ≠ "databaseChangeLog") :
    ∃ plain, call e compiler c r = (Except.map .value plain, r) := by
  obtain ⟨plain, -, calls, -⟩ | ⟨x, result, s, prepares, -, -⟩ := call_cases e compiler c r
  · exact ⟨plain, calls⟩
  · have stands := element?_of_prepare prepares
    rw [outside] at stands
    exact absurd (Body.eq_of_script stands).1 other

mutual

theorem runNode_of_avoids {node : Script.Node} {r : Running} (structured : node.isStructured = true)
    (avoids : node.avoids "databaseChangeLog" = true) (kept : r.frame.kept = [])
    (outside : r.frame.innermostBody = .script) : (runNode e compiler node r).2 = r := by
  cases node with
  | call c =>
    obtain ⟨plain, calls⟩ := call_of_avoids outside (bne_iff_ne.1 avoids)
    rw [runNode, Step.run_bind, calls]
    cases plain <;> rfl
  | block c body =>
    have other := bne_iff_ne.1 (Bool.and_eq_true_iff.1 avoids).1
    obtain ⟨plain, calls⟩ := call_of_avoids outside other
    rw [runNode, Step.run_bind, calls]
    cases plain <;> rfl
  | reopen name body =>
    rcases finds : keptScope e name .notABlock r with ⟨failure | i, r'⟩
    · obtain rfl : r = r' := (keeps_keptScope e name _).of_run (R := (· = ·)) finds
      rw [runNode, Step.run_bind_of_error finds]
    · exact absurd finds (keptScope_of_kept_nil kept i r')
  | raise kind text => rfl
  | attempt body =>
    rw [runNode_attempt]
    exact runNodes_of_avoids structured avoids kept outside
  | keep | enter | exit => cases structured

/-- Structured steps outside of blocks that call no `databaseChangeLog` do nothing. -/
theorem runNodes_of_avoids {nodes : List Script.Node} {r : Running}
    (structured : Script.areStructured nodes = true)
    (avoids : Script.avoid "databaseChangeLog" nodes = true) (kept : r.frame.kept = [])
    (outside : r.frame.innermostBody = .script) : (runNodes e compiler nodes r).2 = r := by
  cases nodes with
  | nil => rfl
  | cons node rest =>
    obtain ⟨first, others⟩ := Bool.and_eq_true_iff.1 structured
    obtain ⟨avoids, avoid⟩ := Bool.and_eq_true_iff.1 avoids
    have ran := runNode_of_avoids first avoids kept outside
    rw [runNodes_cons]
    rcases runs : runNode e compiler node r with ⟨failure | _, r'⟩
    all_goals obtain rfl : r' = r := (congrArg Prod.snd runs).symm.trans ran
    · rw [Step.run_bind_of_error runs]
    · rw [Step.run_bind_of_ok runs]
      exact runNodes_of_avoids others avoid kept outside

end

end ScriptM
end Migration
