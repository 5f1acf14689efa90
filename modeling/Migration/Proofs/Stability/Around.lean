import Migration.Proofs.Stability.Structured
import Migration.Proofs.Stability.Unread

/-!
# The last block of a script

A structured script whose last change log is in one block ends where the steps of this block end, or
it has failed before. So it comes to the steps that are added at the end of the block, and has
nothing more to do after them.

* `Script.Around` — the steps around a block that is inside no other one
* `EndsWith` — some steps are the last thing that a script does
* `ScriptM.endsWith_around` — steps that are added at the end of the last block are
-/

namespace Migration

open SessionM

/-! ## Scripts -/

/-- The steps of a script around a block that is inside no other one. It may be inside attempts. -/
inductive Script.Around
  | block (before : List Script.Node) (c : Script.Call) (after : List Script.Node)
  | attempt (before : List Script.Node) (inner : Script.Around) (after : List Script.Node)

namespace Script.Around

/-- The script with some steps inside the block. -/
def script : Around → List Node → List Node
  | .block before c after, body => before ++ .block c body :: after
  | .attempt before inner after, body => before ++ .attempt (inner.script body) :: after

/-- No change log comes after the block. -/
def isLast : Around → Bool
  | .block _ _ after => avoid "databaseChangeLog" after
  | .attempt _ inner after => inner.isLast && avoid "databaseChangeLog" after

end Script.Around

theorem Script.areStructured_around {before after : List Node} {node : Node} :
    areStructured (before ++ node :: after) = true ↔
      areStructured before = true ∧ node.isStructured = true ∧ areStructured after = true := by
  rw [areStructured_append, Bool.and_eq_true_iff]
  exact and_congr_right' Bool.and_eq_true_iff

/-- The steps inside the block of a structured script are structured, and the script is without the
last ones. -/
theorem Script.Around.areStructured_of_append {first more : List Node} {around : Around}
    (structured : areStructured (around.script (first ++ more)) = true) :
    areStructured (around.script first) = true ∧ areStructured (first ++ more) = true := by
  induction around with
  | block before c after =>
    obtain ⟨earlier, body, later⟩ := areStructured_around.1 structured
    have inner := (Bool.and_eq_true_iff.1 ((areStructured_append first more).symm.trans body)).1
    exact ⟨areStructured_around.2 ⟨earlier, inner, later⟩, body⟩
  | attempt before inner after ih =>
    obtain ⟨earlier, body, later⟩ := areStructured_around.1 structured
    obtain ⟨without, structured⟩ := ih body
    exact ⟨areStructured_around.2 ⟨earlier, without, later⟩, structured⟩

/-! ## Runs -/

/-- A script is outside of all blocks, and it has kept no results. -/
structure Frame.IsOutside (f : Frame) : Prop where
  stack : f.stack = [(0, .script)]
  kept : f.kept = []

theorem Frame.IsOutside.innermostBody {f : Frame} (outside : f.IsOutside) :
    f.innermostBody = .script := by
  unfold Frame.innermostBody
  rw [outside.stack]
  rfl

/-- A script ends in the one session where some steps begin, and in the other one where they end.
Their block is that of a change log. -/
structure EndsWith (e : Engine) (compiler : Compiler) (more : List Script.Node)
    (x : List Script.Node × Running) (r : Running) (s s' : Session) : Prop where
  reaches : Reaches e compiler x (more, r)
  stack : ∀ entry ∈ r.frame.stack, entry.2 = .script ∨ entry.2 = .changeLog
  without : s = r.session
  added : s' = (ScriptM.runNodes e compiler more r).2.session

theorem EndsWith.after {e : Engine} {compiler : Compiler} {more : List Script.Node}
    {x y : List Script.Node × Running} {r : Running} {s s' : Session}
    (h : EndsWith e compiler more y r s s') (before : Reaches e compiler x y) :
    EndsWith e compiler more x r s s' :=
  ⟨before.trans h.reaches, h.stack, h.without, h.added⟩

namespace ScriptM

variable {e : Engine} {compiler : Compiler} {b : Store} {before after first more : List Script.Node}
  {node : Script.Node} {r r₁ : Running}

theorem runNodes_append (before after : List Script.Node) :
    runNodes e compiler (before ++ after) =
      runNodes e compiler before >>= fun _ => runNodes e compiler after := by
  induction before with
  | nil => exact (pure_bind _ _).symm
  | cons node rest ih =>
    show (runNode e compiler node >>= fun _ => runNodes e compiler (rest ++ after)) = _
    rw [ih]
    exact (bind_assoc _ _ _).symm

theorem runNodes_singleton (node : Script.Node) (r : Running) :
    runNodes e compiler [node] r = runNode e compiler node r := by
  rw [runNodes_cons, Step.run_bind]
  rcases runNode e compiler node r with ⟨_ | _, r₁⟩ <;> rfl

/-- A script comes to what is after some steps if these succeed. -/
theorem reaches_of_runNodes (runs : runNodes e compiler before r = (.ok (), r₁))
    (after : List Script.Node) : Reaches e compiler (before ++ after, r) (after, r₁) := by
  induction before generalizing r with
  | nil =>
    cases runs
    exact .refl
  | cons node rest ih =>
    obtain ⟨_, r', ran, others⟩ := Step.bind_eq_ok.1 runs
    exact (ih others).head (.next ran)

/-! ### Around the block -/

theorem isOutside_runNodes {nodes : List Script.Node}
    (structured : Script.areStructured nodes = true) (outside : r.frame.IsOutside) :
    (runNodes e compiler nodes r).2.frame.IsOutside where
  stack := (restores_of_structured structured outside.kept).stack.trans outside.stack
  kept := (kept_blockwise e compiler).runNodes structured outside.kept

/-- Where no change log comes after a step, the script ends with this step. -/
theorem runNodes_around (structured : Script.areStructured (before ++ node :: after) = true)
    (avoids : Script.avoid "databaseChangeLog" after = true) (outside : r.frame.IsOutside)
    (runs : runNodes e compiler before r = (.ok (), r₁)) : r₁.frame.IsOutside ∧
      (runNodes e compiler (before ++ node :: after) r).2 = (runNode e compiler node r₁).2 := by
  obtain ⟨earlier, this, later⟩ := Script.areStructured_around.1 structured
  have outside₁ : (runNodes e compiler before r).2.frame.IsOutside :=
    isOutside_runNodes earlier outside
  rw [runs] at outside₁
  have outside₂ : (runNodes e compiler [node] r₁).2.frame.IsOutside :=
    isOutside_runNodes (Bool.and_eq_true_iff.2 ⟨this, rfl⟩) outside₁
  refine ⟨outside₁, ?_⟩
  -- after the step the script is outside of all blocks, where only a change log could do anything
  rw [runNodes_append, Step.run_bind_of_ok runs, runNodes_cons]
  rw [runNodes_singleton] at outside₂
  rcases ran : runNode e compiler node r₁ with ⟨failure | _, r₂⟩ <;> rw [ran] at outside₂
  · rw [Step.run_bind_of_error ran]
  · rw [Step.run_bind_of_ok ran]
    exact runNodes_of_avoids later avoids outside₂.kept outside₂.innermostBody

/-- Outside of all blocks, only a change log can be opened. -/
theorem leaves_of_isOutside {c : Script.Call} {i : ScopeId} (outside : r.frame.IsOutside)
    (calls : call e compiler c r = (.ok (.scope i), r₁)) :
    r₁.frame.IsOutside ∧ ∃ x : Scope, r₁.frame.scopes[i]? = some x ∧
      x.opening = .body .changeLog ∧ x.completion = .nothing := by
  obtain ⟨_, _, ⟨⟩, -⟩ | ⟨x, result, prepares, acts, stack, kept, leaves⟩ := call_ok calls
  obtain ⟨y, rfl, hy⟩ := leaves i rfl
  refine ⟨⟨stack.trans outside.stack, kept.trans outside.kept⟩, y, hy, ?_⟩
  have element : x.element = .changeLog := by
    have stands := element?_of_prepare prepares
    rw [outside.innermostBody] at stands
    exact (Body.eq_of_script stands).2
  cases act_leaves acts with
  | changeLog _ opening completion => exact ⟨opening, completion⟩
  | changeSet other | preconditions other | changeSetPreconditions other =>
    cases element.symm.trans other
  | part other => exact absurd element other.1

/-- Nothing remains to be done when the block of a change log is left. -/
theorem session_leave {i : ScopeId} {x : Scope} (result : Except Failure Unit)
    (hx : r.frame.scopes[i]? = some x) (completion : x.completion = .nothing) :
    (leave i result r).2.session = r.session := by
  obtain ⟨-, same | completes⟩ := leave_cases i result r
  · exact same
  · rw [completes, hx]
    show (complete r.frame.document x.completion r.session).2 = r.session
    rw [completion]
    rfl

/-- A block with some more steps either ends as it does without them, or it ends with them. -/
theorem endsWith_block (sound : compiler.IsSound) (owns : r.Owns b) (outside : r.frame.IsOutside)
    (structured : Script.areStructured (first ++ more) = true) (c : Script.Call)
    (rest : List Script.Node) :
    (runNode e compiler (.block c first) r).2.session =
        (runNode e compiler (.block c (first ++ more)) r).2.session ∨
      ∃ r', EndsWith e compiler more (.block c (first ++ more) :: rest, r) r'
        (runNode e compiler (.block c first) r).2.session
        (runNode e compiler (.block c (first ++ more)) r).2.session := by
  rcases calls : call e compiler c r with ⟨failure | outcome, r₁⟩
  · left
    rw [runNode, runNode, Step.run_bind_of_error calls, Step.run_bind_of_error calls]
  cases outcome with
  | scope i =>
    rw [runNode_block calls, runNode_block calls]
    rcases enters : enter i r₁ with ⟨failure | _, r₂⟩
    · left
      rw [within_congr fun r' enters' => by cases enters.symm.trans enters']
    rw [within_eq enters, within_eq enters]
    rcases runs : runNodes e compiler first r₂ with ⟨failure | _, r₃⟩
    · -- the steps that are added are not reached
      left
      rw [runNodes_append, Step.run_bind_of_error runs]
    · right
      obtain ⟨outside₁, x, hx, opening, completion⟩ := leaves_of_isOutside outside calls
      obtain ⟨body, opens, stack₂, kept₂⟩ := enter_ok enters
      rw [hx] at opens
      obtain rfl : body = .changeLog := by
        have opens : openBody r₁.frame.document x.opening r₁.session = (.ok body, r₂.session) :=
          opens
        rw [opening] at opens
        exact (Except.ok.inj (congrArg Prod.fst opens)).symm
      rw [Script.areStructured_append] at structured
      have inner := (Bool.and_eq_true_iff.1 structured).1
      have restores : r₂.frame.Restores (runNodes e compiler first r₂).2.frame :=
        restores_of_structured inner (kept₂.trans outside₁.kept)
      rw [runs] at restores
      -- the result is still the one of a change log, wherever the script comes to
      have steady := works_steady (e := e) (b := b) sound
      obtain ⟨owns₁, -⟩ := (steady.call c).of_run calls owns
      have works₃ := trans_of (Running.Works b) ((steady.enter i).of_run enters)
        ((steady.runNodes first).of_run runs)
      have leaves : ∀ {r'}, r₁.Works b r' → ∀ result,
          (leave i result r').2.session = r'.session := fun works result => by
        obtain ⟨-, g, -, adv⟩ := works owns₁
        obtain ⟨x', hx', -, same⟩ := adv.frame.scopes i x hx
        exact session_leave result hx' (same.trans completion)
      rw [runNodes_append, Step.run_bind_of_ok runs]
      refine ⟨r₃, ?_, fun entry mem => ?_, leaves works₃ _, ?_⟩
      · exact (reaches_of_runNodes runs more).head (.block calls enters)
      · rw [restores.stack, stack₂, outside₁.stack] at mem
        rcases List.mem_cons.1 mem with rfl | mem
        · exact .inr rfl
        · obtain rfl := List.mem_singleton.1 mem
          exact .inl rfl
      · exact leaves (trans_of (Running.Works b) works₃ (steady.runNodes more r₃)) _
  | _ =>
    left
    rw [runNode, runNode, Step.run_bind_of_ok calls, Step.run_bind_of_ok calls]

/-- So does a script whose last block it is. -/
theorem endsWith_around (sound : compiler.IsSound) (around : Script.Around) (owns : r.Owns b)
    (outside : r.frame.IsOutside)
    (structured : Script.areStructured (around.script (first ++ more)) = true)
    (last : around.isLast = true) :
    (runNodes e compiler (around.script first) r).2.session =
        (runNodes e compiler (around.script (first ++ more)) r).2.session ∨
      ∃ r', EndsWith e compiler more (around.script (first ++ more), r) r'
        (runNodes e compiler (around.script first) r).2.session
        (runNodes e compiler (around.script (first ++ more)) r).2.session := by
  obtain ⟨structured', body⟩ := Script.Around.areStructured_of_append structured
  have steady := works_steady (e := e) (b := b) sound
  induction around generalizing r with
  | block before c after =>
    -- the steps before the block are the same ones, so both scripts fail there or come to the block
    rcases runs : runNodes e compiler before r with ⟨failure | _, r₁⟩
    · left
      simp only [Script.Around.script, runNodes_append, Step.run_bind_of_error runs]
    · obtain ⟨outside₁, same⟩ := runNodes_around structured last outside runs
      obtain ⟨-, same'⟩ := runNodes_around structured' last outside runs
      obtain ⟨owns₁, -⟩ := (steady.runNodes before).of_run runs owns
      simp only [Script.Around.script, same, same']
      obtain same | ⟨r', ends⟩ := endsWith_block sound owns₁ outside₁ body c after
      · exact .inl same
      · exact .inr ⟨r', ends.after (reaches_of_runNodes runs _)⟩
  | attempt before inner after ih =>
    obtain ⟨last, avoids⟩ := Bool.and_eq_true_iff.1 last
    rcases runs : runNodes e compiler before r with ⟨failure | _, r₁⟩
    · left
      simp only [Script.Around.script, runNodes_append, Step.run_bind_of_error runs]
    · obtain ⟨outside₁, same⟩ := runNodes_around structured avoids outside runs
      obtain ⟨-, same'⟩ := runNodes_around structured' avoids outside runs
      obtain ⟨owns₁, -⟩ := (steady.runNodes before).of_run runs owns
      simp only [Script.Around.script, same, same', runNode_attempt]
      obtain same | ⟨r', ends⟩ := ih owns₁ outside₁ (Script.areStructured_around.1 structured).2.1 last
        (Script.areStructured_around.1 structured').2.1
      · exact .inl same
      · exact .inr ⟨r', ends.after ((reaches_of_runNodes runs _).tail .attempt)⟩

end ScriptM
end Migration
