import Mathlib.Logic.Relation
import Migration.Proofs.Path
import Migration.Proofs.Script

/-!
# Points of a compile

Where a compile can be while it runs: before a step of some script, inside the includes that led
there. Steps that fail and whose failure is swallowed are on the way like any others.

* `compilerBelow_induction` — what holds of the compiles of scripts of any depth
* `Reaches` — what one script comes to
* `Meets` — the files that a call is about to include
* `Visits` — what a compile comes to, through includes of any depth
* `ScriptM.Steady.reaches`, `ScriptM.Steady.rest_of_call` — what a script keeps up to a point, and
  after it
* `Lasts.runNodes` — what lasts on the way of a script holds at its end
-/

namespace Migration

open SessionM

/-- How a script compiles what it includes, if so many more scripts may be open inside it. -/
def compilerBelow (e : Engine) : (depth : Nat) → Compiler
  | 0 => none
  | depth + 1 => some (compileScript e depth)

theorem compileScript_eq (e : Engine) (depth : Nat) (r : Request) :
    compileScript e depth r = compileWithin e (compilerBelow e depth) r := by
  cases depth <;> rfl

/-- Compiles of any depth have a property if the compile of a script has it that includes scripts
whose compiles have it. -/
theorem compilerBelow_induction {e : Engine} {P : Request → SessionM DocumentId → Prop}
    (within : ∀ depth, (∀ compile ∈ compilerBelow e depth, ∀ r, P r (compile r)) →
      ∀ r, P r (compileWithin e (compilerBelow e depth) r)) (depth : Nat) :
    ∀ compile ∈ compilerBelow e depth, ∀ r, P r (compile r) := by
  induction depth with
  | zero => exact fun _ h => by cases h
  | succ depth ih =>
    intro compile h r
    cases h
    rw [compileScript_eq]
    exact within depth ih r

theorem compilerBelow_isSound (e : Engine) (depth : Nat) : (compilerBelow e depth).IsSound :=
  compilerBelow_induction (fun _ => compiles_compileWithin) depth

/-- However many more scripts may be open inside it, the compile of a script leaves alone what was
there. -/
theorem SessionM.compiles_compileScript {e : Engine} (depth : Nat) (r : Request) :
    Compiles r (compileScript e depth r) :=
  compilerBelow_isSound e (depth + 1) _ rfl r

/-- The call that a step begins with. -/
def Script.Node.call? : Script.Node → Option Script.Call
  | call c | keep _ c | block c _ => some c
  | reopen .. | enter _ | exit _ | raise .. | attempt _ => none

section

variable (e : Engine) (compiler : Compiler)

/-- The control moves from a step to the next one, or into the block of a step. -/
inductive Moves : List Script.Node × Running → List Script.Node × Running → Prop
  | next {node rest r r'} (runs : ScriptM.runNode e compiler node r = (.ok (), r')) :
      Moves (node :: rest, r) (rest, r')
  | block {c body rest r i r₁ r₂} (calls : ScriptM.call e compiler c r = (.ok (.scope i), r₁))
      (enters : ScriptM.enter i r₁ = (.ok (), r₂)) : Moves (.block c body :: rest, r) (body, r₂)
  | reopen {name body rest r i r₁ r₂}
      (finds : ScriptM.keptScope e name .notABlock r = (.ok i, r₁))
      (enters : ScriptM.enter i r₁ = (.ok (), r₂)) : Moves (.reopen name body :: rest, r) (body, r₂)
  | attempt {body rest r} : Moves (.attempt body :: rest, r) (body, r)

/-- A script that runs some steps comes to where others are next. -/
def Reaches : List Script.Node × Running → List Script.Node × Running → Prop :=
  Relation.ReflTransGen (Moves e compiler)

/-- A call is about to include a file: it names one, or it names a directory and the files before
this one have been included. -/
inductive Meets (c : Script.Call) (r : Running) :
    Option String → String → Inclusion → Session → Prop
  | file {x relativeTo path i s} (prepares : ScriptM.prepare e c r = (.ok x, r))
      (element : x.element = .include)
      (reads : readInclude r.frame.document x.attributes r.session =
        (.ok (relativeTo, path, i), s)) :
      Meets c r relativeTo path i s
  | directory {x before path after i s s'} (prepares : ScriptM.prepare e c r = (.ok x, r))
      (element : x.element = .includeAll)
      (reads : readIncludeAll e r.frame.document x.attributes r.session =
        (.ok (before ++ path :: after, i), s))
      (earlier : includeFiles e compiler r.frame.document i before s = (.ok (), s')) :
      Meets c r none path i s'

end

/-- A point of a compile: what was asked of the parser for each open script, the first script first;
how many more scripts may be open; and the steps that are next in the last script, with its
state. -/
structure Point where
  opened : List Request
  depth : Nat
  steps : List Script.Node
  running : Running

/-- The paths of the open scripts. -/
def Point.chain (p : Point) : List String := p.opened.map (·.path)

/-- A compile comes to a point, in the script itself or inside a file that it includes. -/
inductive Visits (e : Engine) : (depth : Nat) → Request → Session → Point → Prop
  | here {depth r s o s₁ steps running} (opens : openScript e r s = (.ok o, s₁))
      (reaches : Reaches e (compilerBelow e depth)
        (o.nodes, .start o.path o.document (s₁.opening o.path)) (steps, running)) :
      Visits e depth r s { opened := [{ r with path := o.path }], depth, steps, running }
  | inside {depth r s o s₁ node rest running c relativeTo path i s₂ path' suffix s₃ p}
      (opens : openScript e r s = (.ok o, s₁))
      (reaches : Reaches e (compilerBelow e (depth + 1))
        (o.nodes, .start o.path o.document (s₁.opening o.path)) (node :: rest, running))
      (calls : node.call? = some c)
      (meets : Meets e (compilerBelow e (depth + 1)) c running relativeTo path i s₂)
      (accepts : accept e relativeTo path i.skipsUnknown s₂ =
        (.ok (some (path', .script suffix)), s₃))
      (visits : Visits e depth (i.request running.frame.document path') s₃ p) :
      Visits e (depth + 1) r s { p with opened := { r with path := o.path } :: p.opened }

section

variable {e : Engine} {compiler : Compiler} {b : Store}
  {x y : List Script.Node × Running}

/-! ## Up to a point -/

namespace ScriptM.Steady

variable {R : Running → Running → Prop} [IsPreorder Running R]

theorem moves (steady : Steady e compiler R) (h : Moves e compiler x y) : R x.2 y.2 := by
  cases h with
  | next runs => exact (steady.runNode _).of_run runs
  | block calls enters =>
    exact trans_of R ((steady.call _).of_run calls) ((steady.enter _).of_run enters)
  | reopen finds enters =>
    exact trans_of R ((keeps_keptScope e _ _).of_run finds) ((steady.enter _).of_run enters)
  | attempt => exact refl_of R _

/-- What a script keeps whenever it does something, it has kept where it comes to. -/
theorem reaches (steady : Steady e compiler R) (h : Reaches e compiler x y) : R x.2 y.2 := by
  induction h with
  | refl => exact refl_of R x.2
  | tail _ move ih => exact trans_of R ih (steady.moves move)

end ScriptM.Steady

/-- A script that reaches a point has changed only what it owns. -/
theorem Reaches.works (sound : compiler.IsSound) (h : Reaches e compiler x y) :
    x.2.Works b y.2 :=
  (ScriptM.works_steady sound).reaches h

/-- The steps of a text that is a script. -/
def Script.Reading.nodes? : Script.Reading → Option (List Script.Node)
  | steps nodes => some nodes
  | invalid _ | abandoned _ => none

/-- The steps of a file that can be read as a script. -/
def Engine.nodes? (e : Engine) : SourceFile → Option (List Script.Node)
  | .script nodes => some nodes
  | .broken => none
  | .bytes [] => some []
  | .bytes bytes => do
    let encoding ← e.encoding.toOption
    let text ← (encoding.decode bytes).toOption
    (e.language.read text).nodes?

/-- The scripts among the files of an engine. -/
def Engine.scripts (e : Engine) : List (List Script.Node) :=
  e.sources.entries.filterMap fun (_, entry) =>
    match entry with
    | .file file => e.nodes? file
    | .directory => none

theorem SessionM.nodes?_of_scriptOf {path : String} {file : SourceFile} {nodes : List Script.Node}
    {s s₁ : Session} (takes : scriptOf e path file s = (.ok nodes, s₁)) :
    e.nodes? file = some nodes := by
  cases file with
  | script nodes =>
    obtain ⟨encoding, s₂, -, takes⟩ := Step.bind_eq_ok.1 takes
    exact congrArg some (Except.ok.inj (congrArg Prod.fst takes))
  | broken =>
    obtain ⟨encoding, s₂, -, takes⟩ := Step.bind_eq_ok.1 takes
    cases takes
  | bytes bytes =>
    cases bytes with
    | nil => exact congrArg some (Except.ok.inj (congrArg Prod.fst takes))
    | cons byte rest =>
      obtain ⟨encoding, s₂, known, takes⟩ := Step.bind_eq_ok.1 takes
      have known : e.encoding = .ok encoding := of_ofMishap_ok known
      cases hd : encoding.decode (byte :: rest) with
      | error fault =>
        simp only [hd] at takes
        cases takes
      | ok text =>
        simp only [hd] at takes
        have reads : e.nodes? (.bytes (byte :: rest)) = (e.language.read text).nodes? := by
          simp [Engine.nodes?, known, hd, Except.toOption]
        rw [reads]
        cases hr : e.language.read text with
        | steps found =>
          rw [hr] at takes
          exact congrArg some (Except.ok.inj (congrArg Prod.fst takes))
        | invalid fault =>
          rw [hr] at takes
          cases takes
        | abandoned x =>
          rw [hr] at takes
          cases takes

/-- A script that is opened is one of the engine. -/
theorem nodes_of_openScript {r : Request} {s s₁ : Session} {o : Opened}
    (opens : openScript e r s = (.ok o, s₁)) : o.nodes ∈ e.scripts := by
  obtain ⟨file, -, -, reads, takes, -⟩ := of_openScript_ok opens
  obtain ⟨components, mem⟩ := Tree.mem_of_read reads
  exact List.mem_filterMap.2 ⟨_, mem, nodes?_of_scriptOf takes⟩

/-- A script owns its document from where it starts. -/
theorem owns_of_open {r : Request} {s s₁ : Session} {o : Opened}
    (opens : openScript e r s = (.ok o, s₁)) :
    (Running.start o.path o.document (s₁.opening o.path)).Owns s.store := by
  obtain ⟨-, -, owns, -⟩ := openScript_ok opens
  exact Running.owns_start (owns.opening o.path) o.path

/-- The chain at a point of a script is the one that it was opened on, and the script itself. -/
theorem chain_of_reaches (sound : compiler.IsSound) {r : Request} {s s₁ : Session} {o : Opened}
    {steps : List Script.Node} {running : Running} (opens : openScript e r s = (.ok o, s₁))
    (reaches : Reaches e compiler (o.nodes, .start o.path o.document (s₁.opening o.path))
      (steps, running)) : running.session.chain = s.chain ++ [o.path] := by
  obtain ⟨-, kept, -, -⟩ := openScript_ok opens
  obtain ⟨-, g, -, adv⟩ := reaches.works sound (owns_of_open opens)
  rw [adv.session.chain, ← kept.chain]
  rfl

/-- The script at a point of a compile owns its document. -/
theorem Visits.owns {depth : Nat} {r : Request} {s : Session} {p : Point}
    (h : Visits e depth r s p) : ∃ b, p.running.Owns b := by
  induction h with
  | @here depth r s o s₁ steps running opens reaches =>
    exact ⟨s.store, (reaches.works (compilerBelow_isSound e depth) (owns_of_open opens)).1⟩
  | inside _ _ _ _ _ _ ih => exact ih

/-! ## After a point -/

namespace ScriptM.Steady

variable {R : Running → Running → Prop} [IsPreorder Running R]

/-- The steps of a block run on to the end of the steps that the block is among. -/
theorem rest_of_moves (steady : Steady e compiler R) (h : Moves e compiler x y) :
    R (ScriptM.runNodes e compiler y.1 y.2).2 (ScriptM.runNodes e compiler x.1 x.2).2 := by
  cases h with
  | next runs =>
    rw [runNodes_cons, Step.run_bind_of_ok runs]
    exact refl_of R _
  | block calls enters =>
    rw [runNodes_cons, Step.run_bind_congr ((runNode_block calls _).trans (within_eq enters _))]
    exact Keeps.bind (steady.leave _ _) (fun _ => steady.runNodes _) _
  | reopen finds enters =>
    rw [runNodes_cons, Step.run_bind_congr ((runNode_reopen finds _).trans (within_eq enters _))]
    exact Keeps.bind (steady.leave _ _) (fun _ => steady.runNodes _) _
  | attempt =>
    rw [runNodes_cons, Step.run_bind_of_ok (runNode_attempt _ _)]
    exact steady.runNodes _ _

/-- What a script keeps whenever it does something, it keeps from the end of the steps that it has
come to until its own end. -/
theorem rest_of_reaches (steady : Steady e compiler R) (h : Reaches e compiler x y) :
    R (ScriptM.runNodes e compiler y.1 y.2).2 (ScriptM.runNodes e compiler x.1 x.2).2 := by
  induction h using Relation.ReflTransGen.head_induction_on with
  | refl => exact refl_of R _
  | head move _ ih => exact trans_of R ih (steady.rest_of_moves move)

/-- So it does from where it has made the call that a step begins with to the end of these steps. -/
theorem rest_of_call (steady : Steady e compiler R) {node : Script.Node} {c : Script.Call}
    (hc : node.call? = some c) {r r₁ : Running} {outcome : Except Failure Outcome}
    (calls : ScriptM.call e compiler c r = (outcome, r₁)) (rest : List Script.Node) :
    R r₁ (ScriptM.runNodes e compiler (node :: rest) r).2 := by
  have step : R r₁ (ScriptM.runNode e compiler node r).2 := by
    cases node with
    | call =>
      cases hc
      rw [ScriptM.runNode, Step.run_bind, calls]
      cases outcome <;> exact refl_of R r₁
    | keep name =>
      cases hc
      rw [ScriptM.runNode, Step.run_bind, calls]
      cases outcome with
      | error failure => exact refl_of R r₁
      | ok result => exact steady.keep name result r₁
    | block _ body =>
      cases hc
      rw [ScriptM.runNode, Step.run_bind, calls]
      cases outcome with
      | error failure => exact refl_of R r₁
      | ok result =>
        cases result with
        | scope i => exact steady.within i (steady.runNodes body) r₁
        | _ => exact refl_of R r₁
    | _ => cases hc
  rw [runNodes_cons]
  exact Keeps.run_bind step fun _ => steady.runNodes rest

end ScriptM.Steady

/-! ## On the way -/

/-- A property of a running script that lasts through whatever the script does on its way. -/
structure Lasts (e : Engine) (compiler : Compiler) (start : List Script.Node × Running)
    (P : Running → Prop) : Prop where
  call : ∀ {node rest r c}, Reaches e compiler start (node :: rest, r) → node.call? = some c →
    P r → P (ScriptM.call e compiler c r).2
  keep : ∀ {r} name result, P r →
    P { r with frame := { r.frame with kept := (name, result) :: r.frame.kept } }
  enter : ∀ {r} i, P r → P (ScriptM.enter i r).2
  leave : ∀ {r} i result, P r → P (ScriptM.leave i result r).2

namespace Lasts

variable {start : List Script.Node × Running} {P : Running → Prop}

/-- A block keeps the property if its steps do. -/
theorem within (lasts : Lasts e compiler start P) {i : ScopeId} {steps : ScriptM Unit} {r : Running}
    (hr : P r) (hs : ∀ r', ScriptM.enter i r = (.ok (), r') → P r' → P (steps r').2) :
    P (ScriptM.within i steps r).2 := by
  have entered := lasts.enter i hr
  rcases h : ScriptM.enter i r with ⟨failure | _, r'⟩ <;> rw [h] at entered
  · rw [ScriptM.within_of_enter_error h]
    exact entered
  · rw [ScriptM.within_eq h]
    exact lasts.leave i _ (hs r' h entered)

mutual

theorem runNode (lasts : Lasts e compiler start P) (node : Script.Node) {rest : List Script.Node}
    {r : Running} (reaches : Reaches e compiler start (node :: rest, r)) (hr : P r) :
    P (ScriptM.runNode e compiler node r).2 := by
  cases node with
  | call c =>
    rw [ScriptM.runNode_call_snd]
    exact lasts.call reaches rfl hr
  | keep name c =>
    have called := lasts.call reaches rfl hr
    rw [ScriptM.runNode, Step.run_bind]
    generalize ScriptM.call e compiler c r = out at called ⊢
    obtain ⟨_ | result, r'⟩ := out
    · exact called
    · exact lasts.keep name result called
  | block c body =>
    have called := lasts.call reaches rfl hr
    rcases h : ScriptM.call e compiler c r with ⟨failure | result, r'⟩ <;> rw [h] at called
    · rw [ScriptM.runNode, Step.run_bind_of_error h]
      exact called
    · cases result with
      | scope i =>
        rw [ScriptM.runNode_block h]
        exact lasts.within called fun r'' enters hr'' =>
          runNodes lasts body (reaches.tail (.block h enters)) hr''
      | _ =>
        rw [ScriptM.runNode, Step.run_bind_of_ok h]
        exact called
  | reopen name body =>
    obtain ⟨failure, h⟩ | ⟨i, h⟩ := (ScriptM.keeps_keptScope e name .notABlock).run_cases r
    · rw [ScriptM.runNode, Step.run_bind_of_error h]
      exact hr
    · rw [ScriptM.runNode_reopen h]
      exact lasts.within hr fun r'' enters hr'' =>
        runNodes lasts body (reaches.tail (.reopen h enters)) hr''
  | enter name =>
    obtain ⟨failure, h⟩ | ⟨i, h⟩ :=
      (ScriptM.keeps_keptScope e name (.noMember · "__enter__")).run_cases r
    · rw [ScriptM.runNode, Step.run_bind_of_error h]
      exact hr
    · rw [ScriptM.runNode_enter h]
      exact lasts.enter i hr
  | exit name =>
    obtain ⟨failure, h⟩ | ⟨i, h⟩ :=
      (ScriptM.keeps_keptScope e name (.noMember · "__exit__")).run_cases r
    · rw [ScriptM.runNode, Step.run_bind_of_error h]
      exact hr
    · rw [ScriptM.runNode_exit h]
      exact lasts.leave i _ hr
  | raise kind text => exact hr
  | attempt body =>
    rw [ScriptM.runNode_attempt]
    exact runNodes lasts body (reaches.tail .attempt) hr

/-- What lasts on the way of a script holds at its end, whether the script succeeds or not. -/
theorem runNodes (lasts : Lasts e compiler start P) (nodes : List Script.Node) {r : Running}
    (reaches : Reaches e compiler start (nodes, r)) (hr : P r) :
    P (ScriptM.runNodes e compiler nodes r).2 := by
  cases nodes with
  | nil => exact hr
  | cons node rest =>
    have ran := runNode lasts node reaches hr
    rw [ScriptM.runNodes_cons]
    rcases h : ScriptM.runNode e compiler node r with ⟨failure | _, r'⟩ <;> rw [h] at ran
    · rw [Step.run_bind_of_error h]
      exact ran
    · rw [Step.run_bind_of_ok h]
      exact runNodes lasts rest (reaches.tail (.next h)) ran

end

end Lasts

end
end Migration
