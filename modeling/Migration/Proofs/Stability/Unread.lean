import Migration.Proofs.Inclusion.Chain
import Migration.Proofs.Resource.Confinement

/-!
# The text of an open script

A script that is open is not compiled once more inside itself, and taken as a file of properties it
is empty. So what is done while it is open does not depend on its steps.

* `Engine.withScript` — an engine with some steps as the script at a path
* `SessionM.act_withScript` — what elements do while the script is open
* `ScriptM.runNodes_withScript` — what steps do while the script is open
* `SessionM.compilerBelow_ignores` — the compile of other files
-/

namespace Migration

open SessionM Session

/-- The engine with some steps as the script at a path. -/
def Engine.withScript (e : Engine) (path : String) (nodes : List Script.Node) : Engine :=
  { e with sources := e.sources.insert path (.file (.script nodes)) }

/-! ## Reading -/

namespace SessionM

variable (e : Engine) (home : String) (nodes nodes' : List Script.Node) (d : DocumentId)

/-- As a file of properties a script is empty, whatever its steps are. -/
theorem propertiesOf_withScript (a : Attributes) : propertiesOf (e.withScript home nodes) d a =
    propertiesOf (e.withScript home nodes') d a := by
  unfold propertiesOf
  refine bind_congr fun path => bind_congr fun relativeTo => ?_
  obtain same | ⟨reads, reads'⟩ :=
    e.sources.read_insert home (.script nodes) (.script nodes') relativeTo path
  · have same : (e.withScript home nodes).sources.read relativeTo path =
      (e.withScript home nodes').sources.read relativeTo path := same
    rw [same]
    rfl
  · have reads : (e.withScript home nodes).sources.read relativeTo path = .ok (.script nodes) :=
      reads
    have reads' : (e.withScript home nodes').sources.read relativeTo path = .ok (.script nodes') :=
      reads'
    rw [reads, reads']
    rfl

theorem property_withScript (a : Attributes) : property (e.withScript home nodes) d a =
    property (e.withScript home nodes') d a := by
  unfold property
  simp only [propertiesOf_withScript e home nodes nodes']

theorem listing_withScript (relativeTo : Option String) (path element : String) (required : Bool) :
    listing (e.withScript home nodes) relativeTo path element required =
      listing (e.withScript home nodes') relativeTo path element required := by
  have same : (e.withScript home nodes).sources.list relativeTo path true =
      (e.withScript home nodes').sources.list relativeTo path true :=
    e.sources.list_insert home _ _ relativeTo path true
  unfold listing
  rw [same]
  rfl

theorem discover_withScript (a : Attributes) (element : String) :
    discover (e.withScript home nodes) d a element =
      discover (e.withScript home nodes') d a element := by
  unfold discover
  simp only [listing_withScript e home nodes nodes']
  rfl

theorem readIncludeAll_withScript (a : Attributes) : readIncludeAll (e.withScript home nodes) d a =
    readIncludeAll (e.withScript home nodes') d a := by
  unfold readIncludeAll
  rw [discover_withScript e home nodes nodes']

theorem includeAllSql_withScript (a : Attributes) : includeAllSql (e.withScript home nodes) d a =
    includeAllSql (e.withScript home nodes') d a := by
  unfold includeAllSql readIncludeAllSql
  rw [discover_withScript e home nodes nodes']

end SessionM

namespace ScriptM

variable (e : Engine) (home : String) (nodes nodes' : List Script.Node)

theorem prepare_withScript (c : Script.Call) :
    prepare (e.withScript home nodes) c = prepare (e.withScript home nodes') c :=
  (prepare_withSources e _ c).trans (prepare_withSources e _ c).symm

end ScriptM

/-- Two compilers compile every other file alike while the script at a path is open, whatever its
steps are. -/
def Compiler.Ignores (e : Engine) (home : String) (nodes nodes' : List Script.Node)
    (compiler compiler' : Compiler) : Prop :=
  ∀ parser r s, home ∈ s.chain → e.sources.resolve none r.path = .ok r.path → r.path ≠ home →
    compileWith (e.withScript home nodes) compiler parser r s =
      compileWith (e.withScript home nodes') compiler' parser r s

variable {e : Engine} {home : String} {nodes nodes' : List Script.Node}
  {compiler compiler' : Compiler} {b : Store} {d : DocumentId}

/-! ## While the script is open -/

namespace SessionM

variable {s : Session}

theorem bringIn_congr {compile compile' : SessionM DocumentId} (same : compile s = compile' s)
    (path : String) (i : Inclusion) :
    bringIn d path i compile s = bringIn d path i compile' s := by
  unfold bringIn
  rw [Step.run_bind, Step.run_bind, run_observe, run_observe, same]

/-- A file that is included is not the script. -/
theorem includeFile_withScript (ignores : Compiler.Ignores e home nodes nodes' compiler compiler')
    (isOpen : home ∈ s.chain) (relativeTo : Option String) (path : String) (i : Inclusion) :
    includeFile (e.withScript home nodes) compiler d relativeTo path i s =
      includeFile (e.withScript home nodes') compiler' d relativeTo path i s := by
  have same : accept (e.withScript home nodes') relativeTo path i.skipsUnknown s =
    accept (e.withScript home nodes) relativeTo path i.skipsUnknown s := rfl
  unfold includeFile
  rcases accepts : accept (e.withScript home nodes) relativeTo path i.skipsUnknown s
    with ⟨failure | _ | ⟨path', parser⟩, s₁⟩
  all_goals rw [accepts] at same
  · rw [Step.run_bind_of_error accepts, Step.run_bind_of_error same]
  · rw [Step.run_bind_of_ok accepts, Step.run_bind_of_ok same]
  · rw [Step.run_bind_of_ok accepts, Step.run_bind_of_ok same]
    obtain ⟨resolves, -, closed, -, rfl⟩ := of_accept accepts
    refine bringIn_congr (ignores parser _ s₁ isOpen ?_ ?_) path' i
    · exact Tree.resolve_of_resolve resolves
    · rintro rfl
      exact closed isOpen

theorem includeFiles_withScript (sound : compiler.IsSound)
    (ignores : Compiler.Ignores e home nodes nodes' compiler compiler') (owns : Owns b d s)
    (isOpen : home ∈ s.chain) (i : Inclusion) (paths : List String) :
    includeFiles (e.withScript home nodes) compiler d i paths s =
      includeFiles (e.withScript home nodes') compiler' d i paths s := by
  induction paths generalizing s with
  | nil => rfl
  | cons path rest ih =>
    have first := includeFile_withScript (d := d) ignores isOpen none path i
    show (includeFile _ _ d none path i >>= _) s = (includeFile _ _ d none path i >>= _) s
    rw [Step.run_bind, Step.run_bind, ← first]
    rcases runs : includeFile (e.withScript home nodes) compiler d none path i s
      with ⟨failure | _, s₁⟩
    · rfl
    · have works : Works b d s s₁ := (works_includeFile sound none path i).of_run runs
      obtain ⟨g, -, -, adv⟩ := works owns
      exact ih (owns.works works) (adv.chain ▸ isOpen)

/-- Elements do the same while the script is open, whatever its steps are. -/
theorem act_withScript (sound : compiler.IsSound)
    (ignores : Compiler.Ignores e home nodes nodes' compiler compiler') (owns : Owns b d s)
    (isOpen : home ∈ s.chain) (x : Element) (positional : List Value) (a : Attributes) :
    act (e.withScript home nodes) compiler d x positional a s =
      act (e.withScript home nodes') compiler' d x positional a s := by
  cases x with
  | property =>
    exact Step.run_bind_congr (congrFun (property_withScript e home nodes nodes' d a) s) _
  | includeAllSql =>
    exact Step.run_bind_congr (congrFun (includeAllSql_withScript e home nodes nodes' d a) s) _
  | «include» =>
    refine Step.run_bind_congr ?_ _
    unfold «include»
    obtain ⟨failure, reads⟩ | ⟨⟨relativeTo, path, i⟩, reads⟩ := (keeps_readInclude d a).run_cases s
    · rw [Step.run_bind_of_error reads, Step.run_bind_of_error reads]
    · rw [Step.run_bind_of_ok reads, Step.run_bind_of_ok reads]
      exact includeFile_withScript ignores isOpen relativeTo path i
  | includeAll =>
    refine Step.run_bind_congr ?_ _
    unfold includeAll
    rw [readIncludeAll_withScript e home nodes nodes' d a]
    rcases reads : readIncludeAll (e.withScript home nodes') d a s with ⟨failure | ⟨paths, i⟩, s₁⟩
    · rw [Step.run_bind_of_error reads, Step.run_bind_of_error reads]
    · rw [Step.run_bind_of_ok reads, Step.run_bind_of_ok reads]
      have works : Works b d s s₁ := (keeps_readIncludeAll _ a).of_run reads
      obtain ⟨g, -, -, adv⟩ := works owns
      exact includeFiles_withScript sound ignores (owns.works works) (adv.chain ▸ isOpen) i paths
  | _ => rfl

end SessionM

namespace ScriptM

variable {r : Running}

theorem call_withScript (sound : compiler.IsSound)
    (ignores : Compiler.Ignores e home nodes nodes' compiler compiler') (owns : r.Owns b)
    (isOpen : home ∈ r.session.chain) (c : Script.Call) :
    call (e.withScript home nodes) compiler c r =
      call (e.withScript home nodes') compiler' c r := by
  cases stands : function? (e.withScript home nodes) r.frame c.element with
  | some f =>
    have calls' : call (e.withScript home nodes') compiler' c r =
        callFunction (e.withScript home nodes') f c r := call_eq_callFunction stands
    rw [call_eq_callFunction stands, calls']
    exact congrFun
      ((callFunction_withSources e _ f c).trans (callFunction_withSources e _ f c).symm) r
  | none => ?_
  have stands' : function? (e.withScript home nodes') r.frame c.element = none := stands
  rcases prepares : prepare (e.withScript home nodes) c r with ⟨failure | x, r'⟩
  all_goals
    have prepares' : prepare (e.withScript home nodes') c r = _ :=
      (congrFun (prepare_withScript e home nodes nodes' c) r).symm.trans prepares
  · rw [call_of_error stands prepares, call_of_error stands' prepares']
  · have same := act_withScript sound ignores owns.session isOpen x.element x.positional x.attributes
    rcases acts : act (e.withScript home nodes) compiler r.frame.document x.element x.positional
      x.attributes r.session with ⟨result, s⟩
    rw [call_eq prepares acts, call_eq prepares' (same.symm.trans acts)]

/-- A script stays open while it runs. -/
theorem isOpen_of_works {r' : Running} (works : r.Works b r') (owns : r.Owns b)
    (isOpen : home ∈ r.session.chain) : r'.Owns b ∧ home ∈ r'.session.chain := by
  obtain ⟨owns', g, -, adv⟩ := works owns
  exact ⟨owns', adv.session.chain ▸ isOpen⟩

mutual

theorem runNode_withScript (sound : compiler.IsSound)
    (ignores : Compiler.Ignores e home nodes nodes' compiler compiler') (node : Script.Node)
    {r : Running} (owns : r.Owns b) (isOpen : home ∈ r.session.chain) :
    runNode (e.withScript home nodes) compiler node r =
      runNode (e.withScript home nodes') compiler' node r := by
  cases node with
  | call c => exact Step.run_bind_congr (call_withScript sound ignores owns isOpen c) _
  | keep name c => exact Step.run_bind_congr (call_withScript sound ignores owns isOpen c) _
  | block c body =>
    have same := call_withScript sound ignores owns isOpen c
    rcases calls : call (e.withScript home nodes) compiler c r with ⟨failure | result, r₁⟩
    all_goals rw [calls] at same
    · rw [runNode, runNode, Step.run_bind_of_error calls, Step.run_bind_of_error same.symm]
    · cases result with
      | scope i =>
        rw [runNode_block calls, runNode_block same.symm]
        obtain ⟨owns₁, isOpen₁⟩ :=
          isOpen_of_works ((works_call (b := b) sound c).of_run calls) owns isOpen
        refine within_congr fun r₂ enters => ?_
        obtain ⟨owns₂, isOpen₂⟩ :=
          isOpen_of_works ((works_enter (b := b) i).of_run enters) owns₁ isOpen₁
        exact runNodes_withScript sound ignores body owns₂ isOpen₂
      | _ => rw [runNode, runNode, Step.run_bind_of_ok calls, Step.run_bind_of_ok same.symm]
  | reopen name body =>
    rcases finds : keptScope (e.withScript home nodes) name .notABlock r with ⟨failure | i, r₁⟩
    all_goals
      obtain rfl : r = r₁ := (keeps_keptScope _ name _).of_run (R := (· = ·)) finds
      have finds' : keptScope (e.withScript home nodes') name .notABlock r = _ := finds
    · rw [runNode, runNode, Step.run_bind_of_error finds, Step.run_bind_of_error finds']
    · rw [runNode_reopen finds, runNode_reopen finds']
      refine within_congr fun r₂ enters => ?_
      obtain ⟨owns₂, isOpen₂⟩ := isOpen_of_works ((works_enter (b := b) i).of_run enters) owns isOpen
      exact runNodes_withScript sound ignores body owns₂ isOpen₂
  | enter name => rfl
  | exit name => rfl
  | raise kind text => rfl
  | attempt body =>
    rw [runNode_attempt, runNode_attempt, runNodes_withScript sound ignores body owns isOpen]

/-- Steps do the same while a script is open, whatever the steps of that script are. -/
theorem runNodes_withScript (sound : compiler.IsSound)
    (ignores : Compiler.Ignores e home nodes nodes' compiler compiler') (steps : List Script.Node)
    {r : Running} (owns : r.Owns b) (isOpen : home ∈ r.session.chain) :
    runNodes (e.withScript home nodes) compiler steps r =
      runNodes (e.withScript home nodes') compiler' steps r := by
  cases steps with
  | nil => rfl
  | cons node rest =>
    have first := runNode_withScript sound ignores node owns isOpen
    rw [runNodes_cons, runNodes_cons, Step.run_bind, Step.run_bind, ← first]
    rcases runs : runNode (e.withScript home nodes) compiler node r with ⟨failure | _, r₁⟩
    · rfl
    · obtain ⟨owns₁, isOpen₁⟩ := isOpen_of_works
        (((works_steady (b := b) sound).runNode node).of_run runs) owns isOpen
      exact runNodes_withScript sound ignores rest owns₁ isOpen₁

end

end ScriptM

/-! ## Other files -/

namespace SessionM

variable {s : Session}

/-- Other files are opened alike. -/
theorem openScript_withScript (resolved : e.sources.resolve none home = .ok home) {r : Request}
    (resolves : e.sources.resolve none r.path = .ok r.path) (other : r.path ≠ home) :
    openScript (e.withScript home nodes) r = openScript (e.withScript home nodes') r := by
  have reads : ∀ nodes, (e.withScript home nodes).sources.read none r.path =
      e.sources.read none r.path := fun nodes =>
    e.sources.read_insert_of_ne home _ resolves resolved other
  unfold openScript
  rw [show (e.withScript home nodes).sources.resolve none r.path = _ from resolves,
    show (e.withScript home nodes').sources.resolve none r.path = _ from resolves]
  show (pure r.path >>= _) = (pure r.path >>= _)
  rw [pure_bind, pure_bind, reads nodes, reads nodes']
  rfl

theorem runScript_withScript (sound : compiler.IsSound)
    (ignores : Compiler.Ignores e home nodes nodes' compiler compiler') (owns : Owns b d s)
    (isOpen : home ∈ s.chain) (path : String) (steps : List Script.Node) :
    runScript (e.withScript home nodes) compiler path d steps s =
      runScript (e.withScript home nodes') compiler' path d steps s := by
  unfold runScript
  rw [ScriptM.runNodes_withScript sound ignores steps (Running.owns_start owns path) isOpen]

theorem compileWithin_withScript (sound : compiler.IsSound)
    (ignores : Compiler.Ignores e home nodes nodes' compiler compiler')
    (resolved : e.sources.resolve none home = .ok home) {r : Request}
    (resolves : e.sources.resolve none r.path = .ok r.path) (other : r.path ≠ home)
    (isOpen : home ∈ s.chain) :
    compileWithin (e.withScript home nodes) compiler r s =
      compileWithin (e.withScript home nodes') compiler' r s := by
  have same : openScript (e.withScript home nodes) r = openScript (e.withScript home nodes') r :=
    openScript_withScript resolved resolves other
  unfold compileWithin
  rw [same]
  rcases opens : openScript (e.withScript home nodes') r s with ⟨failure | o, s₁⟩
  · rw [Step.run_bind_of_error opens, Step.run_bind_of_error opens]
  · rw [Step.run_bind_of_ok opens, Step.run_bind_of_ok opens]
    obtain ⟨-, kept, owns, -⟩ := openScript_ok opens
    have isOpen₁ : home ∈ (s₁.opening o.path).chain :=
      List.mem_append_left _ (kept.chain ▸ isOpen)
    refine Step.run_bind_congr ?_ _
    rw [inChain_eq, inChain_eq,
      runScript_withScript sound ignores (owns.opening o.path) isOpen₁ o.path o.nodes]

/-- Whatever the steps of the script are that is open, other files are compiled alike. -/
theorem compilerBelow_ignores (resolved : e.sources.resolve none home = .ok home) (depth : Nat) :
    Compiler.Ignores e home nodes nodes' (compilerBelow (e.withScript home nodes) depth)
      (compilerBelow (e.withScript home nodes') depth) := by
  induction depth with
  | zero =>
    intro parser r s _ _ _
    cases parser with
    | host supports parse => rw [compileWith_host, compileWith_host]
    | script suffix => rfl
  | succ depth ih =>
    -- what an included script includes is compiled alike by induction, and its own text is not this
    -- one
    intro parser r s isOpen resolves other
    cases parser with
    | host supports parse => rw [compileWith_host, compileWith_host]
    | script suffix =>
      have compiled := compileWithin_withScript (compilerBelow_isSound _ depth) ih resolved resolves
        other isOpen
      rw [← compileScript_eq, ← compileScript_eq] at compiled
      exact compiled

end SessionM
end Migration
