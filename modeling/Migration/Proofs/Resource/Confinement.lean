import Migration.Compile.Run
import Migration.Proofs.Resource.Insertion
import Migration.Proofs.Resource.Walk

/-!
# What lies outside of the root

Scripts reach files and directories through the tree of an engine, and the tree resolves every path
first. So a compile asks only for places under the root: trees that agree there compile alike,
whatever they hold elsewhere.

* `Path.IsResolved` — how paths look that have been resolved
* `Tree.AgreesBelow` — two trees hold the same under the root
* `ScriptM.prepare_withSources` — the arguments of calls have nothing to do with files
* `SessionM.compileScript_withSources` — scripts compile alike in trees that agree under the root
* `Engine.walks_below_root` — paths are walks, and no compile leaves the root
-/

namespace Migration

/-! ## Resolved paths as texts -/

namespace Path

/-- A path as it has been resolved: components that are steps down with a slash between them, or
nothing at all for the root. -/
structure IsResolved (path : String) : Prop where
  components : path = "" ∨ ∀ part ∈ path.toList.splitOn '/', String.ofList part ∉ ["", ".", ".."]
  starts : path.toList.head? ≠ some '/'
  noBackslash : '\\' ∉ path.toList

theorem isResolved_ofComponents {names : List String} (h : ∀ name ∈ names, IsName name) :
    IsResolved (ofComponents names) where
  components := by
    cases names with
    | nil => exact .inl rfl
    | cons name rest =>
      refine .inr fun part mem => ?_
      have noSlash : ∀ cs ∈ (name :: rest).map String.toList, '/' ∉ cs := fun cs hcs => by
        obtain ⟨n, hn, rfl⟩ := List.mem_map.1 hcs
        exact (h n hn).noSlash
      rw [toList_ofComponents, List.splitOn_intercalate '/' noSlash (by simp)] at mem
      obtain ⟨n, hn, rfl⟩ := List.mem_map.1 mem
      rw [String.ofList_toList]
      simp [(h n hn).ne_empty, (h n hn).ne_same, (h n hn).ne_up]
  starts := by
    have same := relative_ofComponents h
    have first := List.head?_dropWhile_not (· == '/') (slashed (ofComponents names).toList)
    rw [show (slashed (ofComponents names).toList).dropWhile (· == '/') = _ from same] at first
    intro slash
    rw [slash] at first
    cases first
  noBackslash := noBackslash_ofComponents h

end Path

/-! ## Trees under the root -/

namespace Tree

variable {α : Type} {t t' : Tree α}

/-- Two trees hold the same under the root: the same files and directories at every place to which
names lead down from there. -/
structure AgreesBelow (t t' : Tree α) : Prop where
  root : t'.root = t.root
  file? : ∀ names, (∀ name ∈ names, Path.IsName name) → t'.file? names = t.file? names
  isDirectory : ∀ names, (∀ name ∈ names, Path.IsName name) →
    t'.isDirectory names = t.isDirectory names
  filesUnder : ∀ names, (∀ name ∈ names, Path.IsName name) → ∀ recursive,
    t'.filesUnder names recursive = t.filesUnder names recursive

namespace AgreesBelow

theorem resolve (h : t.AgreesBelow t') (relativeTo : Option String) (path : String) :
    t'.resolve relativeTo path = t.resolve relativeTo path := by
  unfold Tree.resolve
  rw [h.root]

/-- Files are read alike, whatever path leads to them. -/
theorem read (h : t.AgreesBelow t') (relativeTo : Option String) (path : String) :
    t'.read relativeTo path = t.read relativeTo path := by
  unfold Tree.read
  rw [h.resolve]
  cases resolves : t.resolve relativeTo path with
  | error failure => rfl
  | ok found =>
    obtain ⟨names, hn, rfl⟩ := names_of_resolve resolves
    have same : t'.file? (Path.components (Path.ofComponents names)) =
        t.file? (Path.components (Path.ofComponents names)) := by
      rw [Path.components, Path.normalize_ofComponents hn]
      exact h.file? names hn
    simp only [bind, Except.bind, same]

/-- Directories are listed alike, whatever path leads to them. -/
theorem list (h : t.AgreesBelow t') (relativeTo : Option String) (path : String)
    (recursive : Bool) :
    t'.list relativeTo path recursive = t.list relativeTo path recursive := by
  unfold Tree.list
  rw [h.resolve]
  cases resolves : t.resolve relativeTo path with
  | error failure => rfl
  | ok found =>
    obtain ⟨names, hn, rfl⟩ := names_of_resolve resolves
    have same : Path.components (Path.ofComponents names) = names := Path.normalize_ofComponents hn
    simp only [bind, Except.bind, same, h.isDirectory names hn, h.filesUnder names hn]

end AgreesBelow

/-- What a file outside of the root holds does not count. -/
theorem agreesBelow_insert (t : Tree α) {path : String}
    (outside : ∃ name ∈ Path.components path, ¬Path.IsName name) (x y : α) :
    (t.insert path (.file x)).AgreesBelow (t.insert path (.file y)) where
  root := rfl
  file? names hn := by
    obtain ⟨name, mem, no⟩ := outside
    have other : names ≠ Path.components path := fun same => no (hn name (same ▸ mem))
    rw [file?_insert_of_ne t path _ other, file?_insert_of_ne t path _ other]
  isDirectory names _ := isDirectory_insert t path y x names
  filesUnder names _ recursive := filesUnder_insert t path y x names recursive

end Tree

/-- An engine with other files. -/
def Engine.withSources (e : Engine) (t : Sources) : Engine := { e with sources := t }

/-! ## Arguments -/

namespace ScriptM

variable (e : Engine) (t : Sources)

mutual

/-- The value of an expression has nothing to do with files. -/
theorem eval_withSources (x : Script.Expr) : eval (e.withSources t) x = eval e x := by
  cases x with
  | literal v => rfl
  | name n => rfl
  | list items => simp only [eval, evalItems_withSources items]
  | map entries => simp only [eval, evalEntries_withSources entries]

theorem evalItems_withSources (items : List Script.Expr) :
    evalItems (e.withSources t) items = evalItems e items := by
  cases items with
  | nil => rfl
  | cons x rest => simp only [evalItems, eval_withSources x, evalItems_withSources rest]

theorem evalEntries_withSources (entries : List (Script.Expr × Script.Expr)) :
    evalEntries (e.withSources t) entries = evalEntries e entries := by
  cases entries with
  | nil => rfl
  | cons entry rest =>
    simp only [evalEntries, evalEntry_withSources entry, evalEntries_withSources rest]

theorem evalEntry_withSources (entry : Script.Expr × Script.Expr) :
    evalEntry (e.withSources t) entry = evalEntry e entry := by
  obtain ⟨key, x⟩ := entry
  simp only [evalEntry, eval_withSources key, eval_withSources x]

end

theorem evalAttributes_withSources (a : List (String × Script.Expr)) :
    evalAttributes (e.withSources t) a = evalAttributes e a := by
  induction a with
  | nil => rfl
  | cons entry rest ih => simp only [evalAttributes, eval_withSources e t, ih]

/-- What a call applies has nothing to do with files. -/
theorem prepare_withSources (c : Script.Call) : prepare (e.withSources t) c = prepare e c := by
  unfold prepare
  simp only [evalItems_withSources e t, evalAttributes_withSources e t]
  rfl

theorem callFunction_withSources (f : Script.Builtin.Function) (c : Script.Call) :
    callFunction (e.withSources t) f c = callFunction e f c := by
  unfold callFunction
  simp only [evalItems_withSources e t, evalAttributes_withSources e t]

end ScriptM

/-! ## Compiling in trees that agree under the root -/

section Agrees

variable {e : Engine} {t : Sources} (h : e.sources.AgreesBelow t) (d : DocumentId)
include h

namespace SessionM

theorem propertiesOf_withSources (a : Attributes) :
    propertiesOf (e.withSources t) d a = propertiesOf e d a := by
  have reads : (e.withSources t).sources.read = e.sources.read := funext fun r => funext (h.read r)
  unfold propertiesOf
  rw [reads]
  rfl

theorem property_withSources (a : Attributes) :
    property (e.withSources t) d a = property e d a := by
  unfold property
  simp only [propertiesOf_withSources h]

theorem listing_withSources (relativeTo : Option String) (path element : String) (required : Bool) :
    listing (e.withSources t) relativeTo path element required =
      listing e relativeTo path element required := by
  have resolves : (e.withSources t).sources.resolve relativeTo path =
      e.sources.resolve relativeTo path :=
    h.resolve relativeTo path
  have lists : (e.withSources t).sources.list relativeTo path true =
    e.sources.list relativeTo path true := h.list relativeTo path true
  unfold listing
  rw [resolves, lists]

theorem discover_withSources (a : Attributes) (element : String) :
    discover (e.withSources t) d a element = discover e d a element := by
  unfold discover
  simp only [listing_withSources h]
  rfl

theorem includeAllSql_withSources (a : Attributes) :
    includeAllSql (e.withSources t) d a = includeAllSql e d a := by
  unfold includeAllSql readIncludeAllSql
  rw [discover_withSources h]

theorem includeFile_withSources (compiler : Compiler) (relativeTo : Option String) (path : String)
    (i : Inclusion) : includeFile (e.withSources t) compiler d relativeTo path i =
      includeFile e compiler d relativeTo path i := by
  have resolves : (e.withSources t).sources.resolve relativeTo path =
      e.sources.resolve relativeTo path :=
    h.resolve relativeTo path
  unfold includeFile accept
  rw [resolves]
  rfl

theorem includeFiles_withSources (compiler : Compiler) (i : Inclusion) (paths : List String) :
    includeFiles (e.withSources t) compiler d i paths = includeFiles e compiler d i paths := by
  induction paths with
  | nil => rfl
  | cons path rest ih => simp only [includeFiles, includeFile_withSources h, ih]

/-- Elements do the same in trees that agree under the root. -/
theorem act_withSources (compiler : Compiler) (x : Element) (positional : List Value)
    (a : Attributes) :
    act (e.withSources t) compiler d x positional a = act e compiler d x positional a := by
  cases x with
  | property => simp only [act, property_withSources h]
  | includeAllSql => simp only [act, includeAllSql_withSources h]
  | «include» => simp only [act, «include», includeFile_withSources h]
  | includeAll =>
    simp only [act, includeAll, readIncludeAll, discover_withSources h, includeFiles_withSources h]
  | _ => rfl

end SessionM

namespace ScriptM

theorem call_withSources (compiler : Compiler) (c : Script.Call) :
    call (e.withSources t) compiler c = call e compiler c := by
  have functions : callFunction (e.withSources t) = callFunction e :=
    funext fun f => funext fun c => callFunction_withSources e t f c
  have elements : callElement (e.withSources t) compiler c = callElement e compiler c := by
    simp only [callElement, perform, prepare_withSources, SessionM.act_withSources h]
  unfold call
  rw [functions, elements]
  rfl

omit h in
mutual

theorem runNode_withSources (h : e.sources.AgreesBelow t) (compiler : Compiler)
    (node : Script.Node) :
    runNode (e.withSources t) compiler node = runNode e compiler node := by
  cases node with
  | call c => simp only [runNode, call_withSources h]
  | keep name c => simp only [runNode, call_withSources h]
  | block c body => simp only [runNode, call_withSources h, runNodes_withSources h compiler body]
  | reopen name body =>
    simp only [runNode, runNodes_withSources h compiler body]
    rfl
  | enter name => rfl
  | exit name => rfl
  | raise kind text => rfl
  | attempt body => simp only [runNode, runNodes_withSources h compiler body]

/-- Steps do the same in trees that agree under the root. -/
theorem runNodes_withSources (h : e.sources.AgreesBelow t) (compiler : Compiler)
    (nodes : List Script.Node) :
    runNodes (e.withSources t) compiler nodes = runNodes e compiler nodes := by
  cases nodes with
  | nil => rfl
  | cons node rest =>
    simp only [runNodes, runNode_withSources h compiler node, runNodes_withSources h compiler rest]

end

end ScriptM

namespace SessionM

theorem openScript_withSources (r : Request) :
    openScript (e.withSources t) r = openScript e r := by
  have reads : (e.withSources t).sources.read = e.sources.read := funext fun r => funext (h.read r)
  have resolves : (e.withSources t).sources.resolve = e.sources.resolve :=
    funext fun r => funext (h.resolve r)
  unfold openScript
  rw [reads, resolves]
  rfl

theorem compileWithin_withSources (compiler : Compiler) (r : Request) :
    compileWithin (e.withSources t) compiler r = compileWithin e compiler r := by
  unfold compileWithin runScript
  simp only [openScript_withSources h, ScriptM.runNodes_withSources h]

/-- Scripts compile alike in trees that agree under the root, however deep they may be included. -/
theorem compileScript_withSources (depth : Nat) (r : Request) :
    compileScript (e.withSources t) depth r = compileScript e depth r := by
  induction depth generalizing r with
  | zero => exact compileWithin_withSources h none r
  | succ depth ih =>
    rw [compileScript, compileScript, compileWithin_withSources h, funext ih]

theorem compileChangeLog_withSources (path : String) :
    compileChangeLog (e.withSources t) path = compileChangeLog e path := by
  unfold compileChangeLog compileRoot
  simp only [compileScript_withSources h]
  rfl

end SessionM

end Agrees

/-- Paths are confined walks. A path is resolved to the place where its walk ends, unless the walk
leads above the root somewhere on its way; what it is resolved to stands for itself. So no compile
asks for a place outside of the root: whatever the scripts and the parameters are, it comes out the
same in every tree that agrees with this one under the root. -/
theorem Engine.walks_below_root (e : Engine) :
    (∀ relativeTo path, e.sources.resolve relativeTo path =
      match Path.walk [] (Path.route relativeTo path) with
      | some stop => .ok (Path.ofComponents stop.reverse)
      | none => .error (.outside (String.ofList (Tree.fromRoot relativeTo path)) e.sources.root)) ∧
    (∀ relativeTo path found, e.sources.resolve relativeTo path = .ok found →
      Path.IsResolved found ∧ e.sources.resolve none found = .ok found) ∧
    ∀ t, e.sources.AgreesBelow t → ∀ table path,
      (e.withSources t).compile table path = e.compile table path ∧
        (e.withSources t).compileScript table path = e.compileScript table path := by
  refine ⟨e.sources.resolve_eq_walk, fun relativeTo path found resolves => ?_,
    fun t agrees table path => ?_⟩
  · obtain ⟨names, hn, rfl⟩ := Tree.names_of_resolve resolves
    exact ⟨Path.isResolved_ofComponents hn, Tree.resolve_ofComponents hn⟩
  · unfold Engine.compile Engine.compileScript SessionM.compileRoot
    rw [SessionM.compileChangeLog_withSources agrees, SessionM.compileScript_withSources agrees]
    exact ⟨rfl, rfl⟩

/-- A script that includes a file beside the root in two ways. -/
def includingOutside : Engine :=
  let inclusion (file : String) : Script.Node :=
    .call { element := "include", attributes := [("file", .literal (.text file))] }
  .ofScripts [("changelog.py", [
    .block { element := "databaseChangeLog" }
      [.attempt [inclusion "db/../../secret.py"], inclusion "..\\secret.py"]])]

/-- It makes no difference what stands there, since the walk to it leads above the root. -/
theorem walks_below_root_includingOutside :
    let e (secret : SourceFile) := includingOutside.withSources
      (includingOutside.sources.insert "../secret.py" (.file secret))
    (e .broken).sources.resolve (some "db/main.py") "../../secret.py" =
        .error (.outside "db/../../secret.py" "/") ∧
      (e .broken).sources.resolve (some "db/main.py") "..\\./a//b/" = .ok "a/b" ∧
      (e .broken).sources.resolve none "a/b" = .ok "a/b" ∧
      ∀ secret table, (e secret).compile table "changelog.py" =
        (e .broken).compile table "changelog.py" := by
  intro e
  obtain ⟨walks, stands, alike⟩ := (e .broken).walks_below_root
  have above : Path.walk [] (Path.route (some "db/main.py") "../../secret.py") = none := by
    decide +kernel
  have below : Path.walk [] (Path.route (some "db/main.py") "..\\./a//b/") = some ["b", "a"] := by
    decide +kernel
  have inside : (e .broken).sources.resolve (some "db/main.py") "..\\./a//b/" = .ok "a/b" := by
    rw [walks, below]
    rfl
  refine ⟨?_, inside, (stands _ _ _ inside).2, fun secret table => ?_⟩
  · rw [walks, above]
    rfl
  · have outside : ∃ name ∈ Path.components "../secret.py", ¬Path.IsName name :=
      ⟨"..", by decide +kernel, fun name => name.ne_up rfl⟩
    have agrees := Tree.agreesBelow_insert includingOutside.sources outside .broken secret
    exact (alike _ agrees table "changelog.py").1

end Migration
