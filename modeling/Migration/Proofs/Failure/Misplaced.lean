import Migration.Proofs.Call
import Migration.Proofs.Failure.Containment
import Migration.Proofs.Resource.Insertion

/-!
# Names that do not belong

A script may use a name as an element where the innermost open block has none of that name. If the
name is an element of other blocks, the call is refused at once. If it is no element at all it
stands for nothing, and the failure says so until the innermost block is left, or the script if no
block is open. Either way the compile fails in the same way, for the blocks and the scripts around
leave the failure as it is.

* `ScriptM.IsStray` — a call of a name that does not belong where it stands
* `ScriptM.IsStray.runScript` — the script that makes the call fails because the name does not
  belong there
* `Descends` — a compile comes to a point, and would not swallow a failure there
* `misplaced_of_compile` — a compile fails if it comes to such a call
-/

namespace Migration

open SessionM

/-! ## Names -/

/-- A name that is no element may not stand in any block. -/
theorem Body.element?_of_not_contains {e : Engine} {name : String}
    (unknown : ¬Vocabulary.contains e.changes e.preconditions name = true) (body : Body) :
    body.element? e name = none := by
  simp only [Vocabulary.contains, Bool.or_eq_true, not_or, List.contains_iff_mem, Bool.not_eq_true,
    Registry.contains, Option.isSome_eq_false_iff, Option.isNone_iff_eq_none] at unknown
  obtain ⟨⟨⟨fixed, change⟩, precondition⟩, constraint⟩ := unknown
  simp only [Vocabulary.fixed, List.mem_cons, List.not_mem_nil, or_false, not_or] at fixed
  cases body with
  | script => simp [element?, fixed]
  | changeLog => simp [element?, changeLogElement?, fixed]
  | changeSet owner s => simp [element?, changeSetElement?, fixed, change]
  | rollback owner s => simp [element?, change]
  | change owner type i => simp [element?, changeElement?, fixed]
  | whereParams owner type i => simp [element?, fixed]
  | column owner type i => simp [element?, columnElement?, fixed, constraint]
  | preconditions owner i =>
    have noGroup : groupTypes.lookup name = none := by simp [groupTypes, fixed]
    simp [element?, preconditionElement?, noGroup, precondition]
  | leaf => rfl
  | modifySql owner s filter =>
    simp [element?, Catalog.visitors, RecordType.visitor, fixed, eq_comm (b := name)]

/-- A call of a name that does not belong where it stands: the innermost block has no element of
that name, nothing is kept under it, scripts do not start with it, and no parameter of that name
applies. If it is no element of other blocks, it is no name of the language either. Its arguments
have values, and if it is an element of other blocks, none of them stands for the element itself. -/
structure ScriptM.IsStray (e : Engine) (c : Script.Call) (r : Running) : Prop where
  misplaced : r.frame.innermostBody.element? e c.element = none
  free : r.frame.kept.lookup c.element = none
  own : c.element ∉ globalNames
  foreign : Vocabulary.contains e.changes e.preconditions c.element = false →
    e.language.builtin? c.element = none
  unset : r.session.table.find? c.element (some r.frame.document) = .ok none
  items : ∃ positional, evalItems e c.positional r = (.ok positional, r)
  attributes : ∃ pairs, evalAttributes e c.attributes r = (.ok pairs, r) ∧
    (Vocabulary.contains e.changes e.preconditions c.element = true →
      receiver ∉ Attributes.keys (.ofSpellings pairs))

/-- Such a call is refused at once if the name is an element of other blocks. If it is no element at
all, the failure only says that the name stands for nothing. -/
theorem ScriptM.IsStray.call {e : Engine} {c : Script.Call} {r : Running} (h : IsStray e c r)
    (compiler : Compiler) :
    ScriptM.call e compiler c r =
        (.error (.parse (.misplaced r.frame.innermostBody.surroundings c.element)), r) ∨
      ScriptM.call e compiler c r = (.error (.unbound c.element), r) := by
  cases known : Vocabulary.contains e.changes e.preconditions c.element with
  | true =>
    left
    obtain ⟨positional, items⟩ := h.items
    obtain ⟨pairs, attributes, other⟩ := h.attributes
    have names : resolve e c.element r = (.ok .element, r) := resolve_of_known h.free h.own known
    have prepares : prepare e c r =
        (.error (.parse (.misplaced r.frame.innermostBody.surroundings c.element)), r) := by
      rw [prepare_eq_dispatch names items attributes, run_dispatch,
        if_neg fun own => other known (Attributes.has_iff.1 own), h.misplaced]
    exact call_of_error (function?_of_resolve names) prepares
  | false =>
    right
    have undefined : defined? e r.frame c.element = none :=
      defined?_of_foreign h.free h.own known (h.foreign known)
    have prepares : prepare e c r = (.error (.unbound c.element), r) := by
      unfold prepare
      rw [Step.run_bind_of_ok (resolve_of_unset undefined h.unset)]
      rfl
    exact call_of_error (function?_of_undefined undefined) prepares

/-! ## Blocks and includes on the way -/

/-- A script that comes to a call of a name that does not belong there fails with that. -/
theorem ScriptM.IsStray.runScript {e : Engine} {compiler : Compiler} {path : String}
    {d : DocumentId} {nodes : List Script.Node} {s : Session}
    (tidy : ∀ z, Reaches e compiler (nodes, .start path d s) z → IsTidy e z) {node : Script.Node}
    {rest : List Script.Node} {r : Running}
    (leads : Leads e compiler (nodes, .start path d s) (node :: rest, r)) {c : Script.Call}
    (calls : node.call? = some c) (stray : IsStray e c r) :
    (runScript e compiler path d nodes s).1 =
      .error (.parse (.misplaced r.frame.innermostBody.surroundings c.element)) := by
  have stops : ∀ failure, ScriptM.call e compiler c r = (.error failure, r) →
      (runNodes e compiler (node :: rest) r).1 = .error failure := by
    intro failure fails
    rw [runNodes_cons, Step.run_bind_of_error (runNode_of_call_error calls fails)]
  -- the block makes the same of both failures
  obtain refused | unbound := stray.call compiler
  · exact runScript_of_leads tidy leads (stops _ refused)
  · exact runScript_of_leads tidy leads (stops _ unbound)

/-- A compile comes to a point through blocks and includes, none of which would swallow a failure
there. -/
inductive Descends (e : Engine) : (depth : Nat) → Request → Session → Point → Prop
  | here {depth q s o s₁ steps running} (opens : openScript e q s = (.ok o, s₁))
      (leads : Leads e (compilerBelow e depth)
        (o.nodes, .start o.path o.document (s₁.opening o.path)) (steps, running)) :
      Descends e depth q s { opened := [{ q with path := o.path }], depth, steps, running }
  | inside {depth q s o s₁ node rest running c relativeTo path i s₂ path' suffix s₃ p}
      (opens : openScript e q s = (.ok o, s₁))
      (leads : Leads e (compilerBelow e (depth + 1))
        (o.nodes, .start o.path o.document (s₁.opening o.path)) (node :: rest, running))
      (calls : node.call? = some c)
      (meets : Meets e (compilerBelow e (depth + 1)) c running relativeTo path i s₂)
      (accepts : accept e relativeTo path i.skipsUnknown s₂ = (.ok (some (path', .script suffix)), s₃))
      (more : Descends e depth (i.request running.frame.document path') s₃ p) :
      Descends e (depth + 1) q s { p with opened := { q with path := o.path } :: p.opened }

/-- A call of a name that does not belong raises a failure of the script that it is in. -/
theorem Descends.raised {e : Engine} {depth : Nat} {q : Request} {s : Session} {p : Point}
    (h : Descends e depth q s p)
    (tidy : ∀ p', Visits e depth q s p' → IsTidy e (p'.steps, p'.running)) {node : Script.Node}
    {rest : List Script.Node} (next : p.steps = node :: rest) {c : Script.Call}
    (calls : node.call? = some c) (stray : ScriptM.IsStray e c p.running) (suffix : String) :
    ∃ chain, Raised e (depth + 1) (.script suffix) q s chain
      (.parse (.misplaced p.running.frame.innermostBody.surroundings c.element)) := by
  induction h generalizing suffix with
  | here opens leads =>
    cases next
    have fails := stray.runScript (fun z reaches => tidy _ (.here opens reaches)) leads calls
    exact ⟨[], .leaving opens (Prod.ext fails rfl)⟩
  | @«inside» depth q s o s₁ node rest running c relativeTo path i s₂ path' suffix' s₃ p opens leads
      calls' meets accepts _ ih =>
    have tidy' : ∀ p', Visits e depth (i.request running.frame.document path') s₃ p' →
        IsTidy e (p'.steps, p'.running) := by
      intro p' visits
      have inner := tidy _ (.inside opens leads.reaches calls' meets accepts visits)
      exact inner
    obtain ⟨chain, raised⟩ := ih tidy' next stray suffix'
    exact ⟨_, .inside opens leads calls' meets accepts raised⟩

/-- The call of a change set with nothing but its name. -/
def changeSetCall : Script.Call := .giving "changeSet" [("id", .text "1"), ("author", .text "a")]

/-- The steps of a script that includes another one. -/
def includingSteps : List Script.Node :=
  [.block { element := "databaseChangeLog" } [.call (.giving "include" [("file", .text "b.py")])]]

/-- Steps that call a name in a change set. -/
def callingSteps (name : String) : List Script.Node :=
  [.block { element := "databaseChangeLog" } [.block changeSetCall [.call { element := name }]]]

/-- A script that includes another one, in which a name is called in a change set. -/
def misplacing (name : String) : Engine :=
  .ofScripts [("a.py", includingSteps), ("b.py", callingSteps name)]

/-- A script where its block has been opened. -/
def inChangeLog (name : String) (depth : Nat) (path : String) (d : DocumentId) (s : Session) :
    Running :=
  (ScriptM.enter 0 (ScriptM.call (misplacing name) (compilerBelow (misplacing name) depth)
    { element := "databaseChangeLog" } (.start path d (s.opening path))).2).2

theorem calls_changeLog (name : String) (depth : Nat) (path : String) (d : DocumentId)
    (s : Session) :
    ∃ r, ScriptM.call (misplacing name) (compilerBelow (misplacing name) depth)
        { element := "databaseChangeLog" } (.start path d (s.opening path)) = (.ok (.scope 0), r) ∧
      ScriptM.enter 0 r = (.ok (), inChangeLog name depth path d s) := ⟨_, rfl, rfl⟩

/-- The session when the first script has been opened. -/
def openedIncluding : Session :=
  (newDocument { path := "a.py" } none { table := .ofRun none none none }).2

/-- The session when the other one has been opened. -/
def openedIncluded : Session :=
  (newDocument (Inclusion.request { inheritance := {}, logicalPath := .null } ⟨0⟩ "b.py") none
    (openedIncluding.opening "a.py")).2

/-- The other script where the block of its change set has been opened. -/
def inChangeSet (name : String) : Running :=
  (ScriptM.enter 1 (ScriptM.call (misplacing name) (compilerBelow (misplacing name) 62) changeSetCall
    (inChangeLog name 62 "b.py" ⟨1⟩ openedIncluded)).2).2

theorem openScript_misplacing (name : String) :
    openScript (misplacing name) { path := "a.py" } { table := .ofRun none none none } =
        (.ok { path := "a.py", nodes := includingSteps, document := ⟨0⟩ }, openedIncluding) ∧
      openScript (misplacing name)
          (Inclusion.request { inheritance := {}, logicalPath := .null } ⟨0⟩ "b.py")
          (openedIncluding.opening "a.py") =
        (.ok { path := "b.py", nodes := callingSteps name, document := ⟨1⟩ }, openedIncluded) := by
  have known : Encoding.ofName? (default : Settings).scriptEncoding = some .utf8 := rfl
  constructor
  · have resolves : (misplacing name).sources.resolve none "a.py" = .ok "a.py" := rfl
    have components : Path.components "a.py" = ["a.py"] := by decide +kernel
    refine openScript_eq (r := { path := "a.py" }) resolves ?_ known rfl _
    rw [Tree.read_of_resolve _ resolves, components]
    rfl
  · have resolves : (misplacing name).sources.resolve none "b.py" = .ok "b.py" := rfl
    have components : Path.components "b.py" = ["b.py"] := by decide +kernel
    refine openScript_eq (r := Inclusion.request _ _ "b.py") resolves ?_ known rfl _
    rw [Tree.read_of_resolve _ resolves, components]
    rfl

/-- The first script comes to the include of the other one. -/
theorem includes_misplacing (name : String) : ∃ running c,
    Leads (misplacing name) (compilerBelow (misplacing name) 63)
      (includingSteps, .start "a.py" ⟨0⟩ (openedIncluding.opening "a.py")) ([.call c], running) ∧
    Meets (misplacing name) (compilerBelow (misplacing name) 63) c running none "b.py"
      { inheritance := {}, logicalPath := .null } (openedIncluding.opening "a.py") ∧
    running.frame.document = ⟨0⟩ := by
  obtain ⟨r, calls, enters⟩ := calls_changeLog name 63 "a.py" ⟨0⟩ openedIncluding
  have reads : readInclude ⟨0⟩ [("file", .text "b.py")] (openedIncluding.opening "a.py") = _ :=
    readInclude_file (by decide +kernel) (by decide) _ _
  have prepares : ScriptM.prepare (misplacing name) (.giving "include" [("file", .text "b.py")])
      (inChangeLog name 63 "a.py" ⟨0⟩ openedIncluding) =
      (.ok { element := .include, positional := [], attributes := [("file", .text "b.py")] },
        inChangeLog name 63 "a.py" ⟨0⟩ openedIncluding) := rfl
  exact ⟨_, _, .block calls enters (.refl _), .file prepares rfl reads, rfl⟩

/-- The other script comes to the call of the name. -/
theorem leads_inChangeSet (name : String) :
    Leads (misplacing name) (compilerBelow (misplacing name) 62)
      (callingSteps name, .start "b.py" ⟨1⟩ (openedIncluded.opening "b.py"))
      ([.call { element := name }], inChangeSet name) := by
  obtain ⟨r, calls, enters⟩ := calls_changeLog name 62 "b.py" ⟨1⟩ openedIncluded
  have called : (ScriptM.call (misplacing name) (compilerBelow (misplacing name) 62) changeSetCall
      (inChangeLog name 62 "b.py" ⟨1⟩ openedIncluded)).1 = .ok (.scope 1) := by
        with_unfolding_all rfl
  have entered :
      (ScriptM.enter 1 (ScriptM.call (misplacing name) (compilerBelow (misplacing name) 62)
      changeSetCall (inChangeLog name 62 "b.py" ⟨1⟩ openedIncluded)).2).1 = .ok () := by
    with_unfolding_all rfl
  have within : ∃ r', ScriptM.call (misplacing name) (compilerBelow (misplacing name) 62) changeSetCall
      (inChangeLog name 62 "b.py" ⟨1⟩ openedIncluded) = (.ok (.scope 1), r') ∧
        ScriptM.enter 1 r' = (.ok (), inChangeSet name) := by
    generalize hr : ScriptM.call (misplacing name) (compilerBelow (misplacing name) 62) changeSetCall
      (inChangeLog name 62 "b.py" ⟨1⟩ openedIncluded) = out at called entered
    obtain ⟨_, r'⟩ := out
    cases called
    refine ⟨r', rfl, Prod.ext entered ?_⟩
    unfold inChangeSet
    rw [hr]
  obtain ⟨r', calls', enters'⟩ := within
  exact .block calls enters (.block calls' enters' (.refl _))

/-- The compile comes to the call of the name. -/
theorem descends_misplacing (name : String) :
    ∃ p, Descends (misplacing name) 63 { path := "a.py" } { table := .ofRun none none none } p ∧
      p.steps = [.call { element := name }] ∧ p.running = inChangeSet name := by
  obtain ⟨opens, opens'⟩ := openScript_misplacing name
  obtain ⟨running, c, leads, meets, document⟩ := includes_misplacing name
  have takes : (misplacing name).parser? "b.py" = some (.script ".py") :=
    Engine.parser?_ofScripts (by decide +kernel)
  have accepts : accept (misplacing name) none "b.py" false (openedIncluding.opening "a.py") =
      (.ok (some ("b.py", .script ".py")), openedIncluding.opening "a.py") :=
    accept_eq rfl takes false _
  have inner := leads_inChangeSet name
  rw [← document] at opens'
  generalize inChangeSet name = r at inner ⊢
  exact ⟨_, .inside opens leads rfl meets accepts (.here opens' inner), rfl, rfl⟩

theorem innermostBody_inChangeSet (name : String) :
    (inChangeSet name).frame.innermostBody = .changeSet "ChangeSet '1'" ⟨0⟩ := by
  with_unfolding_all rfl

/-- There is nothing in the script that the name could stand for but an element of the change
set. -/
theorem isStray_misplacing {name : String} (own : name ∉ ScriptM.globalNames)
    (disallowed : (Body.changeSet "ChangeSet '1'" ⟨0⟩).element? (misplacing name) name = none) :
    ScriptM.IsStray (misplacing name) { element := name } (inChangeSet name) := by
  have kept : (inChangeSet name).frame.kept = [] := by with_unfolding_all rfl
  have unset : (inChangeSet name).session.table.find? name
      (some (inChangeSet name).frame.document) =
      .ok none := by
    with_unfolding_all rfl
  have items : ∀ r, ScriptM.evalItems (misplacing name) [] r = (.ok [], r) := fun _ => rfl
  have attributes : ∀ r, ScriptM.evalAttributes (misplacing name) [] r = (.ok [], r) := fun _ => rfl
  refine ⟨?_, ?_, own, fun _ => rfl, unset, ⟨[], items _⟩, ⟨[], attributes _, fun _ => by decide⟩⟩
  · rw [innermostBody_inChangeSet, disallowed]
  · rw [kept]
    rfl

/-- A language with a function that makes a map of what it is given by name. -/
def mapLanguage : Script.Language :=
  { Script.Language.least with
    builtin? := fun name =>
      if name == "dict" then some {
        value := .object { type := "type", text := "<class 'dict'>" }
        call? := some fun _ pairs => .ok (.map (pairs.map fun (key, v) => (.text key, v))) }
      else none }

/-- A change log that calls this function. -/
def callingDict : Engine :=
  { Engine.ofScripts [("changelog.py",
      [.block { element := "databaseChangeLog" } [.call { element := "dict" }]])] with
    language := mapLanguage }

end Migration
