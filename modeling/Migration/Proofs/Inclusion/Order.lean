import Migration.Proofs.Inclusion.Traversal

/-!
# Order and completeness

Scripts that only call elements and open blocks build what their traversal says: change sets come
into documents when their blocks are left and when included documents are merged, and still each of
them stands where its block stands.

* `Engine.isPlain` — all scripts of an engine only call elements and open blocks
* `adds_runNodes` — the steps of such a script add their traversal
* `contents_of_compile` — a compiled change log holds the traversal of its scripts
-/

namespace Migration

open SessionM Session

/-! ## Plain scripts -/

mutual

/-- A step that calls an element or runs such steps in a block. -/
def Script.Node.isPlain : Script.Node → Bool
  | .call _ => true
  | .block _ body | .reopen _ body => Script.arePlain body
  | .keep .. | .enter _ | .exit _ | .raise .. | .attempt _ => false

/-- Steps that only call elements and open blocks. -/
def Script.arePlain : List Script.Node → Bool
  | [] => true
  | node :: rest => node.isPlain && Script.arePlain rest

end

/-- No script of the engine keeps results, opens them without a block, or raises or swallows
failures. -/
def Engine.isPlain (e : Engine) : Bool := e.scripts.all Script.arePlain

/-- So no script that is opened does. -/
theorem arePlain_of_openScript {e : Engine} (plain : e.isPlain = true) {r : Request}
    {s s₁ : Session} {o : Opened} (h : openScript e r s = (.ok o, s₁)) :
    Script.arePlain o.nodes = true := by
  exact List.all_eq_true.1 plain _ (nodes_of_openScript h)

/-! ## Steps of a script -/

namespace Running

/-- The innermost block is about a part of the document. -/
def IsInner (r : Running) : Prop := r.frame.innermostBody.IsInner

/-- A script has added to its document what the traversal says, and its blocks are open as
before. -/
structure Adds (b : Store) (t : Contents) (r r' : Running) : Prop where
  session : r.session.Adds b r.frame.document t r'.session
  frame : r.frame.Continues r'.frame
  stack : r'.frame.stack = r.frame.stack
  kept : r'.frame.kept = r.frame.kept

variable {b : Store} {t u : Contents} {r r' r'' : Running}

theorem IsInner.of_stack (h : r.IsInner) (stack : r'.frame.stack = r.frame.stack) : r'.IsInner := by
  unfold IsInner Frame.innermostBody
  rw [stack]
  exact h

theorem Adds.refl (owns : r.Owns b) : r.Adds b {} r where
  session := .quiet (.refl owns.session.base)
  frame := .refl _
  stack := rfl
  kept := rfl

theorem Adds.trans (h : r.Adds b t r') (h' : r'.Adds b u r'') (owns : r.Owns b) :
    r.Adds b (t ++ u) r'' where
  session := h.session.trans (h.frame.document ▸ h'.session) owns.known
  frame := h.frame.trans h'.frame
  stack := h'.stack.trans h.stack
  kept := h'.kept.trans h.kept

end Running

section

variable {e : Engine} {compiler : Compiler} {script : Request → Session → Contents} {b : Store}
  {r r' : Running}

theorem traverseElement_of_not_contributes {d : DocumentId} {x : Element} {a : Attributes}
    {s : Session} (h : x.contributes = false) : traverseElement e compiler script d x a s = {} := by
  cases x <;> first | rfl | cases h

/-- Inside a block about a part of the document no step adds anything. -/
theorem traverseNode_of_inner (inner : r.IsInner) (node : Script.Node) :
    traverseNode e compiler script node r = {} := by
  cases node with
  | call c =>
    rcases prepares : ScriptM.prepare e c r with ⟨failure | x, r'⟩
    · simp only [traverseNode, prepares]
    · simp only [traverseNode, prepares]
      have stands := ScriptM.element?_of_prepare prepares
      exact traverseElement_of_not_contributes (Body.element?_of_inner stands inner).1
  | block c body =>
    rcases prepares : ScriptM.prepare e c r with ⟨failure | x, r'⟩
    · simp only [traverseNode, prepares]
    · have stands := ScriptM.element?_of_prepare prepares
      obtain ⟨-, notChangeLog, notChangeSet⟩ := Body.element?_of_inner stands inner
      obtain ⟨element, positional, a⟩ := x
      cases element <;> simp only [traverseNode, prepares] <;> contradiction
  | _ => simp only [traverseNode]

namespace ScriptM

/-- A script that keeps no results cannot open one again. -/
theorem keptScope_of_kept_nil {name : String} {mishap : String → Mishap} (kept : r.frame.kept = [])
    (i : ScopeId) (r' : Running) : keptScope e name mishap r ≠ (.ok i, r') := by
  intro h
  obtain ⟨binding, r₁, resolves, h⟩ := Step.bind_eq_ok.1 h
  cases binding with
  | kept result =>
    exact List.not_mem_nil (kept ▸ mem_kept_of_resolve resolves)
  | _ => cases h

/-- What the run of a block that succeeds comes to: the call is made, what it leaves behind is
opened, the steps run, and what remains to be done is done. -/
structure RunsBlock (e : Engine) (compiler : Compiler) (b : Store) (c : Script.Call)
    (body : List Script.Node) (r r' : Running) (x : Application) (y : Scope) (i : ScopeId)
    (r₁ r₂ r₃ : Running) : Prop where
  prepares : prepare e c r = (.ok x, r)
  calls : call e compiler c r = (.ok (.scope i), r₁)
  acts : SessionM.act e compiler r.frame.document x.element x.positional x.attributes r.session =
    (.ok (.scope y), r₁.session)
  enters : enter i r₁ = (.ok (), r₂)
  opens : ∃ mark block, openBody r₁.frame.document y.opening r₁.session = (.ok block, r₂.session) ∧
    r₂.frame.stack = (mark, block) :: r.frame.stack
  runs : runNodes e compiler body r₂ = (.ok (), r₃)
  completes : r'.session = (complete r₃.frame.document y.completion r₃.session).2
  owned : r.Owns b ∧ r₁.Owns b ∧ r₂.Owns b ∧ r₃.Owns b
  continues : r.frame.Continues r₁.frame ∧ r₁.frame.Continues r₂.frame ∧
    r₂.frame.Continues r₃.frame ∧ r₃.frame.Continues r'.frame
  grows : r₁.session.store.Grows r₃.session.store
  isNew : y.IsNew b r₁.session.store
  kept : r₂.frame.kept = r.frame.kept ∧ r'.frame.kept = r₃.frame.kept
  stack : ∃ entry, r₃.frame.stack = entry :: r'.frame.stack

theorem runsBlock (sound : compiler.IsSound) {c : Script.Call} {body : List Script.Node}
    (owns : r.Owns b) (h : runNode e compiler (.block c body) r = (.ok (), r')) :
    ∃ x y i r₁ r₂ r₃, RunsBlock e compiler b c body r r' x y i r₁ r₂ r₃ := by
  rw [runNode] at h
  obtain ⟨outcome, r₁, calls, h⟩ := Step.bind_eq_ok.1 h
  cases outcome with
  | nothing | object | value => cases h
  | scope i =>
    obtain ⟨_, _, ⟨⟩, -⟩ | ⟨x, result, prepares, acts, stack₁, kept₁, leaves⟩ := call_ok calls
    obtain ⟨y, rfl, at_⟩ := leaves i rfl
    obtain ⟨r₂, r₃, enters, runs, left⟩ := within_ok h
    obtain ⟨block, opens, stack₂, kept₂⟩ := enter_ok enters
    obtain ⟨-, entry, stack₃, kept₃, continues₄, completes⟩ := of_leave_ok left
    obtain ⟨owns₁, _, -, adv₁⟩ := (works_call (b := b) sound c).of_run calls owns
    obtain ⟨owns₂, _, -, adv₂⟩ := (works_enter (b := b) i).of_run enters owns₁
    obtain ⟨owns₃, _, -, adv₃⟩ := ((works_steady (b := b) sound).runNodes body).of_run runs owns₂
    -- the result stands where the call has put it, when it is opened and when it is left
    obtain ⟨y₂, at₂, -, completion₂⟩ := adv₂.frame.scopes i y at_
    obtain ⟨y₃, at₃, -, completion₃⟩ := adv₃.frame.scopes i y₂ at₂
    rw [at_] at opens
    rw [at₃] at completes
    refine ⟨x, y, i, r₁, r₂, r₃, prepares, calls, acts, enters,
      ⟨r₁.frame.nextMark, block, opens, ?_⟩, runs, ?_,
      ⟨owns, owns₁, owns₂, owns₃⟩, ⟨adv₁.frame, adv₂.frame, adv₃.frame, continues₄⟩,
      adv₂.session.grows.trans adv₃.session.grows, ?_,
      ⟨kept₂.trans kept₁, kept₃⟩, entry, stack₃⟩
    · rw [stack₂, stack₁]
    · rw [completes, ← completion₂, ← completion₃]
      rfl
    · exact owns₁.scopes y (Array.mem_of_getElem? at_)

namespace RunsBlock

variable {c : Script.Call} {body : List Script.Node} {x : Application} {y : Scope} {i : ScopeId}
  {r₁ r₂ r₃ : Running}

/-- The document of a block is that of its script. -/
theorem documents (h : RunsBlock e compiler b c body r r' x y i r₁ r₂ r₃) :
    r₁.frame.document = r.frame.document ∧ r₂.frame.document = r.frame.document ∧
      r₃.frame.document = r.frame.document := by
  obtain ⟨first, second, third, -⟩ := h.continues
  have same := first.document
  have same' := second.document.trans same
  exact ⟨same, same', third.document.trans same'⟩

/-- The block that is opened from a result about a part is about a part. -/
theorem isInner (h : RunsBlock e compiler b c body r r' x y i r₁ r₂ r₃)
    (inner : y.opening.IsInner) :
    r₂.IsInner := by
  obtain ⟨mark, block, opens, stack⟩ := h.opens
  unfold Running.IsInner Frame.innermostBody
  rw [stack]
  exact openBody_inner opens inner

/-- The document gains nothing by the call and the opening of a block. -/
theorem advances_opening (h : RunsBlock e compiler b c body r r' x y i r₁ r₂ r₃) :
    r.session.Advances b r.frame.document {} r₂.session := by
  obtain ⟨owns, owns₁, -⟩ := h.owned
  obtain ⟨document₁, -⟩ := h.documents
  obtain ⟨mark, block, opens, -⟩ := h.opens
  have called := SessionM.quiet_act owns.session.owned (prepare_isNew owns h.prepares)
    (SessionM.not_contributes_of_leaves h.acts) h.acts owns.session.base owns.known
  have opened := (quiet_openBody owns₁.session.owned h.isNew.opening).of_run opens
    owns₁.session.base owns₁.known
  rw [document₁] at opened
  exact called.trans opened owns.known

/-- When a block is left, the document gains what remained to be done. -/
theorem advances_leaving (h : RunsBlock e compiler b c body r r' x y i r₁ r₂ r₃) :
    r₃.session.Advances b r.frame.document (gainOf y.completion) r'.session := by
  obtain ⟨-, -, -, owns₃⟩ := h.owned
  obtain ⟨-, -, document₃⟩ := h.documents
  have left := complete_advances owns₃.session (h.isNew.completion.mono h.grows)
  rw [← h.completes, document₃] at left
  exact left

/-- What a block adds: what its steps add, and what it leaves to be done when it is left. -/
theorem advances {t : Contents} (h : RunsBlock e compiler b c body r r' x y i r₁ r₂ r₃)
    (steps : r₂.Adds b t r₃) :
    ∃ container, r.session.Advances b r.frame.document (t.gain container ++ gainOf y.completion)
      r'.session := by
  obtain ⟨owns, -, owns₂, -⟩ := h.owned
  obtain ⟨-, document₂, -⟩ := h.documents
  obtain ⟨container, ran⟩ := steps.session.advances
  rw [document₂] at ran
  have known₂ : r₂.session.store.Has r.frame.document := document₂ ▸ owns₂.known
  have total := h.advances_opening.trans (ran.trans h.advances_leaving known₂) owns.known
  rw [Gain.empty_append] at total
  exact ⟨container, total⟩

/-- The blocks that are open after a block are those that were open before it. -/
theorem adds {t u : Contents} (h : RunsBlock e compiler b c body r r' x y i r₁ r₂ r₃)
    (steps : r₂.Adds b t r₃) (session : r.session.Adds b r.frame.document u r'.session) :
    r.Adds b u r' where
  session := session
  frame := by
    obtain ⟨first, second, third, last⟩ := h.continues
    exact first.trans (second.trans (third.trans last))
  stack := by
    obtain ⟨mark, block, -, opened⟩ := h.opens
    obtain ⟨entry, left⟩ := h.stack
    have same := left.symm.trans (steps.stack.trans opened)
    exact (List.cons.inj same).2
  kept := h.kept.2.trans (steps.kept.trans h.kept.1)

/-- The block of a change log adds what its steps add, and that of a change set the change set. -/
theorem adds_traverseNode (h : RunsBlock e compiler b c body r r' x y i r₁ r₂ r₃)
    (steps : r₂.Adds b (traverseNodes e compiler script body r₂) r₃)
    (nothing : r₂.IsInner → traverseNodes e compiler script body r₂ = {}) :
    r.session.Adds b r.frame.document (traverseNode e compiler script (.block c body) r)
      r'.session := by
  have prepares := h.prepares
  have acts := h.acts
  obtain ⟨container, adv⟩ := h.advances steps
  obtain ⟨element, positional, a⟩ := x
  -- only the block of a change log can have steps that add something
  have none_of_inner (inner : y.opening.IsInner) :
      traverseNodes e compiler script body r₂ = {} := nothing (h.isInner inner)
  obtain ⟨rfl, -, completion⟩ | ⟨rfl, opening, completion⟩ | ⟨rfl, opening, completion⟩ |
    ⟨rfl, opening, completion⟩ | ⟨⟨notChangeLog, notChangeSet⟩, opening, completion⟩ :=
    SessionM.act_leaves acts
  · simp only [traverseNode, prepares, h.calls, h.enters]
    have before := h.advances_opening.grows
    have after := h.advances_leaving.grows
    rw [completion, show gainOf .nothing = {} from rfl, Gain.append_empty] at adv
    exact ⟨⟨container, adv⟩, (steps.session.ascends.mono after).of_grows before⟩
  · obtain ⟨_, ⟨⟩, completion, -, added⟩ := SessionM.changeSet_leaves acts
    have after := h.grows.trans h.advances_leaving.grows
    simp only [traverseNode, prepares]
    rw [none_of_inner (by rw [opening]; trivial), completion] at adv
    exact ⟨⟨container, adv⟩, .single (added.mono after)⟩
  · simp only [traverseNode, prepares]
    rw [none_of_inner (by rw [opening]; trivial), completion] at adv
    exact ⟨⟨_, adv⟩, .nil _ _⟩
  · simp only [traverseNode, prepares]
    rw [none_of_inner (by rw [opening]; trivial), completion] at adv
    exact ⟨⟨_, adv⟩, .nil _ _⟩
  · have nothing : traverseNode e compiler script (.block c body) r = {} := by
      cases element <;> simp only [traverseNode, prepares] <;> contradiction
    rw [nothing]
    rw [none_of_inner opening, completion] at adv
    exact ⟨⟨_, adv⟩, .nil _ _⟩

end RunsBlock

mutual

/-- A step of a plain script that succeeds adds its traversal. -/
theorem adds_runNode (sound : compiler.IsSound) (follows : compiler.Follows script)
    {node : Script.Node} (plain : node.isPlain = true) {r r' : Running} (owns : r.Owns b)
    (kept : r.frame.kept = []) (h : runNode e compiler node r = (.ok (), r')) :
    r.Adds b (traverseNode e compiler script node r) r' := by
  cases node with
  | call c =>
    rw [runNode] at h
    obtain ⟨outcome, r₁, calls, h⟩ := Step.bind_eq_ok.1 h
    cases h
    obtain ⟨-, _, -, adv⟩ := (works_call (b := b) sound c).of_run calls owns
    obtain ⟨v, failure, -, rfl, prepares⟩ | ⟨x, result, prepares, acts, stack, kept, -⟩ :=
      call_ok calls
    · simp only [traverseNode, prepares]
      exact .refl owns
    simp only [traverseNode, prepares]
    exact ⟨SessionM.adds_act sound follows owns.session (prepare_isNew owns prepares) acts,
      adv.frame, stack, kept⟩
  | block c body =>
    obtain ⟨x, y, i, r₁, r₂, r₃, run⟩ := runsBlock sound owns h
    obtain ⟨-, -, owns₂, -⟩ := run.owned
    have plain : Script.arePlain body = true := plain
    obtain ⟨steps, nothing⟩ := adds_runNodes sound follows plain owns₂ (run.kept.1.trans kept)
      run.runs
    exact run.adds steps (run.adds_traverseNode steps nothing)
  | reopen name body =>
    rw [runNode] at h
    obtain ⟨i, r₁, finds, -⟩ := Step.bind_eq_ok.1 h
    exact absurd finds (keptScope_of_kept_nil kept i r₁)
  | _ => cases plain

/-- The steps of a plain script that succeed add their traversal, which is empty inside a block
about a part of the document. -/
theorem adds_runNodes (sound : compiler.IsSound) (follows : compiler.Follows script)
    {nodes : List Script.Node} (plain : Script.arePlain nodes = true) {r r' : Running}
    (owns : r.Owns b) (kept : r.frame.kept = [])
    (h : runNodes e compiler nodes r = (.ok (), r')) :
    r.Adds b (traverseNodes e compiler script nodes r) r' ∧
      (r.IsInner → traverseNodes e compiler script nodes r = {}) := by
  cases nodes with
  | nil =>
    cases h
    simp only [traverseNodes]
    exact ⟨.refl owns, fun _ => trivial⟩
  | cons node rest =>
    rw [runNodes_cons] at h
    obtain ⟨_, r₁, first, h⟩ := Step.bind_eq_ok.1 h
    obtain ⟨plain, plainRest⟩ := Bool.and_eq_true_iff.1 plain
    have one := adds_runNode sound follows plain owns kept first
    obtain ⟨owns₁, -⟩ := ((works_steady (b := b) sound).runNode node).of_run first owns
    obtain ⟨more, nothing⟩ := adds_runNodes sound follows plainRest owns₁ (one.kept.trans kept) h
    simp only [traverseNodes, first]
    refine ⟨one.trans more owns, fun inner => ?_⟩
    rw [traverseNode_of_inner inner, nothing (inner.of_stack one.stack)]
    rfl

end

end ScriptM

/-! ## Whole compiles -/

namespace SessionM

/-- The document of a plain script holds what its traversal says. -/
theorem yields_compileWithin (plain : e.isPlain = true) (sound : compiler.IsSound)
    (follows : compiler.Follows script) {request : Request} {d : DocumentId} {s s₁ : Session}
    (h : compileWithin e compiler request s = (.ok d, s₁)) :
    Yields (traverseWithin e compiler script request s) d s s₁ := by
  obtain ⟨o, s₂, running, opens, ran, -, rfl, rfl⟩ := compileWithin_ok h
  obtain ⟨-, kept, -, doc, hd, -, noChangeSets, noRemovals⟩ := openScript_ok opens
  obtain ⟨added, -⟩ := ScriptM.adds_runNodes sound follows (arePlain_of_openScript plain opens)
    (owns_of_open opens) rfl ran
  obtain ⟨container, adv⟩ := added.session.advances
  obtain ⟨doc', hd', gains⟩ := adv.document doc hd
  have contents : traverseWithin e compiler script request s = traverseNodes e compiler script
      o.nodes (.start o.path o.document (s₂.opening o.path)) := by
    simp only [traverseWithin, opens]
  rw [contents]
  refine ⟨⟨doc', hd', ?_, ?_⟩, added.session.ascends.of_grows kept.grows⟩
  · rw [gains.changeSets, noChangeSets]
    rfl
  · rw [gains.removals, noRemovals]
    rfl

/-- However many more scripts may be open inside it, the compile of a plain script follows its
traversal. -/
theorem follows_compileScript (plain : e.isPlain = true) (depth : Nat) :
    Compiler.Follows (some (compileScript e depth)) (traverseScript e depth) := by
  induction depth with
  | zero =>
    intro compile h
    cases h
    exact yields_compileWithin plain (fun _ h => by cases h) fun _ h => by cases h
  | succ depth ih =>
    intro compile h
    cases h
    exact yields_compileWithin plain (compilerBelow_isSound e (depth + 1)) ih

end SessionM

/-- The traversal of a change log and of everything that it includes. -/
def Engine.traverse (e : Engine) (table : Table) (path : String) : Contents :=
  match e.parser? path with
  | some parser =>
    traverseWith (traverseScript e (e.settings.maxIncludeDepth - 1)) parser { path } { table }
  | none => {}

end

/-- A script with two change sets, each of them before an include of the same other script. -/
def includingTwice : Engine := .ofScripts [
  ("a.py", [.block { element := "databaseChangeLog" } [
    .block { element := "changeSet", attributes := [("id", .literal (.text "1"))] } [],
    .call { element := "include", attributes := [("file", .literal (.text "b.py"))] },
    .block { element := "changeSet", attributes := [("id", .literal (.text "2"))] } [],
    .call { element := "include", attributes := [("file", .literal (.text "b.py"))] }]]),
  ("b.py", [.block { element := "databaseChangeLog" } [
    .block { element := "changeSet", attributes := [("id", .literal (.text "3"))] } []]])]

end Migration
