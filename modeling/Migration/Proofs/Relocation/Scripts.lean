import Migration.Proofs.Relocation.Inclusions

/-!
# Scripts in two sessions

A script runs alike in two sessions that hold the same things at other places: every call, every
block and so every step gives the same and leaves the same, up to the places. By induction over the
scripts that may be open, so does the compile of a script with everything that it includes.

* `Relocation.Runs` — a running script in two sessions
* `Point.IsIndependent` — the next step neither declares a parameter nor refers to a change set
* `ScriptM.runNodes_follows` — the steps of a script run alike if its calls do
* `SessionM.compileScript_matches` — a script whose points are independent is compiled alike
-/

namespace Migration

open SessionM Session

namespace Relocation

variable (m : Relocation)

/-- The state of a script with everything that it refers to moved. -/
def frame (f : Frame) : Frame := {
  f with
  document := m.place f.document
  stack := f.stack.map fun entry => (entry.1, m.body entry.2)
  scopes := f.scopes.map m.scope }

/-- An element with its arguments, and with what it works on moved. -/
def application (x : ScriptM.Application) : ScriptM.Application :=
  { x with element := m.element x.element }

/-- A script that owns what it refers to runs in one session, and the same script in the other
one. -/
structure Runs (r u : Running) : Prop where
  session : m.Relates r.session u.session
  frame : u.frame = m.frame r.frame
  owns : r.Owns m.source

/-- Two steps of a script have given the same and left the same. -/
structure Follows {α : Type} (x y : Except Failure α × Running) : Prop where
  result : y.1 = x.1
  runs : m.Runs x.2 y.2

variable {m} {α β : Type} {r u : Running}

/-- One step of a script after another one. -/
theorem Follows.bind {x y : ScriptM α} {f g : α → ScriptM β} (hx : m.Follows (x r) (y u))
    (hf : ∀ a r' u', x r = (.ok a, r') → m.Runs r' u' → m.Follows (f a r') (g a u')) :
    m.Follows ((x >>= f) r) ((y >>= g) u) := by
  obtain ⟨same, runs⟩ := hx
  rw [Step.run_bind, Step.run_bind]
  rcases hr : x r with ⟨_ | a, r'⟩
  all_goals
    rcases hu : y u with ⟨_ | b, u'⟩
    all_goals
      rw [hr, hu] at same runs
      cases same
  · exact ⟨rfl, runs⟩
  · exact hf a r' u' hr runs

theorem Follows.pure (h : m.Runs r u) (a : α) :
    m.Follows ((Pure.pure a : ScriptM α) r) ((Pure.pure a : ScriptM α) u) :=
  ⟨rfl, h⟩

theorem Follows.throw (h : m.Runs r u) (failure : Failure) :
    m.Follows ((MonadExcept.throw failure : ScriptM α) r)
      ((MonadExcept.throw failure : ScriptM α) u) :=
  ⟨rfl, h⟩

/-- A step that only reads runs alike. -/
theorem Follows.of_agrees {x y : ScriptM α} (agrees : Agrees m.Runs x y) (h : m.Runs r u) :
    m.Follows (x r) (y u) :=
  ⟨(agrees h).1, (agrees h).2⟩

/-- One more script is open in both sessions. -/
theorem Relates.opening {s t : Session} (h : m.Relates s t) (path : String) :
    m.Relates (s.opening path) (t.opening path) :=
  { h with chain := congrArg (· ++ [path]) h.chain }

/-- The last script is closed in both sessions. -/
theorem Relates.closing {s t : Session} (h : m.Relates s t) : m.Relates s.closing t.closing :=
  { h with chain := congrArg List.dropLast h.chain }

/-! ## What is seen of a script -/

@[simp] theorem surroundings_body (body : Body) :
    (m.body body).surroundings = body.surroundings := by
  cases body <;> rfl

@[simp] theorem owner_body (body : Body) : (m.body body).owner = body.owner := by
  cases body <;> rfl

@[simp] theorem signature_element (x : Element) : (m.element x).signature = x.signature := by
  cases x <;> rfl

/-- A name stands for the same element in a moved block. -/
theorem element?_body (e : Engine) (name : String) (body : Body) :
    (m.body body).element? e name = (body.element? e name).map m.element := by
  cases body with
  | script => simp only [body, Body.element?]; split <;> rfl
  | changeLog => simp only [body, Body.element?, Body.changeLogElement?]; split <;> rfl
  | changeSet owner i =>
    simp only [body, Body.element?, Body.changeSetElement?]
    split <;> first | rfl | (cases e.changes.get? name <;> rfl)
  | rollback owner i => simp only [body, Body.element?, Option.map_map]; rfl
  | change owner name i => simp only [body, Body.element?, Body.changeElement?]; split <;> rfl
  | whereParams owner name i => simp only [body, Body.element?]; split <;> rfl
  | column owner name i =>
    simp only [body, Body.element?, Body.columnElement?]
    split
    · rfl
    · split <;> rfl
  | preconditions owner i =>
    simp only [body, Body.element?, Body.preconditionElement?]
    split
    · rfl
    · cases e.preconditions.get? name <;> rfl
  | leaf => rfl
  | modifySql owner i filter => simp only [body, Body.element?, Option.map_map]; rfl

theorem innermostBody_frame (f : Frame) : (m.frame f).innermostBody = m.body f.innermostBody := by
  unfold Frame.innermostBody frame
  cases f.stack <;> rfl

theorem scope_frame (f : Frame) (i : ScopeId) :
    (m.frame f).scopes[i]?.getD default = m.scope (f.scopes[i]?.getD default) := by
  unfold frame
  rw [Array.getElem?_map]
  cases f.scopes[i]? <;> rfl

theorem mark_frame (f : Frame) (i : ScopeId) :
    ((m.frame f).scopes[i]?).bind (·.mark) = (f.scopes[i]?).bind (·.mark) := by
  unfold frame
  rw [Array.getElem?_map]
  cases f.scopes[i]? <;> rfl

theorem required_frame (f : Frame) (i : ScopeId) :
    ((m.frame f).scopes[i]?).bind (·.required) = (f.scopes[i]?).bind (·.required) := by
  unfold frame
  rw [Array.getElem?_map]
  cases f.scopes[i]? <;> rfl

theorem typeName_frame (f : Frame) (result : Outcome) :
    result.typeName (m.frame f).scopes = result.typeName f.scopes := by
  cases result with
  | scope i => simp only [Outcome.typeName, required_frame]
  | _ => rfl

end Relocation

namespace ScriptM

open Relocation

variable {m : Relocation} {α β : Type} {r u : Running} {e : Engine} {compiler compiler' : Compiler}

/-! ## Reading arguments -/

theorem typeName_runs (h : m.Runs r u) (result : Outcome) :
    result.typeName u.frame.scopes = result.typeName r.frame.scopes := by
  rw [h.frame, typeName_frame]

theorem namesAgree : NamesAgree m.Runs e where
  defined r u h name := by
    rw [h.frame]
    exact defined?_congr rfl rfl name
  found r u h name := by
    rw [h.frame, h.session.tables.1, h.session.tables.2]
    exact find?_place h.owns.session.owned name
  typeName _ _ := typeName_runs

/-! ## Calls -/

/-- What follows a step that only reads goes on from one value in both sessions. -/
theorem bind_eq_of_agrees {x y : ScriptM α} {f g : α → ScriptM β} {move : β → β}
    (agrees : Agrees m.Runs x y) (hx : Keeps (· = ·) x) (hy : Keeps (· = ·) y) (h : m.Runs r u)
    (hf : ∀ a, g a u = ((f a r).1.map move, u)) : (y >>= g) u = (((x >>= f) r).1.map move, u) := by
  obtain ⟨same, -⟩ := agrees h
  have left : r = (x r).2 := hx r
  have right : u = (y u).2 := hy u
  rw [Step.run_bind, Step.run_bind]
  rcases hr : x r with ⟨_ | a, r'⟩
  all_goals
    rcases hu : y u with ⟨_ | b, u'⟩
    all_goals
      rw [hr, hu] at same
      rw [hr] at left
      rw [hu] at right
      cases left
      cases right
      cases same
  · rfl
  · exact hf a

theorem dispatch_eq (h : m.Runs r u) (name : String) (positional : List Value) (a : Attributes) :
    dispatch e name positional a u = ((dispatch e name positional a r).1.map m.application, u) := by
  rw [run_dispatch, run_dispatch, h.frame, innermostBody_frame, element?_body]
  by_cases given : a.has receiver = true
  · rw [if_pos given, if_pos given]
    rfl
  rw [if_neg given, if_neg given]
  cases r.frame.innermostBody.element? e name with
  | none =>
    rw [surroundings_body]
    rfl
  | some element =>
    simp only [Option.map_some, signature_element, owner_body]
    cases element.signature.check positional a <;> rfl

/-- A call stands for the same element in both sessions, with the same arguments. -/
theorem prepare_eq (h : m.Runs r u) (c : Script.Call) :
    prepare e c u = ((prepare e c r).1.map m.application, u) := by
  -- the arguments are read once the name stands for something, whatever that is
  have arguments : ∀ f g : List Value → List (String × Value) → ScriptM Application,
      (∀ positional a, g positional a u = ((f positional a r).1.map m.application, u)) →
      (evalItems e c.positional >>= fun positional =>
        evalAttributes e c.attributes >>= g positional) u =
      (((evalItems e c.positional >>= fun positional =>
        evalAttributes e c.attributes >>= f positional) r).1.map m.application, u) := fun f g hf =>
    bind_eq_of_agrees (evalItems_agrees namesAgree _) (keeps_evalItems e _) (keeps_evalItems e _) h
      fun positional => bind_eq_of_agrees (evalAttributes_agrees namesAgree _)
        (keeps_evalAttributes e _) (keeps_evalAttributes e _) h (hf positional)
  refine bind_eq_of_agrees (namesAgree.resolve c.element) (keeps_resolve e _) (keeps_resolve e _) h
    fun binding => ?_
  cases binding with
  | nothing => rfl
  | value v => exact arguments _ _ fun _ _ => rfl
  | builtin b => exact arguments _ _ fun _ _ => rfl
  | element => exact arguments _ _ fun _ _ => dispatch_eq h _ _ _
  | kept result =>
    refine arguments _ _ fun _ _ => ?_
    show (Except.error (Failure.mishap (.notCallable (result.typeName u.frame.scopes))), u) = _
    rw [h.frame, typeName_frame]
    rfl

theorem newScope_follows (h : m.Runs r u) {y : Scope} (owns : (newScope y r).2.Owns m.source) :
    m.Follows (newScope y r) (newScope (m.scope y) u) := by
  obtain ⟨t, f⟩ := u
  obtain ⟨related, rfl, -⟩ := h
  have size : (m.frame r.frame).scopes.size = r.frame.scopes.size := Array.size_map
  refine ⟨congrArg (Except.ok ∘ Outcome.scope) size, related, ?_, owns⟩
  show ({ m.frame r.frame with scopes := _, pending := _ } : Frame) =
    m.frame { r.frame with scopes := _, pending := _ }
  simp only [Relocation.frame, Array.map_push, Array.size_map]
  rfl

/-- What a script gets from what an element has done is put down in both sessions. -/
theorem outcomeOf_follows (h : m.Runs r u) {result : Except Failure Result}
    (owns : (outcomeOf result r).2.Owns m.source) :
    m.Follows (outcomeOf result r) (outcomeOf (result.map m.result) u) := by
  rcases result with failure | _ | type | y
  · exact .throw h failure
  · exact .pure h _
  · exact .pure h _
  · exact newScope_follows h owns

/-- A call is made alike if what it includes is compiled alike. -/
theorem call_follows (h : m.Runs r u) (sound : compiler.IsSound) {c : Script.Call}
    (independent : ∀ x, prepare e c r = (.ok x, r) → x.element.IsIndependent x.positional x.attributes)
    (alike : ∀ relativeTo path i s path' parser s₁, Meets e compiler c r relativeTo path i s →
      accept e relativeTo path i.skipsUnknown s = (.ok (some (path', parser)), s₁) →
      m.CompilesAlike e compiler compiler' parser (i.request r.frame.document path') s₁) :
    m.Follows (call e compiler c r) (call e compiler' c u) := by
  have owns : (call e compiler c r).2.Owns m.source := (works_call sound c r h.owns).1
  have stands : function? e u.frame c.element = function? e r.frame c.element :=
    namesAgree.function? h c.element
  cases other : function? e r.frame c.element with
  | some f =>
    rw [call_eq_callFunction other, call_eq_callFunction (stands.trans other)]
    exact .of_agrees (callFunction_agrees namesAgree f c) h
  | none => ?_
  obtain ⟨failure, prepares⟩ | ⟨x, prepares⟩ := (keeps_prepare e c).run_cases r
  · have prepares' : prepare e c u = (.error failure, u) := by rw [prepare_eq h, prepares]; rfl
    rw [call_of_error other prepares, call_of_error (stands.trans other) prepares']
    exact ⟨rfl, h⟩
  · have prepares' : prepare e c u = (.ok (m.application x), u) := by
      rw [prepare_eq h, prepares]; rfl
    have known : m.source.Added r.session.store r.frame.document :=
      ⟨h.owns.session.owned, h.owns.known⟩
    have document : u.frame.document = m.place r.frame.document := by rw [h.frame]; rfl
    have acts : m.Matches m.result
        (act e compiler r.frame.document x.element x.positional x.attributes r.session)
        (act e compiler' u.frame.document (m.element x.element) x.positional x.attributes
          u.session) := by
      rw [document]
      -- only the includes compile something, so only they need that what they compile is alike
      by_cases file : x.element = .include
      · rw [file]
        refine .bind (include_matches h.owns.session h.session sound ?_) fun _ _ _ _ h' => ⟨rfl, h'⟩
        exact fun relativeTo path i s₁ path' parser s₂ reads =>
          alike relativeTo path i s₁ path' parser s₂ (.file prepares file reads)
      by_cases directory : x.element = .includeAll
      · rw [directory]
        refine .bind (includeAll_matches h.owns.session h.session sound ?_)
          fun _ _ _ _ h' => ⟨rfl, h'⟩
        exact fun before path after i s₁ s₂ path' parser s₃ reads earlier =>
          alike none path i s₂ path' parser s₃ (.directory prepares directory reads earlier)
      have new := prepare_isNew h.owns prepares
      have pairs : m.Pairs r.session.store (Result.IsNew m.source) m.result
          (act e compiler r.frame.document x.element x.positional x.attributes)
          (act e compiler' (m.place r.frame.document) (m.element x.element) x.positional
            x.attributes) :=
        act_pairs known new (independent x prepares) ⟨file, directory⟩
      obtain ⟨same, related, -⟩ := pairs ⟨h.session, .refl _⟩
      exact ⟨same, related.relates⟩
    obtain ⟨same, related⟩ := acts
    rcases ha : act e compiler r.frame.document x.element x.positional x.attributes r.session
      with ⟨result, s⟩
    rcases ha' : act e compiler' u.frame.document (m.element x.element) x.positional x.attributes
      u.session with ⟨result', t⟩
    rw [ha, ha'] at same related
    obtain rfl : result' = result.map m.result := same
    have acted : ({ r with session := s } : Running).Owns m.source :=
      (Running.works_of_session (works_act sound (prepare_isNew h.owns prepares) ha) h.owns).1
    rw [call_eq prepares ha] at owns ⊢
    rw [call_eq prepares' ha']
    have next : m.Runs { r with session := s } { u with session := t } :=
      ⟨related, h.frame, acted⟩
    exact outcomeOf_follows next owns

/-! ## Blocks -/

theorem openBody_pairs {c : Store} {d : DocumentId} (known : m.source.Added c d) {x : Opening}
    (new : x.IsNew m.source c) :
    m.Pairs c (fun _ _ => True) m.body (openBody d x) (openBody (m.place d) (m.opening x)) := by
  cases x with
  | body inner => exact .pure fun _ _ => trivial
  | constraints owner name i =>
    exact .bind_agrees (modifyColumn_agrees new _) fun _ => .pure fun _ _ => trivial
  | visitors owner i a =>
    exact .bind_agrees (visitorFilter_agrees known a) fun filter => .pure fun _ _ => trivial

theorem complete_agrees {c : Store} {d : DocumentId} (known : m.source.Added c d) {x : Completion}
    (new : x.IsNew m.source c) :
    Agrees (m.At c) (complete d x) (complete (m.place d) (m.completion x)) := by
  cases x with
  | nothing => exact .pure _
  | appendChangeSet i =>
    refine modifyDocument_agrees known
      (fun x => by simp only [Relocation.item, List.map_append, List.map_cons, List.map_nil])
      fun s x grows h => ⟨fun j hj => ?_, h.preconditions⟩
    rcases List.mem_append.1 hj with hj | hj
    · exact h.changeSets j hj
    · obtain rfl := List.mem_singleton.1 hj
      exact new.mono grows
  | setPreconditions container =>
    exact modifyDocument_agrees known (fun _ => rfl) fun s x grows h =>
      ⟨h.changeSets, new.mono grows⟩
  | setChangeSetPreconditions i container =>
    refine modifyChangeSet_agrees new.1 (fun _ => rfl) fun s x grows h =>
      ⟨h.1, h.2.1, fun j hj => ?_⟩
    obtain rfl := Option.mem_some.1 hj
    exact new.2.mono grows

theorem frame_opened (i : ScopeId) (body : Body) (f : Frame) :
    m.frame (opened i body f) = opened i (m.body body) (m.frame f) := by
  have scopes : (f.scopes.modify i fun s => { s with mark := some f.nextMark }).map m.scope =
      (f.scopes.map m.scope).modify i fun s => { s with mark := some f.nextMark } :=
    map_modify m.scope _ (fun s => { s with mark := some f.nextMark }) (fun _ => rfl) f.scopes i
  unfold opened Relocation.frame
  rw [scopes]
  rfl

/-- The block that a result is opened as. -/
theorem openScope_matches (h : m.Runs r u) (i : ScopeId) :
    m.Matches m.body
      (openBody r.frame.document (r.frame.scopes[i]?.getD default).opening r.session)
      (openBody u.frame.document (u.frame.scopes[i]?.getD default).opening u.session) := by
  have known : m.source.Added r.session.store r.frame.document :=
    ⟨h.owns.session.owned, h.owns.known⟩
  obtain ⟨same, related, -⟩ := openBody_pairs known (scope_isNew h.owns i).opening
    ⟨h.session, .refl _⟩
  rw [h.frame, scope_frame]
  exact ⟨same, related.relates⟩

theorem enter_follows (h : m.Runs r u) (i : ScopeId) : m.Follows (enter i r) (enter i u) := by
  have owns : (enter i r).2.Owns m.source := (works_enter i r h.owns).1
  obtain ⟨same, related⟩ := openScope_matches h i
  have frame : u.frame = m.frame r.frame := h.frame
  rw [enter_eq] at owns ⊢
  rw [enter_eq]
  rcases hr : openBody r.frame.document (r.frame.scopes[i]?.getD default).opening r.session
    with ⟨failure | body, s⟩
  all_goals
    rcases hu : openBody u.frame.document (u.frame.scopes[i]?.getD default).opening u.session
      with ⟨failure' | body', t⟩
    all_goals
      rw [hr, hu] at same related
      rw [hr] at owns
      cases same
  · exact ⟨rfl, related, by rw [frame]; rfl, owns⟩
  · refine ⟨rfl, related, ?_, owns⟩
    rw [frame, frame_opened]
    rfl

theorem pop_eq (h : m.Runs r u) (i : ScopeId) :
    pop i u = ((pop i r).1.map m.body, { u with frame := m.frame (pop i r).2.frame }) := by
  obtain ⟨t, f⟩ := u
  obtain ⟨-, rfl, -⟩ := h
  unfold pop
  rw [Step.run_bind_of_ok (frame_eq _), Step.run_bind_of_ok (frame_eq _), mark_frame]
  cases hs : r.frame.stack with
  | nil =>
    have nothing : (m.frame r.frame).stack = [] := by rw [Relocation.frame, hs]; rfl
    rw [nothing]
    rfl
  | cons entry rest =>
    have top : (m.frame r.frame).stack = (entry.1, m.body entry.2) ::
        rest.map fun entry => (entry.1, m.body entry.2) := by rw [Relocation.frame, hs]; rfl
    rw [top]
    dsimp only
    split <;> rfl

/-- What remains to be done when a block is left. -/
theorem complete_matches (h : m.Runs r u) (i : ScopeId) :
    m.Matches id
      (complete r.frame.document (r.frame.scopes[i]?.getD default).completion r.session)
      (complete u.frame.document (u.frame.scopes[i]?.getD default).completion u.session) := by
  have known : m.source.Added r.session.store r.frame.document :=
    ⟨h.owns.session.owned, h.owns.known⟩
  rw [h.frame, scope_frame]
  exact .of_agrees (complete_agrees known (scope_isNew h.owns i).completion) h.session (.refl _)

theorem leave_follows (h : m.Runs r u) (i : ScopeId) (result : Except Failure Unit) :
    m.Follows (leave i result r) (leave i result u) := by
  have owns : (leave i result r).2.Owns m.source := (works_leave i result r h.owns).1
  have popped : (pop i r).2.Owns m.source := (works_pop i r h.owns).1
  have same := pop_eq h i
  obtain ⟨mark, body, rest, -, -, pops⟩ | pops := pop_cases i r
  all_goals rw [pops] at popped same
  · have next : m.Runs { r with frame := { r.frame with stack := rest } }
        { u with frame := m.frame { r.frame with stack := rest } } := ⟨h.session, rfl, popped⟩
    cases result with
    | ok =>
      rw [leave_ok pops] at owns ⊢
      rw [leave_ok same]
      exact ⟨rfl, (complete_matches next i).relates, rfl, owns⟩
    | error failure =>
      unfold leave
      rw [Step.run_bind_of_ok pops, Step.run_bind_of_ok same]
      cases failure with
      | unbound name =>
        simp only [surroundings_body]
        exact .throw next _
      | _ => exact .throw next _
  · have stuck : pop i u = (.error (.parse (.outOfOrder r.frame.path)), u) := by
      rw [same, ← h.frame]
      rfl
    unfold leave
    rw [Step.run_bind_of_error pops, Step.run_bind_of_error stuck]
    exact ⟨rfl, h⟩

/-- A block runs alike if its steps do. -/
theorem within_follows (h : m.Runs r u) (i : ScopeId) {steps steps' : ScriptM Unit}
    (hs : ∀ r' u', enter i r = (.ok (), r') → m.Runs r' u' → m.Follows (steps r') (steps' u')) :
    m.Follows (within i steps r) (within i steps' u) := by
  refine .bind (enter_follows h i) fun _ r' u' enters h' => ?_
  rw [Step.run_bind_of_ok (run_observe steps r'), Step.run_bind_of_ok (run_observe steps' u')]
  obtain ⟨same, next⟩ := hs r' u' enters h'
  rw [same]
  exact leave_follows next i _

/-! ## Steps -/

/-- The calls that a script comes to are made alike. -/
def CallsAlike (m : Relocation) (e : Engine) (compiler compiler' : Compiler)
    (start : List Script.Node × Running) : Prop :=
  ∀ {node rest r u c}, Reaches e compiler start (node :: rest, r) → node.call? = some c →
    m.Runs r u → m.Follows (call e compiler c r) (call e compiler' c u)

section

variable {start : List Script.Node × Running}

mutual

/-- A step runs alike if the calls on the way do. -/
theorem runNode_follows (sound : compiler.IsSound) (alike : CallsAlike m e compiler compiler' start)
    (node : Script.Node) {rest : List Script.Node} {r u : Running}
    (reaches : Reaches e compiler start (node :: rest, r)) (h : m.Runs r u) :
    m.Follows (runNode e compiler node r) (runNode e compiler' node u) := by
  have kept := fun name mishap =>
    Follows.of_agrees (keptScope_agrees (namesAgree (e := e)) name mishap) h
  have finds : ∀ {name mishap i r'}, keptScope e name mishap r = (.ok i, r') → r = r' :=
    fun found => (keeps_keptScope e _ _).of_run (R := (· = ·)) found
  cases node with
  | call c => exact .bind (alike reaches rfl h) fun _ r' u' _ h' => .pure h' _
  | keep name c =>
    refine .bind (alike reaches rfl h) fun result r' u' _ h' => ⟨rfl, h'.session, ?_, ?_⟩
    · rw [modifyFrame_eq, modifyFrame_eq, h'.frame]
      rfl
    · exact ((works_steady (e := e) sound).keep name result r' h'.owns).1
  | block c body =>
    refine .bind (alike reaches rfl h) fun result r' u' calls h' => ?_
    cases result with
    | scope i =>
      exact within_follows h' i fun r'' u'' enters h'' =>
        runNodes_follows sound alike body (reaches.tail (.block calls enters)) h''
    | _ => exact .throw h' _
  | reopen name body =>
    refine .bind (kept name _) fun i r' u' found h' => ?_
    cases finds found
    exact within_follows h' i fun r'' u'' enters h'' =>
      runNodes_follows sound alike body (reaches.tail (.reopen found enters)) h''
  | enter name => exact .bind (kept name _) fun i r' u' _ h' => enter_follows h' i
  | exit name => exact .bind (kept name _) fun i r' u' _ h' => leave_follows h' i _
  | raise kind text => exact .throw h _
  | attempt body =>
    rw [runNode_attempt, runNode_attempt]
    exact ⟨rfl, (runNodes_follows sound alike body (reaches.tail .attempt) h).runs⟩

/-- So do the steps of a script. -/
theorem runNodes_follows (sound : compiler.IsSound)
    (alike : CallsAlike m e compiler compiler' start) (nodes : List Script.Node) {r u : Running}
    (reaches : Reaches e compiler start (nodes, r)) (h : m.Runs r u) :
    m.Follows (runNodes e compiler nodes r) (runNodes e compiler' nodes u) := by
  cases nodes with
  | nil => exact .pure h _
  | cons node rest =>
    exact .bind (runNode_follows sound alike node reaches h) fun _ r' u' ran h' =>
      runNodes_follows sound alike rest (reaches.tail (.next ran)) h'

end

end

theorem checkPending_agrees : Agrees m.Runs checkPending checkPending := by
  intro r u h
  have elements : ((m.frame r.frame).pending.filterMap fun i =>
      (m.frame r.frame).scopes[i]?.bind (·.required)) =
      r.frame.pending.filterMap fun i => r.frame.scopes[i]?.bind (·.required) := by
    simp only [required_frame]
    rfl
  unfold checkPending
  rw [Step.run_bind_of_ok (frame_eq r), Step.run_bind_of_ok (frame_eq u), h.frame, elements]
  split
  · exact ⟨rfl, h⟩
  · exact ⟨rfl, h⟩

end ScriptM

/-! ## Compiles -/

/-- The step that is next neither declares a parameter nor refers to an earlier change set. -/
def Point.IsIndependent (e : Engine) (p : Point) : Prop :=
  ∀ node rest c x, p.steps = node :: rest → node.call? = some c →
    ScriptM.prepare e c p.running = (.ok x, p.running) →
    x.element.IsIndependent x.positional x.attributes

namespace SessionM

open Relocation ScriptM

variable {m : Relocation} {e : Engine} {compiler compiler' : Compiler} {s t : Session}

/-- A script runs alike from where it starts if its calls are made alike. -/
theorem runScript_matches (sound : compiler.IsSound) {d : DocumentId} (owns : Owns m.source d s)
    (h : m.Relates s t) {path : String} {nodes : List Script.Node}
    (alike : CallsAlike m e compiler compiler' (nodes, .start path d s)) :
    m.Matches id (runScript e compiler path d nodes s)
      (runScript e compiler' path (m.place d) nodes t) := by
  have starts : m.Runs (.start path d s) (.start path (m.place d) t) :=
    ⟨h, by simp [Running.start, Relocation.frame, Relocation.body], Running.owns_start owns path⟩
  obtain ⟨same, runs⟩ := runNodes_follows sound alike nodes .refl starts
  unfold runScript
  rcases hr : runNodes e compiler nodes (.start path d s) with ⟨failure | _, r⟩
  all_goals
    rcases hu : runNodes e compiler' nodes (.start path (m.place d) t) with ⟨failure' | _, u⟩
    all_goals
      rw [hr, hu] at same runs
      cases same
  · exact ⟨rfl, runs.session⟩
  · obtain ⟨same, runs⟩ := checkPending_agrees runs
    refine ⟨?_, runs.session⟩
    show (checkPending u).1 = (checkPending r).1.map id
    rw [same]
    cases (checkPending r).1 <;> rfl

/-- A script is compiled alike if its calls are made alike. -/
theorem compileWithin_matches (sound : compiler.IsSound) {r : Request} (h : m.Relates s t)
    (alike : ∀ o s₁, openScript e r s = (.ok o, s₁) →
      CallsAlike m e compiler compiler' (o.nodes, .start o.path o.document (s₁.opening o.path))) :
    m.Matches m.place (compileWithin e compiler r s)
      (compileWithin e compiler' (m.request r) t) := by
  obtain ⟨same, related, -⟩ := openScript_pairs (e := e) (c := s.store) r ⟨h, .refl _⟩
  unfold compileWithin
  rw [Step.run_bind, Step.run_bind]
  rcases hs : openScript e r s with ⟨failure | o, s₁⟩
  all_goals
    rcases ht : openScript e (m.request r) t with ⟨failure' | o', t₁⟩
    all_goals
      rw [hs, ht] at same related
      cases same
  · exact ⟨rfl, related.relates⟩
  · obtain ⟨-, -, owns, -⟩ := openScript_ok hs
    have opened : m.Relates (s₁.opening o.path) (t₁.opening o.path) :=
      related.relates.opening o.path
    obtain ⟨same, runs⟩ := runScript_matches sound ((owns.of_grows h.base).opening o.path) opened
      (alike o s₁ hs)
    dsimp only
    rw [Step.run_bind, Step.run_bind, inChain_eq, inChain_eq, same]
    cases (runScript e compiler o.path o.document o.nodes (s₁.opening o.path)).1 with
    | error failure => exact ⟨rfl, runs.closing⟩
    | ok => exact ⟨rfl, runs.closing⟩

/-- The calls of a script are made alike if what it includes as scripts is compiled alike. -/
theorem callsAlike_of_open (hosts : e.HostsAreBare) {depth : Nat} {r : Request} {o : Opened}
    {s₁ : Session} (opens : openScript e r s = (.ok o, s₁))
    (independent : ∀ p, Visits e depth r s p → p.IsIndependent e)
    (scripts : ∀ {node rest running c relativeTo path i s₂ path' suffix s₃},
      Reaches e (compilerBelow e depth) (o.nodes, .start o.path o.document (s₁.opening o.path))
        (node :: rest, running) → node.call? = some c →
      Meets e (compilerBelow e depth) c running relativeTo path i s₂ →
      accept e relativeTo path i.skipsUnknown s₂ = (.ok (some (path', .script suffix)), s₃) →
      m.CompilesAlike e (compilerBelow e depth) (compilerBelow e depth) (.script suffix)
        (i.request running.frame.document path') s₃) :
    CallsAlike m e (compilerBelow e depth) (compilerBelow e depth)
      (o.nodes, .start o.path o.document (s₁.opening o.path)) := by
  intro node rest running u c reaches calls runs
  refine call_follows runs (compilerBelow_isSound e depth)
    (fun x => independent _ (.here opens reaches) node rest c x rfl calls) ?_
  intro relativeTo path i s₂ path' parser s₃ meets accepts
  obtain ⟨-, takes, -⟩ := of_accept accepts
  refine compilesAlike_of_scripts hosts takes fun suffix script => ?_
  subst script
  exact scripts reaches calls meets accepts

/-- A script is compiled alike in two sessions if no step of it or of a script that it includes
declares a parameter or refers to an earlier change set. -/
theorem compileScript_matches (hosts : e.HostsAreBare) (depth : Nat) {r : Request} {s t : Session}
    (h : m.Relates s t) (independent : ∀ p, Visits e depth r s p → p.IsIndependent e) :
    m.Matches m.place (compileScript e depth r s) (compileScript e depth (m.request r) t) := by
  -- what a script includes is compiled with room for one open script less
  induction depth generalizing r s t with
  | zero =>
    refine compileWithin_matches (compilerBelow_isSound e 0) h fun o s₁ opens =>
      callsAlike_of_open hosts opens independent fun _ _ _ _ t related => ?_
    exact ⟨rfl, related⟩
  | succ depth ih =>
    refine compileWithin_matches (compilerBelow_isSound e (depth + 1)) h fun o s₁ opens =>
      callsAlike_of_open hosts opens independent fun reaches calls meets accepts t related => ?_
    refine ih related fun p visits => ?_
    have inside := independent _ (.inside opens reaches calls meets accepts visits)
    exact inside

end SessionM
end Migration
