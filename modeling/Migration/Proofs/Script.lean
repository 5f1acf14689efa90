import Migration.Proofs.Contribution

/-!
# What scripts do

A running script owns its document and whatever its open blocks and its results refer to, at every
step and also after a failure. So the compile of a script leaves alone everything that was there
when it started.

* `Running.Owns` — a running script owns what it refers to
* `ScriptM.Steady` — what a script keeps whenever it does something, its steps keep as well
* `ScriptM.works_steady` — whatever a script does, it goes on to own what it refers to
* `SessionM.compiles_compileWithin` — the compile of a script
-/

namespace Migration

/-- What the innermost open block is about. -/
def Frame.innermostBody (f : Frame) : Body := (f.stack.head?.map (·.2)).getD .script

/-- A frame goes on: its results work on what they did, and there may be more of them. -/
structure Frame.Continues (f f' : Frame) : Prop where
  path : f'.path = f.path
  document : f'.document = f.document
  scopes : ∀ (i : ScopeId) (x : Scope), f.scopes[i]? = some x → ∃ x' : Scope,
    f'.scopes[i]? = some x' ∧ x'.opening = x.opening ∧ x'.completion = x.completion

namespace Frame.Continues

variable {f f' f'' : Frame}

theorem refl (f : Frame) : f.Continues f := ⟨rfl, rfl, fun _ x hx => ⟨x, hx, rfl, rfl⟩⟩

theorem trans (h : f.Continues f') (h' : f'.Continues f'') : f.Continues f'' where
  path := h'.path.trans h.path
  document := h'.document.trans h.document
  scopes i x hx := by
    obtain ⟨x', hx', opening, completion⟩ := h.scopes i x hx
    obtain ⟨x'', hx'', opening', completion'⟩ := h'.scopes i x' hx'
    exact ⟨x'', hx'', opening'.trans opening, completion'.trans completion⟩

end Frame.Continues

namespace Running

/-- A running script, which was opened on the store `b`, owns its document and whatever its blocks
and its results refer to. -/
structure Owns (b : Store) (r : Running) : Prop where
  session : r.session.Owns b r.frame.document
  scopes : ∀ x ∈ r.frame.scopes, x.IsNew b r.session.store
  stack : ∀ entry ∈ r.frame.stack, entry.2.IsNew b r.session.store

/-- A script has gone on, and its document has gained something. -/
structure Advances (b : Store) (g : Gain) (r r' : Running) : Prop where
  session : r.session.Advances b r.frame.document g r'.session
  frame : r.frame.Continues r'.frame

/-- What the steps of a script do: it goes on to own what it refers to. -/
def Works (b : Store) (r r' : Running) : Prop :=
  r.Owns b → r'.Owns b ∧ ∃ g : Gain, g.IsNew b r'.session.store ∧ r.Advances b g r'

variable {b : Store} {g h : Gain} {r r' r'' : Running}

theorem Owns.known (owns : r.Owns b) : r.session.store.Has r.frame.document := owns.session.known

namespace Advances

theorem refl (owns : r.Owns b) : r.Advances b {} r where
  session := .refl owns.session.base
  frame := .refl _

theorem trans (h₁ : r.Advances b g r') (h₂ : r'.Advances b h r'') (owns : r.Owns b) :
    r.Advances b (g ++ h) r'' where
  session := h₁.session.trans (h₁.frame.document ▸ h₂.session) owns.known
  frame := h₁.frame.trans h₂.frame

end Advances

instance : IsPreorder Running (Works b) where
  refl r owns := ⟨owns, {}, Gain.isNew_empty _ _, .refl owns⟩
  trans r r' r'' h h' owns := by
    obtain ⟨owns', g, new, adv⟩ := h owns
    obtain ⟨owns'', g', new', adv'⟩ := h' owns'
    exact ⟨owns'', g ++ g', (new.mono adv'.session.grows).append new', adv.trans adv' owns⟩

/-- A step of the session, whatever the document gains by it, as a step of the script. -/
theorem works_of_advances {s : Session}
    (h : r.Owns b → ∃ g : Gain, g.IsNew b s.store ∧ r.session.Advances b r.frame.document g s) :
    r.Works b { r with session := s } := by
  intro owns
  obtain ⟨g, new, adv⟩ := h owns
  refine ⟨⟨owns.session.advance adv new, fun x hx => (owns.scopes x hx).mono adv.grows,
    fun entry hentry => (owns.stack entry hentry).mono adv.grows⟩, g, new, ?_⟩
  exact ⟨adv, .refl _⟩

theorem works_of_session {s : Session} (h : r.session.Works b r.frame.document s) :
    r.Works b { r with session := s } := by
  refine works_of_advances fun owns => ?_
  obtain ⟨g, new, -, adv⟩ := h owns.session
  exact ⟨g, new.of_grows owns.session.base, adv⟩

/-- A change of the state of the script that refers to nothing else. -/
theorem works_of_frame {f : Frame} (continues : r.frame.Continues f)
    (scopes : r.Owns b → ∀ x ∈ f.scopes, x.IsNew b r.session.store)
    (stack : r.Owns b → ∀ entry ∈ f.stack, entry.2.IsNew b r.session.store) :
    r.Works b { r with frame := f } := by
  intro owns
  have session : r.session.Owns b f.document := continues.document ▸ owns.session
  refine ⟨⟨session, scopes owns, stack owns⟩, {}, Gain.isNew_empty _ _, ?_⟩
  exact ⟨.refl owns.session.base, continues⟩

end Running

namespace ScriptM

open Running

variable {b : Store} {r : Running} {e : Engine} {compiler : Compiler} {α : Type}

theorem frame_eq (r : Running) : frame r = (.ok r.frame, r) := rfl

theorem document_eq (r : Running) : document r = (.ok r.frame.document, r) := rfl

theorem modifyFrame_eq (f : Frame → Frame) (r : Running) :
    modifyFrame f r = (.ok (), { r with frame := f r.frame }) :=
  rfl

theorem lift_eq (m : SessionM α) (r : Running) :
    (liftM m : ScriptM α) r = ((m r.session).1, { r with session := (m r.session).2 }) :=
  rfl

/-! ## Names -/

/-- A name that is defined as a result was kept for it. -/
theorem lookup_of_defined? {f : Frame} {name : String} {result : Outcome}
    (h : defined? e f name = some (.kept result)) : f.kept.lookup name = some result := by
  unfold defined? at h
  cases looks : f.kept.lookup name with
  | some kept =>
    rw [looks] at h
    cases h
    rfl
  | none =>
    -- a name that nothing was kept for can stand for anything but a result
    rw [looks] at h
    dsimp only at h
    split at h
    · cases h
    · split at h
      · cases h
      · obtain ⟨b, -, same⟩ := Option.map_eq_some_iff.1 h
        cases same

/-- A name that is defined as one of the language is that. -/
theorem builtin?_of_defined? {f : Frame} {name : String} {b : Script.Builtin}
    (h : defined? e f name = some (.builtin b)) : e.language.builtin? name = some b := by
  unfold defined? at h
  split at h
  · cases h
  split at h
  · cases h
  split at h
  · cases h
  obtain ⟨b', known, same⟩ := Option.map_eq_some_iff.1 h
  cases same
  exact known

/-- A name that stands for an element or for a result is defined as that. -/
theorem defined?_of_resolve {name : String} {binding : Binding} {r' : Running}
    (h : resolve e name r = (.ok binding, r')) (ne : binding ≠ .nothing)
    (other : ∀ v, binding ≠ .value v) :
    defined? e r.frame name = some binding := by
  rw [resolve_eq] at h
  cases defined : defined? e r.frame name with
  | some found =>
    rw [defined] at h
    cases h
    rfl
  | none =>
    rw [defined] at h
    rcases found : r.session.table.find? name (some r.frame.document) with m | _ | p
    all_goals
      rw [found] at h
      cases h
    · exact absurd rfl ne
    · exact absurd rfl (other _)

/-- A name that stands for a result was kept for it. -/
theorem mem_kept_of_resolve {name : String} {result : Outcome} {r' : Running}
    (h : resolve e name r = (.ok (.kept result), r')) : (name, result) ∈ r.frame.kept := by
  obtain ⟨before, after, entries, -⟩ :=
    List.lookup_eq_some_iff.1 (lookup_of_defined? (defined?_of_resolve h nofun nofun))
  exact entries ▸ List.mem_append_right _ List.mem_cons_self

/-- A name that stands for an element is no function of the language. -/
theorem function?_of_resolve {name : String} {r' : Running}
    (h : resolve e name r = (.ok .element, r')) : function? e r.frame name = none := by
  unfold function?
  rw [defined?_of_resolve h nofun nofun]

/-- A name that is not defined is no function of the language. -/
theorem function?_of_undefined {f : Frame} {name : String} (undefined : defined? e f name = none) :
    function? e f name = none := by
  unfold function?
  rw [undefined]

/-! ## Calls -/

/-- A call that names an element is dispatched in the same state, with what its arguments come
to. -/
theorem of_prepare {c : Script.Call} {x : Application} {r r' : Running}
    (h : prepare e c r = (.ok x, r')) :
    r' = r ∧ resolve e c.element r = (.ok .element, r) ∧ ∃ positional pairs,
      evalItems e c.positional r = (.ok positional, r) ∧
      evalAttributes e c.attributes r = (.ok pairs, r) ∧
      dispatch e c.element positional (.ofSpellings pairs) r = (.ok x, r) := by
  obtain rfl : r = r' := (keeps_prepare e c).of_run (R := (· = ·)) h
  obtain ⟨binding, hb, h⟩ := (keeps_resolve e c.element).bind_eq_ok.1 h
  cases binding with
  | nothing => cases h
  | _ =>
    obtain ⟨positional, hp, h⟩ := (keeps_evalItems e c.positional).bind_eq_ok.1 h
    obtain ⟨attributes, ha, h⟩ := (keeps_evalAttributes e c.attributes).bind_eq_ok.1 h
    first
      | exact ⟨rfl, hb, positional, attributes, hp, ha, h⟩
      | cases h

theorem dispatch_of_prepare {c : Script.Call} {x : Application} {r r' : Running}
    (h : prepare e c r = (.ok x, r')) :
    r' = r ∧ ∃ positional pairs,
      dispatch e c.element positional (.ofSpellings pairs) r = (.ok x, r) := by
  obtain ⟨same, -, positional, pairs, -, -, dispatches⟩ := of_prepare h
  exact ⟨same, positional, pairs, dispatches⟩

theorem innermost_eq (r : Running) : innermost r = (.ok r.frame.innermostBody, r) := by
  unfold innermost
  rw [Step.run_bind_of_ok (frame_eq r)]
  unfold Frame.innermostBody
  cases r.frame.stack <;> rfl

/-- An element is looked up in the innermost block, unless it is given as an attribute of itself. -/
theorem run_dispatch (e : Engine) (name : String) (positional : List Value) (a : Attributes)
    (r : Running) :
    dispatch e name positional a r =
      (if a.has receiver then .error (.mishap (.argumentTwice (elementType ++ ".__call__") receiver))
        else match r.frame.innermostBody.element? e name with
          | none => .error (.parse (.misplaced r.frame.innermostBody.surroundings name))
          | some element => match element.signature.check positional a with
            | .error problem =>
              .error (.parse (.invalidArguments r.frame.innermostBody.owner name problem))
            | .ok () => .ok { element, positional, attributes := a }, r) := by
  unfold dispatch
  by_cases own : a.has receiver = true
  · rw [if_pos own, if_pos own]
    rfl
  · rw [if_neg own, if_neg own]
    show (innermost >>= _) r = _
    rw [Step.run_bind_of_ok (innermost_eq r)]
    cases r.frame.innermostBody.element? e name with
    | none => rfl
    | some element => cases h : element.signature.check positional a <;> simp only [h] <;> rfl

/-- What is dispatched is an element of the innermost block that the arguments fit. -/
theorem dispatch_ok {name : String} {positional : List Value} {a : Attributes} {x : Application}
    {r' : Running} (h : dispatch e name positional a r = (.ok x, r')) :
    ¬a.has receiver = true ∧ ∃ element, r.frame.innermostBody.element? e name = some element ∧
      element.signature.check positional a = .ok () ∧
        x = { element, positional, attributes := a } := by
  rw [run_dispatch] at h
  by_cases own : a.has receiver = true
  · rw [if_pos own] at h
    cases h
  rw [if_neg own] at h
  refine ⟨own, ?_⟩
  cases hx : r.frame.innermostBody.element? e name with
  | none =>
    simp only [hx] at h
    cases h
  | some element =>
    cases hc : element.signature.check positional a with
    | error problem =>
      simp only [hx, hc] at h
      cases h
    | ok _ =>
      simp only [hx, hc] at h
      cases h
      exact ⟨element, rfl, hc, rfl⟩

theorem attributes_of_dispatch {name : String} {positional : List Value} {a : Attributes}
    {x : Application} {r' : Running} (h : dispatch e name positional a r = (.ok x, r')) :
    x.attributes = a := by
  obtain ⟨-, element, -, -, rfl⟩ := dispatch_ok h
  rfl

/-- The element of a call is the one that its name stands for in the innermost block. -/
theorem element?_of_prepare {c : Script.Call} {x : Application} {r' : Running}
    (h : prepare e c r = (.ok x, r')) :
    r.frame.innermostBody.element? e c.element = some x.element := by
  obtain ⟨-, positional, pairs, h⟩ := dispatch_of_prepare h
  obtain ⟨-, element, stands, -, rfl⟩ := dispatch_ok h
  exact stands

theorem innermostBody_isNew {s : Store}
    (new : ∀ entry ∈ r.frame.stack, entry.2.IsNew b s) : r.frame.innermostBody.IsNew b s := by
  unfold Frame.innermostBody
  cases hs : r.frame.stack with
  | nil => trivial
  | cons entry rest => exact new entry (hs ▸ List.mem_cons_self)

/-- The element of a call works on what the script owns. -/
theorem prepare_isNew {c : Script.Call} {x : Application} {r' : Running} (owns : r.Owns b)
    (h : prepare e c r = (.ok x, r')) : x.element.IsNew b r.session.store :=
  Element.isNew_of_element? (element?_of_prepare h) (innermostBody_isNew owns.stack)

theorem works_newScope {x : Scope} (new : r.Owns b → x.IsNew b r.session.store) :
    r.Works b (newScope x r).2 := by
  refine works_of_frame ⟨rfl, rfl, fun i y hy => ⟨y, ?_, rfl, rfl⟩⟩ (fun owns y hy => ?_)
    fun owns => owns.stack
  · show (r.frame.scopes.push x)[i]? = some y
    have hi : i < r.frame.scopes.size := (Array.getElem?_eq_some_iff.1 hy).1
    rw [Array.getElem?_push_lt hi]
    exact (Array.getElem?_eq_getElem hi).symm.trans hy
  · rcases Array.mem_push.1 hy with hy | rfl
    · exact owns.scopes y hy
    · exact new owns

/-- A call is one of an element unless its name stands for a function of the language. -/
theorem call_eq_callElement {c : Script.Call} (other : function? e r.frame c.element = none) :
    call e compiler c r = callElement e compiler c r := by
  unfold call
  rw [Step.run_bind_of_ok (frame_eq r)]
  simp only [other]

theorem call_eq_callFunction {c : Script.Call} {f : Script.Builtin.Function}
    (stands : function? e r.frame c.element = some f) :
    call e compiler c r = callFunction e f c r := by
  unfold call
  rw [Step.run_bind_of_ok (frame_eq r)]
  simp only [stands]

/-- A function of the language gives a value or fails, and does nothing else. -/
theorem callFunction_eq (e : Engine) (f : Script.Builtin.Function) (c : Script.Call) (r : Running) :
    ∃ plain : Except Failure Value, callFunction e f c r = (plain.map .value, r) := by
  unfold callFunction
  obtain ⟨failure, items⟩ | ⟨positional, items⟩ := (keeps_evalItems e c.positional).run_cases r
  · exact ⟨.error failure, Step.run_bind_of_error items _⟩
  obtain ⟨failure, entries⟩ | ⟨pairs, entries⟩ := (keeps_evalAttributes e c.attributes).run_cases r
  · exact ⟨.error failure, by rw [Step.run_bind_of_ok items, Step.run_bind_of_error entries]; rfl⟩
  refine ⟨(f positional pairs).mapError .ofException, ?_⟩
  rw [Step.run_bind_of_ok items, Step.run_bind_of_ok entries]
  cases f positional pairs <;> rfl

/-- A function of the language is no element. -/
theorem prepare_of_function? {c : Script.Call} {f : Script.Builtin.Function}
    (stands : function? e r.frame c.element = some f) :
    ∃ failure, prepare e c r = (.error failure, r) := by
  rcases prepares : prepare e c r with ⟨failure | x, r'⟩
  · obtain rfl : r = r' := (keeps_prepare e c).of_run (R := (· = ·)) prepares
    exact ⟨failure, rfl⟩
  · obtain ⟨-, names, -⟩ := of_prepare prepares
    cases stands.symm.trans (function?_of_resolve names)

/-- A call whose arguments cannot be told does nothing. -/
theorem call_of_error {c : Script.Call} {failure : Failure} {r' : Running}
    (other : function? e r.frame c.element = none)
    (prepares : prepare e c r = (.error failure, r')) :
    call e compiler c r = (.error failure, r) := by
  obtain rfl : r = r' := (keeps_prepare e c).of_run (R := (· = ·)) prepares
  rw [call_eq_callElement other]
  exact Step.run_bind_of_error prepares _

/-- What a script gets from what an element has done. -/
def outcomeOf : Except Failure Result → ScriptM Outcome
  | .ok .nothing => pure .nothing
  | .ok (.object type) => pure (.object type)
  | .ok (.scope y) => newScope y
  | .error failure => throw failure

/-- A call does what its element does, and puts down what the element leaves behind. -/
theorem call_eq {c : Script.Call} {x : Application} {r' : Running} {result : Except Failure Result}
    {s : Session} (prepares : prepare e c r = (.ok x, r'))
    (acts : SessionM.act e compiler r.frame.document x.element x.positional x.attributes r.session =
      (result, s)) : call e compiler c r = outcomeOf result { r with session := s } := by
  obtain ⟨rfl, names, -⟩ := of_prepare prepares
  rw [call_eq_callElement (function?_of_resolve names)]
  unfold callElement
  rw [Step.run_bind_of_ok prepares, Step.run_bind_of_ok (document_eq _)]
  unfold perform
  rw [Step.run_bind, lift_eq, acts]
  rcases result with failure | _ | _ | _ <;> rfl

/-- What a call does: nothing if its arguments cannot be told or if it is one of a function of the
language, and otherwise what its element does. -/
theorem call_cases (e : Engine) (compiler : Compiler) (c : Script.Call) (r : Running) :
    (∃ plain failure, call e compiler c r = (Except.map .value plain, r) ∧
        prepare e c r = (.error failure, r)) ∨
      ∃ x result s, prepare e c r = (.ok x, r) ∧
        SessionM.act e compiler r.frame.document x.element x.positional x.attributes r.session =
          (result, s) ∧ call e compiler c r = outcomeOf result { r with session := s } := by
  cases stands : function? e r.frame c.element with
  | some f =>
    obtain ⟨plain, gives⟩ := callFunction_eq e f c r
    obtain ⟨failure, prepares⟩ := prepare_of_function? stands
    exact .inl ⟨plain, failure, (call_eq_callFunction stands).trans gives, prepares⟩
  | none => ?_
  rcases prepares : prepare e c r with ⟨failure | x, r'⟩
  · obtain rfl : r = r' := (keeps_prepare e c).of_run (R := (· = ·)) prepares
    exact .inl ⟨.error failure, failure, call_of_error stands prepares, rfl⟩
  · obtain rfl : r' = r := (dispatch_of_prepare prepares).1
    exact .inr ⟨x, _, _, rfl, rfl, call_eq prepares rfl⟩

/-- Only an element that leaves something behind to be opened changes more than the session. -/
theorem outcomeOf_cases (result : Except Failure Result) (r : Running) :
    (outcomeOf result r).2 = r ∨
      ∃ y, result = .ok (.scope y) ∧ outcomeOf result r = newScope y r := by
  rcases result with failure | _ | type | y
  · exact .inl rfl
  · exact .inl rfl
  · exact .inl rfl
  · exact .inr ⟨y, rfl, rfl⟩

theorem works_call (sound : compiler.IsSound) (c : Script.Call) :
    Keeps (Works b) (call e compiler c) := by
  intro r owns
  obtain ⟨plain, -, calls, -⟩ | ⟨x, result, s, prepares, acts, calls⟩ := call_cases e compiler c r
  all_goals rw [calls]
  · exact refl_of (Works b) r owns
  · have new := prepare_isNew owns prepares
    have session : r.Works b { r with session := s } :=
      works_of_session (SessionM.works_act sound new acts)
    obtain same | ⟨y, rfl, puts⟩ := outcomeOf_cases result { r with session := s }
    · rw [same]
      exact session owns
    · rw [puts]
      have left := SessionM.act_isNew owns.session.base new acts
      exact trans_of (Works b) session (works_newScope fun _ => left) owns

/-- What a successful call does: it gives a value and does nothing, or the element acts, and what it
leaves behind is put down. -/
theorem call_ok {c : Script.Call} {outcome : Outcome} {r₁ : Running}
    (h : call e compiler c r = (.ok outcome, r₁)) :
    (∃ v failure, outcome = .value v ∧ r₁ = r ∧ prepare e c r = (.error failure, r)) ∨
      ∃ x result, prepare e c r = (.ok x, r) ∧
      SessionM.act e compiler r.frame.document x.element x.positional x.attributes r.session =
        (.ok result, r₁.session) ∧
      r₁.frame.stack = r.frame.stack ∧ r₁.frame.kept = r.frame.kept ∧
      ∀ i, outcome = .scope i → ∃ y, result = .scope y ∧ r₁.frame.scopes[i]? = some y := by
  obtain ⟨failure | v, failure', calls, prepares⟩ | ⟨x, result, s, prepares, acts, calls⟩ :=
    call_cases e compiler c r
  all_goals rw [calls] at h
  · cases h
  · cases h
    exact .inl ⟨v, failure', rfl, rfl, prepares⟩
  · right
    rcases result with failure | _ | type | y
    · cases h
    · cases h
      exact ⟨x, _, prepares, acts, rfl, rfl, nofun⟩
    · cases h
      exact ⟨x, _, prepares, acts, rfl, rfl, nofun⟩
    · cases h
      refine ⟨x, _, prepares, acts, rfl, rfl, fun i hi => ⟨y, rfl, ?_⟩⟩
      cases hi
      exact Array.getElem?_push_size

/-- A call keeps nothing under a name. -/
theorem kept_of_call {c : Script.Call} {result : Except Failure Outcome} {r₁ : Running}
    (h : call e compiler c r = (result, r₁)) : r₁.frame.kept = r.frame.kept := by
  obtain rfl := congrArg Prod.snd h
  obtain ⟨plain, -, calls, -⟩ | ⟨x, result, s, -, -, calls⟩ := call_cases e compiler c r
  all_goals rw [calls]
  rcases result with failure | _ | type | y <;> rfl

/-! ## Blocks -/

/-- The block that a result is opened as is about what the result works on. -/
theorem openBody_isNew {d : DocumentId} {x : Opening} {body : Body} {s s' : Session}
    (new : x.IsNew b s.store) (h : openBody d x s = (.ok body, s')) : body.IsNew b s'.store := by
  cases x with
  | body inner =>
    cases h
    exact new
  | constraints owner name i =>
    cases h
    exact new.mono (SessionM.grows_modifyColumn i _ s)
  | visitors owner i a =>
    obtain ⟨filter, -, h⟩ := (SessionM.keeps_visitorFilter d a).bind_eq_ok.1 h
    cases h
    exact new

theorem writes_openBody {d : DocumentId} {x : Opening} {s : Store} (new : x.IsNew b s) :
    Keeps (Session.Writes b d) (openBody d x) := by
  cases x with
  | body inner => exact .pure _
  | constraints owner name i =>
    exact Keeps.bind (fun _ => .one (.modifyColumn new.1 _)) fun _ => .pure _
  | visitors owner i a => exact Keeps.bind (SessionM.keeps_visitorFilter d a) fun _ => .pure _

theorem quiet_openBody {d : DocumentId} {x : Opening} {s : Store} (owned : ¬b.Has d)
    (new : x.IsNew b s) : Keeps (Session.Quiet b d) (openBody d x) :=
  fun s => (writes_openBody new s).quiet owned

/-- What a document gains when a block is left. -/
def gainOf : Completion → Gain
  | .appendChangeSet i => { changeSets := [i] }
  | .setPreconditions c => { container := some c }
  | .nothing | .setChangeSetPreconditions .. => {}

theorem eq_of_mem_gainOf {x : Completion} {i : ChangeSetId} (h : i ∈ (gainOf x).changeSets) :
    x = .appendChangeSet i := by
  cases x with
  | appendChangeSet j =>
    obtain rfl := List.mem_singleton.1 h
    rfl
  | _ => cases h

theorem eq_of_mem_container_gainOf {x : Completion} {c : PreconditionId}
    (h : c ∈ (gainOf x).container) : x = .setPreconditions c := by
  cases x with
  | setPreconditions c' =>
    obtain rfl := Option.mem_some.1 h
    rfl
  | _ => cases h

theorem gainOf_isNew {x : Completion} {s : Store} (new : x.IsNew b s) : (gainOf x).IsNew b s := by
  cases x with
  | nothing => exact Gain.isNew_empty _ _
  | appendChangeSet i => exact Gain.isNew_changeSet new
  | setPreconditions c => exact Gain.isNew_container new
  | setChangeSetPreconditions i c => exact Gain.isNew_empty _ _

theorem complete_ok (d : DocumentId) (x : Completion) (s : Session) :
    (complete d x s).1 = .ok () := by
  cases x <;> rfl

/-- What remains to be done when a block is left. -/
theorem complete_advances {d : DocumentId} {x : Completion} {s : Session} (owns : s.Owns b d)
    (new : x.IsNew b s.store) : s.Advances b d (gainOf x) (complete d x s).2 := by
  cases x with
  | nothing => exact .refl owns.base
  | appendChangeSet i => exact SessionM.advances_append owns (.refl s) i
  | setPreconditions c =>
    exact SessionM.advances_modifyDocument owns.owned
      fun doc _ => ⟨(List.append_nil _).symm, (List.append_nil _).symm, rfl, rfl, rfl, rfl⟩
  | setChangeSetPreconditions i c =>
    exact SessionM.quiet_modifyChangeSet new.1.1 (f := fun s => { s with preconditions := some c })
      (fun _ => rfl) s owns.base owns.known

theorem works_complete {x : Completion} (new : r.Owns b → x.IsNew b r.session.store) :
    r.Works b { r with session := (complete r.frame.document x r.session).2 } := by
  refine works_of_advances fun owns => ?_
  have adv := complete_advances owns.session (new owns)
  exact ⟨gainOf x, (gainOf_isNew (new owns)).mono adv.grows, adv⟩

/-- What is done to one thing is done to its image if both commute. -/
theorem map_modify {β γ : Type} (g : β → γ) (f : β → β) (f' : γ → γ)
    (commutes : ∀ x, g (f x) = f' (g x)) (xs : Array β) (i : Nat) :
    (xs.modify i f).map g = (xs.map g).modify i f' := by
  refine Array.ext_getElem? fun j => ?_
  simp only [Array.getElem?_map, Array.getElem?_modify]
  split
  · rw [Option.map_map, Option.map_map]
    exact congrArg (Option.map · xs[j]?) (funext commutes)
  · rfl

/-- The frame in which a block is open. -/
def opened (i : ScopeId) (body : Body) (f : Frame) : Frame := {
  f with
  stack := (f.nextMark, body) :: f.stack
  scopes := f.scopes.modify i fun s => { s with mark := some f.nextMark }
  nextMark := f.nextMark + 1 }

theorem enter_eq (i : ScopeId) (r : Running) :
    enter i r =
      match openBody r.frame.document (r.frame.scopes[i]?.getD default).opening r.session with
      | (.ok body, s) => (.ok (), {
          session := s
          frame := opened i body { r.frame with pending := r.frame.pending.erase i } })
      | (.error failure, s) => (.error failure, {
          session := s
          frame := { r.frame with pending := r.frame.pending.erase i } }) := by
  unfold enter
  rw [Step.run_bind_of_ok (modifyFrame_eq _ _), Step.run_bind_of_ok (frame_eq _),
    Step.run_bind_of_ok (document_eq _), Step.run_bind, lift_eq]
  dsimp only
  rcases openBody r.frame.document (r.frame.scopes[i]?.getD default).opening r.session
    with ⟨_ | _, s⟩ <;> rfl

/-- A result that is opened becomes the innermost block, or it cannot be opened. -/
theorem enter_cases (i : ScopeId) (r : Running) :
    ∃ s, (∃ failure,
        openBody r.frame.document (r.frame.scopes[i]?.getD default).opening r.session =
          (.error failure, s) ∧
        enter i r = (.error failure, {
          session := s
          frame := { r.frame with pending := r.frame.pending.erase i } })) ∨
      ∃ body,
        openBody r.frame.document (r.frame.scopes[i]?.getD default).opening r.session =
          (.ok body, s) ∧
        enter i r = (.ok (), {
          session := s
          frame := opened i body { r.frame with pending := r.frame.pending.erase i } }) := by
  rw [enter_eq]
  rcases openBody r.frame.document (r.frame.scopes[i]?.getD default).opening r.session
    with ⟨failure | body, s⟩
  · exact ⟨s, .inl ⟨failure, rfl, rfl⟩⟩
  · exact ⟨s, .inr ⟨body, rfl, rfl⟩⟩

/-- The session is changed only by what the result is opened as. -/
theorem session_enter (i : ScopeId) (r : Running) : (enter i r).2.session =
    (openBody r.frame.document (r.frame.scopes[i]?.getD default).opening r.session).2 := by
  obtain ⟨s, ⟨failure, opens, enters⟩ | ⟨body, opens, enters⟩⟩ := enter_cases i r <;>
    rw [opens, enters]

/-- What opening a block does: the result is opened, and the block becomes the innermost one. -/
theorem enter_ok {i : ScopeId} {r₁ : Running} (h : enter i r = (.ok (), r₁)) :
    ∃ body, openBody r.frame.document (r.frame.scopes[i]?.getD default).opening r.session =
        (.ok body, r₁.session) ∧
      r₁.frame.stack = (r.frame.nextMark, body) :: r.frame.stack ∧
      r₁.frame.kept = r.frame.kept := by
  obtain ⟨s, ⟨failure, opens, enters⟩ | ⟨body, opens, enters⟩⟩ := enter_cases i r
  · cases enters.symm.trans h
  · cases enters.symm.trans h
    exact ⟨body, opens, rfl, rfl⟩

/-- A result that is opened as a block about a part is opened as such a block. -/
theorem openBody_inner {d : DocumentId} {x : Opening} {body : Body} {s s' : Session}
    (h : openBody d x s = (.ok body, s')) (inner : x.IsInner) : body.IsInner := by
  cases x with
  | body => cases h; exact inner
  | constraints => cases h; trivial
  | visitors owner i a =>
    obtain ⟨filter, s₁, -, h⟩ := Step.bind_eq_ok.1 h
    cases h
    trivial

theorem scope_isNew (owns : r.Owns b) (i : ScopeId) :
    (r.frame.scopes[i]?.getD default).IsNew b r.session.store := by
  cases h : r.frame.scopes[i]? with
  | none => exact ⟨trivial, trivial⟩
  | some x => exact owns.scopes x (Array.mem_of_getElem? h)

/-- Opening a result changes no more of the results than the mark of its block. -/
theorem exists_of_mem_opened {i : ScopeId} {body : Body} {f : Frame} {x : Scope}
    (hx : x ∈ (opened i body f).scopes) :
    ∃ y ∈ f.scopes, x.opening = y.opening ∧ x.completion = y.completion := by
  obtain ⟨j, hj⟩ := Array.mem_iff_getElem?.1 hx
  have hj : (f.scopes.modify i fun s => { s with mark := some f.nextMark })[j]? = some x := hj
  rw [Array.getElem?_modify] at hj
  split at hj
  · obtain ⟨y, hy, rfl⟩ := Option.map_eq_some_iff.1 hj
    exact ⟨y, Array.mem_of_getElem? hy, rfl, rfl⟩
  · exact ⟨x, Array.mem_of_getElem? hj, rfl, rfl⟩

theorem works_opened {i : ScopeId} {body : Body}
    (new : r.Owns b → body.IsNew b r.session.store) :
    r.Works b { r with frame := opened i body r.frame } := by
  refine works_of_frame ⟨rfl, rfl, fun j x hx => ?_⟩ (fun owns x hx => ?_) fun owns entry h => ?_
  · show ∃ x', (r.frame.scopes.modify i _)[j]? = some x' ∧ _
    rw [Array.getElem?_modify, hx]
    split
    · exact ⟨_, rfl, rfl, rfl⟩
    · exact ⟨x, rfl, rfl, rfl⟩
  · obtain ⟨y, hy, opening, completion⟩ := exists_of_mem_opened hx
    have new := owns.scopes y hy
    exact ⟨opening ▸ new.opening, completion ▸ new.completion⟩
  · rcases List.mem_cons.1 h with rfl | h
    · exact new owns
    · exact owns.stack entry h

theorem works_enter (i : ScopeId) : Keeps (Works b) (enter i) := by
  intro r owns
  have new := scope_isNew owns i
  have forget : ∀ r : Running, r.Works b
      { r with frame := { r.frame with pending := r.frame.pending.erase i } } := fun r =>
    works_of_frame ⟨rfl, rfl, fun _ x hx => ⟨x, hx, rfl, rfl⟩⟩ (fun owns => owns.scopes)
      fun owns => owns.stack
  obtain ⟨s, ⟨failure, opens, enters⟩ | ⟨body, opens, enters⟩⟩ := enter_cases i r
  all_goals
    rw [enters]
    have session : r.Works b { r with session := s } :=
      works_of_session ((quiet_openBody owns.session.owned new.opening).of_run opens).works
    have forgotten := trans_of (Works b) session (forget _)
  · exact forgotten owns
  · have bodyNew := openBody_isNew new.opening opens
    exact trans_of (Works b) forgotten (works_opened fun _ => bodyNew) owns

/-- The innermost block is taken away if it was opened last from the result. -/
theorem pop_of_mark {i : ScopeId} {mark : Nat} {body : Body} {rest : List (Nat × Body)}
    (stack : r.frame.stack = (mark, body) :: rest)
    (known : (r.frame.scopes[i]?).bind (·.mark) = some mark) :
    pop i r = (.ok body, { r with frame := { r.frame with stack := rest } }) := by
  unfold pop
  rw [Step.run_bind_of_ok (frame_eq _)]
  simp only [stack, known, beq_self_eq_true, if_true]
  rfl

/-- A block is left only if it is the innermost one and was opened last from the result. -/
theorem pop_cases (i : ScopeId) (r : Running) :
    (∃ mark body rest, r.frame.stack = (mark, body) :: rest ∧
      (r.frame.scopes[i]?).bind (·.mark) = some mark ∧
      pop i r = (.ok body, { r with frame := { r.frame with stack := rest } })) ∨
    pop i r = (.error (.parse (.outOfOrder r.frame.path)), r) := by
  cases hs : r.frame.stack with
  | nil =>
    unfold pop
    rw [Step.run_bind_of_ok (frame_eq _), hs]
    exact .inr rfl
  | cons entry rest =>
    obtain ⟨mark, body⟩ := entry
    by_cases h : (r.frame.scopes[i]?).bind (·.mark) = some mark
    · exact .inl ⟨mark, body, rest, rfl, h, pop_of_mark hs h⟩
    · refine .inr ?_
      unfold pop
      rw [Step.run_bind_of_ok (frame_eq _)]
      simp only [hs, beq_iff_eq, if_neg h]
      rfl

theorem works_pop (i : ScopeId) : Keeps (Works b) (pop i) := by
  intro r
  obtain ⟨mark, body, rest, hs, -, h⟩ | h := pop_cases i r <;> rw [h]
  · refine works_of_frame ⟨rfl, rfl, fun _ x hx => ⟨x, hx, rfl, rfl⟩⟩ (fun owns => owns.scopes) ?_
    exact fun owns entry h => owns.stack entry (hs ▸ List.mem_cons_of_mem _ h)
  · exact refl_of (Works b) r

/-- Leaving a block without a failure does what remains to be done. -/
theorem leave_ok {i : ScopeId} {body : Body} {r' : Running} (pops : pop i r = (.ok body, r')) :
    leave i (.ok ()) r = (.ok (), { r' with
      session := (complete r'.frame.document (r'.frame.scopes[i]?.getD default).completion
        r'.session).2 }) := by
  unfold leave
  rw [Step.run_bind_of_ok pops]
  dsimp only
  rw [Step.run_bind_of_ok (frame_eq r'), Step.run_bind_of_ok (document_eq r'), lift_eq, complete_ok]

/-- A block that is left without a failure was the innermost one. -/
theorem of_leave_ok {i : ScopeId} {result : Except Failure Unit} {r₁ : Running}
    (h : leave i result r = (.ok (), r₁)) :
    result = .ok () ∧ ∃ entry, r.frame.stack = entry :: r₁.frame.stack ∧
      r₁.frame.kept = r.frame.kept ∧ r.frame.Continues r₁.frame ∧
      r₁.session = (complete r.frame.document (r.frame.scopes[i]?.getD default).completion
        r.session).2 := by
  obtain ⟨mark, body, rest, stack, -, hp⟩ | hp := pop_cases i r
  · cases result with
    | error failure =>
      unfold leave at h
      rw [Step.run_bind_of_ok hp] at h
      cases failure <;> cases h
    | ok _ =>
      rw [leave_ok hp] at h
      cases h
      exact ⟨rfl, (mark, body), stack, rfl, ⟨rfl, rfl, fun _ x hx => ⟨x, hx, rfl, rfl⟩⟩, rfl⟩
  · unfold leave at h
    rw [Step.run_bind_of_error hp] at h
    cases h

/-- Leaving a block takes at most that block away, and does at most what remains to be done. -/
theorem leave_cases (i : ScopeId) (result : Except Failure Unit) (r : Running) :
    (∃ stack, stack <:+ r.frame.stack ∧ (leave i result r).2.frame = { r.frame with stack }) ∧
      ((leave i result r).2.session = r.session ∨ (leave i result r).2.session =
        (complete r.frame.document (r.frame.scopes[i]?.getD default).completion r.session).2) := by
  obtain ⟨mark, body, rest, stack, -, pops⟩ | pops := pop_cases i r
  · have shorter : rest <:+ r.frame.stack := stack ▸ List.suffix_cons _ _
    cases result with
    | error failure =>
      unfold leave
      rw [Step.run_bind_of_ok pops]
      cases failure <;> exact ⟨⟨rest, shorter, rfl⟩, .inl rfl⟩
    | ok _ =>
      rw [leave_ok pops]
      exact ⟨⟨rest, shorter, rfl⟩, .inr rfl⟩
  · unfold leave
    rw [Step.run_bind_of_error pops]
    exact ⟨⟨_, List.suffix_refl _, rfl⟩, .inl rfl⟩

theorem works_leave (i : ScopeId) (result : Except Failure Unit) :
    Keeps (Works b) (leave i result) := by
  intro r
  have popped : r.Works b (pop i r).2 := works_pop i r
  rcases hp : pop i r with ⟨failure | body, r'⟩ <;> rw [hp] at popped
  · unfold leave
    rw [Step.run_bind_of_error hp]
    exact popped
  · cases result with
    | error failure =>
      unfold leave
      rw [Step.run_bind_of_ok hp]
      cases failure <;> exact popped
    | ok _ =>
      rw [leave_ok hp]
      exact trans_of (Works b) popped (works_complete fun owns => (scope_isNew owns i).completion)

/-! ## Steps -/

theorem keeps_observe {R : Running → Running → Prop} {m : ScriptM α} (hm : Keeps R m) :
    Keeps R (observe m) := by
  intro r
  rw [run_observe]
  exact hm r

/-- A script keeps a relation whenever it makes a call or keeps a result, and whenever it opens a
block or leaves one. -/
structure Steady (e : Engine) (compiler : Compiler) (R : Running → Running → Prop) : Prop where
  call : ∀ c, Keeps R (call e compiler c)
  keep : ∀ name result, Keeps R (modifyFrame fun f => { f with kept := (name, result) :: f.kept })
  enter : ∀ i, Keeps R (enter i)
  leave : ∀ i result, Keeps R (leave i result)

theorem runNodes_cons (node : Script.Node) (rest : List Script.Node) :
    runNodes e compiler (node :: rest) = runNode e compiler node >>= fun _ =>
      runNodes e compiler rest :=
  rfl

theorem within_eq {i : ScopeId} {r' : Running} (enters : enter i r = (.ok (), r'))
    (steps : ScriptM Unit) : within i steps r = leave i (steps r').1 (steps r').2 := by
  unfold within
  rw [Step.run_bind_of_ok enters, Step.run_bind_of_ok (run_observe steps r')]

theorem within_of_enter_error {i : ScopeId} {failure : Failure} {r' : Running}
    (enters : enter i r = (.error failure, r')) (steps : ScriptM Unit) :
    within i steps r = (.error failure, r') := by
  unfold within
  rw [Step.run_bind_of_error enters]

theorem within_congr {i : ScopeId} {steps steps' : ScriptM Unit}
    (same : ∀ r', enter i r = (.ok (), r') → steps r' = steps' r') :
    within i steps r = within i steps' r := by
  rcases enters : enter i r with ⟨failure | _, r'⟩
  · rw [within_of_enter_error enters, within_of_enter_error enters]
  · rw [within_eq enters, within_eq enters, same r' enters]

/-- Steps run inside a block if it can be opened, they succeed, and it can be left. -/
theorem within_ok {i : ScopeId} {steps : ScriptM Unit} {r' : Running}
    (h : within i steps r = (.ok (), r')) :
    ∃ r₁ r₂, enter i r = (.ok (), r₁) ∧ steps r₁ = (.ok (), r₂) ∧
      leave i (.ok ()) r₂ = (.ok (), r') := by
  rcases enters : enter i r with ⟨failure | _, r₁⟩
  · rw [within_of_enter_error enters] at h
    cases h
  · rw [within_eq enters] at h
    rcases runs : steps r₁ with ⟨result, r₂⟩
    rw [runs] at h
    obtain ⟨rfl, -⟩ := of_leave_ok h
    exact ⟨r₁, r₂, rfl, runs, h⟩

/-- A call on its own ends where the call does. -/
theorem runNode_call_snd (c : Script.Call) (r : Running) :
    (runNode e compiler (.call c) r).2 = (call e compiler c r).2 := by
  rw [runNode, Step.state_bind_pure]

theorem runNode_block {c : Script.Call} {i : ScopeId} {r₁ : Running}
    (calls : call e compiler c r = (.ok (.scope i), r₁)) (body : List Script.Node) :
    runNode e compiler (.block c body) r = within i (runNodes e compiler body) r₁ := by
  rw [runNode, Step.run_bind_of_ok calls]

theorem runNode_reopen {name : String} {i : ScopeId} {r₁ : Running}
    (finds : keptScope e name .notABlock r = (.ok i, r₁)) (body : List Script.Node) :
    runNode e compiler (.reopen name body) r = within i (runNodes e compiler body) r₁ := by
  rw [runNode, Step.run_bind_of_ok finds]

theorem runNode_enter {name : String} {i : ScopeId} {r₁ : Running}
    (finds : keptScope e name (.noMember · "__enter__") r = (.ok i, r₁)) :
    runNode e compiler (.enter name) r = enter i r₁ := by
  rw [runNode, Step.run_bind_of_ok finds]

theorem runNode_exit {name : String} {i : ScopeId} {r₁ : Running}
    (finds : keptScope e name (.noMember · "__exit__") r = (.ok i, r₁)) :
    runNode e compiler (.exit name) r = leave i (.ok ()) r₁ := by
  rw [runNode, Step.run_bind_of_ok finds]

theorem runNode_attempt (body : List Script.Node) (r : Running) :
    runNode e compiler (.attempt body) r = (.ok (), (runNodes e compiler body r).2) := by
  rw [runNode, Step.run_bind_of_ok (run_observe _ r)]
  rfl

namespace Steady

variable {R : Running → Running → Prop} [IsPreorder Running R]

theorem within (steady : Steady e compiler R) (i : ScopeId) {steps : ScriptM Unit}
    (hs : Keeps R steps) : Keeps R (within i steps) :=
  Keeps.bind (steady.enter i) fun _ =>
    Keeps.bind (keeps_observe hs) fun result => steady.leave i result

mutual

/-- A step of a script keeps what the script keeps whenever it does something. -/
theorem runNode (steady : Steady e compiler R) (node : Script.Node) :
    Keeps R (runNode e compiler node) := by
  cases node with
  | call c => exact Keeps.bind (steady.call c) fun _ => .pure _
  | keep name c => exact Keeps.bind (steady.call c) fun result => steady.keep name result
  | block c body =>
    refine Keeps.bind (steady.call c) fun result => ?_
    cases result with
    | scope i => exact steady.within i (runNodes steady body)
    | _ => exact .throw _
  | reopen name body =>
    exact Keeps.bind (keeps_keptScope e name _) fun i => steady.within i (runNodes steady body)
  | enter name => exact Keeps.bind (keeps_keptScope e name _) fun i => steady.enter i
  | exit name => exact Keeps.bind (keeps_keptScope e name _) fun i => steady.leave i _
  | raise kind text => exact .throw _
  | attempt body => exact Keeps.bind (keeps_observe (runNodes steady body)) fun _ => .pure _

/-- So do the steps of a script. -/
theorem runNodes (steady : Steady e compiler R) (nodes : List Script.Node) :
    Keeps R (runNodes e compiler nodes) := by
  cases nodes with
  | nil => exact .pure _
  | cons node rest =>
    exact Keeps.bind (runNode steady node) fun _ => runNodes steady rest

end

end Steady

/-- Whatever a script does, it leaves alone what it does not own. -/
theorem works_steady (sound : compiler.IsSound) : Steady e compiler (Works b) where
  call := works_call sound
  keep _ _ _ := works_of_frame ⟨rfl, rfl, fun _ x hx => ⟨x, hx, rfl, rfl⟩⟩ (fun owns => owns.scopes)
    fun owns => owns.stack
  enter := works_enter
  leave := works_leave

end ScriptM

/-! ## The compile of a script -/

namespace Session

/-- The session in which one more script is open. -/
def opening (path : String) (s : Session) : Session := { s with chain := s.chain ++ [path] }

/-- The session in which the last script is closed. -/
def closing (s : Session) : Session := { s with chain := s.chain.dropLast }

theorem Advances.of_open {b : Store} {d : DocumentId} {g : Gain} {s s' : Session} {path : String}
    (h : Advances b d g (s.opening path) s') : Advances b d g s s'.closing where
  chain := by
    show s'.chain.dropLast = s.chain
    rw [h.chain]
    exact List.dropLast_concat
  deepens := h.deepens
  kept := h.kept
  document := h.document
  others := h.others
  tags := h.tags
  newDocuments := h.newDocuments

theorem Owns.opening {b : Store} {d : DocumentId} {s : Session} (h : Owns b d s) (path : String) :
    Owns b d (s.opening path) :=
  ⟨h.base, h.owned, h.document⟩

end Session

theorem Running.owns_start {b : Store} {d : DocumentId} {s : Session} (h : s.Owns b d)
    (path : String) : (Running.start path d s).Owns b where
  session := h
  scopes x hx := by cases Array.not_mem_empty x hx
  stack entry hentry := by
    obtain rfl := List.mem_singleton.1 hentry
    trivial

namespace SessionM

open Session

variable {e : Engine} {compiler : Compiler} {s s₁ : Session}

/-- A script that is closed is taken from the chain, whether it fails or not. -/
theorem inChain_eq {α : Type} (path : String) (steps : SessionM α) (s : Session) :
    inChain path steps s =
      ((steps (s.opening path)).1, (steps (s.opening path)).2.closing) := by
  unfold inChain
  rw [Step.run_bind_of_ok (Step.run_modify _ s), Step.run_bind_of_ok (run_observe steps _),
    Step.run_bind_of_ok (Step.run_modify _ _)]
  unfold opening closing
  generalize steps _ = out
  obtain ⟨_ | _, s'⟩ := out <;> rfl

@[grind ←] theorem keeps_ofReading {R : Session → Session → Prop} [IsPreorder Session R]
    (path : String) (reading : Script.Reading) : Keeps R (ofReading path reading) := by
  cases reading with
  | steps nodes => exact .pure _
  | invalid fault => exact keeps_reject _ _
  | abandoned x => exact .throw _

@[grind ←] theorem keeps_scriptOf {R : Session → Session → Prop} [IsPreorder Session R]
    (path : String) (file : SourceFile) : Keeps R (scriptOf e path file) := by
  cases file with
  | script nodes => exact Keeps.bind (keeps_ofMishap _) fun _ => .pure _
  | broken => exact Keeps.bind (keeps_ofMishap _) fun _ => keeps_reject _ _
  | bytes bytes =>
    cases bytes with
    | nil => exact .pure _
    | cons byte rest =>
      refine Keeps.bind (keeps_ofMishap _) fun encoding => ?_
      cases encoding.decode (byte :: rest) with
      | ok text => exact keeps_ofReading _ _
      | error fault => exact keeps_reject _ _

/-- Bytes that can be decoded are read by the language. -/
theorem scriptOf_of_decode {bytes : List UInt8} {encoding : Encoding} {text : String}
    (some : bytes ≠ []) (known : e.encoding = .ok encoding)
    (decodes : encoding.decode bytes = .ok text) (path : String) :
    scriptOf e path (.bytes bytes) = ofReading path (e.language.read text) := by
  obtain ⟨byte, rest, rfl⟩ := List.exists_cons_of_ne_nil some
  funext s
  have encodes : ofMishap e.encoding s = (.ok encoding, s) := by rw [known]; rfl
  dsimp only [scriptOf]
  rw [Step.run_bind_of_ok encodes, decodes]

theorem ofResource_ok {α : Type} (x : α) (s : Session) : ofResource (.ok x) s = (.ok x, s) := rfl

theorem of_ofResource_ok {α : Type} {x : Except ResourceError α} {y : α}
    (h : ofResource x s = (.ok y, s₁)) : x = .ok y := by
  cases x with
  | error failure => cases h
  | ok _ =>
    cases h
    rfl

theorem of_ofMishap_ok {α : Type} {x : Except Mishap α} {y : α}
    (h : ofMishap x s = (.ok y, s₁)) : x = .ok y := by
  cases x with
  | error failure => cases h
  | ok _ =>
    cases h
    rfl

/-- What happens when a script is opened, one after the other. -/
theorem of_openScript_ok {r : Request} {o : Opened} (h : openScript e r s = (.ok o, s₁)) :
    ∃ file logicalPath, e.sources.resolve none r.path = .ok o.path ∧
      e.sources.read none o.path = .ok file ∧ scriptOf e o.path file s = (.ok o.nodes, s) ∧
      newDocument { r with path := o.path } logicalPath s = (.ok o.document, s₁) := by
  obtain ⟨path, resolves, h⟩ := (keeps_ofResource _).bind_eq_ok.1 h
  obtain ⟨file, reads, h⟩ := (keeps_ofResource _).bind_eq_ok.1 h
  obtain ⟨nodes, takes, h⟩ := (keeps_scriptOf path file).bind_eq_ok.1 h
  cases hl : r.logicalPath.textOrNull? with
  | none =>
    simp only [hl] at h
    cases h
  | some logicalPath =>
    simp only [hl] at h
    obtain ⟨document, s₃, puts, h⟩ := Step.bind_eq_ok.1 h
    cases h
    exact ⟨file, logicalPath, of_ofResource_ok resolves, of_ofResource_ok reads, takes, puts⟩

/-- A script that is there is opened, if the encoding of scripts is known and the path that stands
for it is text. -/
theorem openScript_eq {r : Request} {path : String} {nodes : List Script.Node} {encoding : Encoding}
    {logicalPath : Option String} (resolves : e.sources.resolve none r.path = .ok path)
    (reads : e.sources.read none path = .ok (.script nodes))
    (known : Encoding.ofName? e.settings.scriptEncoding = some encoding)
    (text : r.logicalPath.textOrNull? = some logicalPath) (s : Session) :
    openScript e r s = (.ok { path, nodes, document := s.store.documents.next },
      (newDocument { r with path } logicalPath s).2) := by
  have takes : scriptOf e path (.script nodes) s = (.ok nodes, s) := by
    unfold scriptOf Engine.encoding
    rw [known]
    rfl
  unfold openScript
  rw [resolves, Step.run_bind_of_ok (ofResource_ok path s), reads,
    Step.run_bind_of_ok (ofResource_ok _ s), Step.run_bind_of_ok takes, text]
  rfl

/-- Opening a script resolves its path, reads it, and puts down a document that it owns. -/
theorem openScript_ok {r : Request} {o : Opened} (h : openScript e r s = (.ok o, s₁)) :
    e.sources.resolve none r.path = .ok o.path ∧ s.Extends s₁ ∧ Owns s.store o.document s₁ ∧
      ∃ d, s₁.store.documents.get? o.document = some d ∧ d.inheritance = r.inheritance ∧
        d.changeSets = [] ∧ d.removals = [] := by
  obtain ⟨-, logicalPath, resolves, -, -, puts⟩ := of_openScript_ok h
  refine ⟨resolves, (extends_newDocument _ _).of_run puts, owns_newDocument puts, ?_⟩
  rw [newDocument_eq] at puts
  obtain ⟨document, rfl⟩ := Prod.mk.inj puts
  rw [← Except.ok.inj document]
  exact ⟨_, (Pool.get?_add ..).trans (if_pos rfl), rfl, rfl, rfl⟩

/-- Opening a script at most puts down a document. -/
theorem keeps_openScript {R : Session → Session → Prop} [IsPreorder Session R]
    (puts : ∀ r logicalPath, Keeps R (newDocument r logicalPath)) (r : Request) :
    Keeps R (openScript e r) := by
  refine Keeps.bind (keeps_ofResource _) fun path => ?_
  refine Keeps.bind (keeps_ofResource _) fun file => ?_
  refine Keeps.bind (keeps_scriptOf path file) fun nodes => ?_
  cases r.logicalPath.textOrNull? with
  | none => exact .throw _
  | some logicalPath => exact Keeps.bind (puts _ _) fun document => .pure _

/-- What a script leaves the session as, the check of what it has not opened aside. -/
theorem session_runScript (path : String) (d : DocumentId) (nodes : List Script.Node)
    (s : Session) : (runScript e compiler path d nodes s).2 =
      (ScriptM.runNodes e compiler nodes (.start path d s)).2.session := by
  unfold runScript
  rcases ScriptM.runNodes e compiler nodes (.start path d s) with ⟨_ | _, r⟩
  · rfl
  · exact congrArg Running.session (ScriptM.keeps_checkPending (R := (· = ·)) r).symm

/-- What running a script does to the document that it owns. -/
theorem advances_runScript (sound : compiler.IsSound) {b : Store} {d : DocumentId}
    (owns : Owns b d s) (path : String) (nodes : List Script.Node) :
    ∃ g : Gain, g.IsNew b (runScript e compiler path d nodes s).2.store ∧
      Advances b d g s (runScript e compiler path d nodes s).2 := by
  obtain ⟨-, g, new, adv⟩ := (ScriptM.works_steady (e := e) sound).runNodes nodes (.start path d s)
    (Running.owns_start owns path)
  rw [session_runScript]
  exact ⟨g, new, adv.session⟩

theorem runScript_ok {d : DocumentId} {path : String} {nodes : List Script.Node}
    (h : runScript e compiler path d nodes s = (.ok (), s₁)) :
    ∃ r, ScriptM.runNodes e compiler nodes (.start path d s) = (.ok (), r) ∧
      ScriptM.checkPending r = (.ok (), r) ∧ s₁ = r.session := by
  unfold runScript at h
  rcases hr : ScriptM.runNodes e compiler nodes (.start path d s) with ⟨_ | _, r⟩ <;> rw [hr] at h
  · cases h
  · rcases hc : ScriptM.checkPending r with ⟨_ | _, r'⟩
    all_goals
      obtain rfl : r = r' := ScriptM.keeps_checkPending.of_run (R := (· = ·)) hc
      dsimp only at h
      rw [hc] at h
      cases h
    exact ⟨r, rfl, hc, rfl⟩

/-- What a successful compile of a script does. -/
theorem compileWithin_ok {r : Request} {d : DocumentId}
    (h : compileWithin e compiler r s = (.ok d, s₁)) :
    ∃ o s₂ running, openScript e r s = (.ok o, s₂) ∧
      ScriptM.runNodes e compiler o.nodes (.start o.path o.document (s₂.opening o.path)) =
        (.ok (), running) ∧
      ScriptM.checkPending running = (.ok (), running) ∧ d = o.document ∧
      s₁ = running.session.closing := by
  obtain ⟨o, s₂, opens, h⟩ := Step.bind_eq_ok.1 h
  obtain ⟨_, s₃, runs, h⟩ := Step.bind_eq_ok.1 h
  cases h
  rw [inChain_eq] at runs
  rcases hr : runScript e compiler o.path o.document o.nodes (s₂.opening o.path) with ⟨_ | _, s₄⟩
  all_goals
    rw [hr] at runs
    cases runs
  obtain ⟨running, ran, checked, rfl⟩ := runScript_ok hr
  exact ⟨o, s₂, running, opens, ran, checked, rfl, rfl⟩

/-- The compile of a script leaves alone what was there, and makes a document for its request. -/
theorem compiles_compileWithin (sound : compiler.IsSound) (r : Request) :
    Compiles r (compileWithin e compiler r) := by
  have spec : ∀ s, s.Extends (compileWithin e compiler r s).2 ∧
      ∀ i s', compileWithin e compiler r s = (.ok i, s') → ¬s.store.Has i ∧
        ∃ d, s'.store.documents.get? i = some d ∧ d.inheritance = r.inheritance := by
    intro s
    unfold compileWithin
    rcases ho : openScript e r s with ⟨failure | o, s₁⟩
    · rw [Step.run_bind_of_error ho]
      exact ⟨(keeps_openScript extends_newDocument r).of_run ho, fun _ _ h => by cases h⟩
    · obtain ⟨-, hs, owns, d, hd, inherits, -, -⟩ := openScript_ok ho
      obtain ⟨g, new, adv⟩ := advances_runScript (e := e) sound (owns.opening o.path) o.path o.nodes
      rw [Step.run_bind_of_ok ho, Step.run_bind, inChain_eq]
      have extends_ := hs.advance owns adv.of_open new
      rcases hr : (runScript e compiler o.path o.document o.nodes (s₁.opening o.path)).1 with _ | _
      · exact ⟨extends_, fun _ _ h => by cases h⟩
      · refine ⟨extends_, fun i s' h => ?_⟩
        cases h
        obtain ⟨d', hd', gains⟩ := adv.document d hd
        exact ⟨owns.owned, d', hd', gains.inheritance.trans inherits⟩
  exact ⟨fun s => (spec s).1, fun h => (spec _).2 _ _ h⟩

/-- A change log is compiled as an included file is by the same parser. -/
theorem compileChangeLog_eq {path : String} {parser : Parser}
    (takes : e.parser? path = some parser) :
    compileChangeLog e path =
      compileWith e (some (compileScript e (e.settings.maxIncludeDepth - 1))) parser { path } := by
  unfold compileChangeLog
  rw [takes]
  cases parser <;> rfl

/-- A change log that no parser takes is not compiled. -/
theorem exists_parser_of_compileChangeLog {path : String} {d : DocumentId}
    (h : compileChangeLog e path s = (.ok d, s₁)) : ∃ parser, e.parser? path = some parser := by
  unfold compileChangeLog at h
  cases takes : e.parser? path with
  | none =>
    rw [takes] at h
    cases h
  | some parser => exact ⟨parser, rfl⟩

end SessionM

/-- A compile that has a document has succeeded. -/
theorem Engine.compile_ok {e : Engine} {table : Table} {path : String} {d : DraftDocument}
    (h : (e.compile table path).document? = some d) :
    ∃ root s, SessionM.compileChangeLog e path { table } = (.ok root, s) ∧
      (e.compile table path).session = s ∧ s.store.documents.get? root = some d := by
  unfold Compilation.document? Engine.compile at h
  unfold Engine.compile
  rcases run : SessionM.compileChangeLog e path { table } with ⟨_ | root, s⟩
  all_goals simp only [run] at h
  · cases h
  · exact ⟨root, s, rfl, rfl, h⟩

end Migration
