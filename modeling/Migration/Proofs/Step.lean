import Mathlib.Order.Defs.Unbundled
import Migration.Compile.Run

/-!
# Steps

A step reads and changes a state and may fail, and what it has done stays done when it fails. How
two steps in a row run, and which of the steps of scripts only read.

* `Step.run_bind`, `Step.bind_eq_ok` — two steps in a row
* `Keeps` — what a step does to the state, whether it fails or not, stays within a relation
* `Keeps.run_cases`, `Keeps.bind_eq_ok` — a step that changes nothing
* `Gives` — what a step gives has a property
* `SessionM.keeps_newChangeSet`, `SessionM.keeps_readInclude`, `ScriptM.keeps_prepare` — reading
  attributes and arguments changes nothing
-/

namespace Migration

variable {σ α β : Type}

namespace Step

/-! ## Steps in a row -/

/-- The second step runs from where the first one ended, unless that failed. -/
theorem run_bind (m : ExceptT Failure (StateM σ) α) (f : α → ExceptT Failure (StateM σ) β) (s : σ) :
    (m >>= f) s = match m s with
      | (.ok a, s') => f a s'
      | (.error e, s') => (.error e, s') := by
  show (ExceptT.bindCont f (m s).1) (m s).2 = _
  rcases m s with ⟨_ | a, s'⟩ <;> rfl

/-- Two steps in a row succeed if both do. -/
theorem bind_eq_ok {m : ExceptT Failure (StateM σ) α} {f : α → ExceptT Failure (StateM σ) β}
    {s s'' : σ} {b : β} :
    (m >>= f) s = (.ok b, s'') ↔ ∃ a s', m s = (.ok a, s') ∧ f a s' = (.ok b, s'') := by
  rw [run_bind]
  constructor
  · intro h
    rcases hm : m s with ⟨_ | a, s'⟩ <;> rw [hm] at h
    · cases h
    · exact ⟨a, s', rfl, h⟩
  · rintro ⟨a, s', hm, hf⟩
    rw [hm]
    exact hf

theorem run_bind_of_ok {m : ExceptT Failure (StateM σ) α} {s s' : σ} {a : α}
    (hm : m s = (.ok a, s')) (f : α → ExceptT Failure (StateM σ) β) : (m >>= f) s = f a s' := by
  rw [run_bind, hm]

theorem run_bind_of_error {m : ExceptT Failure (StateM σ) α} {s s' : σ} {e : Failure}
    (hm : m s = (.error e, s')) (f : α → ExceptT Failure (StateM σ) β) :
    (m >>= f) s = (.error e, s') := by
  rw [run_bind, hm]

theorem run_bind_congr {m m' : ExceptT Failure (StateM σ) α} {s s' : σ} (h : m s = m' s')
    (f : α → ExceptT Failure (StateM σ) β) : (m >>= f) s = (m' >>= f) s' := by
  rw [run_bind, run_bind, h]

/-- A step that only gives something leaves the state as it is. -/
theorem state_bind_pure (m : ExceptT Failure (StateM σ) α) (f : α → β) (s : σ) :
    ((m >>= fun a => pure (f a)) s).2 = (m s).2 := by
  rw [run_bind]
  rcases m s with ⟨_ | a, s'⟩ <;> rfl

/-- A result is one of a success if something is seen of it. -/
theorem ok_of_map {x : Except Failure α} {g : α → β} {b : β} (h : x.toOption.map g = some b) :
    ∃ a, x = .ok a ∧ g a = b := by
  cases x with
  | error failure => cases h
  | ok a => exact ⟨a, rfl, Option.some.inj h⟩

/-- A step succeeds if something is seen of what it gives. -/
theorem eq_ok_of_map {m : ExceptT Failure (StateM σ) α} {s : σ} {g : α → β} {b : β}
    (h : (m s).1.toOption.map g = some b) : ∃ a s', m s = (.ok a, s') ∧ g a = b := by
  obtain ⟨a, result, seen⟩ := ok_of_map h
  exact ⟨a, (m s).2, Prod.ext result rfl, seen⟩

theorem run_modify (f : σ → σ) (s : σ) :
    (modify f : ExceptT Failure (StateM σ) PUnit) s = (.ok ⟨⟩, f s) :=
  rfl

/-- A step whose failure is handed on as a value does what it does without that. -/
theorem run_observe (m : ExceptT Failure (StateM σ) α) (s : σ) :
    (tryCatch (Except.ok <$> m) fun e => pure (.error e) :
      ExceptT Failure (StateM σ) (Except Failure α)) s = (.ok (m s).1, (m s).2) := by
  simp only [tryCatch, tryCatchThe, MonadExceptOf.tryCatch, ExceptT.tryCatch, ExceptT.mk,
    Functor.map, ExceptT.map, StateT.bind, bind]
  rcases m s with ⟨_ | a, s'⟩ <;> rfl

end Step

theorem SessionM.run_observe (m : SessionM α) (s : Session) :
    SessionM.observe m s = (.ok (m s).1, (m s).2) :=
  Step.run_observe m s

/-- A check that passes gives what it checks and does nothing else. -/
theorem SessionM.ofCheck_of_ok {x : Except ParseFailure α} {a : α} (h : x = .ok a) (s : Session) :
    ofCheck x s = (.ok a, s) := by
  rw [h]
  rfl

theorem ScriptM.run_observe (m : ScriptM α) (r : Running) :
    ScriptM.observe m r = (.ok (m r).1, (m r).2) :=
  Step.run_observe m r

/-! ## What steps keep -/

/-- Steps that change the state only as a relation allows, whether they fail or not. -/
def Keeps (R : σ → σ → Prop) (m : ExceptT Failure (StateM σ) α) : Prop := ∀ s, R s (m s).2

namespace Keeps

variable {R : σ → σ → Prop} [IsPreorder σ R]

@[grind ←] theorem pure (a : α) : Keeps R (Pure.pure a : ExceptT Failure (StateM σ) α) :=
  fun s => refl_of R s

@[grind ←] theorem throw (e : Failure) :
    Keeps R (MonadExcept.throw e : ExceptT Failure (StateM σ) α) :=
  fun s => refl_of R s

@[grind ←] theorem get : Keeps R (MonadState.get : ExceptT Failure (StateM σ) σ) :=
  fun s => refl_of R s

@[grind ←] theorem getThe : Keeps R (MonadStateOf.get : ExceptT Failure (StateM σ) σ) :=
  fun s => refl_of R s

/-- What a first step and one after it do together, if the second one follows a success of the
first. -/
theorem run_bind_of_ok {m : ExceptT Failure (StateM σ) α} {f : α → ExceptT Failure (StateM σ) β}
    {s s' : σ} (first : R s (m s').2) (hf : ∀ a s'', m s' = (.ok a, s'') → R s'' (f a s'').2) :
    R s ((m >>= f) s').2 := by
  rw [Step.run_bind]
  rcases hm : m s' with ⟨_ | a, s''⟩ <;> rw [hm] at first
  · exact first
  · exact trans_of R first (hf a s'' hm)

/-- What a first step and one after it do together. -/
theorem run_bind {m : ExceptT Failure (StateM σ) α} {f : α → ExceptT Failure (StateM σ) β}
    {s s' : σ} (first : R s (m s').2) (hf : ∀ a, Keeps R (f a)) : R s ((m >>= f) s').2 :=
  run_bind_of_ok first fun a s'' _ => hf a s''

@[grind ←] theorem bind {m : ExceptT Failure (StateM σ) α} {f : α → ExceptT Failure (StateM σ) β}
    (hm : Keeps R m) (hf : ∀ a, Keeps R (f a)) : Keeps R (m >>= f) :=
  fun s => run_bind (hm s) hf

@[grind ←] theorem map {m : ExceptT Failure (StateM σ) α} (g : α → β) (hm : Keeps R m) :
    Keeps R (g <$> m) := by
  rw [map_eq_pure_bind]
  exact bind hm fun a => pure _

omit [IsPreorder σ R] in
theorem ite {c : Prop} [Decidable c] {m n : ExceptT Failure (StateM σ) α} (hm : Keeps R m)
    (hn : Keeps R n) : Keeps R (if c then m else n) := by
  split <;> assumption

omit [IsPreorder σ R] in
theorem of_run {m : ExceptT Failure (StateM σ) α} {s s' : σ} {x : Except Failure α}
    (hm : Keeps R m) (h : m s = (x, s')) : R s s' := by
  have := hm s
  rwa [h] at this

omit [IsPreorder σ R] in
/-- A step that changes nothing fails or gives something where it is. -/
theorem run_cases {m : ExceptT Failure (StateM σ) α} (hm : Keeps (· = ·) m) (s : σ) :
    (∃ failure, m s = (.error failure, s)) ∨ ∃ a, m s = (.ok a, s) := by
  rcases run : m s with ⟨failure | a, s'⟩
  all_goals obtain rfl : s = s' := hm.of_run run
  · exact .inl ⟨failure, rfl⟩
  · exact .inr ⟨a, rfl⟩

omit [IsPreorder σ R] in
/-- After a step that changes nothing the next one runs in the same state. -/
theorem bind_eq_ok {m : ExceptT Failure (StateM σ) α} {f : α → ExceptT Failure (StateM σ) β} {s s' : σ}
    {b : β} (hm : Keeps (· = ·) m) :
    (m >>= f) s = (.ok b, s') ↔ ∃ a, m s = (.ok a, s) ∧ f a s = (.ok b, s') := by
  rw [Step.bind_eq_ok]
  constructor
  · rintro ⟨a, s'', run, rest⟩
    obtain rfl : s = s'' := hm.of_run run
    exact ⟨a, run, rest⟩
  · rintro ⟨a, run, rest⟩
    exact ⟨a, s, run, rest⟩

/-- A step that changes nothing stays within every relation. -/
theorem of_eq {m : ExceptT Failure (StateM σ) α} (hm : Keeps (· = ·) m) : Keeps R m := by
  intro s
  have same : s = (m s).2 := hm s
  rw [← same]
  exact refl_of R s

end Keeps

/-! ## What steps give -/

/-- What a step gives, if it succeeds, has a property. -/
def Gives (P : α → Prop) (m : ExceptT Failure (StateM σ) α) : Prop :=
  ∀ s a s', m s = (.ok a, s') → P a

namespace Gives

variable {P : β → Prop}

theorem pure {b : β} (h : P b) : Gives P (Pure.pure b : ExceptT Failure (StateM σ) β) := by
  intro s a s' runs
  cases runs
  exact h

/-- What would follow a failure does not matter. -/
theorem throw_bind (e : Failure) (f : α → ExceptT Failure (StateM σ) β) :
    Gives P (MonadExcept.throw e >>= f) := by
  intro s a s' runs
  cases runs

theorem bind {m : ExceptT Failure (StateM σ) α} {f : α → ExceptT Failure (StateM σ) β}
    (h : ∀ a, Gives P (f a)) : Gives P (m >>= f) := by
  intro s b s'' runs
  obtain ⟨a, s', -, runs⟩ := Step.bind_eq_ok.1 runs
  exact h a s' b s'' runs

theorem ite {c : Prop} [Decidable c] {m n : ExceptT Failure (StateM σ) β} (hm : Gives P m)
    (hn : Gives P n) : Gives P (if c then m else n) := by
  split <;> assumption

end Gives

namespace SessionM

variable {R : Session → Session → Prop} [IsPreorder Session R]

/-! ## Reading attributes -/

@[grind ←] theorem keeps_reject (failure : ParseFailure) (cause : Option BindError) :
    Keeps R (reject failure cause : SessionM α) :=
  Keeps.throw _

@[grind ←] theorem keeps_ofFilter (x : Except Filter.Malformed α) : Keeps R (ofFilter x) := by
  cases x <;> grind [ofFilter]

@[grind ←] theorem keeps_ofMishap (x : Except Mishap α) : Keeps R (ofMishap x) := by
  cases x <;> grind [ofMishap]

@[grind ←] theorem keeps_ofCheck (x : Except ParseFailure α) : Keeps R (ofCheck x) := by
  cases x <;> grind [ofCheck]

@[grind ←] theorem keeps_ofResource (x : Except ResourceError α) : Keeps R (ofResource x) := by
  cases x <;> grind [ofResource]

@[grind ←] theorem keeps_ofExtension (x : Except Extensions.Problem α) :
    Keeps R (ofExtension x) := by
  cases x <;> grind [ofExtension]

@[grind ←] theorem keeps_expand (d : DocumentId) (v : Value) : Keeps R (expand d v) := by
  grind [expand]

@[grind ←] theorem keeps_document (d : DocumentId) : Keeps R (SessionM.document d) := by
  grind [SessionM.document]

@[grind ←] theorem keeps_change (i : ChangeId) : Keeps R (SessionM.change i) := by
  grind [SessionM.change]

@[grind ←] theorem keeps_contextFilter (d : DocumentId) (a : Attributes) :
    Keeps R (contextFilter d a) := by
  grind [contextFilter]

@[grind ←] theorem keeps_labels (d : DocumentId) (a : Attributes) : Keeps R (labels d a) := by
  grind [labels]

@[grind ←] theorem keeps_fill (d : DocumentId) (owner : String) (target : Target) (r : Record)
    (a : Attributes) : Keeps R (fill d owner target r a) := by
  induction a generalizing r with
  | nil => grind [fill]
  | cons entry rest ih => grind [fill]

@[grind ←] theorem keeps_newRecord (d : DocumentId) (owner element : String) (target : Target)
    (type : RecordType) (positional : List Value) (a : Attributes) :
    Keeps R (newRecord d owner element target type positional a) := by
  grind [newRecord]

@[grind ←] theorem keeps_choice (kind : Choice.Kind) (v : Value) (failure : String → ParseFailure) :
    Keeps R (choice kind v failure) := by
  grind [choice]

@[grind ←] theorem keeps_quotingStrategy (d : DocumentId) (owner : String) (a : Attributes) :
    Keeps R (quotingStrategy d owner a) := by
  grind [quotingStrategy]

@[grind ←] theorem keeps_changeSetPath (d : DocumentId) (a : Attributes) :
    Keeps R (changeSetPath d a) := by
  grind [changeSetPath]

@[grind ←] theorem keeps_optionalParts (d : DocumentId) (owner : String) (a : Attributes)
    (s : DraftChangeSet) : Keeps R (optionalParts d owner a s) := by
  grind [optionalParts]

@[grind ←] theorem keeps_newChangeSet (d : DocumentId) (a : Attributes) :
    Keeps R (newChangeSet d a) := by
  unfold newChangeSet
  refine Keeps.bind (keeps_ofCheck _) fun _ => ?_
  refine Keeps.bind (keeps_quotingStrategy _ _ _) fun _ => ?_
  refine Keeps.bind (keeps_changeSetPath _ _) fun _ => ?_
  refine Keeps.bind (keeps_contextFilter _ _) fun _ => ?_
  refine Keeps.bind (keeps_expand _ _) fun _ => ?_
  refine Keeps.bind (keeps_expand _ _) fun _ => ?_
  grind

@[grind ←] theorem keeps_readRemoval (e : Engine) (d : DocumentId) (a : Attributes) :
    Keeps R (readRemoval e d a) := by
  unfold readRemoval
  refine Keeps.bind (keeps_ofCheck _) fun _ => ?_
  refine Keeps.bind (keeps_expand _ _) fun _ => ?_
  refine Keeps.bind (keeps_expand _ _) fun _ => ?_
  refine Keeps.bind (keeps_ofMishap _) fun databases => ?_
  refine Keeps.bind (keeps_expand _ _) fun _ => ?_
  cases databases <;> grind

@[grind ←] theorem keeps_visitorFilter (d : DocumentId) (a : Attributes) :
    Keeps R (ScriptM.visitorFilter d a) := by
  grind [ScriptM.visitorFilter]

/-! ## Finding files -/

@[grind ←] theorem keeps_expandPath (d : DocumentId) (v : Value) (name element : String) :
    Keeps R (expandPath d v name element) := by
  grind [expandPath]

@[grind ←] theorem keeps_startingPath (d : DocumentId) (relative : Bool) :
    Keeps R (startingPath d relative) := by
  grind [startingPath]

@[grind ←] theorem keeps_expandDepth (d : DocumentId) (v : Value) (name element : String) :
    Keeps R (expandDepth d v name element) := by
  grind [expandDepth]

@[grind ←] theorem keeps_namedFilter (e : Engine) (d : DocumentId) (v : Value) :
    Keeps R (namedFilter e d v) := by
  grind [namedFilter]

@[grind ←] theorem keeps_namedComparator (e : Engine) (d : DocumentId) (v : Value) :
    Keeps R (namedComparator e d v) := by
  grind [namedComparator]

@[grind ←] theorem keeps_textOrEmpty (d : DocumentId) (v : Value) : Keeps R (textOrEmpty d v) := by
  grind [textOrEmpty]

@[grind ←] theorem keeps_inclusionOf (d : DocumentId) (a : Attributes) :
    Keeps R (inclusionOf d a) := by
  grind [inclusionOf]

@[grind ←] theorem keeps_readInclude (d : DocumentId) (a : Attributes) :
    Keeps R (readInclude d a) := by
  grind [readInclude]

end SessionM

namespace ScriptM

variable {R : Running → Running → Prop} [IsPreorder Running R]

/-! ## Evaluating arguments -/

@[grind ←] theorem keeps_lift {m : SessionM α} (hm : Keeps (· = ·) m) :
    Keeps R (monadLift m : ScriptM α) := by
  refine Keeps.of_eq fun running => ?_
  have same : running.session = (m running.session).2 := hm running.session
  show running = { running with session := (m running.session).2 }
  rw [← same]

@[grind ←] theorem keeps_frame : Keeps R frame := by
  grind [frame]

/-- What names are defined as depends on what is kept and on the path of the script. -/
theorem defined?_congr {e : Engine} {f f' : Frame} (kept : f'.kept = f.kept)
    (path : f'.path = f.path) (name : String) :
    defined? e f' name = defined? e f name := by
  unfold defined?
  rw [kept, path]

/-- A name stands for what it is defined as, and otherwise for a parameter that applies. -/
theorem resolve_eq (e : Engine) (name : String) (r : Running) :
    resolve e name r = (match defined? e r.frame name with
      | some binding => .ok binding
      | none => match r.session.table.find? name (some r.frame.document) with
        | .error m => .error (.mishap (.malformedFilter m))
        | .ok none => .ok .nothing
        | .ok (some p) => .ok (.value p.value), r) := by
  unfold resolve
  rw [Step.run_bind_of_ok (show (getThe Running : ScriptM Running) r = (.ok r, r) from rfl)]
  cases defined? e r.frame name with
  | some binding => rfl
  | none => rcases r.session.table.find? name (some r.frame.document) with m | _ | p <;> rfl

@[grind ←] theorem keeps_resolve (e : Engine) (name : String) : Keeps R (resolve e name) := by
  grind [resolve]

@[grind ←] theorem keeps_valueOf (e : Engine) (name : String) : Keeps R (valueOf e name) := by
  grind [valueOf]

mutual

theorem keeps_eval (e : Engine) (x : Script.Expr) : Keeps R (eval e x) := by
  cases x with
  | literal v => grind [eval]
  | name n => grind [eval]
  | list items =>
    have := keeps_evalItems e items
    grind [eval]
  | map entries =>
    have := keeps_evalEntries e entries
    grind [eval]

theorem keeps_evalItems (e : Engine) (items : List Script.Expr) : Keeps R (evalItems e items) := by
  cases items with
  | nil => grind [evalItems]
  | cons x rest =>
    have := keeps_eval e x
    have := keeps_evalItems e rest
    grind [evalItems]

theorem keeps_evalEntries (e : Engine) (entries : List (Script.Expr × Script.Expr)) :
    Keeps R (evalEntries e entries) := by
  cases entries with
  | nil => grind [evalEntries]
  | cons entry rest =>
    have := keeps_evalEntry e entry
    have := keeps_evalEntries e rest
    grind [evalEntries]

theorem keeps_evalEntry (e : Engine) (entry : Script.Expr × Script.Expr) :
    Keeps R (evalEntry e entry) := by
  obtain ⟨key, x⟩ := entry
  have := keeps_eval e key
  have := keeps_eval e x
  grind [evalEntry]

end

@[grind ←] theorem keeps_evalAttributes (e : Engine) (a : List (String × Script.Expr)) :
    Keeps R (evalAttributes e a) := by
  induction a with
  | nil => grind [evalAttributes]
  | cons entry rest ih => grind [evalAttributes, keeps_eval]

@[grind ←] theorem keeps_dispatch (e : Engine) (name : String) (positional : List Value)
    (a : Attributes) : Keeps R (dispatch e name positional a) := by
  grind [dispatch, innermost]

/-- Looking up the element of a call and its arguments changes nothing. -/
@[grind ←] theorem keeps_prepare (e : Engine) (c : Script.Call) : Keeps R (prepare e c) := by
  unfold prepare
  refine Keeps.bind (keeps_resolve _ _) fun binding => ?_
  cases binding <;> grind [keeps_evalItems]

@[grind ←] theorem keeps_keptScope (e : Engine) (name : String) (mishap : String → Mishap) :
    Keeps R (keptScope e name mishap) := by
  grind [keptScope]

@[grind ←] theorem keeps_checkPending : Keeps R checkPending := by
  grind [checkPending]

end ScriptM
end Migration
