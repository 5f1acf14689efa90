import Migration.Proofs.Point

/-!
# Calls that fail

Most elements read all that can fail before they change anything, so a call of one that fails has
attached nothing. A few elements take effect piece by piece; of these an include still leaves alone
everything that was there, for only the last thing that it does touches its document, and that
cannot fail.

* `Succeeds`, `Atomic` — steps that never fail; steps that change nothing if they fail
* `Fails` — steps that fail only in certain ways
* `Element.gradualName?` — the elements that take effect piece by piece
* `SessionM.atomic_act` — the other elements change nothing if they fail
* `SessionM.extends_of_include_error` — a failed include leaves alone what was there
* `ScriptM.within_of_error` — a block whose steps fail is left, and nothing else is done to it
-/

namespace Migration

variable {σ α β : Type}

/-! ## Steps that fail as a whole -/

/-- Steps that never fail. -/
def Succeeds (m : ExceptT Failure (StateM σ) α) : Prop := ∀ s, ∃ a s', m s = (.ok a, s')

namespace Succeeds

theorem pure (a : α) : Succeeds (Pure.pure a : ExceptT Failure (StateM σ) α) :=
  fun s => ⟨a, s, rfl⟩

theorem modify (f : σ → σ) :
    Succeeds (MonadState.modifyGet fun s => (⟨⟩, f s) : ExceptT Failure (StateM σ) PUnit) :=
  fun s => ⟨⟨⟩, f s, rfl⟩

theorem bind {m : ExceptT Failure (StateM σ) α} {f : α → ExceptT Failure (StateM σ) β}
    (hm : Succeeds m) (hf : ∀ a, Succeeds (f a)) : Succeeds (m >>= f) := by
  intro s
  obtain ⟨a, s₁, h₁⟩ := hm s
  obtain ⟨b, s₂, h₂⟩ := hf a s₁
  exact ⟨b, s₂, Step.bind_eq_ok.2 ⟨a, s₁, h₁, h₂⟩⟩

end Succeeds

/-- Steps that change nothing if they fail. -/
def Atomic (m : ExceptT Failure (StateM σ) α) : Prop :=
  ∀ s failure s', m s = (.error failure, s') → s' = s

namespace Atomic

theorem of_keeps {m : ExceptT Failure (StateM σ) α} (hm : Keeps (· = ·) m) : Atomic m :=
  fun _ _ _ h => (hm.of_run h).symm

theorem of_succeeds {m : ExceptT Failure (StateM σ) α} (hm : Succeeds m) : Atomic m := by
  intro s failure s' h
  obtain ⟨a, s₁, ok⟩ := hm s
  cases ok.symm.trans h

/-- What is read first can fail, and what is done after it fails only as a whole. -/
theorem bind {m : ExceptT Failure (StateM σ) α} {f : α → ExceptT Failure (StateM σ) β}
    (hm : Keeps (· = ·) m) (hf : ∀ a, Atomic (f a)) : Atomic (m >>= f) := by
  intro s failure s' h
  rcases hs : m s with ⟨failure' | a, s₁⟩
  all_goals obtain rfl : s = s₁ := hm.of_run hs
  · rw [Step.run_bind_of_error hs] at h
    cases h
    rfl
  · rw [Step.run_bind_of_ok hs] at h
    exact hf a s failure s' h

/-- What can fail comes first. -/
theorem before {m : ExceptT Failure (StateM σ) α} {f : α → ExceptT Failure (StateM σ) β}
    (hm : Atomic m) (hf : ∀ a, Succeeds (f a)) : Atomic (m >>= f) := by
  intro s failure s' h
  rcases hs : m s with ⟨failure' | a, s₁⟩
  · rw [Step.run_bind_of_error hs] at h
    cases h
    exact hm s failure s' hs
  · obtain ⟨b, s₂, ok⟩ := hf a s₁
    rw [Step.run_bind_of_ok hs, ok] at h
    cases h

theorem ite {c : Prop} [Decidable c] {m n : ExceptT Failure (StateM σ) α} (hm : Atomic m)
    (hn : Atomic n) : Atomic (if c then m else n) := by
  split <;> assumption

end Atomic

/-! ## Steps that fail in certain ways -/

/-- Steps that fail only with failures that have a property. -/
def Fails (P : Failure → Prop) (m : ExceptT Failure (StateM σ) α) : Prop :=
  ∀ s failure s', m s = (.error failure, s') → P failure

namespace Fails

variable {P : Failure → Prop}

theorem of_succeeds {m : ExceptT Failure (StateM σ) α} (hm : Succeeds m) : Fails P m := by
  intro s failure s' h
  obtain ⟨a, s₁, ok⟩ := hm s
  cases ok.symm.trans h

theorem throw {failure : Failure} (h : P failure) :
    Fails P (MonadExcept.throw failure : ExceptT Failure (StateM σ) α) := by
  intro s failure' s' run
  cases run
  exact h

@[grind ←] theorem pure (a : α) : Fails P (Pure.pure a : ExceptT Failure (StateM σ) α) :=
  of_succeeds (.pure a)

@[grind ←] theorem get : Fails P (MonadState.get : ExceptT Failure (StateM σ) σ) :=
  of_succeeds fun s => ⟨s, s, rfl⟩

@[grind ←] theorem getThe : Fails P (MonadStateOf.get : ExceptT Failure (StateM σ) σ) :=
  of_succeeds fun s => ⟨s, s, rfl⟩

/-- The second step fails as it does where the first one has succeeded. -/
theorem bind_of_ok {m : ExceptT Failure (StateM σ) α} {f : α → ExceptT Failure (StateM σ) β}
    (hm : Fails P m) (hf : ∀ s a s', m s = (.ok a, s') → ∀ failure s'',
      f a s' = (.error failure, s'') → P failure) : Fails P (m >>= f) := by
  intro s failure s' h
  rcases hs : m s with ⟨failure' | a, s₁⟩
  · rw [Step.run_bind_of_error hs] at h
    cases h
    exact hm s failure s' hs
  · rw [Step.run_bind_of_ok hs] at h
    exact hf s a s₁ hs failure s' h

@[grind ←] theorem bind {m : ExceptT Failure (StateM σ) α} {f : α → ExceptT Failure (StateM σ) β}
    (hm : Fails P m) (hf : ∀ a, Fails P (f a)) : Fails P (m >>= f) :=
  hm.bind_of_ok fun _ a s' _ => hf a s'

@[grind ←] theorem map {m : ExceptT Failure (StateM σ) α} (g : α → β) (hm : Fails P m) :
    Fails P (g <$> m) := by
  rw [map_eq_pure_bind]
  exact bind hm fun a => pure _

theorem ite {c : Prop} [Decidable c] {m n : ExceptT Failure (StateM σ) α} (hm : Fails P m)
    (hn : Fails P n) : Fails P (if c then m else n) := by
  split <;> assumption

end Fails

/-! ## Elements -/

/-- The name of an element that takes effect piece by piece: what it has done when it fails
stays. -/
def Element.gradualName? : Element → Option String
  | changeLog => some "databaseChangeLog"
  | constraints .. => some "constraints"
  | «include» => some "include"
  | includeAll => some "includeAll"
  | includeAllSql => some "includeAllSql"
  | _ => none

/-- An element that takes effect piece by piece has no other name. -/
theorem Body.gradualName?_of_element? {e : Engine} {name gradual : String} {body : Body} {x : Element}
    (h : body.element? e name = some x) (named : x.gradualName? = some gradual) :
    name = gradual := by
  cases names_of_element? h <;> cases named <;> rfl

namespace SessionM

variable {d : DocumentId} {e : Engine} {compiler : Compiler}

/-! ### Changes that cannot fail -/

theorem succeeds_modifyStore (f : Store → Store) : Succeeds (modifyStore f) := fun _ => ⟨_, _, rfl⟩

theorem succeeds_addChange (c : DraftChange) : Succeeds (addChange c) := fun _ => ⟨_, _, rfl⟩

theorem succeeds_addPrecondition (p : DraftPrecondition) : Succeeds (addPrecondition p) :=
  fun _ => ⟨_, _, rfl⟩

theorem succeeds_nest (parent : PreconditionId) (r : Record) : Succeeds (nest parent r) :=
  fun _ => ⟨_, _, rfl⟩

theorem succeeds_addRollback (i : ChangeSetId) (changes : List ChangeId) :
    Succeeds (addRollback i changes) :=
  fun _ => ⟨_, _, rfl⟩

theorem succeeds_attachChange (i : ChangeSetId) (undoes : Bool) (c : ChangeId) :
    Succeeds (attachChange i undoes c) := by
  unfold attachChange
  split
  · exact succeeds_addRollback i [c]
  · exact succeeds_modifyStore _

/-! ### Parameters -/

/-- Whether a parameter can be declared does not depend on its name and its value. -/
theorem ofDeclaration_ok {declaration : Parameter.Declaration} {key : String} {value : Value}
    {p : Parameter}
    (h : Parameter.ofDeclaration { declaration with name := .text key, value } = .ok p)
    (key' : String) (value' : Value) :
    ∃ p', Parameter.ofDeclaration { declaration with name := .text key', value := value' } =
      .ok p' := by
  unfold Parameter.ofDeclaration at h ⊢
  cases hd : declaration.databases.databases with
  | error m =>
    rw [hd] at h
    cases h
  | ok databases =>
    rw [hd] at h
    cases hc : Parameter.contexts? declaration.contexts <;>
      cases hl : Parameter.labels? declaration.labels <;>
      cases hg : declaration.isGlobal.flag? <;>
      simp only [hc, hl, hg] at h ⊢
    all_goals first | exact ⟨_, rfl⟩ | cases h

/-- If one parameter of a declaration can be written, all can. -/
theorem succeeds_setParameters {declaration : Parameter.Declaration} {key : String} {value : Value}
    {p : Parameter}
    (h : Parameter.ofDeclaration { declaration with name := .text key, value } = .ok p)
    (entries : List (String × Value)) : Succeeds (setParameters declaration entries) := by
  induction entries with
  | nil => exact .pure _
  | cons entry rest ih =>
    obtain ⟨p', hp'⟩ := ofDeclaration_ok h entry.1 entry.2
    refine Succeeds.bind (fun s => ⟨p', s, ?_⟩) fun _ => Succeeds.bind (.modify _) fun _ => ih
    rw [hp']
    rfl

/-- Only the first parameter of a declaration can be one that cannot be written. -/
theorem atomic_setParameters (declaration : Parameter.Declaration)
    (entries : List (String × Value)) : Atomic (setParameters declaration entries) := by
  cases entries with
  | nil => exact .of_succeeds (.pure _)
  | cons entry rest =>
    obtain ⟨key, value⟩ := entry
    cases h : Parameter.ofDeclaration { declaration with name := .text key, value } with
    | ok p => exact .of_succeeds (succeeds_setParameters h _)
    | error m =>
      intro s failure s' run
      unfold setParameters at run
      rw [h, Step.run_bind_of_error (show ofMishap (.error m) s = (.error (.mishap m), s) from rfl)]
        at run
      cases run
      rfl

/-- Entries are read before anything is changed; only where there are none a warning may be
noted. -/
theorem propertiesOf_cases (a : Attributes) (s : Session) :
    (propertiesOf e d a s).2 = s ∨ (propertiesOf e d a s).1 = .ok [] := by
  unfold propertiesOf
  obtain ⟨failure, hp⟩ | ⟨path, hp⟩ :=
    (keeps_expandPath d (a.get "file") "file" "property").run_cases s
  · rw [Step.run_bind_of_error hp]
    exact .inl rfl
  rw [Step.run_bind_of_ok hp]
  obtain ⟨failure, hr⟩ | ⟨relativeTo, hr⟩ :=
    (keeps_startingPath d (a.flag "relativeToChangelogFile" false)).run_cases s
  · rw [Step.run_bind_of_error hr]
    exact .inl rfl
  rw [Step.run_bind_of_ok hr]
  cases e.sources.read relativeTo path with
  | error failure =>
    dsimp only
    split
    · exact .inl rfl
    · exact .inr rfl
  | ok file =>
    left
    refine (Keeps.of_run (R := (· = ·)) (Keeps.bind (keeps_ofMishap (e.text file)) fun text => ?_)
      rfl).symm
    cases Properties.parse text with
    | ok entries => exact .pure _
    | error problem => exact keeps_reject _ _

theorem atomic_property (a : Attributes) : Atomic (property e d a) := by
  unfold property
  refine .bind (keeps_ofCheck _) fun _ => ?_
  refine .bind (keeps_expand _ _) fun contexts => ?_
  refine .bind (keeps_expand _ _) fun labels => ?_
  refine .bind (keeps_expand _ _) fun databases => ?_
  refine .ite ?_ ?_
  · -- a warning is noted only where there is nothing to write
    intro s failure s' run
    rcases h : propertiesOf e d a s with ⟨failure' | entries, s₁⟩
    all_goals
      have read : s₁ = s ∨ _ := h ▸ propertiesOf_cases (e := e) (d := d) a s
    · rw [Step.run_bind_of_error h] at run
      cases run
      rcases read with rfl | none
      · rfl
      · cases none
    · rw [Step.run_bind_of_ok h] at run
      rcases read with rfl | none
      · exact atomic_setParameters _ entries s₁ failure s' run
      · cases none
        cases run
  · refine .bind (keeps_expand _ _) fun name => .ite ?_ ?_
    · exact .of_keeps (.throw _)
    · refine .bind (keeps_expand _ _) fun value => ?_
      exact atomic_setParameters _ _

/-! ### All other elements -/

theorem atomic_rollback (owner : String) (i : ChangeSetId) (positional : List Value)
    (a : Attributes) : Atomic (rollback d owner i positional a) := by
  cases positional with
  | nil =>
    refine .ite (.of_succeeds (.pure _)) (.before ?_ fun _ => .pure _)
    refine .bind (keeps_ofCheck _) fun _ => .bind (keeps_expand _ _) fun id => ?_
    refine .ite (.of_keeps (.throw _)) ?_
    refine .bind (keeps_expand _ _) fun author => .bind (keeps_expand _ _) fun path => ?_
    refine .bind .get fun s => ?_
    dsimp only
    cases (s.store.find? d path author id).bind s.store.changeSets.get? with
    | none => exact .of_keeps (keeps_reject _ _)
    | some found => exact .of_succeeds (succeeds_addRollback i found.changes)
  | cons sql more =>
    refine .ite (.of_keeps (.throw _)) (.before ?_ fun _ => .pure _)
    refine .bind (keeps_expand _ _) fun v => .ite (.of_keeps (.throw _)) ?_
    exact .of_succeeds (.bind (succeeds_addChange _) fun c => succeeds_addRollback i [c])

theorem atomic_column (owner name : String) (i : ChangeId) (a : Attributes) :
    Atomic (column d owner name i a) := by
  refine .bind (keeps_change i) fun c => .bind (keeps_fill _ _ _ _ _) fun record => ?_
  refine .ite (.of_keeps (.throw _)) (.of_succeeds fun _ => ⟨_, _, rfl⟩)

theorem atomic_whereClause (owner name : String) (i : ChangeId) (v : Value) :
    Atomic (whereClause d owner name i v) := by
  refine .bind (keeps_change i) fun c => .ite (.of_keeps (.throw _)) ?_
  refine .bind (keeps_expand _ _) fun v => ?_
  cases c.record.bind "where" v with
  | ok record => exact .of_succeeds (succeeds_modifyStore _)
  | error cause => exact .of_keeps (keeps_reject _ _)

theorem atomic_param (owner name : String) (i : ChangeId) (a : Attributes) :
    Atomic (param d owner name i a) := by
  refine .bind (keeps_fill _ _ _ _ _) fun record => .bind (keeps_change i) fun c => ?_
  exact .ite (.of_keeps (.throw _)) (.of_succeeds (succeeds_modifyStore _))

/-- A single constraint is set as a whole; several are set one after the other. -/
theorem atomic_constraint (owner name : String) (i : ColumnId) (key : String) (v : Value) :
    Atomic (constraints d owner name i [(key, v)]) := by
  refine .bind (keeps_expand _ _) fun v => .bind .get fun s => ?_
  dsimp only
  cases (((s.store.columns.get? i).getD default).constraints.getD (.fresh Catalog.constraints)).bind
    key v with
  | ok record => exact .of_succeeds (.bind (succeeds_modifyStore _) fun _ => .pure _)
  | error cause => exact .of_keeps (.throw _)

/-- An element that does not take effect piece by piece changes nothing if it fails. -/
theorem atomic_act {x : Element} (whole : x.gradualName? = none) (positional : List Value)
    (a : Attributes) : Atomic (act e compiler d x positional a) := by
  cases x with
  | changeLog | constraints | «include» | includeAll | includeAllSql => cases whole
  | property => exact .before (atomic_property a) fun _ => .pure _
  | changeSet => exact .bind (keeps_newChangeSet d a) fun _ => .of_succeeds fun _ => ⟨_, _, rfl⟩
  | preconditions owner s =>
    exact .before (.bind (keeps_fill _ _ _ _ _) fun _ => .of_succeeds (succeeds_addPrecondition _))
      fun _ => .pure _
  | removeProperty =>
    refine .before (.bind (keeps_readRemoval e d a) fun removal => ?_) fun _ => .pure _
    cases removal with
    | none => exact .of_succeeds (.pure _)
    | some removal => exact .of_succeeds fun _ => ⟨_, _, rfl⟩
  | comment i | checkSum i =>
    exact .bind (keeps_expand _ _) fun v => .of_succeeds fun _ => ⟨_, _, rfl⟩
  | rollback owner i => exact atomic_rollback owner i positional a
  | modifySql owner i => exact .bind (keeps_ofCheck _) fun _ => .of_succeeds (.pure _)
  | change owner name type i undoes =>
    refine .bind (keeps_newRecord _ _ _ _ _ _ _) fun record => .of_succeeds ?_
    exact .bind (succeeds_addChange _) fun c => .bind (succeeds_attachChange i undoes c) fun _ =>
      .pure _
  | column owner name i => exact .before (atomic_column owner name i a) fun _ => .pure _
  | whereClause owner name i => exact .before (atomic_whereClause owner name i _) fun _ => .pure _
  | whereParams owner name i => exact .of_succeeds (.pure _)
  | param owner name i => exact .before (atomic_param owner name i a) fun _ => .pure _
  | constraint owner name i key =>
    exact .before (atomic_constraint owner name i key _) fun _ => .pure _
  | group owner type parent =>
    exact .of_succeeds (.bind (succeeds_nest parent _) fun _ => .pure _)
  | precondition owner name type parent =>
    refine .bind (keeps_newRecord _ _ _ _ _ _ _) fun record => .of_succeeds ?_
    exact .bind (succeeds_nest parent record) fun _ => .pure _
  | visitor owner type i filter =>
    refine .before (.bind (keeps_fill _ _ _ _ _) fun _ => ?_) fun _ => .pure _
    exact .of_succeeds (succeeds_modifyStore _)

/-! ### Includes -/

/-- A merge cannot fail. -/
theorem merge_ok (child : DocumentId) (path : Value) (s : Session) :
    (merge d child path s).1 = .ok () := by
  show ((SessionM.document child >>= _) s).1 = _
  obtain ⟨c, hc⟩ : ∃ c, SessionM.document child s = (.ok c, s) := ⟨_, rfl⟩
  rw [Step.run_bind_of_ok hc, Step.run_bind_of_ok (Prod.ext (mergeChangeSets_ok _ _ _ _) rfl),
    Step.run_bind_of_ok (Prod.ext (nestContainer_ok _ _) rfl)]
  rfl

/-- An include that fails has failed before it has touched its document. -/
theorem extends_of_include_error (sound : compiler.IsSound) {a : Attributes} {s s' : Session}
    {failure : Failure} (h : «include» e compiler d a s = (.error failure, s')) : s.Extends s' := by
  unfold «include» at h
  obtain ⟨failure', hr⟩ | ⟨⟨relativeTo, path, i⟩, hr⟩ := (keeps_readInclude d a).run_cases s
  · rw [Step.run_bind_of_error hr] at h
    cases h
    exact .refl s
  rw [Step.run_bind_of_ok hr] at h
  dsimp only at h
  obtain ⟨failure', s₁, ha, run⟩ | ⟨s₁, ha, run⟩ |
    ⟨found, parser, s₁, s₂, ha, ⟨failure', hc, run⟩ | ⟨child, hc, run⟩⟩ :=
      includeFile_cases e compiler d relativeTo path i s
  all_goals
    rw [run] at h
    have accepts : s.Extends s₁ := (keeps_accept e relativeTo path i.skipsUnknown).of_run ha
  · cases h
    exact accepts
  · cases h
  · have made : s₁.Extends s₂ := (compiles_compileWith sound parser _).keeps.of_run hc
    exact accepts.trans (made.trans ((keeps_excuse found i.required failure').of_run h))
  · have merged := merge_ok (d := d) child i.logicalPath s₂
    rw [h] at merged
    cases merged

end SessionM

namespace ScriptM

variable {e : Engine} {compiler : Compiler} {r : Running}

/-! ## Blocks -/

/-- A step opens a block: what its call leaves behind, or a result that was kept. -/
inductive Opens (e : Engine) (compiler : Compiler) :
    Script.Node → Running → ScopeId → List Script.Node → Running → Prop
  | block {c body r i r₁} (calls : call e compiler c r = (.ok (.scope i), r₁)) :
      Opens e compiler (.block c body) r i body r₁
  | reopen {name body r i r₁} (finds : keptScope e name .notABlock r = (.ok i, r₁)) :
      Opens e compiler (.reopen name body) r i body r₁

theorem Opens.runNode_eq {node : Script.Node} {i : ScopeId} {body : List Script.Node} {r₁ : Running}
    (opens : Opens e compiler node r i body r₁) :
    runNode e compiler node r = within i (runNodes e compiler body) r₁ := by
  cases opens with
  | block calls => exact runNode_block calls body
  | reopen finds => exact runNode_reopen finds body

/-- A block that is left with a failure is at most taken away; what remains to be done is not
done. -/
theorem leave_of_error (i : ScopeId) (failure : Failure) (r : Running) :
    ∃ failure' r', leave i (.error failure) r = (.error failure', r') ∧ r'.session = r.session := by
  unfold leave
  obtain ⟨mark, body, rest, -, -, hp⟩ | hp := pop_cases i r
  · rw [Step.run_bind_of_ok hp]
    cases failure <;> exact ⟨_, _, rfl, rfl⟩
  · rw [Step.run_bind_of_error hp]
    exact ⟨_, _, rfl, rfl⟩

/-- A block whose steps fail is left, and nothing else is done to it. -/
theorem within_of_error {i : ScopeId} {steps : ScriptM Unit} {r₁ r₂ : Running} {failure : Failure}
    (enters : enter i r = (.ok (), r₁)) (fails : steps r₁ = (.error failure, r₂)) :
    ∃ failure' r₃, within i steps r = (.error failure', r₃) ∧ r₃.session = r₂.session := by
  rw [within_eq enters, fails]
  exact leave_of_error i failure r₂

/-! ## Calls -/

/-- A call that fails has done what its element has done, and nothing to its script. -/
theorem act_of_call_error {c : Script.Call} {failure : Failure} {r' : Running}
    (h : call e compiler c r = (.error failure, r')) :
    r' = r ∨ ∃ x, prepare e c r = (.ok x, r) ∧
      SessionM.act e compiler r.frame.document x.element x.positional x.attributes r.session =
        (.error failure, r'.session) ∧ r'.frame = r.frame := by
  obtain ⟨failure' | v, _, calls, -⟩ | ⟨x, result, s, prepares, acts, calls⟩ :=
    call_cases e compiler c r
  all_goals rw [calls] at h
  · cases h
    exact .inl rfl
  · cases h
  · rcases result with failure' | _ | type | y <;> cases h
    exact .inr ⟨x, prepares, acts, rfl⟩

/-- The elements other than includes that take effect piece by piece. Those that take the files of a
directory may have added some of them when they fail at another one. -/
def gradualNames : List String :=
  ["databaseChangeLog", "constraints", "includeAll", "includeAllSql"]

/-- A call of an element whose name is not among these fails as a whole, or is an include. -/
theorem not_gradual {c : Script.Call} {x : Application} (other : c.element ∉ gradualNames)
    (prepares : prepare e c r = (.ok x, r)) :
    x.element.gradualName? = none ∨ x.element = .include ∧ c.element = "include" := by
  have named : ∀ gradual, x.element.gradualName? = some gradual → c.element = gradual :=
    fun gradual h => Body.gradualName?_of_element? (element?_of_prepare prepares) h
  cases h : x.element with
  | «include» => exact .inr ⟨rfl, named _ (by rw [h]; rfl)⟩
  | changeLog | constraints | includeAll | includeAllSql =>
    have name := named _ (by rw [h]; rfl)
    rw [name] at other
    exact absurd (by decide) other
  | _ => exact .inl rfl

end ScriptM

/-- A script that has opened its `databaseChangeLog` block. -/
def openedBlock : Running :=
  (ScriptM.enter 0 (ScriptM.call (.ofScripts []) none { element := "databaseChangeLog" }
    (.start "a.py" ⟨0⟩ (SessionM.newDocument { path := "a.py" } none
      { table := .ofRun none none none }).2)).2).2

end Migration
