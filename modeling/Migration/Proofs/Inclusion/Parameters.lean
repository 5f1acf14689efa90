import Migration.Proofs.Inclusion.Chain

/-!
# Parameters of documents

A parameter that is only visible in one document belongs to a document that is there, at every point
of a compile. Only a `property` element declares parameters, and it declares them for the document
that it stands in.

* `Session.KeepsTable` — steps that declare no parameters
* `Session.KnowsOwners` — no parameter belongs to a document that is not there
* `SessionM.keepsTable_act` — elements that declare no parameters
* `Visits.knowsOwners` — the parameters at the points of a compile
-/

namespace Migration

/-! ## Steps that declare no parameters -/

/-- No parameter has been declared. -/
def Session.KeepsTable (s s' : Session) : Prop := s'.table = s.table

instance : IsPreorder Session Session.KeepsTable where
  refl _ := rfl
  trans _ _ _ h h' := Eq.trans h' h

namespace SessionM

open Session

variable {d : DocumentId} {e : Engine} {α : Type}

@[grind ←] theorem keepsTable_warn (w : Warning) : Keeps KeepsTable (warn w) := fun _ => rfl

@[grind ←] theorem keepsTable_addColumn (c : Column) : Keeps KeepsTable (addColumn c) :=
  fun _ => rfl

@[grind ←] theorem keepsTable_addChange (c : DraftChange) : Keeps KeepsTable (addChange c) :=
  fun _ => rfl

@[grind ←] theorem keepsTable_addPrecondition (p : DraftPrecondition) :
    Keeps KeepsTable (addPrecondition p) := fun _ => rfl

@[grind ←] theorem keepsTable_addChangeSet (c : DraftChangeSet) :
    Keeps KeepsTable (addChangeSet c) := fun _ => rfl

@[grind ←] theorem keepsTable_modifyColumn (i : ColumnId) (f : Column → Column) :
    Keeps KeepsTable (modifyColumn i f) := fun _ => rfl

@[grind ←] theorem keepsTable_modifyChange (i : ChangeId) (f : DraftChange → DraftChange) :
    Keeps KeepsTable (modifyChange i f) := fun _ => rfl

@[grind ←] theorem keepsTable_modifyPrecondition (i : PreconditionId)
    (f : DraftPrecondition → DraftPrecondition) : Keeps KeepsTable (modifyPrecondition i f) :=
  fun _ => rfl

@[grind ←] theorem keepsTable_modifyChangeSet (i : ChangeSetId)
    (f : DraftChangeSet → DraftChangeSet) : Keeps KeepsTable (modifyChangeSet i f) := fun _ => rfl

@[grind ←] theorem keepsTable_modifyDocument (i : DocumentId) (f : DraftDocument → DraftDocument) :
    Keeps KeepsTable (modifyDocument i f) := fun _ => rfl

/-! ### Elements -/

@[grind ←] theorem keepsTable_setLogicalPath (a : Attributes) :
    Keeps KeepsTable (setLogicalPath d a) := by
  grind [setLogicalPath]

@[grind ←] theorem keepsTable_setContexts (a : Attributes) :
    Keeps KeepsTable (setContexts d a) := by
  grind [setContexts]

@[grind ←] theorem keepsTable_setQuotingStrategy (a : Attributes) :
    Keeps KeepsTable (setQuotingStrategy d a) := by
  grind [setQuotingStrategy]

@[grind ←] theorem keepsTable_changeLog (a : Attributes) : Keeps KeepsTable (changeLog d a) := by
  grind [changeLog]

@[grind ←] theorem keepsTable_removeProperty (a : Attributes) :
    Keeps KeepsTable (removeProperty e d a) := by
  grind [removeProperty]

@[grind ←] theorem keepsTable_newContainer (owner : String) (a : Attributes) :
    Keeps KeepsTable (newContainer d owner a) := by
  grind [newContainer]

@[grind ←] theorem keepsTable_rollbackBySql (i : ChangeSetId) (sql : Value) :
    Keeps KeepsTable (rollbackBySql d i sql) := by
  grind [rollbackBySql, addRollback]

@[grind ←] theorem keepsTable_rollbackByReference (owner : String) (i : ChangeSetId)
    (a : Attributes) : Keeps KeepsTable (rollbackByReference d owner i a) := by
  unfold rollbackByReference
  refine Keeps.bind (keeps_ofCheck _) fun _ => ?_
  refine Keeps.bind (keeps_expand _ _) fun id => ?_
  refine Keeps.ite (Keeps.bind (keeps_reject _ _) fun _ => ?_) ?_
  all_goals grind [addRollback]

@[grind ←] theorem keepsTable_rollback (owner : String) (i : ChangeSetId) (positional : List Value)
    (a : Attributes) : Keeps KeepsTable (rollback d owner i positional a) := by
  cases positional <;> grind [rollback]

@[grind ←] theorem keepsTable_column (owner name : String) (i : ChangeId) (a : Attributes) :
    Keeps KeepsTable (column d owner name i a) := by
  grind [column]

@[grind ←] theorem keepsTable_whereClause (owner name : String) (i : ChangeId) (v : Value) :
    Keeps KeepsTable (whereClause d owner name i v) := by
  grind [whereClause]

@[grind ←] theorem keepsTable_constraints (owner name : String) (i : ColumnId) (a : Attributes) :
    Keeps KeepsTable (constraints d owner name i a) := by
  induction a with
  | nil => grind [constraints]
  | cons entry rest ih => grind [constraints]

@[grind ←] theorem keepsTable_listing (relativeTo : Option String) (path element : String)
    (required : Bool) : Keeps KeepsTable (listing e relativeTo path element required) := by
  grind [listing]

@[grind ←] theorem keepsTable_discover (a : Attributes) (element : String) :
    Keeps KeepsTable (discover e d a element) := by
  unfold discover
  refine Keeps.bind (keeps_expandPath _ _ _ _) fun _ => ?_
  refine Keeps.bind (keeps_expandDepth _ _ _ _) fun _ => ?_
  refine Keeps.bind (keeps_expandDepth _ _ _ _) fun _ => ?_
  refine Keeps.bind (keeps_expand _ _) fun _ => ?_
  refine Keeps.bind (keeps_namedFilter _ _ _) fun _ => ?_
  refine Keeps.bind (keeps_namedComparator _ _ _) fun _ => ?_
  refine Keeps.bind (keeps_startingPath _ _) fun _ => ?_
  refine Keeps.bind (keepsTable_listing _ _ _ _) fun _ => ?_
  grind

@[grind ←] theorem keepsTable_readIncludeAll (a : Attributes) :
    Keeps KeepsTable (readIncludeAll e d a) := by
  grind [readIncludeAll]

theorem keepsTable_newStatements (a : Attributes) (id path : String) :
    Keeps KeepsTable (newStatements d a id path) :=
  Keeps.bind (keeps_newChangeSet _ _) fun _ => Keeps.bind (keeps_fill _ _ _ _ _) fun _ =>
    Keeps.bind (keepsTable_addChange _) fun _ => keepsTable_addChangeSet _

theorem keepsTable_includeStatementFiles (a : Attributes) (id : String → String)
    (paths : List String) : Keeps KeepsTable (includeStatementFiles d a id paths) := by
  induction paths with
  | nil => exact .pure _
  | cons path rest ih =>
    refine Keeps.bind (Keeps.bind (keepsTable_newStatements _ _ _) fun i => ?_) fun _ => ih
    exact keepsTable_modifyDocument _ _

theorem keepsTable_includeAllSql (a : Attributes) : Keeps KeepsTable (includeAllSql e d a) := by
  refine Keeps.bind ?_ fun _ => keepsTable_includeStatementFiles _ _ _
  refine Keeps.bind (keeps_ofCheck _) fun _ => Keeps.bind (keepsTable_discover _ _) fun paths => ?_
  grind

/-! ### Included files -/

@[grind ←] theorem keepsTable_addChangeSets (made : List DraftChangeSet) :
    Keeps KeepsTable (addChangeSets made) := by
  induction made with
  | nil => exact .pure _
  | cons x rest ih => grind [addChangeSets]

@[grind ←] theorem keepsTable_newDocument (r : Request) (logicalPath : Option String) :
    Keeps KeepsTable (newDocument r logicalPath) := fun _ => rfl

theorem keepsTable_hostDocument (parse : String → Except ResourceError (List DraftChangeSet))
    (r : Request) : Keeps KeepsTable (hostDocument parse r) :=
  Keeps.bind (keeps_ofResource _) fun _ => Keeps.bind (keepsTable_addChangeSets _) fun _ =>
    Keeps.bind (keepsTable_newDocument _ _) fun _ =>
      Keeps.bind (keepsTable_modifyDocument _ _) fun _ => .pure _

theorem keepsTable_accept (relativeTo : Option String) (path : String) (skipsUnknown : Bool) :
    Keeps KeepsTable (accept e relativeTo path skipsUnknown) := by
  refine Keeps.bind (keeps_ofResource _) fun path => ?_
  cases e.parser? path <;> grind [checkChain, checkDepth]

theorem keepsTable_excuse (path : String) (required : Bool) (failure : Failure) :
    Keeps KeepsTable (excuse path required failure) := by
  cases failure <;> grind [excuse]

theorem keepsTable_mergeChangeSets (h : Inheritance) (path : Value) (ids : List ChangeSetId) :
    Keeps KeepsTable (mergeChangeSets d h path ids) := by
  induction ids with
  | nil => exact .pure _
  | cons i rest ih => grind [mergeChangeSets]

theorem keepsTable_merge (child : DocumentId) (path : Value) :
    Keeps KeepsTable (merge d child path) := by
  have := keepsTable_mergeChangeSets (d := d)
  grind [merge, nestContainer]

/-! ### All elements -/

/-- Only a `property` and included files declare parameters. -/
theorem keepsTable_act {compiler : Compiler} {x : Element} {positional : List Value}
    {a : Attributes} (others : x ≠ .property ∧ x ≠ .include ∧ x ≠ .includeAll) :
    Keeps KeepsTable (act e compiler d x positional a) := by
  obtain ⟨property, file, directory⟩ := others
  cases x with
  | property => contradiction
  | «include» => contradiction
  | includeAll => contradiction
  | changeLog => exact Keeps.bind (keepsTable_changeLog _) fun _ => .pure _
  | changeSet => grind [act, changeSet]
  | includeAllSql => exact Keeps.bind (keepsTable_includeAllSql _) fun _ => .pure _
  | preconditions owner i => exact Keeps.bind (keepsTable_newContainer _ _) fun _ => .pure _
  | removeProperty => exact Keeps.bind (keepsTable_removeProperty _) fun _ => .pure _
  | comment i => grind [act]
  | checkSum i => grind [act]
  | rollback owner i => exact keepsTable_rollback _ _ _ _
  | modifySql owner i => grind [act]
  | change owner name type i undoes => grind [act, newChange, attachChange, addRollback]
  | column owner name i => grind [act]
  | whereClause owner name i => exact Keeps.bind (keepsTable_whereClause _ _ _ _) fun _ => .pure _
  | whereParams owner name i => exact .pure _
  | param owner name i => grind [act, param]
  | constraints owner name i => exact Keeps.bind (keepsTable_constraints _ _ _ _) fun _ => .pure _
  | constraint owner name i key =>
    exact Keeps.bind (keepsTable_constraints _ _ _ _) fun _ => .pure _
  | group owner type parent => grind [act, nest]
  | precondition owner name type parent => grind [act, nest]
  | visitor owner type i filter => grind [act, visitor]

end SessionM

/-! ## Owners -/

/-- The parameters that are only visible in one document belong to documents that are there. -/
def Session.KnowsOwners (s : Session) : Prop :=
  ∀ p ∈ s.table.parameters, p.isGlobal = false → ∀ o ∈ p.owner, s.store.Has o

/-- The parameters go on to belong to documents that are there. -/
def Session.KeepsOwners (s s' : Session) : Prop := s.KnowsOwners → s'.KnowsOwners

instance : IsPreorder Session Session.KeepsOwners where
  refl _ := id
  trans _ _ _ h h' known := h' (h known)

/-- The parameters of one document are declared while it is there. -/
def Session.Declares (d : DocumentId) (s s' : Session) : Prop :=
  (s.store.Has d → s'.store.Has d) ∧ (s.store.Has d → s.KeepsOwners s')

instance {d : DocumentId} : IsPreorder Session (Session.Declares d) where
  refl _ := ⟨id, fun _ => id⟩
  trans _ _ _ h h' :=
    ⟨fun has => h'.1 (h.1 has), fun has known => h'.2 (h.1 has) (h.2 has known)⟩

namespace Session

variable {s s' : Session}

theorem KnowsOwners.mono (known : s.KnowsOwners) (grows : s.Grows s') (table : s.KeepsTable s') :
    s'.KnowsOwners := fun p hp local_ o ho =>
  grows.has (known p (table ▸ hp) local_ o ho)

theorem KeepsOwners.of_keepsTable (grows : s.Grows s') (table : s.KeepsTable s') :
    s.KeepsOwners s' := fun known => known.mono grows table

theorem Declares.of_keepsTable {d : DocumentId} (grows : s.Grows s') (table : s.KeepsTable s') :
    s.Declares d s' :=
  ⟨grows.has, fun _ => .of_keepsTable grows table⟩

end Session

/-- The compile of a file goes on to declare parameters for documents that are there. -/
def Compiler.KeepsOwners (compiler : Compiler) : Prop :=
  ∀ compile ∈ compiler, ∀ r, Keeps Session.KeepsOwners (compile r)

namespace SessionM

open Session

variable {d : DocumentId} {e : Engine} {compiler : Compiler}

theorem owner_of_ofDeclaration {declaration : Parameter.Declaration} {p : Parameter}
    (h : Parameter.ofDeclaration declaration = .ok p) : p.owner = declaration.owner := by
  unfold Parameter.ofDeclaration at h
  cases hd : declaration.databases.databases with
  | error mishap =>
    rw [hd] at h
    cases h
  | ok databases =>
    rw [hd] at h
    dsimp only [bind, Except.bind] at h
    split at h <;> cases h
    rfl

theorem declares_setParameters {declaration : Parameter.Declaration}
    (owner : ∀ o ∈ declaration.owner, o = d) (entries : List (String × Value)) :
    Keeps (Declares d) (setParameters declaration entries) := by
  induction entries with
  | nil => exact .pure _
  | cons entry rest ih =>
    intro s
    show s.Declares d ((ofMishap (Parameter.ofDeclaration _) >>= _ : SessionM Unit) s).2
    cases hp : Parameter.ofDeclaration
        { declaration with name := .text entry.1, value := entry.2 } with
    | error mishap => exact refl_of (Declares d) s
    | ok p =>
      have same : p.owner = declaration.owner := (owner_of_ofDeclaration hp :)
      have declared : s.Declares d { s with table := s.table.set p } := by
        refine ⟨id, fun has known q hq local_ o ho => ?_⟩
        rcases List.mem_cons.1 hq with rfl | hq
        · rw [same] at ho
          exact owner o ho ▸ has
        · exact known q hq local_ o ho
      exact trans_of (Declares d) declared (ih _)

theorem keepsTable_propertiesOf (a : Attributes) : Keeps KeepsTable (propertiesOf e d a) := by
  unfold propertiesOf
  refine Keeps.bind (keeps_expandPath _ _ _ _) fun path => ?_
  refine Keeps.bind (keeps_startingPath _ _) fun relativeTo => ?_
  grind

/-- A `property` declares parameters for the document that it stands in. -/
theorem declares_property (a : Attributes) : Keeps (Declares d) (property e d a) := by
  have entries : Keeps (Declares d) (propertiesOf e d a) := fun s =>
    .of_keepsTable (keeps_propertiesOf e a s : s.Extends _).grows (keepsTable_propertiesOf a s)
  unfold property
  refine Keeps.bind (keeps_ofCheck _) fun _ => ?_
  refine Keeps.bind (keeps_expand _ _) fun contexts => ?_
  refine Keeps.bind (keeps_expand _ _) fun labels => ?_
  refine Keeps.bind (keeps_expand _ _) fun databases => ?_
  dsimp only
  have own : ∀ o ∈ some d, o = d := fun o ho => (Option.some.inj ho).symm
  refine Keeps.ite (Keeps.bind entries fun _ => declares_setParameters own _) ?_
  refine Keeps.bind (keeps_expand _ _) fun name => ?_
  refine Keeps.ite (Keeps.bind (keeps_reject _ _) fun _ => ?_) ?_
  all_goals exact Keeps.bind (keeps_expand _ _) fun _ => declares_setParameters own _

/-! ### Included files -/

theorem keepsOwners_compileWith (keeps : compiler.KeepsOwners) (parser : Parser) (r : Request) :
    Keeps KeepsOwners (compileWith e compiler parser r) := by
  cases parser with
  | host supports parse =>
    rw [compileWith_host]
    exact fun s => .of_keepsTable ((compiles_hostDocument parse r).keeps s).grows
      (keepsTable_hostDocument parse r s)
  | script suffix =>
    cases compiler with
    | none => exact Keeps.throw _
    | some compile => exact keeps compile rfl r

theorem keepsOwners_includeFile (keeps : compiler.KeepsOwners) (relativeTo : Option String)
    (path : String) (i : Inclusion) :
    Keeps KeepsOwners (includeFile e compiler d relativeTo path i) := by
  refine Keeps.bind (fun s => .of_keepsTable (keeps_accept (R := Extends) e _ _ _ s).grows
    (keepsTable_accept _ _ _ s)) fun accepted => ?_
  cases accepted with
  | none => exact .pure _
  | some accepted =>
    obtain ⟨path', parser⟩ := accepted
    intro s
    have compiled := keepsOwners_compileWith (e := e) keeps parser (i.request d path') s
    show s.KeepsOwners (bringIn d path' i _ s).2
    rcases hs : compileWith e compiler parser (i.request d path') s with ⟨failure | child, s₁⟩
    all_goals rw [hs] at compiled
    · have excused : s₁.Extends _ := keeps_excuse path' i.required failure s₁
      rw [bringIn_of_error hs]
      exact trans_of KeepsOwners compiled
        (.of_keepsTable excused.grows (keepsTable_excuse path' i.required failure s₁))
    · rw [bringIn_of_ok hs]
      exact trans_of KeepsOwners compiled
        (.of_keepsTable (grows_merge child _ s₁) (keepsTable_merge child _ s₁))

theorem keepsOwners_includeFiles (keeps : compiler.KeepsOwners) (i : Inclusion)
    (paths : List String) : Keeps KeepsOwners (includeFiles e compiler d i paths) := by
  induction paths with
  | nil => exact .pure _
  | cons path rest ih => exact Keeps.bind (keepsOwners_includeFile keeps none path i) fun _ => ih

theorem keepsOwners_readIncludeAll (a : Attributes) : Keeps KeepsOwners (readIncludeAll e d a) :=
  fun s => .of_keepsTable (keeps_readIncludeAll (R := Extends) e a s).grows
    (keepsTable_readIncludeAll a s)

/-- Whatever an element does, parameters go on to belong to documents that are there. -/
theorem knowsOwners_act {x : Element} {positional : List Value} {a : Attributes} {s : Session}
    (keeps : compiler.KeepsOwners) (known : s.KnowsOwners) (has : s.store.Has d)
    (grows : s.Grows (act e compiler d x positional a s).2) :
    (act e compiler d x positional a s).2.KnowsOwners := by
  by_cases property : x = .property
  · subst property
    exact (Keeps.bind (declares_property a) (fun _ => Keeps.pure Result.nothing) s).2 has known
  by_cases file : x = .include
  · subst file
    have included : Keeps KeepsOwners («include» e compiler d a) :=
      Keeps.bind (keeps_readInclude d a) fun _ => keepsOwners_includeFile keeps _ _ _
    exact Keeps.bind included (fun _ => .pure _) s known
  by_cases directory : x = .includeAll
  · subst directory
    have included : Keeps KeepsOwners (includeAll e compiler d a) :=
      Keeps.bind (keepsOwners_readIncludeAll a) fun _ => keepsOwners_includeFiles keeps _ _
    exact Keeps.bind included (fun _ => .pure _) s known
  -- all other elements leave the parameters as they are, and no document is taken away
  exact known.mono grows (keepsTable_act ⟨property, file, directory⟩ s)

end SessionM

/-- A script goes on to own what it refers to, and its parameters go on to belong to documents that
are there. -/
def Running.KeepsOwners (b : Store) (r r' : Running) : Prop :=
  r.Works b r' ∧ (r.Owns b → r.session.KeepsOwners r'.session)

instance {b : Store} : IsPreorder Running (Running.KeepsOwners b) where
  refl r := ⟨refl_of (Running.Works b) r, fun _ => id⟩
  trans _ _ _ h h' := ⟨trans_of (Running.Works b) h.1 h'.1, fun owns =>
    trans_of Session.KeepsOwners (h.2 owns) (h'.2 (h.1 owns).1)⟩

namespace ScriptM

open Session

variable {b : Store} {e : Engine} {compiler : Compiler} {r : Running}

theorem session_outcomeOf (result : Except Failure Result) (r : Running) :
    (outcomeOf result r).2.session = r.session := by
  rcases result with failure | _ | _ | _ <;> rfl

theorem keepsTable_openBody (d : DocumentId) (x : Opening) : Keeps KeepsTable (openBody d x) := by
  cases x with
  | body inner => exact .pure _
  | constraints owner name i =>
    exact Keeps.bind (SessionM.keepsTable_modifyColumn _ _) fun _ => .pure _
  | visitors owner i a => exact Keeps.bind (SessionM.keeps_visitorFilter d a) fun _ => .pure _

theorem keepsTable_complete (d : DocumentId) (x : Completion) :
    Keeps KeepsTable (complete d x) := by
  cases x <;> exact fun _ => rfl

theorem knowsOwners_call (keeps : compiler.KeepsOwners) (sound : compiler.IsSound) (owns : r.Owns b)
    (known : r.session.KnowsOwners) (c : Script.Call) :
    (call e compiler c r).2.session.KnowsOwners := by
  obtain ⟨plain, -, calls, -⟩ | ⟨x, result, s, prepares, acts, calls⟩ := call_cases e compiler c r
  · rwa [calls]
  · rw [calls, session_outcomeOf]
    obtain ⟨g, -, -, adv⟩ :=
      SessionM.works_act sound (prepare_isNew owns prepares) acts owns.session
    have acted : s = (SessionM.act e compiler r.frame.document x.element x.positional x.attributes
      r.session).2 := (congrArg Prod.snd acts).symm
    subst acted
    exact SessionM.knowsOwners_act keeps known owns.known adv.grows

theorem keepsOwners_steady (keeps : compiler.KeepsOwners) (sound : compiler.IsSound) :
    Steady e compiler (Running.KeepsOwners b) where
  call c r := ⟨works_call sound c r, fun owns known => knowsOwners_call keeps sound owns known c⟩
  keep name result r := ⟨(works_steady (e := e) sound).keep name result r, fun _ => id⟩
  enter i r := by
    refine ⟨works_enter i r, fun owns known => ?_⟩
    have quiet := quiet_openBody owns.session.owned (scope_isNew owns i).opening r.session
    have opened := known.mono (quiet owns.session.base owns.known).grows (keepsTable_openBody _ _ _)
    rw [session_enter]
    exact opened
  leave i result r := by
    refine ⟨works_leave i result r, fun owns known => ?_⟩
    have grows := (complete_advances owns.session (scope_isNew owns i).completion).grows
    obtain ⟨-, same | session⟩ := leave_cases i result r
    · rw [same]
      exact known
    · rw [session]
      exact known.mono grows (keepsTable_complete _ _ _)

end ScriptM

namespace SessionM

open Session

variable {e : Engine} {compiler : Compiler}

theorem knowsOwners_openScript {r : Request} {s s₁ : Session} {result : Except Failure Opened}
    (known : s.KnowsOwners) (opens : openScript e r s = (result, s₁)) : s₁.KnowsOwners := by
  have put : s.Extends s₁ := (keeps_openScript extends_newDocument r).of_run opens
  exact known.mono put.grows ((keeps_openScript keepsTable_newDocument r).of_run opens)

theorem knowsOwners_of_open {r : Request} {o : Opened} {s s₁ : Session} (known : s.KnowsOwners)
    (opens : openScript e r s = (.ok o, s₁)) : (s₁.opening o.path).KnowsOwners :=
  show s₁.KnowsOwners from knowsOwners_openScript known opens

theorem keepsOwners_compileWithin (keeps : compiler.KeepsOwners) (sound : compiler.IsSound)
    (r : Request) : Keeps KeepsOwners (compileWithin e compiler r) := by
  intro s known
  unfold compileWithin
  rcases opens : openScript e r s with ⟨failure | o, s₁⟩
  · rw [Step.run_bind_of_error opens]
    exact knowsOwners_openScript known opens
  · have steady := ScriptM.keepsOwners_steady (e := e) (b := s.store) keeps sound
    have ran := (steady.runNodes o.nodes (.start o.path o.document (s₁.opening o.path))).2
      (owns_of_open opens) (knowsOwners_of_open known opens)
    rw [← session_runScript] at ran
    rw [Step.run_bind_of_ok opens, Step.run_bind, inChain_eq]
    cases (runScript e compiler o.path o.document o.nodes (s₁.opening o.path)).1 <;> exact ran

end SessionM

theorem compilerBelow_keepsOwners (e : Engine) (depth : Nat) :
    (compilerBelow e depth).KeepsOwners :=
  compilerBelow_induction
    (fun depth keeps =>
      SessionM.keepsOwners_compileWithin keeps (compilerBelow_isSound e depth)) depth

/-- The parameters at every point of a compile belong to documents that are there, if they did so at
its start. -/
theorem Visits.knowsOwners {e : Engine} {depth : Nat} {r : Request} {s : Session} {p : Point}
    (h : Visits e depth r s p) (known : s.KnowsOwners) : p.running.session.KnowsOwners := by
  induction h with
  | @here depth r s o s₁ steps running opens reaches =>
    have steady := ScriptM.keepsOwners_steady (e := e) (b := s.store)
      (compilerBelow_keepsOwners e depth) (compilerBelow_isSound e depth)
    exact (steady.reaches reaches).2 (owns_of_open opens) (SessionM.knowsOwners_of_open known opens)
  | @inside depth r s o s₁ node rest running c relativeTo path i s₂ path' suffix s₃ p opens reaches
      calls meets accepts visits ih =>
    have keeps : (compilerBelow e (depth + 1)).KeepsOwners :=
      compilerBelow_keepsOwners e (depth + 1)
    have steady := ScriptM.keepsOwners_steady (e := e) (b := s.store) keeps
      (compilerBelow_isSound e (depth + 1))
    have there := (steady.reaches reaches).2 (owns_of_open opens)
      (SessionM.knowsOwners_of_open known opens)
    obtain ⟨-, -, -, -, rfl⟩ := SessionM.of_accept accepts
    refine ih ?_
    cases meets with
    | file _ _ reads =>
      obtain rfl := (SessionM.keeps_readInclude _ _).of_run (R := (· = ·)) reads
      exact there
    | directory _ _ reads earlier =>
      exact (SessionM.keepsOwners_includeFiles keeps _ _).of_run earlier
        ((SessionM.keepsOwners_readIncludeAll _).of_run reads there)

end Migration
