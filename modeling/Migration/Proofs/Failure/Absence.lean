import Migration.Proofs.Failure.Calls
import Migration.Proofs.Inclusion.Chain
import Migration.Proofs.Path

/-!
# Files that are not there

Where only scripts are compiled, a failure to find something tells the truth: there is no file at
the path that it names. For every open script stands in a file, and an include that finds no file
fails with a failure of another family. More can be said of failures in the same way, also with
parsers of the host, as long as it holds of theirs.

* `Failure.IsTruthful` — what a failure says about a file
* `Failure.IsOther`, `Failure.IgnoresOthers` — failures that are neither about resources nor exits,
  and properties that all of them have
* `Failure.CoversFiles` — properties of the failures to find a file that is not there
* `SessionM.fails_act`, `ScriptM.fails_runNodes`, `SessionM.fails_compilerBelow` — the failures of
  elements, scripts and compiles have such a property
* `SessionM.fails_compileScript` — a compile fails truthfully
-/

namespace Migration

variable {α : Type}

namespace Tree

variable {t : Tree α} {relativeTo : Option String} {path : String} {error : ResourceError}

/-- There is a file at a path. -/
def HasFile (t : Tree α) (path : String) : Prop := ∃ content, t.read none path = .ok content

/-- A file cannot be read because its path leads out of the root or because it is not there. -/
theorem of_read_error (h : t.read relativeTo path = .error error) :
    error.family = .noAccess ∨
      ∃ found, t.resolve relativeTo path = .ok found ∧ error = .noFile found ∧
        ¬t.HasFile found := by
  unfold read at h
  cases resolves : t.resolve relativeTo path with
  | error failure =>
    rw [resolves] at h
    cases h
    unfold resolve at resolves
    dsimp only at resolves
    split at resolves <;> cases resolves
    exact .inl rfl
  | ok found =>
    rw [resolves] at h
    cases stands : t.file? (Path.components found) with
    | some content =>
      simp only [stands, bind, Except.bind] at h
      cases h
    | none =>
      simp only [stands, bind, Except.bind] at h
      cases h
      refine .inr ⟨found, rfl, rfl, ?_⟩
      rintro ⟨content, reads⟩
      unfold read at reads
      rw [resolve_of_resolve resolves] at reads
      simp only [stands, bind, Except.bind] at reads
      cases reads

/-- A path that has been resolved can be read unless there is no file. -/
theorem read_of_not_hasFile {found : String} (resolves : t.resolve relativeTo path = .ok found)
    (absent : ¬t.HasFile found) : t.read none found = .error (.noFile found) := by
  cases reads : t.read none found with
  | ok content => exact absurd ⟨content, reads⟩ absent
  | error error =>
    unfold read at reads
    rw [resolve_of_resolve resolves] at reads
    cases stands : t.file? (Path.components found) with
    | some content =>
      simp only [stands, bind, Except.bind] at reads
      cases reads
    | none =>
      simp only [stands, bind, Except.bind] at reads
      cases reads
      rfl

theorem noAccess_of_resolve (h : t.resolve relativeTo path = .error error) :
    error.family = .noAccess := by
  unfold resolve at h
  dsimp only at h
  split at h <;> cases h
  rfl

/-- A directory cannot be listed because its path leads out of the root or because it is not
there. -/
theorem noAccess_of_list {recursive : Bool} (h : t.list relativeTo path recursive = .error error)
    (other : error.family ≠ .notFound) : error.family = .noAccess := by
  unfold list at h
  cases resolves : t.resolve relativeTo path with
  | error failure =>
    rw [resolves] at h
    cases h
    exact noAccess_of_resolve resolves
  | ok found =>
    rw [resolves] at h
    simp only [bind, Except.bind] at h
    split at h <;> cases h
    exact absurd rfl other

end Tree

/-! ## Failures that are about no file -/

/-- A failure to find something names a path at which there is no file. -/
def Failure.IsTruthful (e : Engine) : Failure → Prop
  | resource error => error.family = .notFound → ¬e.sources.HasFile error.path
  | _ => True

/-- A failure that is not about a resource. -/
def Failure.IsNoResource (failure : Failure) : Prop := ∀ error, failure ≠ .resource error

/-- A failure that is neither about a resource nor an exit. -/
def Failure.IsOther (failure : Failure) : Prop :=
  failure.IsNoResource ∧ ∀ kind text, failure ≠ .exit kind text

/-- Failures that are neither about resources nor exits have the property. -/
class Failure.IgnoresOthers (P : Failure → Prop) : Prop where
  other : ∀ failure, failure.IsOther → P failure

instance : Failure.IgnoresOthers Failure.IsNoResource := ⟨fun _ other => other.1⟩

instance (e : Engine) : Failure.IgnoresOthers (Failure.IsTruthful e) where
  other failure no := by
    cases failure with
    | resource error => exact absurd rfl (no.1 error)
    | _ => trivial

/-- A property that failures to find something have for good reason: because a path leads out of the
root, because there is no file, or because there is nothing to include. What an include makes of a
failure with the property has it, too. -/
class Failure.CoversFiles (e : Engine) (P : Failure → Prop) : Prop where
  noAccess : ∀ error : ResourceError, error.family = .noAccess → P (.resource error)
  notFound : ∀ error : ResourceError, error.family = .notFound → ¬e.sources.HasFile error.path →
    P (.resource error)
  noScan : ∀ owner element written path, P (.resource (.noScan owner element written path))
  emptyScan : ∀ owner element written path, P (.resource (.emptyScan owner element written path))
  noInclude : ∀ error : ResourceError, error.family = .notFound → P (.resource error) →
    P (.resource (.noInclude documentOwner error.path))

instance (e : Engine) : Failure.CoversFiles e (Failure.IsTruthful e) where
  noAccess _ outside missing := by cases outside.symm.trans missing
  notFound _ _ absent _ := absent
  noScan _ _ _ _ missing := by cases missing
  emptyScan _ _ _ _ missing := by cases missing
  noInclude _ _ _ missing := by cases missing

section

variable {P : Failure → Prop}

namespace SessionM

@[grind ←] theorem fails_document (d : DocumentId) : Fails P (SessionM.document d) := by
  grind [SessionM.document]

@[grind ←] theorem fails_change (i : ChangeId) : Fails P (SessionM.change i) := by
  grind [SessionM.change]

@[grind ←] theorem fails_startingPath (d : DocumentId) (relative : Bool) :
    Fails P (startingPath d relative) := by
  grind [startingPath]

end SessionM

variable [Failure.IgnoresOthers P]

namespace Fails

variable {σ : Type}

theorem throw_other {failure : Failure} (other : failure.IsOther) :
    Fails P (MonadExcept.throw failure : ExceptT Failure (StateM σ) α) :=
  .throw (Failure.IgnoresOthers.other failure other)

@[grind ←] theorem throw_mishap (m : Mishap) :
    Fails P (MonadExcept.throw (.mishap m) : ExceptT Failure (StateM σ) α) :=
  .throw_other ⟨nofun, nofun⟩

@[grind ←] theorem throw_parse (problem : ParseFailure) (cause : Option BindError) :
    Fails P (MonadExcept.throw (.parse problem cause) : ExceptT Failure (StateM σ) α) :=
  .throw_other ⟨nofun, nofun⟩

@[grind ←] theorem throw_unbound (name : String) :
    Fails P (MonadExcept.throw (.unbound name) : ExceptT Failure (StateM σ) α) :=
  .throw_other ⟨nofun, nofun⟩

@[grind ←] theorem throw_inclusion (failure : InclusionFailure) :
    Fails P (MonadExcept.throw (.inclusion failure) : ExceptT Failure (StateM σ) α) :=
  .throw_other ⟨nofun, nofun⟩

end Fails

namespace SessionM

/-! ### Reading attributes -/

@[grind ←] theorem fails_reject (problem : ParseFailure) (cause : Option BindError) :
    Fails P (reject problem cause : SessionM α) :=
  .throw_parse problem cause

@[grind ←] theorem fails_ofFilter (x : Except Filter.Malformed α) : Fails P (ofFilter x) := by
  cases x <;> grind [ofFilter]

@[grind ←] theorem fails_ofMishap (x : Except Mishap α) : Fails P (ofMishap x) := by
  cases x <;> grind [ofMishap]

@[grind ←] theorem fails_ofCheck (x : Except ParseFailure α) : Fails P (ofCheck x) := by
  cases x <;> grind [ofCheck]

@[grind ←] theorem fails_ofExtension (x : Except Extensions.Problem α) :
    Fails P (ofExtension x) := by
  cases x with
  | ok a => exact .pure a
  | error problem => exact .throw_other (by cases problem <;> exact ⟨nofun, nofun⟩)

@[grind ←] theorem fails_expand (d : DocumentId) (v : Value) : Fails P (expand d v) := by
  grind [expand]

@[grind ←] theorem fails_contextFilter (d : DocumentId) (a : Attributes) :
    Fails P (contextFilter d a) := by
  grind [contextFilter]

@[grind ←] theorem fails_labels (d : DocumentId) (a : Attributes) : Fails P (labels d a) := by
  grind [labels]

@[grind ←] theorem fails_fill (d : DocumentId) (owner : String) (target : Target) (r : Record)
    (a : Attributes) : Fails P (fill d owner target r a) := by
  induction a generalizing r with
  | nil => grind [fill]
  | cons entry rest ih => grind [fill]

@[grind ←] theorem fails_newRecord (d : DocumentId) (owner element : String) (target : Target)
    (type : RecordType) (positional : List Value) (a : Attributes) :
    Fails P (newRecord d owner element target type positional a) := by
  grind [newRecord]

@[grind ←] theorem fails_choice (kind : Choice.Kind) (v : Value) (failure : String → ParseFailure) :
    Fails P (choice kind v failure) := by
  grind [choice]

@[grind ←] theorem fails_quotingStrategy (d : DocumentId) (owner : String) (a : Attributes) :
    Fails P (quotingStrategy d owner a) := by
  grind [quotingStrategy]

@[grind ←] theorem fails_changeSetPath (d : DocumentId) (a : Attributes) :
    Fails P (changeSetPath d a) := by
  grind [changeSetPath]

@[grind ←] theorem fails_optionalParts (d : DocumentId) (owner : String) (a : Attributes)
    (s : DraftChangeSet) : Fails P (optionalParts d owner a s) := by
  grind [optionalParts]

@[grind ←] theorem fails_newChangeSet (d : DocumentId) (a : Attributes) :
    Fails P (newChangeSet d a) := by
  unfold newChangeSet
  refine Fails.bind (fails_ofCheck _) fun _ => ?_
  refine Fails.bind (fails_quotingStrategy _ _ _) fun _ => ?_
  refine Fails.bind (fails_changeSetPath _ _) fun _ => ?_
  refine Fails.bind (fails_contextFilter _ _) fun _ => ?_
  refine Fails.bind (fails_expand _ _) fun _ => ?_
  refine Fails.bind (fails_expand _ _) fun _ => ?_
  grind

@[grind ←] theorem fails_readRemoval (e : Engine) (d : DocumentId) (a : Attributes) :
    Fails P (readRemoval e d a) := by
  unfold readRemoval
  refine Fails.bind (fails_ofCheck _) fun _ => ?_
  refine Fails.bind (fails_expand _ _) fun _ => ?_
  refine Fails.bind (fails_expand _ _) fun _ => ?_
  refine Fails.bind (fails_ofMishap _) fun databases => ?_
  refine Fails.bind (fails_expand _ _) fun _ => ?_
  cases databases <;> grind

@[grind ←] theorem fails_visitorFilter (d : DocumentId) (a : Attributes) :
    Fails P (ScriptM.visitorFilter d a) := by
  grind [ScriptM.visitorFilter]

@[grind ←] theorem fails_expandPath (d : DocumentId) (v : Value) (name element : String) :
    Fails P (expandPath d v name element) := by
  grind [expandPath]

@[grind ←] theorem fails_expandDepth (d : DocumentId) (v : Value) (name element : String) :
    Fails P (expandDepth d v name element) := by
  grind [expandDepth]

@[grind ←] theorem fails_namedFilter (e : Engine) (d : DocumentId) (v : Value) :
    Fails P (namedFilter e d v) := by
  grind [namedFilter]

@[grind ←] theorem fails_namedComparator (e : Engine) (d : DocumentId) (v : Value) :
    Fails P (namedComparator e d v) := by
  grind [namedComparator]

@[grind ←] theorem fails_textOrEmpty (d : DocumentId) (v : Value) : Fails P (textOrEmpty d v) := by
  grind [textOrEmpty]

@[grind ←] theorem fails_inclusionOf (d : DocumentId) (a : Attributes) :
    Fails P (inclusionOf d a) := by
  grind [inclusionOf]

@[grind ←] theorem fails_readInclude (d : DocumentId) (a : Attributes) :
    Fails P (readInclude d a) := by
  grind [readInclude]

@[grind ←] theorem fails_setParameters (declaration : Parameter.Declaration)
    (entries : List (String × Value)) : Fails P (setParameters declaration entries) := by
  induction entries with
  | nil => exact .pure _
  | cons entry rest ih =>
    refine Fails.bind (fails_ofMishap _) fun p => ?_
    exact Fails.bind (.of_succeeds (.modify _)) fun _ => ih

@[grind ←] theorem fails_newContainer (d : DocumentId) (owner : String) (a : Attributes) :
    Fails P (newContainer d owner a) :=
  Fails.bind (fails_fill _ _ _ _ _) fun _ => .of_succeeds (succeeds_addPrecondition _)

/-! ### Elements that name no file -/

variable {e : Engine} {d : DocumentId}

theorem fails_changeLog (a : Attributes) : Fails P (changeLog d a) := by
  refine Fails.bind (fails_ofCheck _) fun _ => Fails.bind ?_ fun _ => Fails.bind ?_ fun _ => ?_
  · refine Fails.bind (fails_document _) fun _ => Fails.ite ?_ (.pure _)
    exact Fails.bind (fails_expand _ _) fun _ => .of_succeeds (succeeds_modifyStore _)
  · refine Fails.bind (fails_contextFilter _ _) fun contexts => ?_
    cases contexts with
    | none => exact .pure _
    | some contexts => exact .of_succeeds (succeeds_modifyStore _)
  · refine Fails.ite ?_ (.pure _)
    refine Fails.bind (fails_expand _ _) fun _ => Fails.bind (fails_choice _ _ _) fun _ => ?_
    exact .of_succeeds (succeeds_modifyStore _)

theorem fails_removeProperty (a : Attributes) : Fails P (removeProperty e d a) := by
  refine Fails.bind (fails_readRemoval _ _ _) fun removal => ?_
  cases removal with
  | none => exact .pure _
  | some removal => exact .of_succeeds (succeeds_modifyStore _)

theorem fails_rollback (owner : String) (i : ChangeSetId) (positional : List Value)
    (a : Attributes) :
    Fails P (rollback d owner i positional a) := by
  cases positional with
  | nil =>
    refine .ite (.pure _) (Fails.bind ?_ fun _ => .pure _)
    refine Fails.bind (fails_ofCheck _) fun _ => Fails.bind (fails_expand _ _) fun id => ?_
    refine .ite (Fails.bind (fails_reject _ _) fun _ => ?_) ?_
    all_goals
      refine Fails.bind (fails_expand _ _) fun author => Fails.bind (fails_expand _ _) fun path => ?_
      refine Fails.bind .get fun s => ?_
      dsimp only
      cases (s.store.find? d path author id).bind s.store.changeSets.get? with
      | none => exact fails_reject _ _
      | some found => exact .of_succeeds (succeeds_addRollback i found.changes)
  | cons sql more =>
    refine .ite (Fails.bind (fails_reject _ _) fun _ => ?_) ?_
    all_goals
      refine Fails.bind ?_ fun _ => .pure _
      refine Fails.bind (fails_expand _ _) fun v => .ite (Fails.bind (.throw_mishap _) fun _ => ?_) ?_
      all_goals exact .of_succeeds (.bind (succeeds_addChange _) fun c => succeeds_addRollback i [c])

theorem fails_constraints (owner name : String) (i : ColumnId) (a : Attributes) :
    Fails P (constraints d owner name i a) := by
  induction a with
  | nil => exact .pure _
  | cons entry rest ih =>
    refine Fails.bind (fails_expand _ _) fun v => Fails.bind .get fun s => ?_
    dsimp only
    split
    · exact Fails.bind (.of_succeeds (succeeds_modifyStore _)) fun _ => ih
    · exact Fails.bind (fails_reject _ _) fun _ => ih

theorem fails_column (owner name : String) (i : ChangeId) (a : Attributes) :
    Fails P (column d owner name i a) := by
  refine Fails.bind (fails_change _) fun c => Fails.bind (fails_fill _ _ _ _ _) fun record => ?_
  refine .ite (Fails.bind (fails_reject _ _) fun _ => ?_) ?_
  all_goals exact .of_succeeds fun _ => ⟨_, _, rfl⟩

theorem fails_whereClause (owner name : String) (i : ChangeId) (v : Value) :
    Fails P (whereClause d owner name i v) := by
  have set : ∀ f, Fails P (modifyChange i f) := fun f => .of_succeeds (succeeds_modifyStore _)
  grind [whereClause]

theorem fails_param (owner name : String) (i : ChangeId) (a : Attributes) :
    Fails P (param d owner name i a) := by
  have add : ∀ f, Fails P (modifyChange i f) := fun f => .of_succeeds (succeeds_modifyStore _)
  grind [param]

theorem fails_newStatements (a : Attributes) (id path : String) :
    Fails P (newStatements d a id path) := by
  refine Fails.bind (fails_newChangeSet _ _) fun _ => Fails.bind (fails_fill _ _ _ _ _) fun _ => ?_
  exact .of_succeeds fun _ => ⟨_, _, rfl⟩

theorem fails_includeStatementFiles (a : Attributes) (id : String → String) (paths : List String) :
    Fails P (includeStatementFiles d a id paths) := by
  induction paths with
  | nil => exact .pure _
  | cons path rest ih =>
    refine Fails.bind (Fails.bind (fails_newStatements _ _ _) fun i => ?_) fun _ => ih
    exact .of_succeeds (succeeds_modifyStore _)

end SessionM

/-! ## Failures that are about files -/

namespace SessionM

variable {e : Engine} {compiler : Compiler} {d : DocumentId} [Failure.CoversFiles e P]

omit [Failure.IgnoresOthers P] in
/-- A file that cannot be read leads out of the root or is not there. -/
theorem covers_read {relativeTo : Option String} {path : String} {error : ResourceError}
    (reads : e.sources.read relativeTo path = .error error) : P (.resource error) := by
  obtain outside | ⟨found, -, rfl, absent⟩ := Tree.of_read_error reads
  · exact Failure.CoversFiles.noAccess (e := e) error outside
  · exact Failure.CoversFiles.notFound (e := e) _ rfl absent

omit [Failure.IgnoresOthers P] in
/-- A path that cannot be resolved leads out of the root. -/
theorem fails_ofResource_resolve (relativeTo : Option String) (path : String) :
    Fails P (ofResource (e.sources.resolve relativeTo path)) := by
  cases resolves : e.sources.resolve relativeTo path with
  | ok found => exact .pure _
  | error error =>
    exact .throw (Failure.CoversFiles.noAccess (e := e) error (Tree.noAccess_of_resolve resolves))

omit [Failure.IgnoresOthers P] in
theorem fails_ofResource_read (relativeTo : Option String) (path : String) :
    Fails P (ofResource (e.sources.read relativeTo path)) := by
  cases reads : e.sources.read relativeTo path with
  | ok content => exact .pure _
  | error error => exact .throw (covers_read reads)

theorem fails_propertiesOf (a : Attributes) : Fails P (propertiesOf e d a) := by
  refine Fails.bind (fails_expandPath _ _ _ _) fun path => ?_
  refine Fails.bind (fails_startingPath _ _) fun relativeTo => ?_
  cases reads : e.sources.read relativeTo path with
  | error error =>
    exact .ite (Fails.bind (.throw (covers_read reads)) fun _ => .of_succeeds fun _ => ⟨_, _, rfl⟩)
      (.of_succeeds fun _ => ⟨_, _, rfl⟩)
  | ok file =>
    refine Fails.bind (fails_ofMishap _) fun text => ?_
    cases Properties.parse text with
    | ok entries => exact .pure _
    | error problem => exact fails_reject _ _

theorem fails_property (a : Attributes) : Fails P (property e d a) := by
  refine Fails.bind (fails_ofCheck _) fun _ => Fails.bind (fails_expand _ _) fun contexts => ?_
  refine Fails.bind (fails_expand _ _) fun labels => Fails.bind (fails_expand _ _) fun databases => ?_
  refine Fails.ite (Fails.bind (fails_propertiesOf a) fun _ => fails_setParameters _ _) ?_
  refine Fails.bind (fails_expand _ _) fun name => Fails.ite ?_ ?_
  · exact Fails.bind (fails_reject _ _) fun _ => Fails.bind (fails_expand _ _) fun _ =>
      fails_setParameters _ _
  · exact Fails.bind (fails_expand _ _) fun _ => fails_setParameters _ _

omit [Failure.IgnoresOthers P] in
/-- A directory that is not there is no file that is not there. -/
theorem fails_listing (relativeTo : Option String) (path element : String) (required : Bool) :
    Fails P (listing e relativeTo path element required) := by
  refine Fails.bind (fails_ofResource_resolve _ _) fun directory => ?_
  cases lists : e.sources.list relativeTo path true with
  | ok files => exact .pure _
  | error error =>
    by_cases missing : error.family = .notFound
    · simp only [missing, bne_self_eq_false, Bool.false_eq_true, if_false]
      exact .ite (.throw (Failure.CoversFiles.noScan (e := e) _ _ _ _))
        (.of_succeeds fun _ => ⟨_, _, rfl⟩)
    · simp only [bne_iff_ne, ne_eq, missing, not_false_eq_true, if_true]
      exact .throw (Failure.CoversFiles.noAccess (e := e) error (Tree.noAccess_of_list lists missing))

theorem fails_discover (a : Attributes) (element : String) :
    Fails P (discover e d a element) := by
  unfold discover
  refine Fails.bind (fails_expandPath _ _ _ _) fun path => ?_
  refine Fails.bind (fails_expandDepth _ _ _ _) fun _ => ?_
  refine Fails.bind (fails_expandDepth _ _ _ _) fun _ => ?_
  refine Fails.bind (fails_expand _ _) fun _ => ?_
  refine Fails.bind (fails_namedFilter _ _ _) fun _ => ?_
  refine Fails.bind (fails_namedComparator _ _ _) fun _ => ?_
  refine Fails.bind (fails_startingPath _ _) fun _ => ?_
  refine Fails.bind (fails_listing _ _ _ _) fun found => ?_
  obtain ⟨directory, files⟩ := found
  have empty := Failure.CoversFiles.emptyScan (e := e) (P := P)
  refine .ite (.ite (Fails.bind (.throw (empty _ _ _ _)) fun _ => .pure _) ?_) (.pure _)
  exact .of_succeeds fun _ => ⟨_, _, rfl⟩

theorem fails_readIncludeAll (a : Attributes) :
    Fails P (readIncludeAll e d a) :=
  Fails.bind (fails_ofCheck _) fun _ => Fails.bind (fails_discover _ _) fun _ =>
    Fails.bind (fails_inclusionOf _ _) fun _ => .pure _

theorem fails_includeAllSql (a : Attributes) :
    Fails P (includeAllSql e d a) := by
  refine Fails.bind ?_ fun _ => fails_includeStatementFiles _ _ _
  refine Fails.bind (fails_ofCheck _) fun _ => Fails.bind (fails_discover _ _) fun paths => ?_
  refine .ite (.pure _) (Fails.bind (fails_textOrEmpty _ _) fun start => ?_)
  exact Fails.bind (fails_textOrEmpty _ _) fun ending => .pure _

end SessionM

/-! ## Scripts -/

/-- All files are compiled as scripts. -/
def Engine.CompilesScripts (e : Engine) : Prop :=
  ∀ path parser, e.parser? path = some parser → ∃ suffix, parser = .script suffix

/-- The engine for scripts compiles nothing else. -/
theorem Engine.compilesScripts_ofScripts (scripts : List (String × List Script.Node)) :
    (Engine.ofScripts scripts).CompilesScripts := by
  intro path parser takes
  obtain ⟨entry, found, rfl⟩ := Option.map_eq_some_iff.1 takes
  have mem := List.mem_of_find?_eq_some found
  simp only [ofScripts, Parsers.add, List.mem_singleton] at mem
  exact ⟨".py", by rw [mem]⟩

/-- The failures of the parsers of the host have the property. -/
def Engine.HostsFail (e : Engine) (P : Failure → Prop) : Prop :=
  ∀ path supports parse error, e.parser? path = some (.host supports parse) →
    parse path = .error error → P (.resource error)

/-! ### What scripts raise -/

mutual

/-- What a step raises, and the steps inside it. -/
def Script.Node.raised : Script.Node → List Script.Exception
  | .raise kind text => [{ kind, text }]
  | .block _ body | .reopen _ body | .attempt body => Script.raised body
  | .call _ | .keep .. | .enter _ | .exit _ => []

/-- What steps raise. -/
def Script.raised : List Script.Node → List Script.Exception
  | [] => []
  | node :: rest => node.raised ++ Script.raised rest

end

/-- The language gives up reading a file. -/
inductive Engine.GivesUp (e : Engine) : SourceFile → Script.Exception → Prop
  | bytes {bytes : List UInt8} {encoding : Encoding} {text : String} {x : Script.Exception}
      (some : bytes ≠ []) (known : e.encoding = .ok encoding)
      (decodes : encoding.decode bytes = .ok text)
      (abandons : e.language.read text = .abandoned x) : GivesUp e (.bytes bytes) x

/-- The language gives up reading the file that a path stands for. -/
def Engine.Abandons (e : Engine) (path : String) (x : Script.Exception) : Prop :=
  ∃ found file, e.sources.resolve none path = .ok found ∧ e.sources.read none found = .ok file ∧
    e.GivesUp file x

/-- What can be raised in a compile: by a step of a script, by a function of the language, or
because the language gives up reading a file. -/
inductive Engine.Raises (e : Engine) : Script.Exception → Prop
  | step {nodes : List Script.Node} {x : Script.Exception} (script : nodes ∈ e.scripts)
      (raised : x ∈ Script.raised nodes) : Raises e x
  | function {name : String} {b : Script.Builtin} {f : Script.Builtin.Function}
      {positional : List Value} {pairs : List (String × Value)} {x : Script.Exception}
      (known : e.language.builtin? name = some b) (calls : b.call? = some f)
      (fails : f positional pairs = .error x) : Raises e x
  | reading {path : String} {x : Script.Exception} (abandons : e.Abandons path x) : Raises e x

/-- What is raised in a compile has the property as a failure. -/
def Engine.RaisesWith (e : Engine) (P : Failure → Prop) : Prop :=
  ∀ x, e.Raises x → P (.ofException x)

/-- What is raised is an exit if its kind is one of those, and otherwise not. -/
theorem Failure.ofException_cases (x : Script.Exception) :
    (ofException x).IsOther ∨ ofException x = .exit x.kind x.text ∧ x.kind ∈ Script.exitKinds := by
  unfold ofException
  split
  · exact .inl ⟨nofun, nofun⟩
  · split
    · next exits => exact .inr ⟨rfl, List.contains_iff_mem.1 exits⟩
    · exact .inl ⟨nofun, nofun⟩

/-- What is raised has the property if exits have it. -/
theorem Failure.of_exits (exits : ∀ kind text, P (.exit kind text)) (x : Script.Exception) :
    P (.ofException x) := by
  obtain other | ⟨same, -⟩ := Failure.ofException_cases x
  · exact Failure.IgnoresOthers.other _ other
  · exact same ▸ exits _ _

omit [Failure.IgnoresOthers P] in
theorem Engine.CompilesScripts.hostsFail {e : Engine} (scripts : e.CompilesScripts) :
    e.HostsFail P := by
  intro path supports parse error takes
  obtain ⟨suffix, same⟩ := scripts path _ takes
  cases same

/-- The failures of a compiler have the property. -/
def Compiler.FailsWith (P : Failure → Prop) (compiler : Compiler) : Prop :=
  ∀ compile ∈ compiler, ∀ r, Fails P (compile r)

/-- A compiler fails truthfully. -/
def Compiler.IsTruthful (e : Engine) (compiler : Compiler) : Prop :=
  compiler.FailsWith (Failure.IsTruthful e)

namespace SessionM

variable {e : Engine} {compiler : Compiler} {d : DocumentId} [Failure.CoversFiles e P]

theorem fails_accept (relativeTo : Option String) (path : String) (skipsUnknown : Bool) :
    Fails P (accept e relativeTo path skipsUnknown) := by
  refine Fails.bind (fails_ofResource_resolve _ _) fun found => ?_
  cases e.parser? found with
  | none => exact .ite (.of_succeeds fun _ => ⟨_, _, rfl⟩) (fails_reject _ _)
  | some parser =>
    refine Fails.bind ?_ fun _ => Fails.bind ?_ fun _ => .pure _
    all_goals exact Fails.bind .get fun s => .ite (.throw_inclusion _) (.pure _)

omit [Failure.IgnoresOthers P] in
/-- What an include makes of a failure with the property has it, too. -/
theorem fails_excuse (e : Engine) [Failure.CoversFiles e P] {failure : Failure} (h : P failure)
    (path : String) (required : Bool) : Fails P (excuse path required failure) := by
  cases failure with
  | resource error =>
    show Fails P (if (error.family != .notFound || error.path != path) = true then _ else _)
    split
    · exact .throw h
    · next own =>
      simp only [Bool.or_eq_true, bne_iff_ne, not_or, not_not] at own
      obtain ⟨missing, rfl⟩ := own
      refine .ite (.throw (Failure.CoversFiles.noInclude (e := e) error missing h)) ?_
      exact .of_succeeds fun _ => ⟨_, _, rfl⟩
  | _ => exact .throw h

omit [Failure.IgnoresOthers P] in
/-- A document is made of a file unless the parser of the host fails. -/
theorem fails_hostDocument {parse : String → Except ResourceError (List DraftChangeSet)} {r : Request}
    (h : ∀ error, parse r.path = .error error → P (.resource error)) :
    Fails P (hostDocument parse r) := by
  have parses : Fails P (ofResource (parse r.path)) := by
    cases result : parse r.path with
    | ok made => exact .pure _
    | error error => exact .throw (h error result)
  refine Fails.bind parses fun made => Fails.bind (.of_succeeds (addChangeSets_ok made)) fun ids => ?_
  refine Fails.bind (.of_succeeds fun _ => ⟨_, _, rfl⟩) fun d => ?_
  exact Fails.bind (.of_succeeds (succeeds_modifyStore _)) fun _ => .pure _

omit [Failure.CoversFiles e P] in
theorem fails_compileWith (hosts : e.HostsFail P) (below : compiler.FailsWith P) {parser : Parser}
    {r : Request} (takes : e.parser? r.path = some parser) :
    Fails P (compileWith e compiler parser r) := by
  cases parser with
  | host supports parse => exact fails_hostDocument fun error => hosts _ _ _ error takes
  | script suffix =>
    cases compiler with
    | none => exact .throw_inclusion _
    | some compile => exact below compile rfl r

theorem fails_includeFile (hosts : e.HostsFail P) (below : compiler.FailsWith P)
    (relativeTo : Option String) (path : String) (i : Inclusion) :
    Fails P (includeFile e compiler d relativeTo path i) := by
  intro s failure s' fails
  obtain ⟨failure', s₁, accepts, run⟩ | ⟨s₁, accepts, run⟩ |
    ⟨found, parser, s₁, s₂, accepts, ⟨failure', compiles, run⟩ | ⟨child, compiles, run⟩⟩ :=
      includeFile_cases e compiler d relativeTo path i s
  all_goals rw [run] at fails
  · cases fails
    exact fails_accept relativeTo path i.skipsUnknown s _ _ accepts
  · cases fails
  · have takes := (of_accept accepts).2.1
    have inside := fails_compileWith (r := i.request d found) hosts below takes s₁ failure' s₂ compiles
    exact fails_excuse e inside _ _ _ _ _ fails
  · have merges := merge_ok (d := d) child i.logicalPath s₂
    rw [fails] at merges
    cases merges

theorem fails_includeFiles (hosts : e.HostsFail P) (below : compiler.FailsWith P)
    (i : Inclusion) (paths : List String) :
    Fails P (includeFiles e compiler d i paths) := by
  induction paths with
  | nil => exact .pure _
  | cons path rest ih =>
    exact Fails.bind (fails_includeFile hosts below none path i) fun _ => ih

/-- The failures of elements have the property. -/
theorem fails_act (hosts : e.HostsFail P) (below : compiler.FailsWith P) (x : Element)
    (positional : List Value) (a : Attributes) :
    Fails P (act e compiler d x positional a) := by
  cases x with
  | changeLog => exact Fails.bind (fails_changeLog a) fun _ => .pure _
  | property => exact Fails.bind (fails_property a) fun _ => .pure _
  | changeSet =>
    exact Fails.bind (fails_newChangeSet _ _) fun _ => .of_succeeds fun _ => ⟨_, _, rfl⟩
  | «include» =>
    refine Fails.bind (Fails.bind (fails_readInclude _ _) fun read => ?_) fun _ => .pure _
    exact fails_includeFile hosts below read.1 read.2.1 read.2.2
  | includeAll =>
    refine Fails.bind (Fails.bind (fails_readIncludeAll _) fun read => ?_) fun _ => .pure _
    exact fails_includeFiles hosts below read.2 read.1
  | includeAllSql => exact Fails.bind (fails_includeAllSql a) fun _ => .pure _
  | preconditions owner s => exact Fails.bind (fails_newContainer _ _ _) fun _ => .pure _
  | removeProperty => exact Fails.bind (fails_removeProperty a) fun _ => .pure _
  | comment i | checkSum i =>
    exact Fails.bind (fails_expand _ _) fun v => .of_succeeds fun _ => ⟨_, _, rfl⟩
  | rollback owner i => exact fails_rollback owner i positional a
  | modifySql owner i => exact Fails.bind (fails_ofCheck _) fun _ => .pure _
  | change owner name type i undoes =>
    refine Fails.bind (fails_newRecord _ _ _ _ _ _ _) fun record => .of_succeeds ?_
    exact .bind (succeeds_addChange _) fun c => .bind (succeeds_attachChange i undoes c) fun _ =>
      .pure _
  | column owner name i => exact Fails.bind (fails_column _ _ _ _) fun _ => .pure _
  | whereClause owner name i => exact Fails.bind (fails_whereClause _ _ _ _) fun _ => .pure _
  | whereParams owner name i => exact .pure _
  | param owner name i => exact Fails.bind (fails_param _ _ _ _) fun _ => .pure _
  | constraints owner name i => exact Fails.bind (fails_constraints _ _ _ _) fun _ => .pure _
  | constraint owner name i key => exact Fails.bind (fails_constraints _ _ _ _) fun _ => .pure _
  | group owner type parent =>
    exact .of_succeeds (.bind (succeeds_nest parent _) fun _ => .pure _)
  | precondition owner name type parent =>
    refine Fails.bind (fails_newRecord _ _ _ _ _ _ _) fun record => .of_succeeds ?_
    exact .bind (succeeds_nest parent record) fun _ => .pure _
  | visitor owner type i filter =>
    refine Fails.bind (Fails.bind (fails_fill _ _ _ _ _) fun _ => ?_) fun _ => .pure _
    exact .of_succeeds (succeeds_modifyStore _)

end SessionM

namespace ScriptM

/-! ### Evaluating arguments -/

variable {P : Failure → Prop}

@[grind ←] theorem fails_lift {m : SessionM α} (hm : Fails P m) :
    Fails P (monadLift m : ScriptM α) := by
  intro r failure r' h
  have fails : (m r.session).1 = .error failure := congrArg Prod.fst h
  exact hm r.session failure _ (Prod.ext fails rfl)

@[grind ←] theorem fails_frame : Fails P frame := by
  grind [frame]

@[grind ←] theorem fails_document : Fails P document := by
  grind [document]

@[grind ←] theorem fails_resolve [Failure.IgnoresOthers P] (e : Engine) (name : String) :
    Fails P (resolve e name) := by
  grind [resolve]

@[grind ←] theorem fails_valueOf [Failure.IgnoresOthers P] (e : Engine) (name : String) :
    Fails P (valueOf e name) := by
  grind [valueOf]

mutual

theorem fails_eval [Failure.IgnoresOthers P] (e : Engine) (x : Script.Expr) :
    Fails P (eval e x) := by
  cases x with
  | literal v => grind [eval]
  | name n => grind [eval]
  | list items =>
    have := fails_evalItems e items
    grind [eval]
  | map entries =>
    have := fails_evalEntries e entries
    grind [eval]

theorem fails_evalItems [Failure.IgnoresOthers P] (e : Engine) (items : List Script.Expr) :
    Fails P (evalItems e items) := by
  cases items with
  | nil => grind [evalItems]
  | cons x rest =>
    have := fails_eval e x
    have := fails_evalItems e rest
    grind [evalItems]

theorem fails_evalEntries [Failure.IgnoresOthers P] (e : Engine)
    (entries : List (Script.Expr × Script.Expr)) : Fails P (evalEntries e entries) := by
  cases entries with
  | nil => grind [evalEntries]
  | cons entry rest =>
    have := fails_evalEntry e entry
    have := fails_evalEntries e rest
    grind [evalEntries]

theorem fails_evalEntry [Failure.IgnoresOthers P] (e : Engine) (entry : Script.Expr × Script.Expr) :
    Fails P (evalEntry e entry) := by
  obtain ⟨key, x⟩ := entry
  have := fails_eval e key
  have := fails_eval e x
  grind [evalEntry]

end

variable [Failure.IgnoresOthers P]

@[grind ←] theorem fails_evalAttributes (e : Engine) (a : List (String × Script.Expr)) :
    Fails P (evalAttributes e a) := by
  induction a with
  | nil => grind [evalAttributes]
  | cons entry rest ih => grind [evalAttributes, fails_eval]

@[grind ←] theorem fails_dispatch (e : Engine) (name : String) (positional : List Value)
    (a : Attributes) : Fails P (dispatch e name positional a) := by
  grind [dispatch, innermost]

@[grind ←] theorem fails_prepare (e : Engine) (c : Script.Call) : Fails P (prepare e c) := by
  unfold prepare
  refine Fails.bind (fails_resolve _ _) fun binding => ?_
  cases binding <;> grind [fails_evalItems]

@[grind ←] theorem fails_keptScope (e : Engine) (name : String) (mishap : String → Mishap) :
    Fails P (keptScope e name mishap) := by
  grind [keptScope]

@[grind ←] theorem fails_checkPending : Fails P checkPending := by
  grind [checkPending]

theorem fails_openBody (d : DocumentId) (x : Opening) : Fails P (openBody d x) := by
  cases x with
  | body body => exact .pure _
  | constraints owner name i =>
    exact Fails.bind (.of_succeeds (SessionM.succeeds_modifyStore _)) fun _ => .pure _
  | visitors owner i a => exact Fails.bind (SessionM.fails_visitorFilter _ _) fun _ => .pure _

theorem fails_enter (i : ScopeId) : Fails P (enter i) := by
  intro r failure r' h
  obtain ⟨s, ⟨failure', opens, enters⟩ | ⟨body, opens, enters⟩⟩ := enter_cases i r <;>
    cases enters.symm.trans h
  exact fails_openBody _ _ _ _ _ opens

/-- Leaving a block fails as its steps do, or because of the block. -/
theorem fails_leave {i : ScopeId} {result : Except Failure Unit}
    (h : ∀ failure, result = .error failure → P failure) : Fails P (leave i result) := by
  intro r failure r' left
  obtain ⟨mark, body, rest, -, -, pops⟩ | pops := pop_cases i r
  · cases result with
    | ok _ =>
      rw [leave_ok pops] at left
      cases left
    | error failure' =>
      have inside := h failure' rfl
      unfold leave at left
      rw [Step.run_bind_of_ok pops] at left
      cases failure' with
      | unbound name =>
        cases left
        exact Failure.IgnoresOthers.other _ ⟨nofun, nofun⟩
      | _ =>
        cases left
        exact inside
  · unfold leave at left
    rw [Step.run_bind_of_error pops] at left
    cases left
    exact Failure.IgnoresOthers.other _ ⟨nofun, nofun⟩

theorem fails_within {i : ScopeId} {steps : ScriptM Unit} (hs : Fails P steps) :
    Fails P (within i steps) := by
  refine (fails_enter i).bind_of_ok fun r _ r₁ enters failure r₂ fails => ?_
  rw [Step.run_bind_of_ok (run_observe steps r₁)] at fails
  refine fails_leave (fun failure' same => ?_) _ _ _ fails
  exact hs r₁ failure' _ (Prod.ext same rfl)

/-! ### Steps -/

variable {e : Engine} {compiler : Compiler} [Failure.CoversFiles e P]

theorem fails_callElement (hosts : e.HostsFail P) (below : compiler.FailsWith P) (c : Script.Call) :
    Fails P (callElement e compiler c) := by
  refine Fails.bind (fails_prepare e c) fun x => Fails.bind fails_document fun d => ?_
  refine Fails.bind (fails_lift (SessionM.fails_act hosts below _ _ _)) fun result => ?_
  cases result with
  | scope x => exact .of_succeeds fun _ => ⟨_, _, rfl⟩
  | _ => exact .pure _

omit [Failure.CoversFiles e P] in
theorem fails_callFunction {f : Script.Builtin.Function}
    (raises : ∀ positional pairs x, f positional pairs = .error x → P (.ofException x))
    (c : Script.Call) : Fails P (callFunction e f c) := by
  refine Fails.bind (fails_evalItems _ _) fun positional => ?_
  refine Fails.bind (fails_evalAttributes _ _) fun pairs => ?_
  cases gives : f positional pairs with
  | ok v => exact .pure _
  | error x => exact .throw (raises positional pairs x gives)

omit [Failure.IgnoresOthers P] [Failure.CoversFiles e P] in
/-- What a function of the language raises, an engine raises. -/
theorem raises_of_function? {f : Frame} {name : String} {g : Script.Builtin.Function}
    (stands : function? e f name = some g) {positional : List Value} {pairs : List (String × Value)}
    {x : Script.Exception} (fails : g positional pairs = .error x) : e.Raises x := by
  unfold function? at stands
  split at stands
  · next b defines =>
    exact .function (builtin?_of_defined? defines) stands fails
  · cases stands

theorem fails_call_of_hostsFail (hosts : e.HostsFail P) (raises : e.RaisesWith P)
    (below : compiler.FailsWith P) (c : Script.Call) : Fails P (call e compiler c) := by
  refine Fails.bind fails_frame fun f => ?_
  cases stands : function? e f c.element with
  | none => exact fails_callElement hosts below c
  | some g =>
    exact fails_callFunction (fun _ _ x fails => raises x (raises_of_function? stands fails)) c

end ScriptM

end

namespace ScriptM

variable {P : Failure → Prop} {e : Engine} {compiler : Compiler}

mutual

/-- The failures of a step of a script have the property. -/
theorem fails_runNode [Failure.IgnoresOthers P] [Failure.CoversFiles e P] (hosts : e.HostsFail P)
    (raises : e.RaisesWith P) (below : compiler.FailsWith P) {node : Script.Node}
    (own : ∀ x ∈ node.raised, P (.ofException x)) : Fails P (runNode e compiler node) := by
  cases node with
  | call c => exact Fails.bind (fails_call_of_hostsFail hosts raises below c) fun _ => .pure _
  | keep name c =>
    refine Fails.bind (fails_call_of_hostsFail hosts raises below c) fun _ => ?_
    exact .of_succeeds fun _ => ⟨_, _, rfl⟩
  | block c body =>
    refine Fails.bind (fails_call_of_hostsFail hosts raises below c) fun result => ?_
    cases result with
    | scope i => exact fails_within (fails_runNodes hosts raises below own)
    | _ => exact .throw_mishap _
  | reopen name body =>
    refine Fails.bind (fails_keptScope _ _ _) fun i => ?_
    exact fails_within (fails_runNodes hosts raises below own)
  | enter name => exact Fails.bind (fails_keptScope _ _ _) fun i => fails_enter i
  | exit name =>
    exact Fails.bind (fails_keptScope _ _ _) fun i => fails_leave fun failure same => by cases same
  | raise kind text => exact .throw (own _ List.mem_cons_self)
  | attempt body =>
    exact .of_succeeds fun r => ⟨_, _, runNode_attempt body r⟩

/-- So do the steps of a script. -/
theorem fails_runNodes [Failure.IgnoresOthers P] [Failure.CoversFiles e P] (hosts : e.HostsFail P)
    (raises : e.RaisesWith P) (below : compiler.FailsWith P) {nodes : List Script.Node}
    (own : ∀ x ∈ Script.raised nodes, P (.ofException x)) :
    Fails P (runNodes e compiler nodes) := by
  cases nodes with
  | nil => exact .pure _
  | cons node rest =>
    refine Fails.bind (fails_runNode hosts raises below fun x mem => ?_) fun _ => ?_
    · exact own x (List.mem_append_left _ mem)
    · exact fails_runNodes hosts raises below fun x mem => own x (List.mem_append_right _ mem)

end

end ScriptM

section

variable {P : Failure → Prop} [Failure.IgnoresOthers P] {e : Engine} {compiler : Compiler}

namespace SessionM

/-! ## Compiles -/

theorem fails_ofReading {path : String} {reading : Script.Reading}
    (gives : ∀ x, reading = .abandoned x → P (.ofException x)) :
    Fails P (ofReading path reading) := by
  cases reading with
  | steps nodes => exact .pure _
  | invalid fault => exact fails_reject _ _
  | abandoned x => exact .throw (gives x rfl)

theorem fails_scriptOf {path : String} {file : SourceFile}
    (gives : ∀ x, e.GivesUp file x → P (.ofException x)) : Fails P (scriptOf e path file) := by
  cases file with
  | script nodes => exact Fails.bind (fails_ofMishap _) fun _ => .pure _
  | broken => exact Fails.bind (fails_ofMishap _) fun _ => fails_reject _ _
  | bytes bytes =>
    cases bytes with
    | nil => exact .pure _
    | cons byte rest =>
      refine (fails_ofMishap _).bind_of_ok fun s encoding s₁ known => ?_
      have known : e.encoding = .ok encoding := of_ofMishap_ok known
      cases decodes : encoding.decode (byte :: rest) with
      | ok text =>
        have reads : Fails P (ofReading path (e.language.read text)) :=
          fails_ofReading fun x abandons => gives x (.bytes nofun known decodes abandons)
        exact fun failure s₂ fails => reads s₁ failure s₂ fails
      | error fault => exact fun failure s₂ fails => fails_reject _ _ s₁ failure s₂ fails

variable [Failure.CoversFiles e P]

theorem fails_openScript {r : Request} (gives : ∀ x, e.Abandons r.path x → P (.ofException x)) :
    Fails P (openScript e r) := by
  refine (fails_ofResource_resolve (e := e) none r.path).bind_of_ok fun s path s₁ resolves => ?_
  refine (?_ : Fails P _) s₁
  refine (fails_ofResource_read (e := e) none path).bind_of_ok fun s₁ file s₂ reads => ?_
  refine (?_ : Fails P _) s₂
  have takes : Fails P (scriptOf e path file) := fails_scriptOf fun x abandons =>
    gives x ⟨path, file, of_ofResource_ok resolves, of_ofResource_ok reads, abandons⟩
  refine Fails.bind takes fun nodes => ?_
  cases r.logicalPath.textOrNull? with
  | none => exact .throw_mishap _
  | some logicalPath => exact Fails.bind (.of_succeeds fun _ => ⟨_, _, rfl⟩) fun _ => .pure _

/-- A failure leaves a script as one with the property. -/
theorem fails_runScript (hosts : e.HostsFail P) (raises : e.RaisesWith P)
    (below : compiler.FailsWith P) (path : String) (d : DocumentId) {nodes : List Script.Node}
    (own : ∀ x ∈ Script.raised nodes, P (.ofException x)) :
    Fails P (runScript e compiler path d nodes) := by
  intro s failure s' h
  unfold runScript at h
  rcases runs : ScriptM.runNodes e compiler nodes (.start path d s) with ⟨failure' | _, r⟩ <;>
    rw [runs] at h <;> dsimp only at h
  · cases h
    have inside := ScriptM.fails_runNodes hosts raises below own _ _ _ runs
    cases failure' with
    | resource error => exact inside
    | exit kind text => exact inside
    | _ => exact Failure.IgnoresOthers.other _ ⟨nofun, nofun⟩
  · rcases checks : ScriptM.checkPending r with ⟨failure' | _, r'⟩ <;> rw [checks] at h <;> cases h
    exact ScriptM.fails_checkPending _ _ _ checks

theorem fails_compileWithin (hosts : e.HostsFail P) (raises : e.RaisesWith P)
    (below : compiler.FailsWith P) (r : Request) : Fails P (compileWithin e compiler r) := by
  have opens : Fails P (openScript e r) := fails_openScript fun x abandons =>
    raises x (.reading abandons)
  refine opens.bind_of_ok fun s o s₁ opens => ?_
  refine (Fails.bind (fun s failure s' h => ?_) fun _ => .pure _ : Fails P _) s₁
  rw [inChain_eq] at h
  obtain ⟨fails, -⟩ := Prod.mk.inj h
  exact fails_runScript hosts raises below o.path o.document
    (fun x mem => raises x (.step (nodes_of_openScript opens) mem)) _ failure _ (Prod.ext fails rfl)

/-- However many scripts may be open inside it, the failures of a compile have the property. -/
theorem fails_compilerBelow (hosts : e.HostsFail P) (raises : e.RaisesWith P) (depth : Nat) :
    (compilerBelow e depth).FailsWith P :=
  compilerBelow_induction (fun _ => fails_compileWithin hosts raises) depth

end SessionM

end

/-! ## Truthful failures -/

variable {e : Engine} {compiler : Compiler}

theorem Failure.isTruthful_ofException (e : Engine) (x : Script.Exception) :
    (ofException x).IsTruthful e :=
  of_exits (fun _ _ => trivial) x

theorem ScriptM.fails_call (scripts : e.CompilesScripts) (truthful : compiler.IsTruthful e)
    (c : Script.Call) : Fails (Failure.IsTruthful e) (call e compiler c) :=
  fails_call_of_hostsFail scripts.hostsFail (fun x _ => Failure.isTruthful_ofException e x) truthful c

theorem SessionM.isTruthful_compilerBelow (scripts : e.CompilesScripts) (depth : Nat) :
    (compilerBelow e depth).IsTruthful e :=
  fails_compilerBelow scripts.hostsFail (fun x _ => Failure.isTruthful_ofException e x) depth

/-- The compile of a script fails truthfully. -/
theorem SessionM.fails_compileScript (scripts : e.CompilesScripts) (depth : Nat) (r : Request) :
    Fails (Failure.IsTruthful e) (compileScript e depth r) :=
  isTruthful_compilerBelow scripts (depth + 1) _ rfl r

end Migration
