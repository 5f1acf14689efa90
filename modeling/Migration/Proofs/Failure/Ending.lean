import Migration.Proofs.Failure.Absence

/-!
# How a compile ends

A compile gives a document or fails with a failure that is meant for the host, with two exceptions:
a script may end the program, and the language may give up reading the first script. Nothing makes a
failure for the host of these. What scripts that are included raise when they are read is raised
inside a script, which does.

* `Failure.IsFinal` — the failures that are meant for the host
* `Failure.Leaves` — these and exits, which no script makes anything else of
* `Failure.IsRaisedBy` — exits come from the scripts and functions of an engine
* `Failure.Ends` — the failures that a compile can end with
* `Engine.ends_of_compile` — a compile ends in one of these ways
-/

namespace Migration

open SessionM

/-! ## Failures for the host, and exits -/

/-- A failure of one of the four families that are meant for the host. -/
def Failure.IsFinal : Failure → Prop
  | parse .. | inclusion _ | resource _ | extension _ => True
  | unbound _ | mishap _ | exit .. => False

/-- A failure that no script makes another one of: one for the host, or an exit. -/
def Failure.Leaves : Failure → Prop
  | unbound _ | mishap _ => False
  | _ => True

namespace Failure

variable {failure : Failure}

theorem leaves_leaving (path : String) (failure : Failure) : (failure.leaving path).Leaves := by
  cases failure <;> trivial

/-- What leaves scripts is meant for the host or an exit. -/
theorem leaves_iff : failure.Leaves ↔ failure.IsFinal ∨ ∃ kind text, failure = .exit kind text := by
  cases failure <;> simp [Leaves, IsFinal]

theorem IsFinal.leaves (h : failure.IsFinal) : failure.Leaves := leaves_iff.2 (.inl h)

theorem Leaves.leaving (h : failure.Leaves) (path : String) : failure.leaving path = failure := by
  cases failure <;> first | rfl | cases h

theorem Leaves.ne_unbound (h : failure.Leaves) (name : String) : failure ≠ .unbound name := by
  rintro rfl
  cases h

/-- A failure is no exit, or the exit is of a kind that ends programs and has been raised. -/
def IsRaisedBy (e : Engine) : Failure → Prop
  | exit kind text => kind ∈ Script.exitKinds ∧ e.Raises { kind, text }
  | _ => True

instance (e : Engine) : IgnoresOthers (IsRaisedBy e) where
  other failure no := by
    cases failure with
    | exit kind text => exact absurd rfl (no.2 kind text)
    | _ => trivial

instance (e : Engine) : CoversFiles e (IsRaisedBy e) where
  noAccess _ _ := trivial
  notFound _ _ _ := trivial
  noScan _ _ _ _ := trivial
  emptyScan _ _ _ _ := trivial
  noInclude _ _ _ := trivial

end Failure

theorem Engine.raisesWith_isRaisedBy (e : Engine) : e.RaisesWith (Failure.IsRaisedBy e) := by
  intro x raises
  obtain other | ⟨same, ends⟩ := Failure.ofException_cases x
  · exact Failure.IgnoresOthers.other _ other
  · rw [same]
    exact ⟨ends, raises⟩

/-- An exit that a compile ends with has been raised in it. -/
theorem SessionM.isRaisedBy_compileChangeLog (e : Engine) (path : String) :
    Fails (Failure.IsRaisedBy e) (compileChangeLog e path) := by
  have hosts : e.HostsFail (Failure.IsRaisedBy e) := fun _ _ _ _ _ _ => trivial
  cases takes : e.parser? path with
  | none =>
    unfold compileChangeLog
    rw [takes]
    exact fails_reject _ _
  | some parser =>
    rw [compileChangeLog_eq takes]
    have below := fails_compilerBelow hosts e.raisesWith_isRaisedBy
      (e.settings.maxIncludeDepth - 1 + 1)
    exact fails_compileWith hosts below takes

/-! ## The failures of a first script -/

/-- A failure that the compile of the change log at a path can end with: one that leaves scripts, or
what the language raises when it gives up reading that change log. -/
def Failure.Ends (e : Engine) (path : String) (failure : Failure) : Prop :=
  failure.Leaves ∨ ∃ x, failure = .ofException x ∧ e.Abandons path x

namespace SessionM

variable {e : Engine} {compiler : Compiler} {path : String}

theorem ends_ofResource {α : Type} (x : Except ResourceError α) :
    Fails (Failure.Ends e path) (ofResource x) := by
  cases x with
  | ok a => exact .pure a
  | error failure => exact .throw (.inl trivial)

/-- If the encoding of scripts is known, only the language can fail otherwise than for the host when
a file is read. -/
theorem ends_scriptOf (known : (Encoding.ofName? e.settings.scriptEncoding).isSome) (found : String)
    {file : SourceFile} (gives : ∀ x, e.GivesUp file x → e.Abandons path x) :
    Fails (Failure.Ends e path) (scriptOf e found file) := by
  have knows : Fails (Failure.Ends e path) (ofMishap e.encoding) := by
    obtain ⟨encoding, hk⟩ := Option.isSome_iff_exists.1 known
    unfold Engine.encoding
    rw [hk]
    exact .pure encoding
  cases file with
  | script nodes => exact Fails.bind knows fun _ => .pure _
  | broken => exact Fails.bind knows fun _ => .throw (.inl trivial)
  | bytes bytes =>
    cases bytes with
    | nil => exact .pure _
    | cons byte rest =>
      refine knows.bind_of_ok fun s encoding s₁ is => ?_
      refine (?_ : Fails _ _) s₁
      cases decodes : encoding.decode (byte :: rest) with
      | error fault => exact .throw (.inl trivial)
      | ok text =>
        show Fails _ (ofReading found (e.language.read text))
        cases reads : e.language.read text with
        | steps nodes => exact .pure _
        | invalid fault => exact .throw (.inl trivial)
        | abandoned x =>
          exact .throw (.inr ⟨x, rfl, gives x (.bytes nofun (of_ofMishap_ok is) decodes reads)⟩)

/-- A script that was asked for by the host is opened or fails in one of these ways. -/
theorem ends_openScript (known : (Encoding.ofName? e.settings.scriptEncoding).isSome)
    (path : String) :
    Fails (Failure.Ends e path) (openScript e { path }) := by
  refine (ends_ofResource (e.sources.resolve none path)).bind_of_ok fun s found s₁ resolves => ?_
  refine (?_ : Fails _ _) s₁
  refine (ends_ofResource (e.sources.read none found)).bind_of_ok fun s₁ file s₂ reads => ?_
  refine (?_ : Fails _ _) s₂
  have takes : Fails (Failure.Ends e path) (scriptOf e found file) := ends_scriptOf known found
    fun x gives => ⟨found, file, of_ofResource_ok resolves, of_ofResource_ok reads, gives⟩
  exact Fails.bind takes fun nodes => Fails.bind (.of_succeeds fun _ => ⟨_, _, rfl⟩) fun d =>
    .pure _

/-- Whatever happens in a script, its failure leaves scripts. -/
theorem ends_runScript (own : String) (d : DocumentId) (nodes : List Script.Node) :
    Fails (Failure.Ends e path) (runScript e compiler own d nodes) := by
  intro s failure s' h
  unfold runScript at h
  rcases hr : ScriptM.runNodes e compiler nodes (.start own d s) with ⟨failure' | _, r⟩ <;>
    rw [hr] at h <;> dsimp only at h
  · cases h
    exact .inl (Failure.leaves_leaving own failure')
  · rcases hc : ScriptM.checkPending r with ⟨failure' | _, r'⟩ <;> rw [hc] at h <;> cases h
    -- the only failure is that of elements without a block
    unfold ScriptM.checkPending at hc
    rw [Step.run_bind_of_ok (ScriptM.frame_eq r)] at hc
    split at hc <;> cases hc
    exact .inl trivial

theorem ends_hostDocument (parse : String → Except ResourceError (List DraftChangeSet))
    (r : Request) :
    Fails (Failure.Ends e path) (hostDocument parse r) := by
  refine Fails.bind (ends_ofResource _) fun made => Fails.bind (.of_succeeds ?_) fun ids => ?_
  · exact fun s => addChangeSets_ok made s
  · refine Fails.bind (.of_succeeds fun _ => ⟨_, _, rfl⟩) fun d => ?_
    exact Fails.bind (.of_succeeds (succeeds_modifyStore _)) fun _ => .pure _

/-- The compile of a change log fails in one of these ways. -/
theorem ends_compileChangeLog (known : (Encoding.ofName? e.settings.scriptEncoding).isSome)
    (path : String) : Fails (Failure.Ends e path) (compileChangeLog e path) := by
  unfold compileChangeLog
  cases e.parser? path with
  | none => exact .throw (.inl trivial)
  | some parser =>
    cases parser with
    | host supports parse => exact ends_hostDocument parse { path }
    | script suffix =>
      show Fails _ (compileRoot e path)
      unfold compileRoot
      rw [compileScript_eq]
      refine Fails.bind (ends_openScript known path) fun o => Fails.bind ?_ fun _ => .pure _
      intro s failure s' h
      rw [inChain_eq] at h
      obtain ⟨fails, -⟩ := Prod.mk.inj h
      exact ends_runScript o.path o.document o.nodes _ failure _ (Prod.ext fails rfl)

end SessionM

/-- When the language gives up reading a change log, its compile fails with what that raises. -/
theorem Engine.compile_of_abandons (e : Engine) (table : Table) {path suffix : String}
    {x : Script.Exception} (takes : e.parser? path = some (.script suffix))
    (abandons : e.Abandons path x) : (e.compile table path).result = .error (.ofException x) := by
  obtain ⟨found, file, resolves, reads, ⟨some, known, decodes, gives⟩⟩ := abandons
  have opens : openScript e { path } { table } = (.error (.ofException x), { table }) := by
    unfold openScript
    rw [resolves, Step.run_bind_of_ok (ofResource_ok found _), reads,
      Step.run_bind_of_ok (ofResource_ok _ _), scriptOf_of_decode some known decodes, gives]
    rfl
  unfold Engine.compile
  rw [compileChangeLog_eq takes]
  show (SessionM.compileScript e (e.settings.maxIncludeDepth - 1) { path } { table }).1 = _
  rw [compileScript_eq]
  unfold compileWithin
  rw [Step.run_bind_of_error opens]

/-- A compile makes a document that is there, or it fails: with a failure for the host, with an exit
that has been raised in it, or because the language gives up reading the change log. -/
theorem Engine.ends_of_compile (e : Engine) (table : Table) (path : String)
    (known : (Encoding.ofName? e.settings.scriptEncoding).isSome) :
    (∃ d, (e.compile table path).document? = some d) ∨
      ∃ failure, (e.compile table path).result = .error failure ∧
        (failure.IsFinal ∨
          (∃ kind text, failure = .exit kind text ∧ kind ∈ Script.exitKinds ∧
            e.Raises { kind, text }) ∨
          ∃ x, failure = .ofException x ∧ e.Abandons path x) := by
  unfold Compilation.document? Engine.compile
  rcases run : compileChangeLog e path { table } with ⟨failure | d, s⟩ <;> dsimp only
  · refine .inr ⟨failure, rfl, ?_⟩
    have raised := isRaisedBy_compileChangeLog e path _ failure s run
    obtain leaves | gives := ends_compileChangeLog known path _ failure s run
    · obtain final | ⟨kind, text, rfl⟩ := Failure.leaves_iff.1 leaves
      · exact .inl final
      · exact .inr (.inl ⟨kind, text, rfl, raised⟩)
    · exact .inr (.inr gives)
  · -- a document that a compile gives has been put into the store
    obtain ⟨parser, takes⟩ := exists_parser_of_compileChangeLog run
    rw [compileChangeLog_eq takes] at run
    have sound := compilerBelow_isSound e (e.settings.maxIncludeDepth - 1 + 1)
    obtain ⟨-, doc, hd, -⟩ := (compiles_compileWith sound parser { path }).document run
    exact .inl ⟨doc, hd⟩

end Migration
