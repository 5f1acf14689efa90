import Migration.Proofs.Failure.Absence
import Migration.Proofs.Call
import Migration.Proofs.Failure.Containment

/-!
# Includes of files that may be missing

An include whose file may be missing is skipped if there is no file, and only then. It cannot hide a
failure inside the file: every script on the way to where that is raised stands in a file, and a
failure to find something names a path at which there is none.

* `Raised.isTruthful` — failures that are raised in a compile are truthful
* `Raised.escaping_eq` — they pass through all includes on their way, unless the last one finds no
  file
* `tolerance_of_include` — what an include does with its file
-/

namespace Migration

open SessionM

section

variable {e : Engine} {depth : Nat} {r : Request} {s : Session} {chain : List (String × Bool)}
  {failure : Failure}

/-- A script that is opened stands in a file. -/
theorem SessionM.hasFile_of_openScript {relativeTo : Option String} {path found : String} {o : Opened}
    {s₁ : Session} (resolves : e.sources.resolve relativeTo path = .ok found)
    (asks : r.path = found) (opens : openScript e r s = (.ok o, s₁)) :
    o.path = found ∧ e.sources.HasFile found := by
  obtain ⟨file, -, again, reads, -⟩ := of_openScript_ok opens
  rw [asks, Tree.resolve_of_resolve resolves] at again
  cases again
  exact ⟨rfl, file, reads⟩

/-- A script that cannot be opened because something is not found has no file. -/
theorem SessionM.of_openScript_error {relativeTo : Option String} {path found : String}
    {error : ResourceError} {s₁ : Session}
    (resolves : e.sources.resolve relativeTo path = .ok found)
    (asks : r.path = found) (fails : openScript e r s = (.error (.resource error), s₁))
    (missing : error.family = .notFound) : error = .noFile found := by
  unfold openScript at fails
  rw [asks, Tree.resolve_of_resolve resolves, Step.run_bind_of_ok (ofResource_ok found s)] at fails
  cases reads : e.sources.read none found with
  | ok file =>
    -- what comes after a file has been read looks for nothing
    rw [reads, Step.run_bind_of_ok (ofResource_ok file s)] at fails
    have takes : Fails Failure.IsNoResource (scriptOf e found file) :=
      fails_scriptOf fun x _ => Failure.of_exits (fun _ _ => nofun) x
    refine absurd rfl (takes.bind (fun nodes => ?_) s _ s₁ fails error)
    cases r.logicalPath.textOrNull? with
    | none => exact .throw_mishap _
    | some logicalPath => exact .of_succeeds fun _ => ⟨_, _, rfl⟩
  | error error' =>
    rw [reads] at fails
    cases fails
    obtain outside | ⟨found', resolves', rfl, -⟩ := Tree.of_read_error reads
    · cases outside.symm.trans missing
    · rw [Tree.resolve_of_resolve resolves] at resolves'
      cases resolves'
      rfl

/-! ## Failures inside files -/

/-- A failure that is raised in a compile is truthful. -/
theorem Raised.isTruthful (scripts : e.CompilesScripts) {suffix : String}
    (h : Raised e depth (.script suffix) r s chain failure) : failure.IsTruthful e := by
  have raised := Failure.isTruthful_ofException e
  generalize same : Parser.script suffix = parser at h
  induction h generalizing suffix with
  | host => cases same
  | opening fails => exact fails_openScript (fun x _ => raised x) _ _ _ fails
  | step _ _ fails =>
    exact ScriptM.fails_runNode scripts.hostsFail (fun x _ => raised x)
      (isTruthful_compilerBelow scripts _) (fun x _ => raised x) _ _ _ fails
  | leaving _ fails =>
    exact fails_runScript scripts.hostsFail (fun x _ => raised x)
      (isTruthful_compilerBelow scripts _) _ _ (fun x _ => raised x) _ _ _ fails
  | inside _ _ _ _ accepts _ ih =>
    obtain ⟨suffix', rfl⟩ := scripts _ _ (of_accept accepts).2.1
    exact ih rfl

/-- A failure that is raised in a compile passes through the includes on its way, unless it is that
the last one finds no file. -/
theorem Raised.escaping_eq (scripts : e.CompilesScripts)
    {suffix : String} (h : Raised e depth (.script suffix) r s chain failure) :
    failure.escaping chain = some failure ∨
      ∃ outer path required, chain = outer ++ [(path, required)] ∧
        failure = .resource (.noFile path) := by
  generalize same : Parser.script suffix = parser at h
  induction h generalizing suffix with
  | host | opening | step | leaving => exact .inl rfl
  | @inside depth suffix' r s o s₁ node rest running c relativeTo path i s₂ found parser s₃
      chain failure
      opens leads calls meets accepts raised ih =>
    obtain ⟨resolves, takes, -⟩ := of_accept accepts
    obtain ⟨suffix'', rfl⟩ := scripts _ _ takes
    obtain escapes | ⟨outer, last, required, rfl, rfl⟩ := ih rfl
    · by_cases own : ∃ error, failure = .resource error ∧ error.family = .notFound ∧
        error.path = found
      · -- the failure is about the file of this include, so that is not there and was not opened
        obtain ⟨error, rfl, missing, rfl⟩ := own
        have absent := raised.isTruthful scripts missing
        right
        cases raised with
        | opening fails =>
          refine ⟨[], error.path, i.required, rfl, ?_⟩
          exact congrArg Failure.resource (of_openScript_error resolves rfl fails missing)
        | step opens' => exact absurd (hasFile_of_openScript resolves rfl opens').2 absent
        | leaving opens' => exact absurd (hasFile_of_openScript resolves rfl opens').2 absent
        | inside opens' => exact absurd (hasFile_of_openScript resolves rfl opens').2 absent
      · left
        show (failure.escaping chain).bind _ = _
        rw [escapes]
        exact Failure.passing_of_other fun error same missing path =>
          own ⟨error, same, missing, path⟩
    · exact .inr ⟨(found, i.required) :: outer, last, required, rfl, rfl⟩

end

/-! ## Includes -/

/-- A running script in which an include has been passed over. -/
def Running.skipping (path : String) (r : Running) : Running :=
  { r with session := { r.session with warnings := r.session.warnings ++ [.noInclude path] } }

section

variable {e : Engine} {below : Nat} {d : DocumentId} {a : Attributes} {s s₁ : Session}
  {relativeTo : Option String} {path found suffix : String} {i : Inclusion}

/-- Whether the file of an include must be there is an attribute of it. -/
theorem SessionM.required_of_readInclude
    (reads : readInclude d a s = (.ok (relativeTo, path, i), s₁)) :
    i.required = a.flag "errorIfMissing" true := by
  obtain ⟨_, _, -, h⟩ := Step.bind_eq_ok.1 reads
  obtain ⟨_, _, -, h⟩ := Step.bind_eq_ok.1 h
  obtain ⟨_, _, -, h⟩ := Step.bind_eq_ok.1 h
  obtain ⟨i', _, -, h⟩ := Step.bind_eq_ok.1 h
  cases h
  rfl

/-- A call of an include does what the include of its file does. -/
theorem ScriptM.call_include {compiler : Compiler} {c : Script.Call} {r : Running} {x : Application}
    (prepares : prepare e c r = (.ok x, r)) (element : x.element = .include)
    (reads : readInclude r.frame.document x.attributes r.session =
      (.ok (relativeTo, path, i), r.session))
    {result : Except Failure Unit}
    (includes : includeFile e compiler r.frame.document relativeTo path i
      r.session = (result, s)) :
    call e compiler c r = (result.map fun _ => .nothing, { r with session := s }) := by
  have runs : SessionM.include e compiler r.frame.document x.attributes r.session =
      (result, s) := by
    unfold SessionM.include
    rw [Step.run_bind_of_ok reads]
    exact includes
  have acts : act e compiler r.frame.document x.element x.positional x.attributes r.session =
      (result.map fun _ => .nothing, s) := by
    rw [element]
    show (SessionM.include e compiler r.frame.document x.attributes >>= fun _ => pure Result.nothing)
      r.session = _
    rw [Step.run_bind, runs]
    cases result <;> rfl
  rw [call_eq prepares acts]
  cases result <;> rfl

/-- The compile of a file that is not there fails with that and changes nothing. -/
theorem SessionM.compileScript_of_no_file (resolves : e.sources.resolve relativeTo path = .ok found)
    (absent : ¬e.sources.HasFile found) {r : Request} (asks : r.path = found) (s : Session) :
    compileScript e below r s = (.error (.resource (.noFile found)), s) := by
  have fails : openScript e r s = (.error (.resource (.noFile found)), s) := by
    unfold openScript
    rw [asks, Tree.resolve_of_resolve resolves, Step.run_bind_of_ok (ofResource_ok found s),
      Tree.read_of_not_hasFile resolves absent]
    rfl
  rw [compileScript_eq]
  unfold compileWithin
  rw [Step.run_bind_of_error fails]

/-- A failure inside a file that is there passes through the include of it. -/
theorem Failure.passing_of_hasFile {failure : Failure} (truthful : failure.IsTruthful e)
    (stands : e.sources.HasFile found) (required : Bool) :
    failure.passing found required = some failure := by
  refine passing_of_other fun error same missing path => ?_
  subst same
  exact truthful missing (path ▸ stands)

/-! ### What becomes of the file -/

variable (accepts : accept e relativeTo path i.skipsUnknown s =
  (.ok (some (found, .script suffix)), s))
include accepts

/-- An include fails with what it makes of a failure of the compile of its file. -/
theorem SessionM.includeFile_error {failure failure' : Failure}
    (run : compileScript e below (i.request d found) s = (.error failure, s₁))
    (passes : failure.passing found i.required = some failure') :
    includeFile e (compilerBelow e (below + 1)) d relativeTo path i s = (.error failure', s₁) := by
  rw [includeFile_of_accept accepts]
  show bringIn d found i (compileScript e below (i.request d found)) s = _
  rw [bringIn_of_error run, excuse_eq, passes]

/-- An include whose file may be missing is passed over if there is no file. -/
theorem SessionM.includeFile_of_no_file (resolves : e.sources.resolve relativeTo path = .ok found)
    (absent : ¬e.sources.HasFile found) (tolerated : i.required = false) :
    includeFile e (compilerBelow e (below + 1)) d relativeTo path i s =
      (.ok (), { s with warnings := s.warnings ++ [.noInclude found] }) := by
  rw [includeFile_of_accept accepts]
  show bringIn d found i (compileScript e below (i.request d found)) s = _
  rw [bringIn_of_error (compileScript_of_no_file resolves absent rfl s), excuse_eq, tolerated]
  simp [Failure.passing, ResourceError.family, ResourceError.path]

/-- An include of a file that is there puts a document into the store or fails. -/
theorem SessionM.grows_of_includeFile (scripts : e.CompilesScripts)
    (stands : e.sources.HasFile found)
    (includes : includeFile e (compilerBelow e (below + 1)) d relativeTo path i s = (.ok (), s₁)) :
    ∃ child : DocumentId, ¬s.store.Has child ∧ s₁.store.Has child := by
  rcases run : compileScript e below (i.request d found) s with ⟨failure | child, s₂⟩
  · have passes := Failure.passing_of_hasFile (fails_compileScript scripts below _ _ _ _ run) stands
      i.required
    cases (includeFile_error accepts run passes).symm.trans includes
  · obtain ⟨new, document, put, -⟩ :=
      (compiles_compileScript below (i.request d found)).document run
    refine ⟨child, new, ?_⟩
    rw [includeFile_of_accept accepts] at includes
    have merges : merge d child i.logicalPath s₂ = (.ok (), s₁) :=
      (bringIn_of_ok run).symm.trans includes
    have grows := grows_merge (d := d) child i.logicalPath s₂
    rw [merges] at grows
    exact grows.has (Store.has_of_get? put)

omit accepts in
open SessionM in
/-- A failure for the host that is raised inside a file is what a call of an include of it fails
with; except that where it says that the innermost file itself is missing, the include of that file
passes it over or says so itself. -/
theorem ScriptM.call_include_of_raised (scripts : e.CompilesScripts) {c : Script.Call} {r : Running}
    {x : Application} (prepares : prepare e c r = (.ok x, r)) (element : x.element = .include)
    (reads : readInclude r.frame.document x.attributes r.session =
      (.ok (relativeTo, path, i), r.session))
    (accepts : accept e relativeTo path i.skipsUnknown r.session =
      (.ok (some (found, .script suffix)), r.session))
    (stands : e.sources.HasFile found) {chain : List (String × Bool)} {failure : Failure}
    (tidy : IsTidyCompile e (below + 1) (.script suffix) (i.request r.frame.document found) r.session)
    (raised : Raised e (below + 1) (.script suffix) (i.request r.frame.document found) r.session
      chain failure)
    (final : failure.IsFinal) :
    (call e (compilerBelow e (below + 1)) c r).1 = .error failure ∨
      ∃ outer last required, chain = outer ++ [(last, required)] ∧
        failure = .resource (.noFile last) ∧ ¬e.sources.HasFile last ∧
        (required = true → (call e (compilerBelow e (below + 1)) c r).1 =
          .error (.resource (.noInclude documentOwner last))) := by
  have fails : ∀ failure', failure'.IsTruthful e → failure.escaping chain = some failure' →
      (call e (compilerBelow e (below + 1)) c r).1 = .error failure' := by
    intro failure' truthful escapes
    have run := raised.fails final.leaves tidy escapes
    rw [call_include prepares element reads (includeFile_error accepts (Prod.ext run rfl)
      (Failure.passing_of_hasFile truthful stands i.required))]
    rfl
  obtain escapes | ⟨outer, last, required, rfl, rfl⟩ := raised.escaping_eq scripts
  · exact .inl (fails failure (raised.isTruthful scripts) escapes)
  · refine .inr ⟨outer, last, required, rfl, rfl, raised.isTruthful scripts rfl, ?_⟩
    rintro rfl
    refine fails _ (fun missing => by cases missing) ?_
    have inside : (ResourceError.noFile last).path ∉ ([] : List (String × Bool)).map (·.1) := by
      simp
    exact Failure.escaping_of_missing rfl outer inside

end

open ScriptM in
/-- An include of a file that a script may include, where only scripts are compiled.

If the file may be missing, the include is passed over with a warning and changes nothing else if
and only if there is no file. If there is one, every failure of its compile is the failure of the
include. So a failure for the host that is raised in it, however deep, that no script swallows is
the failure of the include, if no script opens or closes blocks by hand or opens a result whose
block is open; except that an include inside whose own file is not there is passed over or fails
with that, as it says itself.

If the file must be there and is not, the include fails with that, under the path of the file. An
include never fails because its own file is not found. -/
theorem tolerance_of_include {e : Engine} (scripts : e.CompilesScripts) (below : Nat)
    {c : Script.Call} {r : Running} {x : Application} {relativeTo : Option String} {path found suffix : String}
    {i : Inclusion} {s : Session} (prepares : prepare e c r = (.ok x, r))
    (element : x.element = .include)
    (reads : readInclude r.frame.document x.attributes r.session = (.ok (relativeTo, path, i), s))
    (resolves : e.sources.resolve relativeTo path = .ok found)
    (takes : e.parser? found = some (.script suffix)) (apart : found ∉ r.session.chain)
    (room : r.session.chain.length < e.settings.maxIncludeDepth) :
    (x.attributes.flag "errorIfMissing" true = false →
      (call e (compilerBelow e (below + 1)) c r = (.ok .nothing, r.skipping found) ↔
        ¬e.sources.HasFile found)) ∧
    (e.sources.HasFile found →
      (∀ failure s', compileScript e below (i.request r.frame.document found) r.session =
          (.error failure, s') →
        call e (compilerBelow e (below + 1)) c r = (.error failure, { r with session := s' })) ∧
      ∀ chain failure,
        IsTidyCompile e (below + 1) (.script suffix) (i.request r.frame.document found) r.session →
        Raised e (below + 1) (.script suffix) (i.request r.frame.document found) r.session
          chain failure →
        failure.IsFinal →
        (call e (compilerBelow e (below + 1)) c r).1 = .error failure ∨
          ∃ outer last required, chain = outer ++ [(last, required)] ∧
            failure = .resource (.noFile last) ∧ ¬e.sources.HasFile last ∧
            (required = true → (call e (compilerBelow e (below + 1)) c r).1 =
              .error (.resource (.noInclude documentOwner last)))) ∧
    (x.attributes.flag "errorIfMissing" true = true → ¬e.sources.HasFile found →
      call e (compilerBelow e (below + 1)) c r =
        (.error (.resource (.noInclude documentOwner found)), r)) ∧
    ∀ error r', call e (compilerBelow e (below + 1)) c r = (.error (.resource error), r') →
      error.family = .notFound → error.path ≠ found := by
  obtain rfl : r.session = s := (keeps_readInclude _ _).of_run (R := (· = ·)) reads
  have accepts := accept_eq resolves takes i.skipsUnknown r.session
  rw [if_neg apart, if_neg (Nat.not_le_of_lt room)] at accepts
  rw [← required_of_readInclude reads]
  have passedOver : ¬e.sources.HasFile found → i.required = false →
      call e (compilerBelow e (below + 1)) c r = (.ok .nothing, r.skipping found) :=
        fun absent tolerated =>
    call_include prepares element reads (includeFile_of_no_file accepts resolves absent tolerated)
  have refused : i.required = true → ¬e.sources.HasFile found →
      call e (compilerBelow e (below + 1)) c r =
        (.error (.resource (.noInclude documentOwner found)), r) := by
    intro required absent
    refine call_include prepares element reads (includeFile_error accepts
      (compileScript_of_no_file resolves absent rfl _) ?_)
    simp [Failure.passing, ResourceError.family, ResourceError.path, required]
  refine ⟨fun tolerated => ⟨fun skips stands => ?_, fun absent => passedOver absent tolerated⟩,
    fun stands => ⟨?_, ?_⟩, refused, ?_⟩
  · -- an include of a file that is there has put down a document for it
    rcases includes : includeFile e (compilerBelow e (below + 1)) r.frame.document relativeTo path i
      r.session with ⟨failure | _, s'⟩
    · cases (call_include prepares element reads includes).symm.trans skips
    · obtain ⟨child, new, put⟩ := grows_of_includeFile accepts scripts stands includes
      have session := congrArg (fun out => out.2.session.store)
        ((call_include prepares element reads includes).symm.trans skips)
      exact new (session ▸ put)
  · intro failure s' run
    have truthful := fails_compileScript scripts below _ _ _ _ run
    exact call_include prepares element reads
      (includeFile_error accepts run (Failure.passing_of_hasFile truthful stands i.required))
  · intro chain failure tidy raised final
    exact call_include_of_raised scripts prepares element reads accepts stands tidy raised final
  · intro error r' fails missing same
    -- there is no file at a path that is not found, so the include is passed over or refused
    have absent := fails_call scripts (isTruthful_compilerBelow scripts _) c r _ r' fails missing
    rw [same] at absent
    cases required : i.required with
    | true =>
      cases fails.symm.trans (refused required absent)
      cases missing
    | false => cases fails.symm.trans (passedOver absent required)

/-- An include whose file may be missing is passed over where there are no files. -/
theorem tolerance_of_include_openedBlock :
    ScriptM.call (.ofScripts []) (compilerBelow (.ofScripts []) 63)
        (.giving "include" [("file", .text "b.py"), ("errorIfMissing", .bool false)]) openedBlock =
      (.ok .nothing, openedBlock.skipping "b.py") := by
  let a : Attributes := [("file", .text "b.py"), ("errorIfMissing", .bool false)]
  have prepares : ScriptM.prepare (.ofScripts []) (.giving "include" a) openedBlock =
    (.ok { element := .include, positional := [], attributes := a }, openedBlock) := rfl
  have read :
      ((SessionM.readInclude openedBlock.frame.document a openedBlock.session).1.toOption.map
      fun x => (x.1, x.2.1)) = some (none, "b.py") := by
    decide +kernel
  obtain ⟨⟨relativeTo, path, i⟩, s, reads, named⟩ := Step.eq_ok_of_map read
  simp only [Prod.mk.injEq] at named
  obtain ⟨rfl, rfl⟩ := named
  have takes : (Engine.ofScripts []).parser? "b.py" = some (.script ".py") :=
    Engine.parser?_ofScripts (by decide +kernel)
  have absent : ¬(Engine.ofScripts []).sources.HasFile "b.py" := by
    rintro ⟨file, h⟩
    cases h
  obtain ⟨tolerates, -⟩ := tolerance_of_include (Engine.compilesScripts_ofScripts []) 62
    prepares rfl reads
    rfl takes (by decide +kernel) (by decide +kernel)
  exact (tolerates rfl).2 absent

end Migration
