import Migration.Proofs.Failure.Blocks
import Migration.Proofs.Failure.Ending
import Migration.Proofs.Resource.Insertion

/-!
# Error containment

A compile gives a document or fails with a failure that is meant for the host. Where such a failure
is raised, however many includes inside each other, it reaches the host as it is. Only an include
changes it, if it is about the very file of the include not being there, or drops it, if the file
may be missing.

* `Failure.IsFinal` — the failures that are meant for the host
* `Raised` — where in a compile a failure is raised that no script swallows
* `Failure.escaping` — what includes make of a failure
* `Raised.fails` — a compile fails with what the includes make of a failure that is raised in it
* `containment_of_compile` — all of it
-/

namespace Migration

open SessionM

/-! ## What includes make of a failure -/

namespace Failure

/-- What a failure becomes when it passes through the include of a file; nothing if it is
dropped. -/
def passing (path : String) (required : Bool) : Failure → Option Failure
  | resource error =>
    if error.family = .notFound ∧ error.path = path then
      if required then some (resource (.noInclude documentOwner path)) else none
    else some (resource error)
  | failure => some failure

/-- What a failure becomes when it passes through includes of files inside each other, the outermost
one first, each with its path and whether the file must be there. -/
def escaping : List (String × Bool) → Failure → Option Failure
  | [], failure => some failure
  | (path, required) :: inner, failure => (escaping inner failure).bind (passing path required)

variable {failure failure' : Failure}

theorem Leaves.passing (h : failure.Leaves) {path : String} {required : Bool}
    (passes : failure.passing path required = some failure') : failure'.Leaves := by
  cases failure with
  | resource error =>
    by_cases missing : error.family = .notFound ∧ error.path = path
    · simp only [Failure.passing, if_pos missing] at passes
      cases required <;> cases passes
      trivial
    · simp only [Failure.passing, if_neg missing] at passes
      cases passes
      trivial
  | unbound | mishap => cases h
  | _ =>
    cases passes
    trivial

theorem Leaves.escaping (h : failure.Leaves) {chain : List (String × Bool)}
    (escapes : failure.escaping chain = some failure') : failure'.Leaves := by
  induction chain generalizing failure' with
  | nil =>
    cases escapes
    exact h
  | cons i inner ih =>
    obtain ⟨failure₁, escapes₁, passes⟩ := Option.bind_eq_some_iff.1 escapes
    exact (ih escapes₁).passing passes

/-- A failure that is not about the file of the include passes as it is. -/
theorem passing_of_other {path : String} {required : Bool}
    (other : ∀ error, failure = .resource error → error.family = .notFound → error.path ≠ path) :
    failure.passing path required = some failure := by
  cases failure with
  | resource error =>
    have missing : ¬(error.family = .notFound ∧ error.path = path) :=
      fun h => other error rfl h.1 h.2
    simp only [passing, if_neg missing]
  | _ => rfl

theorem escaping_of_other {chain : List (String × Bool)}
    (other : ∀ error, failure = .resource error → error.family = .notFound →
      error.path ∉ chain.map (·.1)) : failure.escaping chain = some failure := by
  induction chain with
  | nil => rfl
  | cons i inner ih =>
    have inside := ih fun error h found mem => other error h found (List.mem_cons_of_mem _ mem)
    show (failure.escaping inner).bind _ = _
    rw [inside]
    refine passing_of_other fun error h found same => other error h found ?_
    exact same ▸ List.mem_cons_self

theorem escaping_append (outer inner : List (String × Bool)) (failure : Failure) :
    failure.escaping (outer ++ inner) = (failure.escaping inner).bind (escaping outer) := by
  induction outer with
  | nil => exact (Option.bind_fun_some _).symm
  | cons i outer ih =>
    show (failure.escaping (outer ++ inner)).bind _ = _
    rw [ih, Option.bind_assoc]
    rfl

/-- The innermost include of the file that is not there decides. -/
theorem escaping_of_missing {error : ResourceError} (found : error.family = .notFound)
    (outer : List (String × Bool)) {inner : List (String × Bool)}
    (inside : error.path ∉ inner.map (·.1)) :
    (resource error).escaping (outer ++ (error.path, true) :: inner) =
      some (.resource (.noInclude documentOwner error.path)) := by
  have here : (resource error).escaping ((error.path, true) :: inner) =
      some (.resource (.noInclude documentOwner error.path)) := by
    show ((resource error).escaping inner).bind _ = _
    rw [escaping_of_other fun error' h _ => by cases h; exact inside]
    simp [passing, found]
  rw [escaping_append, here]
  exact escaping_of_other fun error' h missing => by cases h; cases missing

end Failure

/-- An include excuses a failure if it drops it. -/
theorem SessionM.excuse_eq (path : String) (required : Bool) (failure : Failure) (s : Session) :
    excuse path required failure s = match failure.passing path required with
      | some failure' => (.error failure', s)
      | none => (.ok (), { s with warnings := s.warnings ++ [.noInclude path] }) := by
  cases failure with
  | resource error =>
    by_cases missing : error.family = .notFound ∧ error.path = path
    · cases required <;> simp [excuse, Failure.passing, missing] <;> rfl
    · have passes : error.family ≠ .notFound ∨ error.path ≠ path :=
        Decidable.not_and_iff_not_or_not.1 missing
      simp [excuse, Failure.passing, missing, passes]
      rfl
  | _ => rfl

/-! ## Where failures are raised -/

/-- A failure is raised in the compile of a file by its parser, when so many scripts may be open,
and no script swallows it on its way. The list holds the includes that lead there, the outermost one
first, each with its path and whether the file must be there. -/
inductive Raised (e : Engine) :
    (depth : Nat) → Parser → Request → Session → List (String × Bool) → Failure → Prop
  /-- A parser of the host cannot read the file. -/
  | host {depth supports parse r s error} (fails : parse r.path = .error error) :
      Raised e depth (.host supports parse) r s [] (.resource error)
  /-- A script cannot be read. -/
  | opening {depth suffix r s failure s₁} (fails : openScript e r s = (.error failure, s₁)) :
      Raised e (depth + 1) (.script suffix) r s [] failure
  /-- A step of a script fails. -/
  | step {depth suffix r s o s₁ node rest running failure r'}
      (opens : openScript e r s = (.ok o, s₁))
      (leads : Leads e (compilerBelow e depth)
        (o.nodes, .start o.path o.document (s₁.opening o.path)) (node :: rest, running))
      (fails : ScriptM.runNode e (compilerBelow e depth) node running = (.error failure, r')) :
      Raised e (depth + 1) (.script suffix) r s [] failure
  /-- A script fails at its end, or with what it makes of a failure that is not for the host. -/
  | leaving {depth suffix r s o s₁ failure s₂} (opens : openScript e r s = (.ok o, s₁))
      (fails : runScript e (compilerBelow e depth) o.path o.document o.nodes (s₁.opening o.path) =
        (.error failure, s₂)) :
      Raised e (depth + 1) (.script suffix) r s [] failure
  /-- A failure is raised in the compile of a file that a script includes. -/
  | inside {depth suffix r s o s₁ node rest running c relativeTo path i s₂ path' parser s₃ chain
        failure}
      (opens : openScript e r s = (.ok o, s₁))
      (leads : Leads e (compilerBelow e depth)
        (o.nodes, .start o.path o.document (s₁.opening o.path)) (node :: rest, running))
      (calls : node.call? = some c)
      (meets : Meets e (compilerBelow e depth) c running relativeTo path i s₂)
      (accepts : accept e relativeTo path i.skipsUnknown s₂ = (.ok (some (path', parser)), s₃))
      (raised : Raised e depth parser (i.request running.frame.document path') s₃ chain failure) :
      Raised e (depth + 1) (.script suffix) r s ((path', i.required) :: chain) failure

section

variable {e : Engine} {compiler : Compiler}

/-- A script that runs into a failure for the host fails with it. -/
theorem SessionM.compileWithin_error {r : Request} {s s₁ : Session} {o : Opened} {failure : Failure}
    (opens : openScript e r s = (.ok o, s₁))
    (fails : (runScript e compiler o.path o.document o.nodes (s₁.opening o.path)).1 =
      .error failure) : (compileWithin e compiler r s).1 = .error failure := by
  unfold compileWithin
  rw [Step.run_bind_of_ok opens, Step.run_bind, inChain_eq, fails]

/-- A tidy script that comes to steps that fail, and would not swallow that, fails with what the
innermost block there makes of it, or the script itself if no block is open. -/
theorem SessionM.runScript_of_leads {path : String} {d : DocumentId} {nodes : List Script.Node}
    {s : Session} (tidy : ∀ z, Reaches e compiler (nodes, .start path d s) z → IsTidy e z)
    {y : List Script.Node × Running} (leads : Leads e compiler (nodes, .start path d s) y)
    {failure : Failure} (fails : (ScriptM.runNodes e compiler y.1 y.2).1 = .error failure) :
    (runScript e compiler path d nodes s).1 =
      .error ((failure.leavingBlock y.2.frame.innermostBody).leaving path) := by
  have leaves : ∀ failure', (ScriptM.runNodes e compiler nodes (.start path d s)).1 =
      .error failure' →
      (runScript e compiler path d nodes s).1 = .error (failure'.leaving path) := by
    intro failure' ran
    unfold runScript
    rcases h : ScriptM.runNodes e compiler nodes (.start path d s) with ⟨result, r⟩
    rw [h] at ran
    cases ran
    rfl
  obtain ⟨same, ran⟩ | ran := leads.fails tidy .refl (Running.keepsOwn_start path d s) fails
  · have root : y.2.frame.innermostBody = .script := Frame.innermostBody_congr same
    rw [root, Failure.leaving_leavingBlock, leaves _ ran]
  · exact leaves _ ran

/-- A step fails as its call does. -/
theorem ScriptM.runNode_of_call_error {node : Script.Node} {c : Script.Call}
    (hc : node.call? = some c) {r r' : Running} {failure : Failure}
    (fails : call e compiler c r = (.error failure, r')) :
    runNode e compiler node r = (.error failure, r') := by
  cases node with
  | call | keep | block =>
    cases hc
    rw [runNode, Step.run_bind_of_error fails]
  | _ => cases hc

theorem SessionM.compileWith_script (e : Engine) (depth : Nat) (suffix : String) (r : Request) :
    compileWith e (compilerBelow e (depth + 1)) (.script suffix) r =
      compileWithin e (compilerBelow e depth) r :=
  compileScript_eq e depth r

/-- No point of the compile of a file opens or closes blocks by hand or opens a result whose block
is open. Parsers of the host run no scripts. -/
def IsTidyCompile (e : Engine) (depth : Nat) (parser : Parser) (r : Request) (s : Session) : Prop :=
  ∀ n suffix p, depth = n + 1 → parser = .script suffix → Visits e n r s p →
    IsTidy e (p.steps, p.running)

/-- What a script comes to in a tidy compile is tidy. -/
theorem IsTidyCompile.reaches {depth : Nat} {suffix : String} {r : Request} {s s₁ : Session}
    {o : Opened} (tidy : IsTidyCompile e (depth + 1) (.script suffix) r s)
    (opens : openScript e r s = (.ok o, s₁)) (x : List Script.Node × Running)
    (reaches : Reaches e (compilerBelow e depth)
      (o.nodes, .start o.path o.document (s₁.opening o.path)) x) : IsTidy e x :=
  tidy depth suffix _ rfl rfl (.here opens reaches)

/-- The compile of a file that a tidy compile includes is tidy. -/
theorem IsTidyCompile.inside {depth : Nat} {suffix : String} {r : Request} {s s₁ : Session}
    {o : Opened} (tidy : IsTidyCompile e (depth + 1) (.script suffix) r s)
    (opens : openScript e r s = (.ok o, s₁)) {node : Script.Node} {rest : List Script.Node}
    {running : Running} (reaches : Reaches e (compilerBelow e depth)
      (o.nodes, .start o.path o.document (s₁.opening o.path)) (node :: rest, running))
    {c : Script.Call} (calls : node.call? = some c) {relativeTo : Option String} {path : String}
    {i : Inclusion} {s₂ s₃ : Session}
    (meets : Meets e (compilerBelow e depth) c running relativeTo path i s₂) {path' : String}
    {parser : Parser}
    (accepts : accept e relativeTo path i.skipsUnknown s₂ = (.ok (some (path', parser)), s₃)) :
    IsTidyCompile e depth parser (i.request running.frame.document path') s₃ := by
  rintro n suffix' p rfl rfl visits
  have inner := tidy (n + 1) suffix _ rfl rfl
    (Visits.inside opens reaches calls meets accepts visits)
  exact inner

/-- So is the compile of a file that a call at a point of a tidy compile is about to include. -/
theorem Visits.isTidyCompile {depth : Nat} {r : Request} {s : Session} {p : Point}
    (h : Visits e depth r s p)
    (tidy : ∀ q, Visits e depth r s q → IsTidy e (q.steps, q.running)) {node : Script.Node}
    {rest : List Script.Node} (next : p.steps = node :: rest) {c : Script.Call}
    (calls : node.call? = some c) {relativeTo : Option String} {path : String} {i : Inclusion}
    {s₂ s₃ : Session} (meets : Meets e (compilerBelow e p.depth) c p.running relativeTo path i s₂)
    {path' : String} {parser : Parser}
    (accepts : accept e relativeTo path i.skipsUnknown s₂ = (.ok (some (path', parser)), s₃)) :
    IsTidyCompile e p.depth parser (i.request p.running.frame.document path') s₃ := by
  induction h with
  | @here depth r s o s₁ steps running opens reaches =>
    have tidy' : IsTidyCompile e (depth + 1) (.script "") r s := by
      rintro n suffix q same - visits
      cases same
      exact tidy q visits
    cases next
    exact tidy'.inside opens reaches calls meets accepts
  | inside opens reaches calls' meets' accepts' visits ih =>
    refine ih (fun q visits' => ?_) next meets
    have inner := tidy _ (Visits.inside opens reaches calls' meets' accepts' visits')
    exact inner

/-- A script that comes to a step that fails, and would not swallow that, fails with it. -/
theorem SessionM.compileWith_of_step {depth : Nat} {suffix : String} {r : Request} {s s₁ : Session}
    {o : Opened} (tidy : IsTidyCompile e (depth + 1) (.script suffix) r s)
    (opens : openScript e r s = (.ok o, s₁)) {node : Script.Node} {rest : List Script.Node}
    {running r' : Running} (leads : Leads e (compilerBelow e depth)
      (o.nodes, .start o.path o.document (s₁.opening o.path)) (node :: rest, running))
    {failure : Failure} (leaves : failure.Leaves)
    (fails : ScriptM.runNode e (compilerBelow e depth) node running = (.error failure, r')) :
    (compileWith e (compilerBelow e (depth + 1)) (.script suffix) r s).1 = .error failure := by
  have stops : (ScriptM.runNodes e (compilerBelow e depth) (node :: rest) running).1 =
      .error failure := by
    rw [ScriptM.runNodes_cons, Step.run_bind_of_error fails]
  have ran := runScript_of_leads (tidy.reaches opens) leads stops
  rw [Failure.leavingBlock_of_bound leaves.ne_unbound, leaves.leaving] at ran
  rw [compileWith_script]
  exact compileWithin_error opens ran

/-- A compile fails with what the includes make of a failure that is raised in it. -/
theorem Raised.fails {depth : Nat} {parser : Parser} {r : Request} {s : Session}
    {chain : List (String × Bool)} {failure failure' : Failure}
    (h : Raised e depth parser r s chain failure) (leaves : failure.Leaves)
    (tidy : IsTidyCompile e depth parser r s) (escapes : failure.escaping chain = some failure') :
    (compileWith e (compilerBelow e depth) parser r s).1 = .error failure' := by
  induction h generalizing failure' with
  | host fails =>
    cases escapes
    rw [compileWith_host]
    unfold hostDocument
    rw [fails]
    rfl
  | opening fails =>
    cases escapes
    rw [compileWith_script]
    unfold compileWithin
    rw [Step.run_bind_of_error fails]
  | step opens leads fails =>
    cases escapes
    exact compileWith_of_step tidy opens leads leaves fails
  | leaving opens fails =>
    cases escapes
    rw [compileWith_script]
    exact compileWithin_error opens (congrArg Prod.fst fails)
  | @inside depth suffix r s o s₁ node rest running c relativeTo path i s₂ path' parser s₃ chain
      failure opens leads calls meets accepts raised ih =>
    obtain ⟨failure₁, escapes₁, passes⟩ := Option.bind_eq_some_iff.1 escapes
    have failed := ih leaves (tidy.inside opens leads.reaches calls meets accepts) escapes₁
    have stops : includeFile e (compilerBelow e depth) running.frame.document relativeTo path i s₂ =
        (.error failure', (compileWith e (compilerBelow e depth) parser
          (i.request running.frame.document path') s₃).2) := by
      rw [includeFile_of_accept accepts, bringIn_of_error (Prod.ext failed rfl), excuse_eq, passes]
    exact compileWith_of_step tidy opens leads (leaves.escaping escapes)
      (ScriptM.runNode_of_call_error calls (meets.call_of_error stops))

/-! ## Files that are missing -/

/-- A directory that is not there is missing for the element that names it, under its path, or it is
taken for an empty one. -/
theorem SessionM.listing_of_notFound {relativeTo : Option String} {path directory : String}
    (resolves : e.sources.resolve relativeTo path = .ok directory) {error : ResourceError}
    (fails : e.sources.list relativeTo path true = .error error) (found : error.family = .notFound)
    (element : String) (required : Bool) (s : Session) :
    listing e relativeTo path element required s =
      if required then (.error (.resource (.noScan documentOwner element path directory)), s)
      else (.ok (directory, []),
        { s with warnings := s.warnings ++ [.noDirectory path element] }) := by
  unfold listing
  rw [resolves, Step.run_bind_of_ok (ofResource_ok directory s)]
  simp only [fails, found]
  cases required <;> rfl

/-- A properties file that cannot be read fails its element as it is, or, if it is not there and may
be missing, is taken for an empty one. -/
theorem SessionM.propertiesOf_of_error {d : DocumentId} {a : Attributes} {path : String}
    {relativeTo : Option String} {s : Session}
    (names : expandPath d (a.get "file") "file" "property" s = (.ok path, s))
    (starts : startingPath d (a.flag "relativeToChangelogFile" false) s = (.ok relativeTo, s))
    {error : ResourceError} (fails : e.sources.read relativeTo path = .error error) :
    propertiesOf e d a s =
      if error.family = .notFound ∧ a.flag "errorIfMissing" true = false then
        (.ok [], { s with warnings := s.warnings ++ [.noPropertiesFile path] })
      else (.error (.resource error), s) := by
  unfold propertiesOf
  rw [Step.run_bind_of_ok names, Step.run_bind_of_ok starts]
  simp only [fails]
  by_cases missing : error.family = .notFound
  · cases tolerates : a.flag "errorIfMissing" true <;> simp [missing] <;> rfl
  · simp [missing]
    rfl

/-! ## Containment -/

/-- A failure for the host or an exit that is raised in a tidy compile of a change log goes up
through the includes that lead there, each of which may end it. -/
theorem Raised.compile_fails {table : Table} {path : String} {parser : Parser}
    {chain : List (String × Bool)} {failure failure' : Failure}
    (h : Raised e e.settings.maxIncludeDepth parser { path } { table } chain failure)
    (tidy : ∀ p, Visits e (e.settings.maxIncludeDepth - 1) { path } { table } p →
      IsTidy e (p.steps, p.running))
    (takes : e.parser? path = some parser) (leaves : failure.Leaves)
    (escapes : failure.escaping chain = some failure') :
    (e.compile table path).result = .error failure' := by
  obtain ⟨depth, hdepth⟩ : ∃ depth, e.settings.maxIncludeDepth = depth + 1 :=
    Nat.exists_eq_add_one.2 e.settings.maxIncludeDepth_pos
  have below : e.settings.maxIncludeDepth - 1 = depth := by
    rw [hdepth]
    rfl
  have tidy' : IsTidyCompile e e.settings.maxIncludeDepth parser { path } { table } := by
    intro n suffix p same _ visits
    have inner : n = depth := Nat.succ.inj (same.symm.trans hdepth)
    exact tidy p (by rw [below, ← inner]; exact visits)
  have failed := h.fails leaves tidy' escapes
  unfold Engine.compile
  rw [hdepth] at failed
  rw [compileChangeLog_eq takes, below]
  exact failed

/-- An include of a file that may be missing drops the failure that this file is not there, wherever
inside it that is raised. It succeeds with a warning, and nothing that was there has changed. -/
theorem Raised.excused {depth : Nat} {parser : Parser} {d : DocumentId} {relativeTo : Option String}
    {file : String} {i : Inclusion} {s s₁ : Session} {chain : List (String × Bool)}
    {error : ResourceError}
    (h : Raised e depth parser (i.request d error.path) s₁ chain (.resource error))
    (tidy : IsTidyCompile e depth parser (i.request d error.path) s₁)
    (accepts : accept e relativeTo file i.skipsUnknown s = (.ok (some (error.path, parser)), s₁))
    (missing : error.family = .notFound) (inside : error.path ∉ chain.map (·.1))
    (tolerated : i.required = false) :
    ∃ s₂, s₁.Extends s₂ ∧ includeFile e (compilerBelow e depth) d relativeTo file i s =
      (.ok (), { s₂ with warnings := s₂.warnings ++ [.noInclude error.path] }) := by
  have failed := h.fails trivial tidy
    (Failure.escaping_of_other fun error' same _ => by cases same; exact inside)
  have made := (compiles_compileWith (e := e) (compilerBelow_isSound e depth) parser
    (i.request d error.path)).keeps s₁
  refine ⟨_, made, ?_⟩
  rw [includeFile_of_accept accepts, bringIn_of_error (Prod.ext failed rfl), excuse_eq]
  simp [Failure.passing, missing, tolerated]

end

/-- A compile makes a document that is there, or it fails: with a failure for the host, with an exit
that a script or a function of the language raises, or with what the language raises when it gives
up reading the change log. Whenever it gives up, that is the failure of the compile.

If no script opens or closes blocks by hand or opens a result whose block is open, a failure for the
host, or an exit, that is raised in the compile, inside however many includes, and that no script
swallows is the failure of the compile. Only if it is about the file of one of these includes not
being there, the innermost such include decides: the failure of the compile is that this file is
missing, or, if it may be missing, the include succeeds with a warning, and nothing that was there
has changed.

A directory and a properties file that are not there fail their elements, the directory as a missing
one under its path, or are taken for empty if they may be missing. -/
theorem containment_of_compile (e : Engine) (table : Table) (path : String) :
    ((Encoding.ofName? e.settings.scriptEncoding).isSome →
      (∃ d, (e.compile table path).document? = some d) ∨
        ∃ failure, (e.compile table path).result = .error failure ∧
          (failure.IsFinal ∨
            (∃ kind text, failure = .exit kind text ∧ kind ∈ Script.exitKinds ∧
              e.Raises { kind, text }) ∨
            ∃ x, failure = .ofException x ∧ e.Abandons path x)) ∧
    (∀ suffix x, e.parser? path = some (.script suffix) → e.Abandons path x →
      (e.compile table path).result = .error (.ofException x)) ∧
    ((∀ p, Visits e (e.settings.maxIncludeDepth - 1) { path } { table } p →
        IsTidy e (p.steps, p.running)) →
      (∀ parser chain failure, e.parser? path = some parser →
        Raised e e.settings.maxIncludeDepth parser { path } { table } chain failure →
        failure.Leaves →
        ((∀ error, failure = .resource error → error.family = .notFound →
            error.path ∉ chain.map (·.1)) →
          (e.compile table path).result = .error failure) ∧
        ∀ error outer inner, failure = .resource error → error.family = .notFound →
          chain = outer ++ (error.path, true) :: inner → error.path ∉ inner.map (·.1) →
          (e.compile table path).result =
            .error (.resource (.noInclude documentOwner error.path))) ∧
      ∀ p node rest c relativeTo file i s found parser s₁ chain error,
        Visits e (e.settings.maxIncludeDepth - 1) { path } { table } p → p.steps = node :: rest →
        node.call? = some c → Meets e (compilerBelow e p.depth) c p.running relativeTo file i s →
        accept e relativeTo file i.skipsUnknown s = (.ok (some (found, parser)), s₁) →
        Raised e p.depth parser (i.request p.running.frame.document found) s₁ chain
          (.resource error) →
        error.family = .notFound → error.path = found → found ∉ chain.map (·.1) →
        i.required = false →
        ∃ s₂, s₁.Extends s₂ ∧
          includeFile e (compilerBelow e p.depth) p.running.frame.document relativeTo file i s =
            (.ok (), { s₂ with warnings := s₂.warnings ++ [.noInclude found] })) ∧
    (∀ relativeTo file directory error element required s,
      e.sources.resolve relativeTo file = .ok directory →
      e.sources.list relativeTo file true = .error error → error.family = .notFound →
      listing e relativeTo file element required s =
        if required then (.error (.resource (.noScan documentOwner element file directory)), s)
        else (.ok (directory, []),
          { s with warnings := s.warnings ++ [.noDirectory file element] })) ∧
    ∀ d a file relativeTo error s,
      expandPath d (Attributes.get a "file") "file" "property" s = (.ok file, s) →
      startingPath d (Attributes.flag a "relativeToChangelogFile" false) s = (.ok relativeTo, s) →
      e.sources.read relativeTo file = .error error →
      propertiesOf e d a s =
        if error.family = .notFound ∧ Attributes.flag a "errorIfMissing" true = false then
          (.ok [], { s with warnings := s.warnings ++ [.noPropertiesFile file] })
        else (.error (.resource error), s) := by
  refine ⟨e.ends_of_compile table path, fun _ _ => e.compile_of_abandons table,
    fun tidy => ⟨?_, ?_⟩, ?_, ?_⟩
  · intro parser chain failure takes raised leaves
    refine ⟨fun other => ?_, ?_⟩
    · exact raised.compile_fails tidy takes leaves (Failure.escaping_of_other other)
    · rintro error outer inner rfl found rfl inside
      exact raised.compile_fails tidy takes leaves (Failure.escaping_of_missing found outer inside)
  · rintro p node rest c relativeTo file i s found parser s₁ chain error visits next calls meets
      accepts raised missing rfl inside tolerated
    exact raised.excused (visits.isTidyCompile tidy next calls meets accepts) accepts missing inside
      tolerated
  · intro relativeTo file directory error element required s resolves fails found
    exact listing_of_notFound resolves fails found element required s
  · intro d a file relativeTo error s names starts fails
    exact propertiesOf_of_error names starts fails

/-- A script that includes another one, in which a change set has an attribute that there is not. -/
def includingFault : Engine := .ofScripts [
  ("a.py", [.block { element := "databaseChangeLog" } [
    .call { element := "include", attributes := [("file", .literal (.text "b.py"))] }]]),
  ("b.py", [.block { element := "databaseChangeLog" } [
    .call { element := "changeSet", attributes := [("colour", .literal .null)] }]])]

/-- The failure in the included script is that of the compile. -/
theorem containment_of_compile_includingFault :
    (includingFault.compile (.ofRun none none none) "a.py").result =
      .error (.parse (.unsupportedAttribute "ChangeSet 'None'" "changeSet" "colour")) := by
  let c : Script.Call :=
    { element := "include", attributes := [("file", .literal (.text "b.py"))] }
  let s₁ : Session := (newDocument { path := "a.py" } none { table := .ofRun none none none }).2
  have opens : openScript includingFault { path := "a.py" } { table := .ofRun none none none } =
    (.ok { path := "a.py", nodes := [.block { element := "databaseChangeLog" } [.call c]],
           document := ⟨0⟩ }, s₁) := rfl
  -- the script comes to the include of the other one
  let r₁ : Running := (ScriptM.call includingFault (compilerBelow includingFault 63)
    { element := "databaseChangeLog" } (.start "a.py" ⟨0⟩ (s₁.opening "a.py"))).2
  let r₂ : Running := (ScriptM.enter 0 r₁).2
  have calls : ScriptM.call includingFault (compilerBelow includingFault 63)
    { element := "databaseChangeLog" } (.start "a.py" ⟨0⟩ (s₁.opening "a.py")) =
      (.ok (.scope 0), r₁) := rfl
  have enters : ScriptM.enter 0 r₁ = (.ok (), r₂) := rfl
  have leads : Leads includingFault (compilerBelow includingFault 63)
      ([.block { element := "databaseChangeLog" } [.call c]], .start "a.py" ⟨0⟩ (s₁.opening "a.py"))
      ([.call c], r₂) := .block calls enters (.refl _)
  have reads : readInclude ⟨0⟩ [("file", .text "b.py")] (s₁.opening "a.py") = _ :=
    readInclude_file (by decide +kernel) (by decide) _ _
  let i : Inclusion := { inheritance := {}, logicalPath := .null }
  have meets : Meets includingFault (compilerBelow includingFault 63) c r₂ none "b.py" i
      (s₁.opening "a.py") := .file rfl rfl reads
  have takes : ∀ path, (Parser.script ".py").supports path = true →
      includingFault.parser? path = some (.script ".py") := fun path => Engine.parser?_ofScripts
  have accepts : accept includingFault none "b.py" false (s₁.opening "a.py") =
      (.ok (some ("b.py", .script ".py")), s₁.opening "a.py") :=
    accept_eq rfl (takes "b.py" (by decide +kernel)) false (s₁.opening "a.py")
  -- the other script comes to the change set
  let s₂ : Session := (newDocument (i.request ⟨0⟩ "b.py") none (s₁.opening "a.py")).2
  let r₃ : Running := (ScriptM.call includingFault (compilerBelow includingFault 62)
    { element := "databaseChangeLog" } (.start "b.py" ⟨1⟩ (s₂.opening "b.py"))).2
  let r₄ : Running := (ScriptM.enter 0 r₃).2
  have opens' : openScript includingFault (i.request ⟨0⟩ "b.py") (s₁.opening "a.py") =
      (.ok { path := "b.py", document := ⟨1⟩, nodes := [.block { element := "databaseChangeLog" }
        [.call { element := "changeSet", attributes := [("colour", .literal .null)] }]] }, s₂) := by
    have resolves : includingFault.sources.resolve none "b.py" = .ok "b.py" := rfl
    have components : Path.components "b.py" = ["b.py"] := by decide +kernel
    refine openScript_eq (r := i.request ⟨0⟩ "b.py") resolves ?_ rfl rfl (s₁.opening "a.py")
    unfold Tree.read
    rw [resolves]
    simp only [bind, Except.bind, components]
    rfl
  have calls' : ScriptM.call includingFault (compilerBelow includingFault 62)
    { element := "databaseChangeLog" } (.start "b.py" ⟨1⟩ (s₂.opening "b.py")) =
      (.ok (.scope 0), r₃) := rfl
  have enters' : ScriptM.enter 0 r₃ = (.ok (), r₄) := rfl
  have inner : Leads includingFault (compilerBelow includingFault 62)
      ([.block { element := "databaseChangeLog" }
        [.call { element := "changeSet", attributes := [("colour", .literal .null)] }]],
        .start "b.py" ⟨1⟩ (s₂.opening "b.py"))
      ([.call { element := "changeSet", attributes := [("colour", .literal .null)] }], r₄) :=
    .block calls' enters' (.refl _)
  have raised : Raised includingFault 64 (.script ".py") { path := "a.py" }
      { table := .ofRun none none none } [("b.py", true)]
      (.parse (.unsupportedAttribute "ChangeSet 'None'" "changeSet" "colour")) :=
    .inside opens leads rfl meets accepts (.step opens' inner rfl)
  obtain ⟨-, -, contains, -⟩ :=
    containment_of_compile includingFault (.ofRun none none none) "a.py"
  have opensByCalls : ∀ nodes ∈ includingFault.scripts, Script.openByCalls nodes = true := by
    decide +kernel
  obtain ⟨reaches, -⟩ := contains fun p visits => visits.isTidy opensByCalls
  obtain ⟨same, -⟩ := reaches _ _ _ (takes "a.py" (by decide +kernel)) raised trivial
  exact same fun _ other => by cases other

/-! ## Failures that are not for the host -/

/-- Bytes below 128 stand for one character each. -/
theorem Encoding.decodeUtf8_of_lt {bytes : List UInt8} (ascii : ∀ b ∈ bytes, b.toNat < 0x80)
    (position : Nat) :
    decodeUtf8 position bytes = .ok (bytes.map fun b => Char.ofNat b.toNat) := by
  induction bytes generalizing position with
  | nil =>
    rw [decodeUtf8]
    rfl
  | cons b rest ih =>
    rw [decodeUtf8]
    dsimp only
    rw [if_pos (ascii b List.mem_cons_self), ih fun b' mem => ascii b' (List.mem_cons_of_mem _ mem)]
    rfl

/-- A language that takes only so many sums inside each other. -/
def shallowLanguage : Script.Language :=
  { Script.Language.least with
    read := fun text =>
      if 3000 < text.toList.count '+' then
        .abandoned ⟨"RecursionError", "maximum recursion depth exceeded during compilation"⟩
      else .steps [] }

/-- The text `1+1+…+1` with so many signs. -/
def sumText (n : Nat) : List UInt8 := (List.replicate n [0x31, 0x2B]).flatten ++ [0x31]

/-- A change log that is such a text. -/
def summing (n : Nat) : Engine :=
  { Engine.ofScripts [] with
    language := shallowLanguage
    sources.entries := [(["changelog.py"], .file (.bytes (sumText n)))] }

/-- A change log that ends the program. -/
def exiting : Engine := .ofScripts [("changelog.py", [.raise "SystemExit" "no"])]

/-- The language gives up reading a sum that is too long. -/
theorem abandons_summing {n : Nat} (deep : 3000 < n) : (summing n).Abandons "changelog.py"
    ⟨"RecursionError", "maximum recursion depth exceeded during compilation"⟩ := by
  have resolves : (summing n).sources.resolve none "changelog.py" = .ok "changelog.py" := rfl
  have components : Path.components "changelog.py" = ["changelog.py"] := by decide +kernel
  have reads : (summing n).sources.read none "changelog.py" = .ok (.bytes (sumText n)) := by
    rw [Tree.read_of_resolve _ resolves, components]
    rfl
  have ascii : ∀ b ∈ sumText n, b.toNat < 0x80 := by
    have bytes : ∀ b ∈ sumText n, b = 0x31 ∨ b = 0x2B := by
      simp only [sumText, List.mem_append, List.mem_flatten, List.mem_replicate]
      rintro b (⟨pair, ⟨-, rfl⟩, mem⟩ | mem)
      · simpa using mem
      · exact .inl (List.mem_singleton.1 mem)
    intro b mem
    obtain rfl | rfl := bytes b mem <;> decide
  have decodes : Encoding.utf8.decode (sumText n) =
      .ok (String.ofList ((sumText n).map fun b => Char.ofNat b.toNat)) := by
    unfold Encoding.decode
    rw [Encoding.decodeUtf8_of_lt ascii]
    rfl
  have signs : ((sumText n).map fun b => Char.ofNat b.toNat).count '+' = n := by
    simp [sumText, List.map_flatten, List.count_flatten]
  have known : (summing n).encoding = .ok .utf8 := by
    have named : Encoding.ofName? (default : Settings).scriptEncoding = some .utf8 := by
      decide +kernel
    unfold Engine.encoding
    rw [show (summing n).settings = default from rfl, named]
    rfl
  refine ⟨_, _, resolves, reads, .bytes ?_ known decodes ?_⟩
  · exact List.append_ne_nil_of_right_ne_nil _ nofun
  · show (if 3000 < (String.ofList _).toList.count '+' then _ else _) = _
    rw [String.toList_ofList, signs, if_pos deep]

/-- Neither what is raised when the language gives up reading a change log nor an exit is a failure
for the host. -/
theorem not_isFinal_of_compile :
    let abandoned : Failure :=
      .mishap (.raised "RecursionError" "maximum recursion depth exceeded during compilation")
    let exit : Failure := .exit "SystemExit" "no"
    ((summing 50000).compile (.ofRun none none none) "changelog.py").result = .error abandoned ∧
      ¬abandoned.IsFinal ∧
      (exiting.compile (.ofRun none none none) "changelog.py").result = .error exit ∧
      ¬exit.IsFinal := by
  intro abandoned exit
  have takes : (summing 50000).parser? "changelog.py" = some (.script ".py") :=
    @Engine.parser?_ofScripts [] _ (by decide +kernel)
  have gives : Failure.ofException
      ⟨"RecursionError", "maximum recursion depth exceeded during compilation"⟩ = abandoned :=
    rfl
  have gaveUp := (summing 50000).compile_of_abandons (.ofRun none none none) takes
    (abandons_summing (by decide))
  exact ⟨gives ▸ gaveUp, id, rfl, id⟩

end Migration
