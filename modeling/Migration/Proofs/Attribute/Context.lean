import Migration.Proofs.Attribute.Calls

/-!
# The two names of a context

An element that has a context takes it under two names, of which `contextFilter` goes before
`context`. Which of them counts is decided before anything is expanded: a `contextFilter` with a
text in it, even one that expands to nothing, makes `context` irrelevant, but an empty one counts as
not given.

* `Attributes.SameContext` — attributes that differ in how they give their context at most
* `SessionM.act_sameContext` — an element does the same with them
* `ScriptM.StandsFor` — calls after which everything goes the same way
* `ScriptM.call_contextFilter` — `context` is irrelevant next to a `contextFilter` that is not empty
-/

namespace Migration

namespace Attributes

/-- The names under which a context is given. -/
def contextNames : List String := ["context", "contextFilter"]

/-- The attributes but for those that give a context. -/
def withoutContext (a : Attributes) : Attributes := (a.without "context").without "contextFilter"

/-- Attributes that differ in how they give their context at most. -/
structure SameContext (a a' : Attributes) : Prop where
  others : a'.withoutContext = a.withoutContext
  context : a'.context = a.context

variable {a a' : Attributes} {name : String}

theorem withoutContext_eq_filter (a : Attributes) :
    a.withoutContext = a.filter (!contextNames.contains ·.1) := by
  unfold withoutContext without contextNames
  rw [List.filter_filter]
  refine List.filter_congr fun entry _ => ?_
  simp [Bool.and_comm, bne, beq_eq_decide]

theorem ne_of_not_mem_contextNames (other : name ∉ contextNames) :
    name ≠ "context" ∧ name ≠ "contextFilter" := by
  simpa [contextNames] using other

theorem get_withoutContext (a : Attributes) (other : name ∉ contextNames) :
    a.withoutContext.get name = a.get name := by
  obtain ⟨ne, ne'⟩ := ne_of_not_mem_contextNames other
  unfold withoutContext
  rw [get_without _ ne', get_without _ ne]

/-- An attribute that is a text is given just if the text is not empty. -/
theorem given_iff_of_asText? {text : String} (isText : (a.get name).asText? = some text) :
    a.given name = true ↔ text ≠ "" := by
  unfold given
  cases v : a.get name <;> rw [v] at isText <;> cases isText <;> simp [Value.isTruthy]

namespace SameContext

theorem get (h : a.SameContext a') (other : name ∉ contextNames) : a'.get name = a.get name := by
  rw [← get_withoutContext a' other, h.others, get_withoutContext a other]

theorem given (h : a.SameContext a') (other : name ∉ contextNames) :
    a'.given name = a.given name := by
  unfold Attributes.given
  rw [h.get other]

theorem flag (h : a.SameContext a') (other : name ∉ contextNames) (default : Bool) :
    a'.flag name default = a.flag name default := by
  unfold Attributes.flag
  rw [h.get other]

theorem has (h : a.SameContext a') (other : name ∉ contextNames) : a'.has name = a.has name := by
  have same : ∀ b : Attributes, b.withoutContext.has name = b.has name := by
    intro b
    unfold Attributes.has
    rw [withoutContext_eq_filter, List.any_filter]
    refine congrArg b.any (funext fun entry => ?_)
    by_cases named : entry.1 = name
    · simpa [named] using other
    · simp [named]
  rw [← same, h.others, same]

theorem only (h : a.SameContext a') (names : List String) (both : contextNames ⊆ names) :
    (a.only names).SameContext (a'.only names) where
  others := by
    have swap : ∀ b : Attributes, (b.only names).withoutContext = b.withoutContext.only names := by
      intro b
      rw [withoutContext_eq_filter, withoutContext_eq_filter]
      unfold Attributes.only
      rw [List.filter_filter, List.filter_filter]
      exact List.filter_congr fun _ _ => Bool.and_comm _ _
    rw [swap, swap, h.others]
  context := by
    have same : ∀ b : Attributes, (b.only names).context = b.context := by
      intro b
      unfold Attributes.context Attributes.given
      rw [get_only (both (by decide)), get_only (both (by decide))]
    rw [same, same, h.context]

/-- Next to a `contextFilter` that is given, `context` does not count. -/
theorem of_given (given : a.given "contextFilter" = true)
    (others : a'.without "context" = a.without "context") :
    a.SameContext a' where
  others := congrArg (·.without "contextFilter") others
  context := by
    have same : a'.get "contextFilter" = a.get "contextFilter" := by
      have apart : "contextFilter" ≠ "context" := by decide
      rw [← get_without a' apart, others, get_without a apart]
    unfold Attributes.given at given
    unfold Attributes.context Attributes.given
    rw [same, if_pos given, if_pos given]

/-- A `contextFilter` that is not given may be left out. -/
theorem without_contextFilter (missing : ¬a.given "contextFilter" = true) :
    a.SameContext (a.without "contextFilter") where
  others := by
    rw [withoutContext_eq_filter, withoutContext_eq_filter]
    unfold without
    rw [List.filter_filter]
    refine List.filter_congr fun entry _ => ?_
    by_cases named : entry.1 = "contextFilter"
    · simp [named, contextNames]
    · simp [named]
  context := by
    have none_ : ¬(a.without "contextFilter").given "contextFilter" = true := by
      unfold Attributes.given
      rw [get_without_self]
      decide
    unfold Attributes.context
    rw [if_neg none_, if_neg missing, get_without a (by decide)]

/-- Attributes that are not about the context are the same. -/
theorem only_eq (h : a.SameContext a') (names : List String)
    (neither : ∀ name ∈ contextNames, name ∉ names) :
    a'.only names = a.only names := by
  have same : ∀ b : Attributes, b.withoutContext.only names = b.only names := by
    intro b
    rw [withoutContext_eq_filter]
    unfold Attributes.only
    rw [List.filter_filter]
    refine List.filter_congr fun entry _ => ?_
    by_cases chosen : entry.1 ∈ names
    · simpa [chosen] using fun mem => neither _ mem chosen
    · simp [chosen]
  rw [← same, h.others, same]

theorem cons (h : a.SameContext a') (other : name ∉ contextNames) (v : Value) :
    SameContext ((name, v) :: a) ((name, v) :: a') where
  others := by
    have keeps : ∀ b : Attributes, withoutContext ((name, v) :: b) =
        (name, v) :: b.withoutContext := by
      intro b
      rw [withoutContext_eq_filter, withoutContext_eq_filter,
        List.filter_cons_of_pos (by simpa using other)]
    rw [keeps, keeps, h.others]
  context := by
    have same : ∀ b : Attributes, Attributes.context ((name, v) :: b) = b.context := by
      intro b
      unfold Attributes.context Attributes.given
      obtain ⟨ne, ne'⟩ := ne_of_not_mem_contextNames other
      rw [get_cons_of_ne ne.symm, get_cons_of_ne ne'.symm]
    rw [same, same, h.context]

/-- Whether attributes are those of an element has nothing to do with the context it has. -/
theorem validate (h : a.SameContext a') {allowed : List String} (both : contextNames ⊆ allowed)
    (owner element : String) :
    a'.validate owner element allowed = a.validate owner element allowed := by
  have supported : ∀ b : Attributes, b.withoutContext.unsupported? allowed =
      b.unsupported? allowed := by
    intro b
    unfold unsupported?
    rw [withoutContext_eq_filter, List.find?_filter]
    refine congrArg (fun p => (List.find? p b).map (·.1)) (funext fun entry => ?_)
    by_cases own : entry.1 ∈ contextNames
    · simp [both own]
    · simp [own]
  have gone : a'.has "alwaysRun" = a.has "alwaysRun" := h.has (by decide)
  unfold Attributes.validate removed
  rw [← supported a', h.others, supported a]
  simp only [List.find?_cons, List.find?_nil, gone]

end SameContext
end Attributes

open Attributes

/-! ## Elements that have a context -/

/-- The elements that have a context. -/
def Element.takesContext : Element → Bool
  | changeLog | property | changeSet | «include» | includeAll | includeAllSql | modifySql .. => true
  | _ => false

namespace SessionM

variable {e : Engine} {compiler : Compiler} {d : DocumentId} {a a' : Attributes} {s : Session}

theorem changeLog_sameContext (h : a.SameContext a') : changeLog d a' = changeLog d a := by
  unfold changeLog setLogicalPath setContexts contextFilter setQuotingStrategy
  simp (disch := decide) only [h.get, h.given, h.context, h.validate]

theorem property_sameContext (h : a.SameContext a') : property e d a' = property e d a := by
  unfold property propertiesOf
  simp (disch := decide) only [h.get, h.given, h.flag, h.context, h.validate]

theorem optionalParts_sameContext (h : a.SameContext a') (owner : String) (c : DraftChangeSet) :
    optionalParts d owner a' c = optionalParts d owner a c := by
  have failOnError : a'.has "failOnError" = a.has "failOnError" := h.has (by decide)
  have given : ∀ name ∈ ["onValidationFail", "labels", "created", "runOrder", "ignore"],
      a'.given name = a.given name ∧ a'.get name = a.get name := by
    intro name mem
    have others : ∀ name ∈ ["onValidationFail", "labels", "created", "runOrder", "ignore"],
        name ∉ contextNames := by decide
    exact ⟨h.given (others name mem), h.get (others name mem)⟩
  simp only [List.forall_mem_cons, List.not_mem_nil, false_implies, implies_true, and_true] at given
  obtain ⟨⟨validation, validation'⟩, ⟨labels, labels'⟩, ⟨created, created'⟩, ⟨runOrder, runOrder'⟩,
    ignore, -⟩ := given
  unfold optionalParts
  simp only [failOnError, validation, validation', labels, labels', created, created',
    runOrder, runOrder',
    ignore, h.flag (by decide : "failOnError" ∉ contextNames),
    h.flag (by decide : "ignore" ∉ contextNames)]

theorem newChangeSet_sameContext (h : a.SameContext a') : newChangeSet d a' = newChangeSet d a := by
  unfold newChangeSet quotingStrategy changeSetPath contextFilter
  simp (disch := decide) only [h.get, h.flag, h.has, h.context, h.validate,
    optionalParts_sameContext h]

theorem inclusionOf_sameContext (h : a.SameContext a') : inclusionOf d a' = inclusionOf d a := by
  unfold inclusionOf contextFilter labels
  simp (disch := decide) only [h.get, h.flag, h.context]

theorem discover_sameContext (h : a.SameContext a') (element : String) :
    discover e d a' element = discover e d a element := by
  unfold discover
  simp (disch := decide) only [h.get, h.flag]

theorem include_sameContext (h : a.SameContext a') :
    SessionM.include e compiler d a' = SessionM.include e compiler d a := by
  unfold SessionM.include readInclude
  simp (disch := decide) only [h.get, h.flag, h.validate, inclusionOf_sameContext h]

theorem includeAll_sameContext (h : a.SameContext a') :
    includeAll e compiler d a' = includeAll e compiler d a := by
  unfold includeAll readIncludeAll
  simp (disch := decide) only [h.validate, discover_sameContext h, inclusionOf_sameContext h]

/-- The change set for a file has the context of the element, and the change in it has none. -/
theorem newStatements_sameContext (h : a.SameContext a') (id path : String) :
    newStatements d a' id path = newStatements d a id path := by
  unfold newStatements
  rw [newChangeSet_sameContext ((h.only sqlChangeSetAttributes (by decide)).cons (by decide) _),
    h.only_eq sqlStepAttributes (by decide)]

theorem includeAllSql_sameContext (h : a.SameContext a') :
    includeAllSql e d a' = includeAllSql e d a := by
  have files : ∀ id paths, includeStatementFiles d a' id paths = includeStatementFiles d a
      id paths := by
    intro id paths
    induction paths with
    | nil => rfl
    | cons path rest ih =>
      unfold includeStatementFiles includeStatements
      rw [ih, newStatements_sameContext h]
  unfold includeAllSql readIncludeAllSql
  rw [h.only_eq discoveryAttributes (by decide)]
  simp (disch := decide) only [h.get, h.flag, h.validate, files]

theorem visitorFilter_sameContext (h : a.SameContext a') (d : DocumentId) :
    ScriptM.visitorFilter d a' = ScriptM.visitorFilter d a := by
  unfold ScriptM.visitorFilter
  simp (disch := decide) only [h.get, h.given, h.flag, h.context]

/-- An element that has a context does the same with attributes that give the same one, and leaves
behind what looks the same. -/
theorem act_sameContext (e : Engine) (compiler : Compiler) (d : DocumentId) (h : a.SameContext a')
    {element : Element} (takes : element.takesContext = true) (positional : List Value)
    (s : Session) : (∃ failure s₁, act e compiler d element positional a s = (.error failure, s₁) ∧
      act e compiler d element positional a' s = (.error failure, s₁)) ∨
    ∃ x x' s₁, act e compiler d element positional a s = (.ok x, s₁) ∧
      act e compiler d element positional a' s = (.ok x', s₁) ∧ Result.Alike x x' := by
  have same : act e compiler d element positional a' = act e compiler d element positional a →
      (∃ failure s₁, act e compiler d element positional a s = (.error failure, s₁) ∧
        act e compiler d element positional a' s = (.error failure, s₁)) ∨
      ∃ x x' s₁, act e compiler d element positional a s = (.ok x, s₁) ∧
        act e compiler d element positional a' s = (.ok x', s₁) ∧ Result.Alike x x' := by
    intro same
    rw [same]
    rcases act e compiler d element positional a s with ⟨failure | x, s₁⟩
    · exact .inl ⟨failure, s₁, rfl, rfl⟩
    · exact .inr ⟨x, x, s₁, rfl, rfl, .refl x⟩
  -- only a filter leaves its attributes behind, all others read them at once
  cases element with
  | changeLog => exact same (congrArg (· >>= _) (changeLog_sameContext h))
  | property => exact same (congrArg (· >>= _) (property_sameContext h))
  | changeSet => exact same (congrArg (· >>= _) (newChangeSet_sameContext h))
  | «include» => exact same (congrArg (· >>= _) (include_sameContext h))
  | includeAll => exact same (congrArg (· >>= _) (includeAll_sameContext h))
  | includeAllSql => exact same (congrArg (· >>= _) (includeAllSql_sameContext h))
  | modifySql owner i =>
    unfold act
    dsimp only
    rw [h.validate (by decide)]
    rcases checks : ofCheck (a.validate owner "modifySql"
      ["dbms", "context", "contextFilter", "labels", "applyToRollback"]) s with ⟨failure | _, s₁⟩
    · exact .inl ⟨failure, s₁, Step.run_bind_of_error checks _, Step.run_bind_of_error checks _⟩
    · refine .inr ⟨_, _, s₁, Step.run_bind_of_ok checks _, Step.run_bind_of_ok checks _, .scope ?_⟩
      unfold Scope.view ScriptM.openBody
      simp only [visitorFilter_sameContext h]
  | _ => cases takes

end SessionM

/-! ## Calls -/

namespace ScriptM

variable {e : Engine} {compiler : Compiler} {r : Running} {c c' : Script.Call} {x : Application}

/-- A call can stand for another one: it gives the same and does the same to the session, and so do
a step that makes it, a block that it opens, and all the steps that come after it. -/
structure StandsFor (e : Engine) (compiler : Compiler) (r : Running) (c c' : Script.Call) :
    Prop where
  outcome : (call e compiler c' r).1 = (call e compiler c r).1
  session : (call e compiler c' r).2.session = (call e compiler c r).2.session
  later : ∀ (node : Script.Node) (rest : List Script.Node), node.call? = some c →
    let run := runNodes e compiler (node :: rest) r
    let run' := runNodes e compiler (node.withCall c' :: rest) r
    run'.1 = run.1 ∧ run'.2.session = run.2.session

theorem standsFor_of_sameContext {a' : Attributes} (prepares : prepare e c r = (.ok x, r))
    (prepares' : prepare e c' r = (.ok { x with attributes := a' }, r))
    (takes : x.element.takesContext = true) (h : x.attributes.SameContext a') :
    StandsFor e compiler r c c' := by
  have same : (call e compiler c' r).1 = (call e compiler c r).1 ∧
      (call e compiler c r).2.Alike (call e compiler c' r).2 := by
    rcases SessionM.act_sameContext e compiler r.frame.document h takes x.positional r.session with
      ⟨failure, s₁, acts, acts'⟩ | ⟨y, y', s₁, acts, acts', alike⟩
    · rw [call_eq prepares acts, call_eq prepares' acts']
      exact ⟨rfl, .refl _⟩
    · rw [call_eq prepares acts, call_eq prepares' acts']
      exact outcomeOf_agrees alike (.refl _)
  refine ⟨same.1, same.2.session, fun node rest makes => ?_⟩
  obtain ⟨result, related⟩ :=
    Agrees.bind_of_run (runNode_withCall makes same) fun _ => runNodes_agrees rest
  exact ⟨result, related.session⟩

/-- Next to a `contextFilter` that is a text, `context` is irrelevant if the text is not empty,
whatever it expands to, and an empty text counts as no `contextFilter` at all. -/
theorem call_contextFilter (compiler : Compiler) {a' : Attributes} {text : String}
    (prepares : prepare e c r = (.ok x, r))
    (prepares' : prepare e c' r = (.ok { x with attributes := a' }, r))
    (takes : x.element.takesContext = true)
    (isText : (x.attributes.get "contextFilter").asText? = some text) :
    (text ≠ "" → a'.without "context" = x.attributes.without "context" →
      StandsFor e compiler r c c') ∧
    (text = "" → a' = x.attributes.without "contextFilter" → StandsFor e compiler r c c') := by
  constructor
  · intro nonempty others
    exact standsFor_of_sameContext prepares prepares' takes
      (.of_given ((given_iff_of_asText? isText).2 nonempty) others)
  · rintro empty rfl
    exact standsFor_of_sameContext prepares prepares' takes
      (.without_contextFilter fun given => (given_iff_of_asText? isText).1 given empty)

/-- The context filter of the first change set of a session. -/
def firstContexts (s : Session) : Option (Option ContextFilter) :=
  (s.store.changeSets.get? ⟨0⟩).map (·.contexts)

/-- A `contextFilter` that expands to the empty text: the change set has no context filter, with
`context` or without. -/
theorem call_contextFilter_expanded :
    let r : Running := { openedBlock with
      session.table := (Table.ofRun none none none).set (.ofText "none" "") }
    let a : Attributes :=
      [("id", .text "1"), ("author", .text "a"), ("contextFilter", .text "$\x7bnone\x7d")]
    let c : Script.Call := .giving "changeSet" (a ++ [("context", .text "dev")])
    let c' : Script.Call := .giving "changeSet" a
    StandsFor (.ofScripts []) none r c c' ∧
      firstContexts (call (.ofScripts []) none c r).2.session = some none ∧
      firstContexts (call (.ofScripts []) none c' r).2.session = some none := by
  intro r a c c'
  have prepares : prepare (.ofScripts []) c r = (.ok {
      element := .changeSet, positional := [],
      attributes := a ++ [("context", .text "dev")] }, r) := rfl
  have prepares' : prepare (.ofScripts []) c' r =
      (.ok { element := .changeSet, positional := [], attributes := a }, r) := rfl
  obtain ⟨nonempty, -⟩ := call_contextFilter none prepares prepares' rfl rfl
  exact ⟨nonempty (by decide) rfl, by decide +kernel, by decide +kernel⟩

/-- An empty `contextFilter`: the change set takes `context`, so that it matters whether that is
given. -/
theorem not_standsFor_emptyContextFilter :
    let a : Attributes := [("id", .text "1"), ("author", .text "a"), ("contextFilter", .text "")]
    let c : Script.Call := .giving "changeSet" (a ++ [("context", .text "dev")])
    let c' : Script.Call := .giving "changeSet" a
    firstContexts (call (.ofScripts []) none c openedBlock).2.session = some (some ⟨some "dev"⟩) ∧
      firstContexts (call (.ofScripts []) none c' openedBlock).2.session = some none ∧
      ¬StandsFor (.ofScripts []) none openedBlock c c' := by
  intro a c c'
  have given : firstContexts (call (.ofScripts []) none c openedBlock).2.session =
      some (some ⟨some "dev"⟩) := by decide +kernel
  have missing : firstContexts (call (.ofScripts []) none c' openedBlock).2.session =
      some none := by
    decide +kernel
  refine ⟨given, missing, fun same => ?_⟩
  rw [same.session, given] at missing
  cases missing

end ScriptM
end Migration
