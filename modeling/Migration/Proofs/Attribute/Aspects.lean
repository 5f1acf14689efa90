import Mathlib.Logic.Function.Basic
import Migration.Proofs.Call

/-!
# What the attributes of a change set say

An attribute of a change set says one thing about it: its context and its path have two attributes
each, everything else has one. What is said of one thing has nothing to do with what is said of the
others, and what nothing is said of has its default.

* `Aspect` — what is said of a change set
* `Aspect.of`, `Aspect.put`, `Aspect.assemble` — where it stands in the change set
* `Aspect.Says` — what attributes say
* `SessionM.says_of_newChangeSet` — a change set is what its attributes say and nothing else
* `SessionM.newChangeSet_independent` — attributes are independent of each other
-/

namespace Migration

/-- What attributes say of a change set. -/
inductive Aspect where
  | id
  | author
  | path
  | runAlways
  | runOnChange
  | runInTransaction
  | contexts
  | databases
  | runWith
  | spoolFile
  | quotingStrategy
  | failOnError
  | onValidationFail
  | labels
  | created
  | runOrder
  | ignore
  deriving DecidableEq

namespace Aspect

/-- What an attribute is about. -/
def ofName? : String → Option Aspect
  | "id" => some id
  | "author" => some author
  | "filePath" | "logicalFilePath" => some path
  | "runAlways" => some runAlways
  | "runOnChange" => some runOnChange
  | "runInTransaction" => some runInTransaction
  | "context" | "contextFilter" => some contexts
  | "dbms" => some databases
  | "runWith" => some runWith
  | "runWithSpoolFile" => some spoolFile
  | "objectQuotingStrategy" => some quotingStrategy
  | "failOnError" => some failOnError
  | "onValidationFail" => some onValidationFail
  | "labels" => some labels
  | "created" => some created
  | "runOrder" => some runOrder
  | "ignore" => some ignore
  | _ => none

/-- The attributes of a change set are those that are about something. -/
theorem isSome_ofName? (name : String) : (ofName? name).isSome = true ↔
    name ∈ changeSetAttributes := by
  constructor
  · intro h
    unfold ofName? at h
    split at h <;> first | decide | cases h
  · have all : ∀ name ∈ changeSetAttributes, (ofName? name).isSome = true := by decide
    exact all name

/-- What can be said. -/
abbrev Field : Aspect → Type
  | id | author | runWith | spoolFile | created | runOrder => Option String
  | path => Value
  | runAlways | runOnChange | runInTransaction | ignore => Bool
  | contexts => Option ContextFilter
  | databases => Option (List String)
  | quotingStrategy | onValidationFail => Option Choice
  | failOnError => Option Bool
  | labels => Option Labels

/-- What is said of a change set. -/
def of (c : DraftChangeSet) : (x : Aspect) → x.Field
  | id => c.id
  | author => c.author
  | path => c.filePath
  | runAlways => c.runAlways
  | runOnChange => c.runOnChange
  | runInTransaction => c.runInTransaction
  | contexts => c.contexts
  | databases => c.databases
  | runWith => c.runWith
  | spoolFile => c.runWithSpoolFile
  | quotingStrategy => c.quotingStrategy
  | failOnError => c.failOnError
  | onValidationFail => c.onValidationFail
  | labels => c.labels
  | created => c.created
  | runOrder => c.runOrder
  | ignore => c.ignore

/-- The change set of which one thing is said otherwise. -/
def put (c : DraftChangeSet) : (x : Aspect) → x.Field → DraftChangeSet
  | id, v => { c with id := v }
  | author, v => { c with author := v }
  | path, v => { c with filePath := v }
  | runAlways, v => { c with runAlways := v }
  | runOnChange, v => { c with runOnChange := v }
  | runInTransaction, v => { c with runInTransaction := v }
  | contexts, v => { c with contexts := v }
  | databases, v => { c with databases := v }
  | runWith, v => { c with runWith := v }
  | spoolFile, v => { c with runWithSpoolFile := v }
  | quotingStrategy, v => { c with quotingStrategy := v }
  | failOnError, v => { c with failOnError := v }
  | onValidationFail, v => { c with onValidationFail := v }
  | labels, v => { c with labels := v }
  | created, v => { c with created := v }
  | runOrder, v => { c with runOrder := v }
  | ignore, v => { c with ignore := v }

/-- What holds of a change set of which nothing is said. -/
def unset (document : DraftDocument) : (x : Aspect) → x.Field
  | path => .text document.filePath
  | quotingStrategy => document.quotingStrategy
  | runInTransaction => true
  | runAlways | runOnChange | ignore => false
  | id | author | contexts | databases | runWith | spoolFile | failOnError | onValidationFail | labels
  | created | runOrder => none

/-- The change set of which something is said, without parts. -/
def assemble (value : (x : Aspect) → x.Field) : DraftChangeSet where
  id := value id
  author := value author
  filePath := value path
  runAlways := value runAlways
  runOnChange := value runOnChange
  runInTransaction := value runInTransaction
  contexts := value contexts
  databases := value databases
  runWith := value runWith
  runWithSpoolFile := value spoolFile
  quotingStrategy := value quotingStrategy
  failOnError := value failOnError
  onValidationFail := value onValidationFail
  labels := value labels
  created := value created
  runOrder := value runOrder
  ignore := value ignore

@[simp] theorem of_assemble (value : (x : Aspect) → x.Field) (x : Aspect) :
    of (assemble value) x = value x := by
  cases x <;> rfl

theorem put_assemble (value : (x : Aspect) → x.Field) (x : Aspect) (v : x.Field) :
    put (assemble value) x v = assemble (Function.update value x v) := by
  cases x <;> rfl

/-! ## What is said -/

section Says

variable (d : DocumentId) (a : Attributes) (s : Session)

/-- What an attribute is after expansion. -/
def Reads (name : String) (P : Value → Prop) : Prop :=
  ∃ v, SessionM.expand d (a.get name) s = (.ok v, s) ∧ P v

/-- What is only said if an attribute is given. -/
def Supplies {α : Type} (name : String) (P : Value → α → Prop) : Option α → Prop
  | none => a.given name = false
  | some x => a.given name = true ∧ Reads d a s name (P · x)

/-- What attributes say of a change set in a document. -/
def Says : (x : Aspect) → x.Field → Prop
  | id, text => Reads d a s "id" fun v => v.textOrNull? = some text
  | author, text => Reads d a s "author" fun v => v.textOrNull? = some text
  | path, v => SessionM.changeSetPath d a s = (.ok v, s)
  | runAlways, b => b = a.flag "runAlways" false
  | runOnChange, b => b = a.flag "runOnChange" false
  | runInTransaction, b => b = a.flag "runInTransaction" true
  | contexts, filter => SessionM.contextFilter d a s = (.ok filter, s)
  | databases, names => Reads d a s "dbms" fun v => v.databases = .ok names
  | runWith, text => Reads d a s "runWith" fun v => v.textOrNull? = some text
  | spoolFile, text => Reads d a s "runWithSpoolFile" fun v => v.textOrNull? = some text
  | quotingStrategy, c => ∃ owner, SessionM.quotingStrategy d owner a s = (.ok c, s)
  | failOnError, b => b = if a.has "failOnError" then some (a.flag "failOnError" false) else none
  | onValidationFail, c => Supplies d a s "onValidationFail"
      (fun v x => Choice.ofName? .validationFail v.print = some x) c
  | labels, l => Supplies d a s "labels" (fun v x => x = .ofText v.print) l
  | created, text => Supplies d a s "created" (fun v x => x = v.print) text
  | runOrder, text => Supplies d a s "runOrder" (fun v x => x = Text.lower v.print) text
  | ignore, b => b = (a.given "ignore" && a.flag "ignore" false)

end Says

variable {d : DocumentId} {a a' : Attributes} {s : Session} {x : Aspect}

theorem Reads.congr {name : String} {P : Value → Prop} (same : a'.get name = a.get name)
    (h : Reads d a s name P) : Reads d a' s name P := by
  unfold Reads
  rw [same]
  exact h

theorem Supplies.congr {α : Type} {name : String} {P : Value → α → Prop} {o : Option α}
    (same : a'.get name = a.get name) (h : Supplies d a s name P o) : Supplies d a' s name P o := by
  have given : a'.given name = a.given name := congrArg Value.isTruthy same
  cases o with
  | none => exact given.trans h
  | some x => exact ⟨given.trans h.1, h.2.congr same⟩

/-- What is said depends only on the attributes that are about it. -/
theorem Says.congr (same : ∀ name, ofName? name = some x → a'.has name = a.has name ∧
    a'.get name = a.get name) {v : x.Field} (h : x.Says d a s v) : x.Says d a' s v := by
  cases x with
  | id | author | databases | runWith | spoolFile => exact Reads.congr (same _ rfl).2 h
  | onValidationFail | labels | created | runOrder => exact Supplies.congr (same _ rfl).2 h
  | runAlways | runOnChange | runInTransaction =>
    exact Eq.trans h (congrArg (Value.truth · _) (same _ rfl).2.symm)
  | path =>
    unfold Says SessionM.changeSetPath
    rw [(same "filePath" rfl).1, (same "filePath" rfl).2, (same "logicalFilePath" rfl).1,
      (same "logicalFilePath" rfl).2]
    exact h
  | contexts =>
    unfold Says SessionM.contextFilter Attributes.context Attributes.given
    rw [(same "contextFilter" rfl).2, (same "context" rfl).2]
    exact h
  | quotingStrategy =>
    obtain ⟨owner, h⟩ := h
    refine ⟨owner, ?_⟩
    unfold SessionM.quotingStrategy
    rw [(same "objectQuotingStrategy" rfl).1, (same "objectQuotingStrategy" rfl).2]
    exact h
  | failOnError =>
    unfold Says Attributes.flag
    rw [(same "failOnError" rfl).1, (same "failOnError" rfl).2]
    exact h
  | ignore =>
    unfold Says Attributes.given Attributes.flag
    rw [(same "ignore" rfl).2]
    exact h

theorem Reads.both {name : String} {P Q : Value → Prop} (h : Reads d a s name P)
    (h' : Reads d a s name Q) : ∃ v, P v ∧ Q v := by
  obtain ⟨v, reads, holds⟩ := h
  obtain ⟨v', reads', holds'⟩ := h'
  obtain rfl : v = v' := Except.ok.inj (Prod.mk.inj (reads.symm.trans reads')).1
  exact ⟨v, holds, holds'⟩

theorem Reads.unique {α : Type} {name : String} {f : Value → α} {u v : α}
    (h : Reads d a s name fun w => f w = u) (h' : Reads d a s name fun w => f w = v) : u = v := by
  obtain ⟨w, rfl, rfl⟩ := h.both h'
  rfl

theorem Supplies.unique {α : Type} {name : String} {P : Value → α → Prop} {u v : Option α}
    (functional : ∀ w x y, P w x → P w y → x = y) (h : Supplies d a s name P u)
    (h' : Supplies d a s name P v) : u = v := by
  cases u with
  | none =>
    cases v with
    | none => rfl
    | some v => exact absurd (h'.1.symm.trans h) (by decide)
  | some u =>
    cases v with
    | none => exact absurd (h.1.symm.trans h') (by decide)
    | some v =>
      obtain ⟨w, holds, holds'⟩ := h.2.both h'.2
      exact congrArg some (functional w u v holds holds')

/-- The owner is only named in messages. -/
theorem quotingStrategy_owner {owner : String} {c : Option Choice}
    (h : SessionM.quotingStrategy d owner a s = (.ok c, s)) (other : String) :
    SessionM.quotingStrategy d other a s = (.ok c, s) := by
  unfold SessionM.quotingStrategy at h ⊢
  split at h
  · next given =>
    rw [if_pos given]
    obtain ⟨v, s₁, expands, h⟩ := Step.bind_eq_ok.1 h
    refine Step.bind_eq_ok.2 ⟨v, s₁, expands, ?_⟩
    unfold SessionM.choice at h ⊢
    split at h
    · exact h
    · cases h
  · next missing =>
    rw [if_neg missing]
    exact h

/-- No two things are said of the same aspect. -/
theorem Says.unique {u v : x.Field} (h : x.Says d a s u) (h' : x.Says d a s v) : u = v := by
  cases x with
  | id | author | runWith | spoolFile => exact Option.some.inj (Reads.unique h h')
  | databases => exact Except.ok.inj (Reads.unique h h')
  | onValidationFail =>
    exact Supplies.unique (fun _ _ _ is is' => Option.some.inj (is.symm.trans is')) h h'
  | labels | created | runOrder =>
    exact Supplies.unique (fun _ _ _ is is' => is.trans is'.symm) h h'
  | runAlways | runOnChange | runInTransaction | failOnError | ignore =>
    exact Eq.trans h (Eq.symm h')
  | path | contexts =>
    exact Except.ok.inj (Prod.mk.inj (Eq.trans (Eq.symm h) h')).1
  | quotingStrategy =>
    obtain ⟨owner, h⟩ := h
    obtain ⟨owner', h'⟩ := h'
    exact Except.ok.inj (Prod.mk.inj ((quotingStrategy_owner h owner').symm.trans h')).1

/-- Without attributes, a change set is as if nothing were said of it. -/
theorem says_unset {document : DraftDocument} (known : s.store.documents.get? d = some document)
    (x : Aspect) : x.Says d [] s (x.unset document) := by
  have found : SessionM.document d s = (.ok document, s) := by
    show (Except.ok ((s.store.documents.get? d).getD _), s) = _
    rw [known]
    rfl
  cases x with
  | id | author | databases | runWith | spoolFile => exact ⟨.null, rfl, rfl⟩
  | path => exact Step.bind_eq_ok.2 ⟨document, s, found, rfl⟩
  | quotingStrategy => exact ⟨"", Step.bind_eq_ok.2 ⟨document, s, found, rfl⟩⟩
  | _ => rfl

end Aspect

namespace SessionM

variable {d : DocumentId} {a : Attributes} {s s₁ : Session}

open Aspect

/-- What is said of a part that is left out if it is not given. -/
theorem supplies_of_ite {α β : Type} {name : String} {P : Value → α → Prop} {f : Value → SessionM β}
    {k : Option α → SessionM β} {c : β}
    (h : (if a.given name = true then expand d (a.get name) >>= f else k none) s = (.ok c, s₁))
    (reads : ∀ v, f v s = (.ok c, s₁) → ∃ x, P v x ∧ k (some x) s = (.ok c, s₁)) :
    ∃ o, Supplies d a s name P o ∧ k o s = (.ok c, s₁) := by
  split at h
  · next given =>
    obtain ⟨v, expands, h⟩ := (keeps_expand d _).bind_eq_ok.1 h
    obtain ⟨x, holds, h⟩ := reads v h
    exact ⟨some x, ⟨given, v, expands, holds⟩, h⟩
  · next missing => exact ⟨none, (Bool.not_eq_true _).mp missing, h⟩

theorem eq_ok_of_ofMishap {α : Type} {x : Except Mishap α} {v : α}
    (h : ofMishap x s = (.ok v, s₁)) : x = .ok v := by
  cases x with
  | error mishap => cases h
  | ok w =>
    cases h
    rfl

theorem ofName?_of_choice {kind : Choice.Kind} {v : Value} {failure : String → ParseFailure}
    {c : Choice} (h : choice kind v failure s = (.ok c, s₁)) :
    Choice.ofName? kind v.print = some c := by
  unfold choice at h
  cases named : Choice.ofName? kind v.print with
  | none =>
    rw [named] at h
    cases h
  | some c' =>
    rw [named] at h
    cases h
    rfl

/-- The parts that are left out if they are not given are what the attributes say. -/
theorem of_optionalParts {owner : String} {c₀ c : DraftChangeSet}
    (h : optionalParts d owner a c₀ s = (.ok c, s₁))
    (bare : c₀ = { c₀ with
      failOnError := none, onValidationFail := none, labels := none, created := none
      runOrder := none, ignore := false }) :
    ∃ failOnError onValidationFail labels created runOrder ignore,
      Aspect.failOnError.Says d a s failOnError ∧
      Aspect.onValidationFail.Says d a s onValidationFail ∧
      Aspect.labels.Says d a s labels ∧ Aspect.created.Says d a s created ∧
      Aspect.runOrder.Says d a s runOrder ∧ Aspect.ignore.Says d a s ignore ∧
      c = { c₀ with failOnError, onValidationFail, labels, created, runOrder, ignore } := by
  rw [bare] at h
  -- each part is followed by the parts after it, so the last one comes first
  generalize whole : optionalParts d owner a _ = step at h
  unfold optionalParts at whole
  extract_lets c₁ last ignored ordered created labelled validated c₂ at whole
  subst whole
  obtain ⟨fails, saysFails, h⟩ : ∃ v, Aspect.failOnError.Says d a s v ∧ validated () { c₀ with
      failOnError := v, onValidationFail := none, labels := none, created := none, runOrder := none
      ignore := false } s = (.ok c, s₁) := by
    refine ⟨_, rfl, ?_⟩
    split at h
    · next given =>
      rw [if_pos given]
      exact h
    · next missing =>
      rw [if_neg missing]
      exact h
  obtain ⟨onFail, saysOnFail, h⟩ := supplies_of_ite (k := fun v => labelled () { c₀ with
      failOnError := fails, onValidationFail := v, labels := none, created := none, runOrder := none
      ignore := false }) (P := fun v x => Choice.ofName? .validationFail v.print = some x) h
    fun v h => by
      obtain ⟨x, s₂, chooses, h⟩ := Step.bind_eq_ok.1 h
      exact ⟨x, ofName?_of_choice chooses, by rwa [(keeps_choice _ _ _).of_run (R := (· = ·)) chooses]⟩
  obtain ⟨labels, saysLabels, h⟩ := supplies_of_ite (k := fun v => created () { c₀ with
      failOnError := fails, onValidationFail := onFail, labels := v, created := none
      runOrder := none, ignore := false }) (P := fun v x => x = .ofText v.print) h fun v h => ⟨_, rfl, h⟩
  obtain ⟨created, saysCreated, h⟩ := supplies_of_ite (k := fun v => ordered () { c₀ with
      failOnError := fails, onValidationFail := onFail, labels, created := v, runOrder := none
      ignore := false }) (P := fun v x => x = v.print) h fun v h => ⟨_, rfl, h⟩
  obtain ⟨order, saysOrder, h⟩ := supplies_of_ite (k := fun v => ignored () { c₀ with
      failOnError := fails, onValidationFail := onFail, labels, created, runOrder := v
      ignore := false }) (P := fun v x => x = Text.lower v.print) h fun v h => by
      dsimp only at h
      split at h
      · cases h
      · exact ⟨_, rfl, h⟩
  refine ⟨fails, onFail, labels, created, order, _, saysFails, saysOnFail, saysLabels, saysCreated,
    saysOrder, rfl, ?_⟩
  cases given : a.given "ignore" <;> simp only [ignored, given] at h <;> cases h <;> rfl

/-- A change set is what its attributes say of it and nothing else. -/
theorem says_of_newChangeSet {c : DraftChangeSet} (h : newChangeSet d a s = (.ok c, s₁)) :
    ∃ value : (x : Aspect) → x.Field,
      c = assemble value ∧ ∀ x : Aspect, x.Says d a s (value x) := by
  unfold newChangeSet at h
  obtain ⟨_, -, h⟩ := (keeps_ofCheck _).bind_eq_ok.1 h
  obtain ⟨quotingStrategy, hquoting, h⟩ := (keeps_quotingStrategy d _ _).bind_eq_ok.1 h
  obtain ⟨path, hpath, h⟩ := (keeps_changeSetPath d _).bind_eq_ok.1 h
  obtain ⟨contexts, hcontexts, h⟩ := (keeps_contextFilter d _).bind_eq_ok.1 h
  obtain ⟨id, hid, h⟩ := (keeps_expand d _).bind_eq_ok.1 h
  obtain ⟨author, hauthor, h⟩ := (keeps_expand d _).bind_eq_ok.1 h
  obtain ⟨dbms, hdbms, h⟩ := (keeps_expand d _).bind_eq_ok.1 h
  obtain ⟨databases, hdatabases, h⟩ := (keeps_ofMishap _).bind_eq_ok.1 h
  obtain ⟨runWith, hrunWith, h⟩ := (keeps_expand d _).bind_eq_ok.1 h
  obtain ⟨spoolFile, hspoolFile, h⟩ := (keeps_expand d _).bind_eq_ok.1 h
  obtain ⟨c₀, hchecked, h⟩ := (keeps_ofMishap _).bind_eq_ok.1 h
  have checks := eq_ok_of_ofMishap hchecked
  unfold changeSetOf at checks
  split at checks
  · next id author _ runWith spoolFile saysId saysAuthor _ saysRunWith saysSpoolFile =>
    cases checks
    obtain ⟨fails, onFail, labels, created, order, ignore, saysFails, saysOnFail, saysLabels,
      saysCreated, saysOrder, saysIgnore, rfl⟩ := of_optionalParts h rfl
    refine ⟨fun
      | .id => id | .author => author | .path => path | .runAlways => a.flag "runAlways" false
      | .runOnChange => a.flag "runOnChange" false
      | .runInTransaction => a.flag "runInTransaction" true
      | .contexts => contexts | .databases => databases | .runWith => runWith
      | .spoolFile => spoolFile | .quotingStrategy => quotingStrategy | .failOnError => fails
      | .onValidationFail => onFail | .labels => labels | .created => created | .runOrder => order
      | .ignore => ignore, rfl, fun
      | .id => ⟨_, hid, saysId⟩ | .author => ⟨_, hauthor, saysAuthor⟩ | .path => hpath
      | .runAlways => rfl | .runOnChange => rfl | .runInTransaction => rfl | .contexts => hcontexts
      | .databases => ⟨_, hdbms, eq_ok_of_ofMishap hdatabases⟩
      | .runWith => ⟨_, hrunWith, saysRunWith⟩
      | .spoolFile => ⟨_, hspoolFile, saysSpoolFile⟩ | .quotingStrategy => ⟨_, hquoting⟩
      | .failOnError => saysFails | .onValidationFail => saysOnFail | .labels => saysLabels
      | .created => saysCreated | .runOrder => saysOrder | .ignore => saysIgnore⟩
  · cases checks

/-- Every attribute of a change set is about one thing, and attributes that differ only in what they
say about one thing describe change sets that differ at most in that. What is not said is as in a
change set of which nothing is said in that document. -/
theorem newChangeSet_independent {document : DraftDocument} {c : DraftChangeSet}
    (known : s.store.documents.get? d = some document) (makes : newChangeSet d a s = (.ok c, s₁)) :
    (∀ name, (ofName? name).isSome = true ↔ name ∈ changeSetAttributes) ∧
    (∀ a' c' s₁' x, newChangeSet d a' s = (.ok c', s₁') →
      (∀ name, ofName? name ≠ some x → a'.has name = a.has name ∧ a'.get name = a.get name) →
        c' = put c x (of c' x)) ∧
    ∀ x, (∀ name, ofName? name = some x → a.has name = false) → of c x = x.unset document := by
  obtain ⟨value, rfl, holds⟩ := says_of_newChangeSet makes
  refine ⟨isSome_ofName?, fun a' c' s₁' x makes' same => ?_, fun x absent => ?_⟩
  · obtain ⟨value', rfl, holds'⟩ := says_of_newChangeSet makes'
    have others : ∀ y, y ≠ x → value' y = value y := by
      intro y ne
      refine (holds' y).unique ((holds y).congr fun name about => same name ?_)
      rw [about]
      exact fun h => ne (Option.some.inj h)
    rw [of_assemble, put_assemble]
    exact congrArg assemble (Function.eq_update_iff.2 ⟨rfl, others⟩)
  · rw [of_assemble]
    refine (holds x).unique ((says_unset known x).congr fun name about => ⟨absent name about, ?_⟩)
    exact Attributes.get_of_not_mem fun given =>
      absurd ((absent name about).symm.trans (Attributes.has_iff.2 given)) (by decide)

/-- Two change sets that differ in their contexts, which are given under either name. -/
theorem newChangeSet_independent_contexts :
    let s : Session := (newDocument { path := "a.py" } none { table := .ofRun none none none }).2
    let a : Attributes :=
      [("id", .text "1"), ("context", .text "test"), ("runOrder", .text "FIRST")]
    let a' : Attributes := [("contextFilter", .text "live"), ("runOrder", .text "FIRST"),
      ("id", .text "1")]
    ∃ document c c' s₁ s₁', s.store.documents.get? ⟨0⟩ = some document ∧
      newChangeSet ⟨0⟩ a s = (.ok c, s₁) ∧ newChangeSet ⟨0⟩ a' s = (.ok c', s₁') ∧
      c.contexts = some (.ofText "test") ∧ c'.contexts = some (.ofText "live") ∧
      c' = { c with contexts := c'.contexts } ∧ c.filePath = .text document.filePath ∧
      c.runInTransaction = true ∧ c.labels = none := by
  intro s a a'
  have known : s.store.documents.get? ⟨0⟩ = some _ := rfl
  have first : (newChangeSet ⟨0⟩ a s).1.toOption.map (·.contexts) =
      some (some (.ofText "test")) := by
    decide +kernel
  have second : (newChangeSet ⟨0⟩ a' s).1.toOption.map (·.contexts) =
      some (some (.ofText "live")) := by
    decide +kernel
  obtain ⟨c, s₁, makes, contexts⟩ := Step.eq_ok_of_map first
  obtain ⟨c', s₁', makes', contexts'⟩ := Step.eq_ok_of_map second
  obtain ⟨-, differ, unsaid⟩ := newChangeSet_independent known makes
  have keys : a.keys = ["id", "context", "runOrder"] := rfl
  have keys' : a'.keys = ["contextFilter", "runOrder", "id"] := rfl
  have absent : ∀ b : Attributes, ∀ name, name ∉ b.keys → b.has name = false :=
    fun b name missing =>
    (Bool.not_eq_true _).mp fun given => missing (Attributes.has_iff.1 given)
  have same : ∀ name, ofName? name ≠ some .contexts →
      a'.has name = a.has name ∧ a'.get name = a.get name := by
    intro name other
    by_cases shared : name ∈ ["id", "runOrder"]
    · have each : ∀ name ∈ ["id", "runOrder"],
          a'.has name = a.has name ∧ a'.get name = a.get name := by
        simp only [List.forall_mem_cons]
        exact ⟨⟨rfl, rfl⟩, ⟨rfl, rfl⟩, nofun⟩
      exact each name shared
    · have missing : name ∉ a.keys ∧ name ∉ a'.keys := by
        have ne : name ≠ "context" ∧ name ≠ "contextFilter" :=
          ⟨fun is => other (is ▸ rfl), fun is => other (is ▸ rfl)⟩
        rw [keys, keys']
        simp only [List.mem_cons, List.not_mem_nil, or_false, not_or] at shared ⊢
        exact ⟨⟨shared.1, ne.1, shared.2⟩, ne.2, shared.2, shared.1⟩
      rw [absent a name missing.1, absent a' name missing.2, Attributes.get_of_not_mem missing.1,
        Attributes.get_of_not_mem missing.2]
      exact ⟨rfl, rfl⟩
  have unnamed : ∀ x ∈ [path, runInTransaction, Aspect.labels], ∀ name, ofName? name = some x →
      a.has name = false := by
    have others : ∀ x ∈ [path, runInTransaction, Aspect.labels], ∀ name ∈ a.keys,
        ofName? name ≠ some x := by
      decide
    exact fun x mem name about => absent a name fun given => others x mem name given about
  exact ⟨_, c, c', s₁, s₁', known, makes, makes', contexts, contexts',
    differ a' c' s₁' .contexts makes' same, unsaid .path (unnamed _ (by decide)),
    unsaid .runInTransaction (unnamed _ (by decide)), unsaid .labels (unnamed _ (by decide))⟩

end SessionM
end Migration
