import Migration.Proofs.Failure.Blocks
import Migration.Proofs.Inclusion.Repetition
import Migration.Proofs.Record

/-!
# A directory of statements is change sets written out

An element for a directory of files of statements makes the change set for each file at once.
Written out, each is a block for a change set with a single element in it, and the block is run as
any other: the change set is put down, the block opened, the change added to it, and the block left.
Both come to the same, also where a file fails.

* `statementsBlocks` — the blocks that stand for a directory of files of statements
* `SessionM.fill_sqlFileAttributes` — the change for a file, filled in either way
* `ScriptM.Imitates` — steps of a script do what steps of its session do
* `ScriptM.OpensChangeSet` — the block of a new change set has been opened
* `ScriptM.runNode_statementsBlock` — the block for one file does what is done for it at once
* `includeAllSql_eq_changeSets` — a directory of statements is the change sets for its files
-/

namespace Migration

open SessionM

/-! ## What is written out -/

/-- The attributes of the change set for one file. -/
def statementsAttributes (a : Attributes) (id : String) : Attributes :=
  ("id", .text id) :: a.only sqlChangeSetAttributes

/-- The attributes of the change that runs one file. -/
def sqlFileAttributes (a : Attributes) (path : String) : Attributes :=
  ("path", .text path) :: ("relativeToChangelogFile", .bool false) :: a.only sqlStepAttributes

/-- The block for the change set that runs one file. -/
def statementsBlock (a : Attributes) (id path : String) : Script.Node :=
  .block (.giving "changeSet" (statementsAttributes a id))
    [.call (.giving "sqlFile" (sqlFileAttributes a path))]

/-- The blocks for the change sets that run files, in order. -/
def statementsBlocks (a : Attributes) (id : String → String) (paths : List String) :
    List Script.Node :=
  paths.map fun path => statementsBlock a (id path) path

theorem isSpelled_statementsAttributes {a : Attributes} (nodup : a.keys.Nodup) (id : String) :
    (statementsAttributes a id).IsSpelled :=
  (Attributes.IsSpelled.only nodup (by decide +kernel)).cons
    (Attributes.not_mem_keys_only (by decide)) (by decide +kernel) _

theorem isSpelled_sqlFileAttributes {a : Attributes} (nodup : a.keys.Nodup) (path : String) :
    (sqlFileAttributes a path).IsSpelled := by
  have relative : Attributes.IsSpelled
      (("relativeToChangelogFile", .bool false) :: a.only sqlStepAttributes) :=
    (Attributes.IsSpelled.only nodup (by decide +kernel)).cons
      (Attributes.not_mem_keys_only (by decide)) (by decide +kernel) _
  refine relative.cons ?_ (by decide +kernel) _
  exact List.not_mem_cons_of_ne_of_not_mem (show "path" ≠ "relativeToChangelogFile" by decide)
    (Attributes.not_mem_keys_only (by decide))

theorem receiver_not_mem_statementsAttributes (a : Attributes) (id : String) :
    ScriptM.receiver ∉ (statementsAttributes a id).keys :=
  List.not_mem_cons_of_ne_of_not_mem (show _ ≠ "id" by decide)
    (Attributes.not_mem_keys_only (by decide))

theorem receiver_not_mem_sqlFileAttributes (a : Attributes) (path : String) :
    ScriptM.receiver ∉ (sqlFileAttributes a path).keys :=
  List.not_mem_cons_of_ne_of_not_mem (show _ ≠ "path" by decide)
    (List.not_mem_cons_of_ne_of_not_mem (show _ ≠ "relativeToChangelogFile" by decide)
      (Attributes.not_mem_keys_only (by decide)))

/-- The database is the one attribute that goes both to the change sets and to the changes. -/
theorem mem_keys_both_iff {a : Attributes} {name : String} :
    name ∈ (a.only sqlChangeSetAttributes).keys ∧ name ∈ (a.only sqlStepAttributes).keys ↔
      name ∈ a.keys ∧ name = "dbms" := by
  have shared : ∀ name ∈ sqlStepAttributes, name ∈ sqlChangeSetAttributes → name = "dbms" := by
    decide
  rw [Attributes.mem_keys_only, Attributes.mem_keys_only]
  constructor
  · rintro ⟨⟨given, changeSet⟩, -, step⟩
    exact ⟨given, shared name step changeSet⟩
  · rintro ⟨given, rfl⟩
    exact ⟨⟨given, by decide⟩, given, by decide⟩

/-- What says which files are taken and what the change sets are called goes to neither. -/
theorem not_mem_keys_of_own {a : Attributes} {name : String}
    (own : name ∈ discoveryAttributes ++ "relativeToChangeLogFile" :: sqlIdAttributes) :
    name ∉ (a.only sqlChangeSetAttributes).keys ∧ name ∉ (a.only sqlStepAttributes).keys := by
  have apart : ∀ name ∈ discoveryAttributes ++ "relativeToChangeLogFile" :: sqlIdAttributes,
      name ∉ sqlChangeSetAttributes ∧ name ∉ sqlStepAttributes := by
    decide
  exact ⟨fun mem => (apart name own).1 (Attributes.mem_keys_only.1 mem).2,
    fun mem => (apart name own).2 (Attributes.mem_keys_only.1 mem).2⟩

/-! ## The change for one file -/

/-- A record of a file of statements with the file, which is not looked for next to the script. -/
def Record.forFile (r : Record) (path : String) : Record :=
  (r.set "path" (.text path)).set "relative_to_changelog_file" (.bool false)

theorem Record.forFile_eq {r : Record} (type : r.type = Catalog.sqlFile) (path : String) :
    r.forFile path = (r.put "path" (.text path)).put "relative_to_changelog_file"
      (.bool false) := by
  have alone : r.type.consequences = [] := by
    rw [type]
    rfl
  have alone' : (r.put "path" (.text path)).type.consequences = [] := alone
  unfold forFile
  rw [set_eq_put alone, set_eq_put alone']

/-- An attribute of the change sets a field other than those that name the file, and is never
refused. -/
theorem exists_field_of_step : ∀ name ∈ sqlStepAttributes, ∃ f type,
    Catalog.sqlFile.field? name = some f ∧ f.type = some type ∧ (type = .text ∨ type = .truth) ∧
      f.name ≠ "path" ∧ f.name ≠ "relative_to_changelog_file" := by
  have all : ∀ name ∈ sqlStepAttributes, (Catalog.sqlFile.field? name).any (fun f =>
      (f.type == some .text || f.type == some .truth) && f.name != "path" &&
        f.name != "relative_to_changelog_file") = true := by
    decide +kernel
  intro name mem
  obtain ⟨f, field, fits⟩ := (Option.any_eq_true _ _).1 (all name mem)
  simp only [Bool.and_eq_true, Bool.or_eq_true, beq_iff_eq, bne_iff_ne] at fits
  obtain ⟨⟨text | truth, path⟩, relative⟩ := fits
  · exact ⟨f, .text, field, text, .inl rfl, path, relative⟩
  · exact ⟨f, .truth, field, truth, .inr rfl, path, relative⟩

/-- It does not matter whether such an attribute is set before the file or after it. -/
theorem Record.bind_forFile {name : String} (step : name ∈ sqlStepAttributes) (path : String)
    (r : Record) (v : Value) (type : r.type = Catalog.sqlFile) :
    ∃ r', r'.type = Catalog.sqlFile ∧ r.bind name v = .ok r' ∧
      (r.forFile path).bind name v = .ok (r'.forFile path) := by
  obtain ⟨f, t, field, writable, fits, notPath, notRelative⟩ := exists_field_of_step name step
  obtain ⟨w, converts⟩ := FieldType.coerce_ok fits v
  have alone : Catalog.sqlFile.consequences = [] := rfl
  have binds : ∀ r : Record, r.type = Catalog.sqlFile → r.bind name v = .ok (r.put f.name w) := by
    intro r type
    rw [← type] at field alone
    rw [bind_of_field? field writable converts, set_eq_put alone]
  have type' : (r.put f.name w).type = Catalog.sqlFile := type
  have placed : (r.forFile path).type = Catalog.sqlFile := by
    rw [forFile_eq type]
    exact type
  refine ⟨r.put f.name w, type', binds r type, ?_⟩
  rw [binds _ placed, forFile_eq type, forFile_eq type', put_comm notRelative.symm,
    put_comm notPath.symm]

namespace SessionM

variable {d : DocumentId} {a : Attributes} {s s' : Session} {path : String}

/-- Written out, the change for a file is filled as it is at once; only the file is set first. -/
theorem fill_sqlFileAttributes (plain : Text.IsPlain path) (same : s'.table = s.table)
    (owner owner' : String) (target target' : Target) :
    (fill d owner' target' (.fresh Catalog.sqlFile) (sqlFileAttributes a path) s').1 =
      (fill d owner target (.fresh Catalog.sqlFile) (a.only sqlStepAttributes) s).1.map
        (·.forFile path) := by
  have named : (Record.fresh Catalog.sqlFile).bind "path" (.text path) =
      .ok ((Record.fresh Catalog.sqlFile).set "path" (.text path)) := rfl
  have placed : ((Record.fresh Catalog.sqlFile).set "path" (.text path)).bind
      "relativeToChangelogFile" (.bool false) =
        .ok ((Record.fresh Catalog.sqlFile).forFile path) := rfl
  have first := expand_of_isPlain (Value.isPlain_text.2 plain) d s'
  have second : expand d (.bool false) s' = (.ok (.bool false), s') := rfl
  unfold sqlFileAttributes
  rw [fill_cons first named, fill_cons second placed]
  have fresh : (Record.fresh Catalog.sqlFile).type = Catalog.sqlFile := rfl
  refine fill_map (f := (·.forFile path)) (P := fun r => r.type = Catalog.sqlFile) same
    (fun entry mem r v type => ?_) fresh
  have step : entry.1 ∈ sqlStepAttributes := List.contains_iff_mem.1 (List.mem_filter.1 mem).2
  exact Record.bind_forFile step path r v type

end SessionM

/-! ## The change set for one file -/

/-- A thing that is changed right after it was put in is put in changed. -/
theorem Pool.modify_add {entity : Entity} {α : Type} (p : Pool entity α) (x : α) (f : α → α) :
    (p.add x).modify p.next f = p.add (f x) := by
  refine congrArg Pool.mk (Array.ext_getElem? fun j => ?_)
  show ((p.items.push x).modify p.items.size f)[j]? = (p.items.push (f x))[j]?
  rw [Array.getElem?_modify, Array.getElem?_push, Array.getElem?_push]
  by_cases last : j = p.items.size
  · simp [last]
  · simp [last, Ne.symm last]

namespace Session

/-- The session in which a change set has been put down that no document has. -/
def withChangeSet (s : Session) (cs : DraftChangeSet) : Session :=
  { s with store := { s.store with changeSets := s.store.changeSets.add cs } }

/-- The session in which a change set ends with a new change that reads files. -/
def withChange (s : Session) (i : ChangeSetId) (record : Record) : Session :=
  { s with store := { s.store with
    changes := s.store.changes.add { record, hasResources := true }
    changeSets := s.store.changeSets.modify i fun cs =>
      { cs with changes := cs.changes ++ [s.store.changes.next] } } }

/-- The session in which a document ends with a new change set that has one change more. -/
def withStatements (s : Session) (d : DocumentId) (cs : DraftChangeSet) (record : Record) :
    Session :=
  { s with store := { s.store with
    changes := s.store.changes.add { record, hasResources := true }
    changeSets := s.store.changeSets.add
      { cs with changes := cs.changes ++ [s.store.changes.next] }
    documents := s.store.documents.modify d fun doc =>
      { doc with changeSets := doc.changeSets ++ [s.store.changeSets.next] } } }

end Session

namespace SessionM

variable {d : DocumentId} {a : Attributes} {s : Session} {id path : String} {cs : DraftChangeSet}
  {record : Record} {failure : Failure}

/-- The change of a file, as it is filled at once. -/
def fillStatements (d : DocumentId) (a : Attributes) (id : String) : SessionM Record :=
  fill d (changeSetOwner (.text id)) (.change "sqlFile") (.fresh Catalog.sqlFile)
    (a.only sqlStepAttributes)

theorem keeps_fillStatements (d : DocumentId) (a : Attributes) (id : String) :
    Keeps (· = ·) (fillStatements d a id) :=
  keeps_fill _ _ _ _ _

theorem includeStatements_of_newChangeSet_error
    (fails : newChangeSet d (statementsAttributes a id) s = (.error failure, s)) :
    includeStatements d a id path s = (.error failure, s) := by
  have fails : newStatements d a id path s = (.error failure, s) := Step.run_bind_of_error fails _
  exact Step.run_bind_of_error fails _

theorem includeStatements_of_fill_error
    (makes : newChangeSet d (statementsAttributes a id) s = (.ok cs, s))
    (fails : fillStatements d a id s = (.error failure, s)) :
    includeStatements d a id path s = (.error failure, s) := by
  have fails : newStatements d a id path s = (.error failure, s) :=
    (Step.run_bind_of_ok makes _).trans (Step.run_bind_of_error fails _)
  exact Step.run_bind_of_error fails _

theorem includeStatements_of_ok
    (makes : newChangeSet d (statementsAttributes a id) s = (.ok cs, s))
    (fills : fillStatements d a id s = (.ok record, s)) :
    includeStatements d a id path s = (.ok (), s.withStatements d cs (record.forFile path)) := by
  let store : Store := { s.store with
    changes := s.store.changes.add { record := record.forFile path, hasResources := true }
    changeSets := s.store.changeSets.add { cs with changes := cs.changes ++ [s.store.changes.next] } }
  have puts : newStatements d a id path s = (.ok s.store.changeSets.next, { s with store }) :=
    (Step.run_bind_of_ok makes _).trans (Step.run_bind_of_ok fills _)
  unfold includeStatements
  rw [Step.run_bind_of_ok puts]
  rfl

/-- A file becomes the last change set of a document, or nothing is done. -/
theorem includeStatements_cases (d : DocumentId) (a : Attributes) (id path : String) (s : Session) :
    (∃ failure, includeStatements d a id path s = (.error failure, s)) ∨
      ∃ cs record, newChangeSet d (statementsAttributes a id) s = (.ok cs, s) ∧
        includeStatements d a id path s = (.ok (), s.withStatements d cs record) := by
  obtain ⟨failure, fails⟩ | ⟨cs, makes⟩ :=
    (keeps_newChangeSet d (statementsAttributes a id)).run_cases s
  · exact .inl ⟨failure, includeStatements_of_newChangeSet_error fails⟩
  obtain ⟨failure, fails⟩ | ⟨record, fills⟩ := (keeps_fillStatements d a id).run_cases s
  · exact .inl ⟨failure, includeStatements_of_fill_error makes fails⟩
  · exact .inr ⟨cs, record.forFile path, makes, includeStatements_of_ok makes fills⟩

/-- A change that reads files is filled and added to its change set. -/
theorem newChange_of_fill {owner name : String} {type : RecordType} {i : ChangeSetId}
    (reads : type.readsResources = true)
    (fills : fill d owner (.change name) (.fresh type) a s = (.ok record, s)) :
    newChange d owner name type i false [] a s =
      (.ok (.handle (.body (.change owner name s.store.changes.next))), s.withChange i record) := by
  have makes : newRecord d owner name (.change name) type [] a s = (.ok record, s) := fills
  unfold newChange
  rw [Step.run_bind_of_ok makes, reads]
  rfl

theorem newChange_of_fill_error {owner name : String} {type : RecordType} {i : ChangeSetId}
    (fails : fill d owner (.change name) (.fresh type) a s = (.error failure, s)) :
    newChange d owner name type i false [] a s = (.error failure, s) := by
  have fails : newRecord d owner name (.change name) type [] a s = (.error failure, s) := fails
  exact Step.run_bind_of_error fails _

/-- A new change set that has gained its change and is put into the document. -/
theorem complete_withChange (d : DocumentId) (cs : DraftChangeSet) (record : Record) (s : Session) :
    (ScriptM.complete d (.appendChangeSet s.store.changeSets.next)
      ((s.withChangeSet cs).withChange s.store.changeSets.next record)).2 =
        s.withStatements d cs record := by
  have gains := Pool.modify_add s.store.changeSets cs fun cs =>
    { cs with changes := cs.changes ++ [s.store.changes.next] }
  unfold Session.withStatements
  rw [← gains]
  rfl

end SessionM

/-! ## Steps that do what the session does -/

/-- A script is where it was: in the same blocks, with the same names for results. -/
structure Frame.Resumes (f f' : Frame) : Prop where
  document : f'.document = f.document
  stack : f'.stack = f.stack
  kept : f'.kept = f.kept

theorem Frame.Resumes.trans {f f' f'' : Frame} (h : f.Resumes f') (h' : f'.Resumes f'') :
    f.Resumes f'' where
  document := h'.document.trans h.document
  stack := h'.stack.trans h.stack
  kept := h'.kept.trans h.kept

/-- A session in which there may be one change set more. -/
def Session.MayAbandon (s s' : Session) : Prop := s' = s ∨ ∃ cs, s' = s.withChangeSet cs

namespace ScriptM

/-- Steps of a script do what steps of its session do. If they fail they may have put down a change
set before. -/
structure Imitates (steps : ScriptM Unit) (m : SessionM Unit) (r : Running) : Prop where
  result : (steps r).1 = (m r.session).1
  done : (m r.session).1 = .ok () → (steps r).2.session = (m r.session).2
  session : (m r.session).2.MayAbandon (steps r).2.session
  frame : r.frame.Resumes (steps r).2.frame

namespace Imitates

variable {steps steps' : ScriptM Unit} {m m' : SessionM Unit} {r : Running} {s : Session} {f : Frame}
  {failure : Failure}

theorem of_ok (runs : steps r = (.ok (), ⟨s, f⟩)) (does : m r.session = (.ok (), s))
    (resumes : r.frame.Resumes f) : Imitates steps m r := by
  constructor
  · rw [runs, does]
  · rw [runs, does]
    exact fun _ => rfl
  · rw [runs, does]
    exact .inl rfl
  · rw [runs]
    exact resumes

theorem of_error {s' : Session} (runs : steps r = (.error failure, ⟨s', f⟩))
    (does : m r.session = (.error failure, s)) (abandons : s.MayAbandon s')
    (resumes : r.frame.Resumes f) : Imitates steps m r := by
  constructor
  · rw [runs, does]
  · rw [does]
    exact nofun
  · rw [runs, does]
    exact abandons
  · rw [runs]
    exact resumes

/-- Steps in a row do what steps of the session in a row do. -/
theorem bind (h : Imitates steps m r)
    (h' : (steps r).1 = .ok () → Imitates steps' m' (steps r).2) :
    Imitates (steps >>= fun _ => steps') (m >>= fun _ => m') r := by
  obtain ⟨result, done, session, frame⟩ := h
  rcases runs : steps r with ⟨failure | _, r₁⟩
  all_goals
    rcases does : m r.session with ⟨failure' | _, s₁⟩
    all_goals
      rw [runs] at h' result done session frame
      rw [does] at result done session
      cases result
  · exact .of_error (Step.run_bind_of_error runs _) (Step.run_bind_of_error does _) session frame
  · obtain rfl : r₁.session = s₁ := done rfl
    obtain ⟨result', done', session', frame'⟩ := h' rfl
    constructor
    · rw [Step.run_bind_of_ok runs, Step.run_bind_of_ok does]
      exact result'
    · rw [Step.run_bind_of_ok runs, Step.run_bind_of_ok does]
      exact done'
    · rw [Step.run_bind_of_ok runs, Step.run_bind_of_ok does]
      exact session'
    · rw [Step.run_bind_of_ok runs]
      exact frame.trans frame'

end Imitates

/-! ## The block for one file -/

variable {e : Engine} {compiler : Compiler} {a : Attributes} {c c' : Script.Call}
  {r r₁ r₂ : Running} {i : ScopeId} {path : String} {cs : DraftChangeSet} {record : Record}
  {failure : Failure}

/-- A call puts down a new change set, and its block is opened at once. -/
structure OpensChangeSet (e : Engine) (compiler : Compiler) (c : Script.Call) (cs : DraftChangeSet)
    (r : Running) (i : ScopeId) (r₁ r₂ : Running) : Prop where
  calls : call e compiler c r = (.ok (.scope i), r₁)
  enters : enter i r₁ = (.ok (), r₂)
  session : r₂.session = r.session.withChangeSet cs
  document : r₂.frame.document = r.frame.document
  kept : r₂.frame.kept = r.frame.kept
  stack : r₁.frame.stack = r.frame.stack
  body : ∃ owner, r₂.frame.innermostBody = .changeSet owner r.session.store.changeSets.next
  inside : i < r₂.frame.scopes.size
  completion : (r₂.frame.scopes[i]?.getD default).completion =
    .appendChangeSet r.session.store.changeSets.next

/-- An element for a change set does so if the change set can be made. -/
theorem exists_opensChangeSet (compiler : Compiler)
    (prepares : prepare e c r = (.ok { element := .changeSet, positional := [], attributes := a }, r))
    (makes : newChangeSet r.frame.document a r.session = (.ok cs, r.session)) :
    ∃ i r₁ r₂, OpensChangeSet e compiler c cs r i r₁ r₂ := by
  obtain ⟨s, f⟩ := r
  let body : Body := .changeSet (changeSetOwner (Value.ofText? cs.id)) s.store.changeSets.next
  let y : Scope := {
    opening := .body body, required := some "changeSet"
    completion := .appendChangeSet s.store.changeSets.next }
  let f₁ : Frame := { f with scopes := f.scopes.push y, pending := f.pending ++ [f.scopes.size] }
  let f₂ : Frame := opened f.scopes.size body { f₁ with pending := f₁.pending.erase f.scopes.size }
  have acts : SessionM.act e compiler f.document .changeSet [] a s =
      (.ok (.scope y), s.withChangeSet cs) := Step.run_bind_of_ok makes _
  have placed : (f.scopes.push y)[f.scopes.size]? = some y := Array.getElem?_push_size
  refine ⟨f.scopes.size, ⟨s.withChangeSet cs, f₁⟩, ⟨s.withChangeSet cs, f₂⟩, ?_⟩
  constructor
  case calls => exact call_eq prepares acts
  case enters =>
    have opening : (f₁.scopes[f.scopes.size]?.getD default).opening = .body body := by
      show ((f.scopes.push y)[f.scopes.size]?.getD default).opening = _
      rw [placed]
      rfl
    rw [enter_eq]
    dsimp only
    rw [opening]
    rfl
  case body => exact ⟨_, rfl⟩
  case inside =>
    show f.scopes.size < ((f.scopes.push y).modify _ _).size
    rw [Array.size_modify, Array.size_push]
    exact Nat.lt_succ_self _
  case completion =>
    show (((f.scopes.push y).modify f.scopes.size _)[f.scopes.size]?.getD default).completion = _
    rw [Array.getElem?_modify, if_pos rfl, placed]
    rfl
  all_goals rfl

namespace OpensChangeSet

/-- If the only element of the block fails, the change set is left behind. -/
theorem runNode_error (h : OpensChangeSet e compiler c cs r i r₁ r₂)
    (fails : call e compiler c' r₂ = (.error failure, r₂))
    (bound : ∀ name, failure ≠ .unbound name) :
    runNode e compiler (.block c [.call c']) r = (.error failure, {
      session := r.session.withChangeSet cs
      frame := { r₂.frame with stack := r.frame.stack } }) := by
  have own := (scope_of_call h.calls).2
  rw [runNode_block h.calls, within_call_error own h.enters fails bound, h.session, h.stack]

/-- If the only element of the block adds a change, the change set comes into the document with
it. -/
theorem runNode_ok (h : OpensChangeSet e compiler c cs r i r₁ r₂) {outcome : Outcome} {y : Scope}
    (adds : call e compiler c' r₂ = (.ok outcome, {
      session := r₂.session.withChange r.session.store.changeSets.next record
      frame := { r₂.frame with scopes := r₂.frame.scopes.push y } })) :
    runNode e compiler (.block c [.call c']) r = (.ok (), {
      session := r.session.withStatements r.frame.document cs record
      frame := { r₂.frame with scopes := r₂.frame.scopes.push y, stack := r.frame.stack } }) := by
  have own := (scope_of_call h.calls).2
  have still : ((r₂.frame.scopes.push y)[i]?.getD default).completion =
      .appendChangeSet r.session.store.changeSets.next := by
    rw [Array.getElem?_push_lt h.inside, ← Array.getElem?_eq_getElem h.inside]
    exact h.completion
  rw [runNode_block h.calls, within_call_ok own h.enters adds]
  dsimp only
  rw [still, h.document, h.session, h.stack, complete_withChange]

end OpensChangeSet

section

variable {owner : String} {j : ChangeSetId} (compiler : Compiler)
  (registered : e.changes.get? "sqlFile" = some Catalog.sqlFile) (nodup : a.keys.Nodup)

include registered nodup

/-- The element for a file is one of a change set. -/
theorem prepare_sqlFile (body : r.frame.innermostBody = .changeSet owner j)
    (free : r.frame.kept.lookup "sqlFile" = none) (path : String) :
    prepare e (.giving "sqlFile" (sqlFileAttributes a path)) r =
      (.ok { element := .change owner "sqlFile" Catalog.sqlFile j false, positional := [],
             attributes := sqlFileAttributes a path }, r) := by
  refine prepare_giving (isSpelled_sqlFileAttributes nodup path)
    (receiver_not_mem_sqlFileAttributes a path) free (by decide) ?_ ?_ rfl
  · simp [Vocabulary.contains, Registry.contains, registered]
  · rw [body]
    show (e.changes.get? "sqlFile").map _ = _
    rw [registered]
    rfl

theorem call_sqlFile_ok (body : r.frame.innermostBody = .changeSet owner j)
    (free : r.frame.kept.lookup "sqlFile" = none)
    (fills : fill r.frame.document owner (.change "sqlFile") (.fresh Catalog.sqlFile)
      (sqlFileAttributes a path) r.session = (.ok record, r.session)) :
    ∃ y, call e compiler (.giving "sqlFile" (sqlFileAttributes a path)) r =
      (.ok (.scope r.frame.scopes.size), {
        session := r.session.withChange j record
        frame := { r.frame with scopes := r.frame.scopes.push y } }) :=
  ⟨_, call_eq (prepare_sqlFile registered nodup body free path) (newChange_of_fill rfl fills)⟩

theorem call_sqlFile_error (body : r.frame.innermostBody = .changeSet owner j)
    (free : r.frame.kept.lookup "sqlFile" = none)
    (fails : fill r.frame.document owner (.change "sqlFile") (.fresh Catalog.sqlFile)
      (sqlFileAttributes a path) r.session = (.error failure, r.session)) :
    call e compiler (.giving "sqlFile" (sqlFileAttributes a path)) r = (.error failure, r) :=
  call_eq (prepare_sqlFile registered nodup body free path) (newChange_of_fill_error fails)

/-- The block for one file does what is done for it at once. -/
theorem runNode_statementsBlock (changeLog : r.frame.innermostBody = .changeLog)
    (free : r.frame.kept.lookup "changeSet" = none) (free' : r.frame.kept.lookup "sqlFile" = none)
    (plain : Text.IsPlain path) (id : String) :
    Imitates (runNode e compiler (statementsBlock a id path))
      (includeStatements r.frame.document a id path) r := by
  have prepares : prepare e (.giving "changeSet" (statementsAttributes a id)) r =
      (.ok { element := .changeSet, positional := [], attributes := statementsAttributes a id }, r) :=
    prepare_giving (isSpelled_statementsAttributes nodup id)
      (receiver_not_mem_statementsAttributes a id)
      free (by decide) rfl (by rw [changeLog]; rfl) rfl
  obtain ⟨failure, makes⟩ | ⟨cs, makes⟩ :=
    (keeps_newChangeSet r.frame.document (statementsAttributes a id)).run_cases r.session
  · -- the change set cannot be made, and nothing is put down
    have acts : SessionM.act e compiler r.frame.document .changeSet [] (statementsAttributes a id)
        r.session = (.error failure, r.session) := Step.run_bind_of_error makes _
    have fails : call e compiler (.giving "changeSet" (statementsAttributes a id)) r =
        (.error failure, r) := call_eq prepares acts
    have runs : runNode e compiler (statementsBlock a id path) r = (.error failure, r) := by
      rw [statementsBlock, runNode, Step.run_bind_of_error fails]
    exact .of_error runs (includeStatements_of_newChangeSet_error makes) (.inl rfl) ⟨rfl, rfl, rfl⟩
  -- the block has put its change set down before the change is made, so the two may differ by it
  obtain ⟨i, r₁, r₂, opens⟩ := exists_opensChangeSet compiler prepares makes
  obtain ⟨owner, body⟩ := opens.body
  have free₂ : r₂.frame.kept.lookup "sqlFile" = none := by
    rw [opens.kept]
    exact free'
  have table : r₂.session.table = r.session.table := by
    rw [opens.session]
    rfl
  have filled : fill r₂.frame.document owner (.change "sqlFile") (.fresh Catalog.sqlFile)
      (sqlFileAttributes a path) r₂.session =
        ((fillStatements r.frame.document a id r.session).1.map (·.forFile path), r₂.session) := by
    rw [opens.document]
    exact Prod.ext (fill_sqlFileAttributes plain table _ _ _ _)
      ((keeps_fill (R := (· = ·)) _ _ _ _ _) r₂.session).symm
  obtain ⟨failure, fills⟩ | ⟨record, fills⟩ :=
    (keeps_fillStatements r.frame.document a id).run_cases r.session <;> rw [fills] at filled
  · have fails := call_sqlFile_error compiler registered nodup body free₂ filled
    have runs := opens.runNode_error fails (bound_of_fill_error fills)
    exact .of_error runs (includeStatements_of_fill_error makes fills) (.inr ⟨cs, rfl⟩)
      ⟨opens.document, rfl, opens.kept⟩
  · obtain ⟨y, adds⟩ := call_sqlFile_ok compiler registered nodup body free₂ filled
    have runs := opens.runNode_ok adds
    exact .of_ok runs (includeStatements_of_ok makes fills) ⟨opens.document, rfl, opens.kept⟩

/-- The blocks for files, in order, do what is done for the files at once. -/
theorem runNodes_statementsBlocks (changeLog : r.frame.innermostBody = .changeLog)
    (free : r.frame.kept.lookup "changeSet" = none) (free' : r.frame.kept.lookup "sqlFile" = none)
    (id : String → String) {paths : List String} (plain : ∀ path ∈ paths, Text.IsPlain path) :
    Imitates (runNodes e compiler (statementsBlocks a id paths))
      (includeStatementFiles r.frame.document a id paths) r := by
  induction paths generalizing r with
  | nil => exact .of_ok rfl rfl ⟨rfl, rfl, rfl⟩
  | cons path rest ih =>
    have first := runNode_statementsBlock compiler registered nodup changeLog free free'
      (plain path List.mem_cons_self) (id path)
    refine first.bind fun _ => ?_
    obtain ⟨document, stack, kept⟩ := first.frame
    rw [← document]
    refine ih ?_ ?_ ?_ fun path mem => plain path (List.mem_cons_of_mem _ mem)
    · unfold Frame.innermostBody
      rw [stack]
      exact changeLog
    · rw [kept]
      exact free
    · rw [kept]
      exact free'

end

end ScriptM

/-! ## What is left behind -/

namespace Store

variable {s : Store} {d : DocumentId}

/-- Every change set of a document is there. -/
def KnowsChangeSets (s : Store) (d : DocumentId) : Prop :=
  ∀ doc, s.documents.get? d = some doc → ∀ i ∈ doc.changeSets, s.Has i

variable {p : Pool .changeSet DraftChangeSet}

theorem precondition?_of_changeSets : { s with changeSets := p }.precondition? =
    s.precondition? := by
  have trees : ∀ depth,
      { s with changeSets := p }.preconditionTree depth = s.preconditionTree depth := by
    intro depth
    induction depth with
    | zero => rfl
    | succ depth ih =>
      funext i
      rw [preconditionTree, preconditionTree, ih]
  funext i
  exact congrFun (trees _) i

theorem completeChangeSet_of_changeSets (x : DraftChangeSet) :
    { s with changeSets := p }.completeChangeSet x = s.completeChangeSet x := by
  unfold completeChangeSet
  rw [precondition?_of_changeSets]
  rfl

/-- More change sets do not show in a document that does not have them. -/
theorem complete_of_changeSets (known : s.KnowsChangeSets d)
    (same : ∀ i : ChangeSetId, s.Has i → p.get? i = s.changeSets.get? i) :
    { s with changeSets := p }.complete d = s.complete d := by
  unfold complete
  dsimp only
  cases hd : s.documents.get? d with
  | none => rfl
  | some doc =>
    have parts : doc.changeSets.filterMap { s with changeSets := p }.changeSet? =
        doc.changeSets.filterMap s.changeSet? := by
      refine List.filterMap_congr fun i mem => ?_
      unfold changeSet?
      dsimp only
      rw [same i (known doc hd i mem), funext completeChangeSet_of_changeSets]
    show some _ = some _
    rw [parts, precondition?_of_changeSets]

end Store

namespace Session.MayAbandon

variable {s s' : Session}

theorem documents (h : s.MayAbandon s') : s'.store.documents = s.store.documents := by
  obtain rfl | ⟨cs, rfl⟩ := h <;> rfl

theorem table (h : s.MayAbandon s') : s'.table = s.table := by
  obtain rfl | ⟨cs, rfl⟩ := h <;> rfl

theorem chain (h : s.MayAbandon s') : s'.chain = s.chain := by
  obtain rfl | ⟨cs, rfl⟩ := h <;> rfl

/-- A change set that has been abandoned shows in no document. -/
theorem complete (h : s.MayAbandon s') {d : DocumentId} (known : s.store.KnowsChangeSets d) :
    s'.store.complete d = s.store.complete d := by
  obtain rfl | ⟨cs, rfl⟩ := h
  · rfl
  · refine Store.complete_of_changeSets known fun i old => ?_
    have other : i ≠ s.store.changeSets.next := by
      rintro rfl
      exact s.store.not_has_next .changeSet old
    rw [Pool.get?_add, if_neg other]

end Session.MayAbandon

namespace SessionM

variable {d d' : DocumentId} {a : Attributes} {s : Session}

/-- Adding the change set for a file, or failing to, leaves no document without its change sets. -/
theorem knows_includeStatements (known : s.store.KnowsChangeSets d') (id path : String) :
    (includeStatements d a id path s).2.store.KnowsChangeSets d' := by
  obtain ⟨failure, fails⟩ | ⟨cs, record, -, done⟩ := includeStatements_cases d a id path s
  · rw [fails]
    exact known
  rw [done]
  intro doc hd i mem
  show i.index < (s.store.changeSets.add _).size
  rw [Pool.size_add]
  replace hd : (s.store.documents.modify d _).get? d' = some doc := hd
  rw [Pool.get?_modify] at hd
  split at hd
  · obtain ⟨before, hb, rfl⟩ := Option.map_eq_some_iff.1 hd
    rcases List.mem_append.1 mem with old | new
    · exact Nat.lt_succ_of_lt (known before hb i old)
    · obtain rfl := List.mem_singleton.1 new
      exact Nat.lt_succ_self _
  · exact Nat.lt_succ_of_lt (known doc hd i mem)

theorem knows_includeStatementFiles (known : s.store.KnowsChangeSets d') (id : String → String)
    (paths : List String) :
    (includeStatementFiles d a id paths s).2.store.KnowsChangeSets d' := by
  induction paths generalizing s with
  | nil => exact known
  | cons path rest ih =>
    have first := knows_includeStatements (d := d) (a := a) known (id path) path
    rw [includeStatementFiles, Step.run_bind]
    rcases runs : includeStatements d a (id path) path s with ⟨failure | _, s₁⟩ <;> rw [runs] at first
    · exact first
    · exact ih first

end SessionM

/-! ## The element -/

open ScriptM

variable {e : Engine}

/-- A directory of files of statements, in any state of a script that has not given the names of
change sets and of files of statements another meaning: once the files have been discovered, and if
there is nothing to expand in their paths, the element does the same as a block for a change set for
each file, in order, with the change for the file in it. It ends in the same way with the same
documents, parameters and chain, the session is the same altogether if there is a file and none
fails, and the script goes on where it was. If a file fails, its block may have put down its change
set before, but no document has it.

The attribute for the databases goes both to the change sets and to the changes, no other one goes
to both, and those that say which files are taken and what the change sets are called go to
neither. -/
theorem includeAllSql_eq_changeSets (compiler : Compiler) {c : Script.Call} {x : Application}
    {r : Running} {paths : List String} {s : Session} {start ending : String}
    (prepares : prepare e c r = (.ok x, r)) (element : x.element = .includeAllSql)
    (registered : e.changes.get? "sqlFile" = some Catalog.sqlFile)
    (valid : x.attributes.validate documentOwner "includeAllSql" includeAllSqlAttributes = .ok ())
    (discovers : discover e r.frame.document (x.attributes.only discoveryAttributes) "includeAllSql"
      r.session = (.ok paths, s))
    (starts : textOrEmpty r.frame.document (x.attributes.get "idPrefix") r.session =
      (.ok start, r.session))
    (ends : textOrEmpty r.frame.document (x.attributes.get "idSuffix") r.session =
      (.ok ending, r.session))
    (plain : ∀ path ∈ paths, Text.IsPlain path)
    (free : r.frame.kept.lookup "changeSet" = none)
    (free' : r.frame.kept.lookup "sqlFile" = none) :
    let id := (sqlChangeSetId · start ending (x.attributes.flag "idKeepsExtension" false))
    let whole := runNode e compiler (.call c) r
    let each := runNodes e compiler (statementsBlocks x.attributes id paths) r
    (whole.1 = each.1 ∧ whole.2.session.store.documents = each.2.session.store.documents ∧
      (∀ d, r.session.store.KnowsChangeSets d →
        whole.2.session.store.complete d = each.2.session.store.complete d) ∧
      whole.2.session.table = each.2.session.table ∧
      whole.2.session.chain = each.2.session.chain ∧
      (whole.1 = .ok () → paths ≠ [] → whole.2.session = each.2.session) ∧
      whole.2.frame = r.frame ∧ r.frame.Resumes each.2.frame) ∧
    (∀ name, name ∈ (x.attributes.only sqlChangeSetAttributes).keys ∧
      name ∈ (x.attributes.only sqlStepAttributes).keys ↔ name ∈ x.attributes.keys ∧
        name = "dbms") ∧
    ∀ name ∈ discoveryAttributes ++ "relativeToChangeLogFile" :: sqlIdAttributes,
      name ∉ (x.attributes.only sqlChangeSetAttributes).keys ∧
        name ∉ (x.attributes.only sqlStepAttributes).keys := by
  intro id whole each
  obtain ⟨-, ⟨warnings, rfl⟩, quiet⟩ := of_discover discovers
  have changeLog : r.frame.innermostBody = .changeLog :=
    Body.eq_changeLog_of_contributes (element?_of_prepare prepares) (by rw [element]; rfl)
  have imitates : Imitates (runNodes e compiler (statementsBlocks x.attributes id paths))
      (includeStatementFiles r.frame.document x.attributes id paths) r :=
    runNodes_statementsBlocks compiler registered (nodup_of_prepare prepares) changeLog free free' id
      plain
  have runs : whole = ((includeAllSql e r.frame.document x.attributes r.session).1,
      { r with session := (includeAllSql e r.frame.document x.attributes r.session).2 }) :=
    runNode_call prepares (by rw [element]; rfl)
  refine ⟨?_, fun name => mem_keys_both_iff, fun name own => not_mem_keys_of_own own⟩
  have checks :
      ofCheck (x.attributes.validate documentOwner "includeAllSql" includeAllSqlAttributes)
      r.session = (.ok (), r.session) := by
    rw [valid]
    rfl
  cases paths with
  | nil =>
    -- the texts around the names are not read, and the session differs by the warnings only
    have does : includeAllSql e r.frame.document x.attributes r.session =
        (.ok (), { r.session with warnings }) := by
      unfold includeAllSql readIncludeAllSql
      rw [Step.run_bind_of_ok (Step.bind_eq_ok.2 ⟨(), _, checks, Step.bind_eq_ok.2
        ⟨[], _, discovers, rfl⟩⟩)]
      rfl
    have whole_eq : whole = (.ok (), { r with session := { r.session with warnings } }) := by
      rw [runs, does]
    have each_eq : each = (.ok (), r) := rfl
    rw [whole_eq, each_eq]
    exact ⟨rfl, rfl, fun _ _ => rfl, rfl, rfl, fun _ some_ => absurd rfl some_, rfl, rfl, rfl, rfl⟩
  | cons path rest =>
    rw [quiet (List.cons_ne_nil path rest)] at discovers
    have does : includeAllSql e r.frame.document x.attributes r.session =
        includeStatementFiles r.frame.document x.attributes id (path :: rest) r.session := by
      unfold includeAllSql readIncludeAllSql
      rw [Step.run_bind_of_ok (Step.bind_eq_ok.2 ⟨(), _, checks, Step.bind_eq_ok.2
        ⟨path :: rest, _, discovers, Step.bind_eq_ok.2 ⟨start, _, starts, Step.bind_eq_ok.2
        ⟨ending, _, ends, rfl⟩⟩⟩⟩)]
    rw [does] at runs
    have abandons := imitates.session
    rw [runs]
    refine ⟨imitates.result.symm, abandons.documents.symm, fun d known => ?_, abandons.table.symm,
      abandons.chain.symm, fun ok _ => (imitates.done ok).symm, rfl, imitates.frame⟩
    exact (abandons.complete (knows_includeStatementFiles known id _)).symm

/-- Two files of statements. -/
def twoStatements : Engine :=
  { Engine.ofScripts [] with
    sources := { root := "/", entries := [
      (["1.sql"], .file (.bytes [])), (["2.sql"], .file (.bytes []))] } }

/-- The change sets for two files are called after them, and the databases are those of the change
sets and of the changes, either way. -/
theorem includeAllSql_eq_changeSets_two :
    let a : Attributes := [("path", .text "."), ("idPrefix", .text "v-"), ("dbms", .text "h2")]
    let whole := runNode twoStatements none (.call (.giving "includeAllSql" a)) openedBlock
    let each := runNodes twoStatements none
      (statementsBlocks a (sqlChangeSetId · "v-" "" false) ["1.sql", "2.sql"]) openedBlock
    whole.1 = .ok () ∧ whole.2.session = each.2.session ∧
      ((each.2.session.store.complete ⟨0⟩).map (·.changeSets.map fun cs =>
        (cs.id, cs.databases, cs.changes.map (·.record.get "dbms" |>.print)))) =
          some [(some "v-1", some ["h2"], ["h2"]), (some "v-2", some ["h2"], ["h2"])] := by
  intro a whole each
  let s : Session := openedBlock.session
  have prepares : prepare twoStatements (.giving "includeAllSql" a) openedBlock =
        (.ok { element := .includeAllSql, positional := [], attributes := a }, openedBlock) := rfl
  have discovers : discover twoStatements ⟨0⟩ (a.only discoveryAttributes) "includeAllSql" s =
      (.ok ["1.sql", "2.sql"], s) := by
    have sorted : ["1.sql", "2.sql"].Pairwise (Text.le · · = true) := by decide +kernel
    have unset : ∀ name ∈ discoveryAttributes, name ≠ "path" →
        (a.only discoveryAttributes).get name = .null := by
      intro name _ ne
      have keys : (a.only discoveryAttributes).keys = ["path"] := by decide
      exact Attributes.get_of_not_mem fun given => ne (List.mem_singleton.1 (keys ▸ given))
    exact discover_all
      (expandPath_of_isClean (by decide +kernel) (by decide) _ _ s) unset rfl
      (congrArg Except.ok (ordered_none sorted)) sorted (by decide) (by decide +kernel)
  have starts : textOrEmpty ⟨0⟩ (.text "v-") s = (.ok "v-", s) := by
    unfold textOrEmpty
    rw [Step.run_bind_of_ok (expand_of_isPlain (Value.isPlain_text.2 (by decide)) _ s)]
    rfl
  have ends : textOrEmpty ⟨0⟩ .null s = (.ok "", s) := rfl
  obtain ⟨⟨same, -, -, -, -, done, -⟩, -⟩ := includeAllSql_eq_changeSets none prepares rfl rfl rfl
    discovers starts ends (by decide) rfl rfl
  have succeeds : each.1.toBool = true := by decide +kernel
  have ok : each.1 = .ok () := by
    cases h : each.1 with
    | error failure =>
      rw [h] at succeeds
      cases succeeds
    | ok _ => rfl
  exact ⟨same.trans ok, done (same.trans ok) (by decide), by decide +kernel⟩

end Migration
