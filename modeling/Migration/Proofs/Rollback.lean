import Migration.Proofs.Call
import Migration.Proofs.Inclusion.Lineage
import Migration.Proofs.Ledger
import Migration.Proofs.Placeholder
import Migration.Proofs.Resource.Insertion

/-!
# Rollback by reference

A `rollback` that names a change set adds the changes of that change set to the rollback of the one
it stands in. The change set is looked for in the document of the script, and then in the ones that
include it; it has come into its document before, so it is never the one that is being built.

* `ChangeSet.HasName`, `Store.Chooses` — the change set that a name stands for
* `Store.find?_of_lineage` — it is the one that is found
* `SessionM.rollbackByReference_eq` — what a reference does
* `lineage_of_stands` — where a script looks for it, in any of its states
* `rollback_of_visits` — a reference in the block of a change set
-/

namespace Migration

/-! ## Change sets by name -/

/-- A change set has the identifier of a name, and the author and the path if they are given. -/
structure ChangeSet.HasName (path author id : Value) (c : DraftChangeSet) : Prop where
  id : (Value.ofText? c.id).equals id = true
  author : author = .null ∨ (Value.ofText? c.author).equals author = true
  path : path = .null ∨ c.filePath.equals path = true

theorem Value.isNull_iff {v : Value} : v.isNull = true ↔ v = .null := by
  cases v <;> simp [isNull]

namespace Store

variable {store : Store} {path author id : Value} {ids : List ChangeSetId} {i : ChangeSetId}
  {c : DraftChangeSet} {o : Option DocumentId} {d : DraftDocument} {documents : List DraftDocument}

/-- None of some change sets has a name. -/
def Lacks (store : Store) (path author id : Value) (ids : List ChangeSetId) : Prop :=
  ∀ i ∈ ids, ∀ c, store.changeSets.get? i = some c → ¬c.HasName path author id

/-- A change set is the first one with a name in the first of some documents that has one. -/
def Chooses (store : Store) (path author id : Value) (documents : List DraftDocument)
    (i : ChangeSetId) (c : DraftChangeSet) : Prop :=
  store.changeSets.get? i = some c ∧ c.HasName path author id ∧
    ∃ nearer d farther before after, documents = nearer ++ d :: farther ∧
      d.changeSets = before ++ i :: after ∧
        (∀ d ∈ nearer, store.Lacks path author id d.changeSets) ∧
      store.Lacks path author id before

theorem isNamed_iff : isNamed path author id c = true ↔ c.HasName path author id := by
  constructor
  · intro h
    simp only [isNamed, Bool.and_eq_true, Bool.or_eq_true, Value.isNull_iff] at h
    exact ⟨h.1.1, h.1.2, h.2⟩
  · intro h
    simp only [isNamed, Bool.and_eq_true, Bool.or_eq_true, Value.isNull_iff]
    exact ⟨⟨h.id, h.author⟩, h.path⟩

theorem findIn?_eq_some (found : store.findIn? d path author id = some i) :
    ∃ c before after, store.changeSets.get? i = some c ∧ c.HasName path author id ∧
      d.changeSets = before ++ i :: after ∧ store.Lacks path author id before := by
  obtain ⟨named, before, after, split, others⟩ := List.find?_eq_some_iff_append.1 found
  cases hc : store.changeSets.get? i with
  | none => simp [hc] at named
  | some c =>
    simp only [hc, isNamed_iff] at named
    refine ⟨c, before, after, rfl, named, split, fun j mem c' hc' has => ?_⟩
    have other := others j mem
    simp [hc', isNamed_iff.2 has] at other

theorem findIn?_eq_none (found : store.findIn? d path author id = none) :
    store.Lacks path author id d.changeSets := by
  intro i mem c hc has
  have other := List.find?_eq_none.1 found i mem
  simp [hc, isNamed_iff.2 has] at other

theorem lacks_cons (here : store.Lacks path author id d.changeSets)
    (more : ∀ d ∈ documents, store.Lacks path author id d.changeSets) :
    ∀ d' ∈ d :: documents, store.Lacks path author id d'.changeSets :=
  List.forall_mem_cons.2 ⟨here, more⟩

/-- A name stands for the same change set from a document on that has none with it. -/
theorem Chooses.cons (lacks : store.Lacks path author id d.changeSets)
    (h : store.Chooses path author id documents i c) :
    store.Chooses path author id (d :: documents) i c := by
  obtain ⟨hc, has, nearer, d', farther, before, after, rfl, split, nearerLack, lack⟩ := h
  exact ⟨hc, has, d :: nearer, d', farther, before, after, rfl, split,
    lacks_cons lacks nearerLack, lack⟩

/-- What is found in a lineage is the change set that a name stands for, and nothing if there is
none. -/
theorem find?_of_lineage (path author id : Value) (h : store.Lineage o documents) : ∀ document ∈ o,
    (∃ i c, store.Chooses path author id documents i c ∧
      store.find? document path author id = some i) ∨
    ((∀ d ∈ documents, store.Lacks path author id d.changeSets) ∧
      store.find? document path author id = none) := by
  induction h with
  | root => simp
  | @inside i d above there later rest ih =>
    intro document same
    obtain rfl := Option.mem_some.1 same
    rw [find?, there]
    dsimp only
    cases here : store.findIn? d path author id with
    | some found =>
      obtain ⟨c, before, after, hc, has, split, lacks⟩ := findIn?_eq_some here
      exact .inl ⟨found, c, ⟨hc, has, [], d, above, before, after, rfl, split, by simp, lacks⟩, rfl⟩
    | none =>
      have lacks := findIn?_eq_none here
      -- the search goes on in the document that includes this one
      cases parent : d.parent with
      | none =>
        rw [parent] at rest
        cases rest
        exact .inr ⟨lacks_cons lacks (by simp), rfl⟩
      | some j =>
        dsimp only
        rw [if_pos (later j parent)]
        obtain ⟨found, c, chooses, finds⟩ | ⟨more, finds⟩ := ih j parent
        · exact .inl ⟨found, c, chooses.cons lacks, finds⟩
        · exact .inr ⟨lacks_cons lacks more, finds⟩

end Store

/-! ## References -/

namespace SessionM

variable {d : DocumentId} {owner : String} {i : ChangeSetId} {a : Attributes} {s : Session}
  {id author path : Value}

/-- A reference looks for the change set of its name, and adds the changes of that one. -/
theorem rollbackByReference_eq (known : ∀ name ∈ a.keys, name ∈ rollbackAttributes)
    (hid : s.table.expandValue (a.get "changeSetId") (some d) = .ok id) (given : id.isTruthy = true)
    (hauthor : s.table.expandValue (a.get "changeSetAuthor") (some d) = .ok author)
    (hpath : s.table.expandValue (a.get "changeSetPath") (some d) = .ok path) :
    rollbackByReference d owner i a s =
      match (s.store.find? d path author id).bind s.store.changeSets.get? with
      | none => (.error (.parse (.rollbackOfUnknown owner path.print id.print author.print)), s)
      | some found => addRollback i found.changes s := by
  have fits : ofCheck (a.validate owner "rollback" rollbackAttributes) s = (.ok (), s) := by
    rw [Attributes.validate_of_keys (by decide) known]
    rfl
  unfold rollbackByReference
  rw [Step.run_bind_of_ok fits, Step.run_bind_of_ok (expand_of_ok hid)]
  simp only [given, Bool.not_true]
  rw [if_neg (by decide), Step.run_bind_of_ok (expand_of_ok hauthor),
    Step.run_bind_of_ok (expand_of_ok hpath),
    Step.run_bind_of_ok (show (get : SessionM Session) s = (.ok s, s) from rfl)]
  cases (s.store.find? d path author id).bind s.store.changeSets.get? <;> rfl

/-- An identifier that counts is given. -/
theorem isEmpty_of_expandValue (hid : s.table.expandValue (a.get "changeSetId") (some d) = .ok id)
    (given : id.isTruthy = true) : a.isEmpty = false := by
  cases a with
  | nil =>
    cases hid
    cases given
  | cons => rfl

/-- A rollback that gives an identifier is a reference. -/
theorem act_rollback_eq (e : Engine) (compiler : Compiler) (owner : String) (i : ChangeSetId)
    (hid : s.table.expandValue (a.get "changeSetId") (some d) = .ok id)
    (given : id.isTruthy = true) :
    act e compiler d (.rollback owner i) [] a s =
      (rollbackByReference d owner i a >>= fun _ => (pure .nothing : SessionM Result)) s := by
  show rollback d owner i [] a s = _
  unfold rollback
  dsimp only
  rw [if_neg (by simp [isEmpty_of_expandValue hid given])]

end SessionM

section

variable {e : Engine} {depth : Nat} {q : Request} {s₀ : Session} {start : Point}
    {history : List ScopeId}
  {r : Running}

/-- In every state of a script, also where it is included by others: the documents from that of the
script on, each followed by the one that includes it, hold none of the change sets of which no block
has been left yet. -/
theorem lineage_of_stands (visits : Visits e depth q s₀ start) (root : q.parent = none)
    (fresh : start.running.frame =
      { path := start.running.frame.path, document := start.running.frame.document })
    (stands : Stands e (compilerBelow e start.depth) (start.steps, start.running) history r) :
    ∃ b lineage, r.Ledger b history ∧ r.session.store.Lineage (some r.frame.document) lineage ∧
      lineage.map (·.physicalPath) = start.chain.reverse ∧
      ∀ made, r.frame.Withholds history made → ∀ d ∈ lineage, made ∉ d.changeSets := by
  have sound := compilerBelow_isSound e start.depth
  have first : s₀.store.Lineage q.parent [] := root ▸ .root
  obtain ⟨b, d₀, outer, inside, paths⟩ := visits.exists_inside first (by simp)
  have ledger : r.Ledger b history :=
    stands.tracks (ScriptM.tracks_ledger sound b) (.start inside.owns fresh)
  obtain ⟨d, inside, same⟩ := inside.works (stands.works sound)
  refine ⟨b, d :: outer, ledger, inside.lineage_cons, ?_, fun made withholds => ?_⟩
  · rw [List.map_cons, same, ← List.map_cons, paths]
    simp
  · refine List.forall_mem_cons.2 ⟨ledger.not_mem_of_withholds withholds inside.document, ?_⟩
    exact inside.not_mem_outer (ledger.added_of_withholds withholds).1

/-- In the block of a change set whose result has not been opened before, a rollback that gives the
identifier of a change set takes the first change set of that name in the nearest document that has
one: the document of the script, the one that includes it, and so on to the first one. None of these
documents holds a change set of which no block has been left yet, so it is not the one that is being
built. The changes of the change set that is found are added to the rollback of that one, and
nothing else changes; if there is none, the call fails and changes nothing. -/
theorem rollback_of_visits (visits : Visits e depth q s₀ start) (root : q.parent = none)
    (fresh : start.running.frame =
      { path := start.running.frame.path, document := start.running.frame.document })
    (stands : Stands e (compilerBelow e start.depth) (start.steps, start.running) history r)
    {n : Nat} {owner : String} {s : ChangeSetId} {blocks : List (Nat × Body)}
    (stack : r.frame.stack = (n, .changeSet owner s) :: blocks)
    (once : ∀ i, openedBy history n = some i → history.count i = 1)
    {c : Script.Call} {x : ScriptM.Application} (element : c.element = "rollback")
    (prepares : ScriptM.prepare e c r = (.ok x, r)) (named : x.positional = [])
    (known : ∀ name ∈ x.attributes.keys, name ∈ SessionM.rollbackAttributes)
    {id author file : Value}
    (hid : r.session.table.expandValue (x.attributes.get "changeSetId")
      (some r.frame.document) = .ok id)
    (given : id.isTruthy = true)
    (hauthor : r.session.table.expandValue (x.attributes.get "changeSetAuthor")
      (some r.frame.document) = .ok author)
    (hfile : r.session.table.expandValue (x.attributes.get "changeSetPath")
      (some r.frame.document) = .ok file) :
    ∃ lineage, r.session.store.Lineage (some r.frame.document) lineage ∧
      lineage.map (·.physicalPath) = start.chain.reverse ∧
      (∀ made, r.frame.Withholds history made → ∀ d ∈ lineage, made ∉ d.changeSets) ∧
      r.frame.Withholds history s ∧
      ((∃ i found, r.session.store.Chooses file author id lineage i found ∧ i ≠ s ∧
          ScriptM.call e (compilerBelow e start.depth) c r =
            (.ok .nothing, { r with session := { r.session with store := { r.session.store with
              changeSets := r.session.store.changeSets.modify s fun c =>
                { c with rollback := c.rollback ++ found.changes } } } })) ∨
        (∀ d ∈ lineage, r.session.store.Lacks file author id d.changeSets) ∧
          ScriptM.call e (compilerBelow e start.depth) c r =
            (.error (.parse (.rollbackOfUnknown owner file.print id.print author.print)), r)) := by
  obtain ⟨b, lineage, ledger, there, paths, apart⟩ := lineage_of_stands visits root fresh stands
  have withholds := ledger.withholds_of_once stack once
  -- what the call does is the reference
  have stands_for : x.element = .rollback owner s := by
    have innermost : r.frame.innermostBody = .changeSet owner s := by
      unfold Frame.innermostBody
      rw [stack]
      rfl
    have same := ScriptM.element?_of_prepare prepares
    rw [innermost, element] at same
    exact (Option.some.inj same).symm
  have acts := SessionM.act_rollback_eq e (compilerBelow e start.depth) owner s hid given
  rw [Step.run_bind, SessionM.rollbackByReference_eq known hid given hauthor hfile, ← stands_for,
    ← named] at acts
  refine ⟨lineage, there, paths, apart, withholds, ?_⟩
  obtain ⟨i, found, chooses, finds⟩ | ⟨lacks, finds⟩ :=
    Store.find?_of_lineage file author id there _ rfl
  · left
    rw [finds, Option.bind_some, chooses.1] at acts
    refine ⟨i, found, chooses, ?_, ScriptM.call_eq prepares acts⟩
    -- what is found is in one of the documents
    rintro rfl
    obtain ⟨-, -, nearer, d, farther, before, after, rfl, split, -⟩ := chooses
    exact apart i withholds d (by simp) (by simp [split])
  · right
    rw [finds, Option.bind_none] at acts
    exact ⟨lacks, ScriptM.call_eq prepares acts⟩

end

/-! ## A reference to the change set of an including script -/

/-- The call that the scripts begin with. -/
def logCall : Script.Call := { element := "databaseChangeLog" }

/-- The block of a change set with nothing but its name. -/
def changeSetNamed (id : String) (body : List Script.Node) : Script.Node :=
  .block (.giving "changeSet" [("id", .text id), ("author", .text "a")]) body

/-- A script with a change set that includes another one. -/
def referred : List Script.Node := [.block logCall [
  changeSetNamed "1" [.call { element := "empty" }],
    .call (.giving "include" [("file", .text "b.py")])]]

/-- A script in which a change set of the one that includes it is rolled back. -/
def referring : List Script.Node := [.block logCall [
  changeSetNamed "2" [.call (.giving "rollback" [("changeSetId", .text "1")])]]]

/-- The first script and the one that it includes. -/
def includedReference : Engine := .ofScripts [("a.py", referred), ("b.py", referring)]

/-- A script where its block has been opened. -/
def inLog (depth : Nat) (path : String) (document : DocumentId) (s : Session) : Running :=
  (ScriptM.enter 0 (ScriptM.call includedReference (compilerBelow includedReference depth) logCall
    (.start path document (s.opening path))).2).2

theorem calls_logCall (depth : Nat) (path : String) (document : DocumentId) (s : Session) :
    ∃ r, ScriptM.call includedReference (compilerBelow includedReference depth) logCall
        (.start path document (s.opening path)) = (.ok (.scope 0), r) ∧
      ScriptM.enter 0 r = (.ok (), inLog depth path document s) := ⟨_, rfl, rfl⟩

/-- The session when the first script has been opened. -/
def openedReferred : Session :=
  (SessionM.newDocument { path := "a.py" } none { table := .ofRun none none none }).2

/-- The first script where it includes the other one. -/
def beforeInclude : Running :=
  (ScriptM.runNode includedReference (compilerBelow includedReference 63)
    (changeSetNamed "1" [.call { element := "empty" }]) (inLog 63 "a.py" ⟨0⟩ openedReferred)).2

/-- How the other one is included. -/
def plainInclusion : SessionM.Inclusion := { inheritance := {}, logicalPath := .null }

/-- The session when the other one has been opened. -/
def openedReferring : Session :=
  (SessionM.newDocument (plainInclusion.request ⟨0⟩ "b.py") none beforeInclude.session).2

/-- The other one in its change set. -/
def beforeRollback : Running :=
  (ScriptM.enter 1 (ScriptM.call includedReference (compilerBelow includedReference 62)
    (.giving "changeSet" [("id", .text "2"), ("author", .text "a")])
    (inLog 62 "b.py" ⟨1⟩ openedReferring)).2).2

/-- The first script comes to the include, and the other one is opened. -/
theorem visits_referring :
    Visits includedReference 63 { path := "a.py" } { table := .ofRun none none none }
      ⟨[{ path := "a.py" }, plainInclusion.request beforeInclude.frame.document "b.py"], 62, referring,
        .start "b.py" ⟨1⟩ (openedReferring.opening "b.py")⟩ := by
  have opens : SessionM.openScript includedReference { path := "a.py" }
      { table := .ofRun none none none } =
    (.ok { path := "a.py", nodes := referred, document := ⟨0⟩ }, openedReferred) := rfl
  have runs : ScriptM.runNode includedReference (compilerBelow includedReference 63)
      (changeSetNamed "1" [.call { element := "empty" }]) (inLog 63 "a.py" ⟨0⟩ openedReferred) =
        (.ok (), beforeInclude) := by
    obtain ⟨_, same, -⟩ := Step.ok_of_map (show (ScriptM.runNode includedReference
      (compilerBelow includedReference 63) (changeSetNamed "1" [.call { element := "empty" }])
        (inLog 63 "a.py" ⟨0⟩ openedReferred)).1.toOption.map id = some () by decide +kernel)
    exact Prod.ext same rfl
  obtain ⟨r, calls, enters⟩ := calls_logCall 63 "a.py" ⟨0⟩ openedReferred
  have reaches : Reaches includedReference (compilerBelow includedReference 63)
      (referred, .start "a.py" ⟨0⟩ (openedReferred.opening "a.py"))
      ([.call (.giving "include" [("file", .text "b.py")])], beforeInclude) :=
    .tail (.single (.block calls enters)) (.next runs)
  have prepares : ScriptM.prepare includedReference (.giving "include" [("file", .text "b.py")])
      beforeInclude =
        (.ok { element := .include, positional := [], attributes := [("file", .text "b.py")] },
        beforeInclude) := by
    with_unfolding_all rfl
  have reads : SessionM.readInclude beforeInclude.frame.document [("file", .text "b.py")]
      beforeInclude.session = _ := SessionM.readInclude_file (by decide +kernel) (by decide) _ _
  have meets : Meets includedReference (compilerBelow includedReference 63)
      (.giving "include" [("file", .text "b.py")]) beforeInclude none "b.py" plainInclusion
      beforeInclude.session := .file prepares rfl reads
  have takes : includedReference.parser? "b.py" = some (.script ".py") :=
    Engine.parser?_ofScripts (by decide +kernel)
  have resolves : includedReference.sources.resolve none "b.py" = .ok "b.py" := rfl
  have accepts : SessionM.accept includedReference none "b.py" false beforeInclude.session =
      (.ok (some ("b.py", .script ".py")), beforeInclude.session) := by
    have chain : beforeInclude.session.chain = ["a.py"] := by decide +kernel
    rw [SessionM.accept_eq resolves takes, chain]
    rfl
  have content : includedReference.sources.read none "b.py" = .ok (.script referring) := by
    have components : Path.components "b.py" = ["b.py"] := by decide +kernel
    rw [Tree.read_of_resolve _ resolves, components]
    rfl
  -- the other script is the second one that is opened
  have document : beforeInclude.frame.document = ⟨0⟩ := by decide +kernel
  have next : beforeInclude.session.store.documents.next = ⟨1⟩ := by decide +kernel
  have opens' : SessionM.openScript includedReference
      (plainInclusion.request beforeInclude.frame.document "b.py") beforeInclude.session =
      (.ok { path := "b.py", nodes := referring, document := ⟨1⟩ }, openedReferring) := by
    have made := SessionM.openScript_eq (r := plainInclusion.request ⟨0⟩ "b.py") resolves
      content rfl rfl
      beforeInclude.session
    rw [next] at made
    rw [document, made]
    unfold openedReferring SessionM.Inclusion.request
    rfl
  exact .inside opens reaches rfl meets accepts (.here opens' .refl)

/-- The other script comes to the rollback. -/
theorem comes_beforeRollback :
    Comes includedReference (compilerBelow includedReference 62)
      (referring, .start "b.py" ⟨1⟩ (openedReferring.opening "b.py")) [1, 0]
      ([.call (.giving "rollback" [("changeSetId", .text "1")])], beforeRollback) := by
  obtain ⟨r₁, calls, enters⟩ := calls_logCall 62 "b.py" ⟨1⟩ openedReferring
  have called : (ScriptM.call includedReference (compilerBelow includedReference 62)
      (.giving "changeSet" [("id", .text "2"), ("author", .text "a")])
      (inLog 62 "b.py" ⟨1⟩ openedReferring)).1 = .ok (.scope 1) := by
    with_unfolding_all rfl
  have entered :
      (ScriptM.enter 1 (ScriptM.call includedReference (compilerBelow includedReference 62)
      (.giving "changeSet" [("id", .text "2"), ("author", .text "a")])
      (inLog 62 "b.py" ⟨1⟩ openedReferring)).2).1 = .ok () := by
    with_unfolding_all rfl
  have first : Comes includedReference (compilerBelow includedReference 62)
      (referring, .start "b.py" ⟨1⟩ (openedReferring.opening "b.py")) [0]
      ([changeSetNamed "2" [.call (.giving "rollback" [("changeSetId", .text "1")])]],
        inLog 62 "b.py" ⟨1⟩ openedReferring) := .block .start calls enters
  exact .block first (Prod.ext called rfl) (Prod.ext entered rfl)

/-- The change set is found in the document that includes the one of the rollback. -/
theorem rollback_of_visits_includedReference :
    ∃ lineage i found, lineage.map (·.physicalPath) = ["b.py", "a.py"] ∧
      beforeRollback.session.store.Chooses .null .null (.text "1") lineage i found ∧ i ≠ ⟨1⟩ ∧
      (ScriptM.call includedReference (compilerBelow includedReference 62)
        (.giving "rollback" [("changeSetId", .text "1")]) beforeRollback).1 = .ok .nothing := by
  have stack : beforeRollback.frame.stack =
      [(2, .changeSet "ChangeSet '2'" ⟨1⟩), (1, .changeLog), (0, .script)] := by
    with_unfolding_all rfl
  have prepares : ScriptM.prepare includedReference
      (.giving "rollback" [("changeSetId", .text "1")])
      beforeRollback =
        (.ok { element := .rollback "ChangeSet '2'" ⟨1⟩, positional := [], attributes :=
        [("changeSetId", .text "1")] }, beforeRollback) := by
    with_unfolding_all rfl
  have hid : beforeRollback.session.table.expandValue (.text "1")
      (some beforeRollback.frame.document) =
      .ok (.text "1") := Table.expandValue_of_isPlain (Value.isPlain_text.2 (by decide +kernel)) _ _
  have once : ∀ i, openedBy [1, 0] 2 = some i → [1, 0].count i = 1 := by decide
  have succeeds : (ScriptM.call includedReference (compilerBelow includedReference 62)
      (.giving "rollback" [("changeSetId", .text "1")]) beforeRollback).1 = .ok .nothing := by
    with_unfolding_all rfl
  obtain ⟨lineage, -, paths, -, -, ⟨i, found, chooses, other, calls⟩ | ⟨-, fails⟩⟩ :=
    rollback_of_visits visits_referring rfl rfl (.before comes_beforeRollback) stack once
      rfl prepares rfl
      (by decide) hid rfl rfl rfl
  · exact ⟨lineage, i, found, paths, chooses, other, by rw [calls]⟩
  · rw [fails] at succeeds
    cases succeeds

end Migration
