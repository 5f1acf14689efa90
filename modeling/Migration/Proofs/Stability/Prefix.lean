import Migration.Proofs.Call
import Migration.Proofs.Stability.Around
import Migration.Proofs.Stability.Checks
import Migration.Proofs.Stability.Frame
import Migration.Proofs.Relocation.Completion

/-!
# Steps that are added to a script

Steps that are added at the end of the last change log of a script alter nothing that the script has
built before them.

* `Session.Spares.changeSet?` — change sets are complete as they were
* `ScriptM.isPrefix_of_runNodes` — the document of a script is what it has been, and more
* `isPrefix_of_compile` — what a script compiles into begins with what it compiles into without its
  last steps
-/

namespace Migration

open SessionM Session

/-! ## What is left alone -/

namespace Session.Spares

variable {base s : Session} {d : DocumentId} {p : PreconditionId}

theorem change? (h : base.Spares d p s) (whole : base.store.IsWhole) {i : ChangeId}
    (known : base.store.Has i) : s.store.change? i = base.store.change? i := by
  obtain ⟨c, hc⟩ : ∃ c : DraftChange, base.store.changes.get? i = some c :=
    Store.exists_get?_of_has known
  have kept : s.store.changes.get? i = some c := (h.kept i known trivial).trans hc
  have columns : c.columns.filterMap s.store.columns.get? =
      c.columns.filterMap base.store.columns.get? :=
    List.filterMap_congr fun j hj => h.kept j (whole.change hc j hj) trivial
  unfold Store.change?
  rw [kept, hc, Option.map_some, Option.map_some]
  unfold Store.completeChange
  rw [columns]

/-- A container that is no part of the one of the document is complete as it was. -/
theorem precondition? (h : base.Spares d p s) (whole : base.store.IsWhole)
    (root : base.store.IsRoot p) {k : PreconditionId} (known : base.store.Has k) (other : k ≠ p) :
    s.store.precondition? k = base.store.precondition? k := by
  have grown : base.store.preconditions.size ≤ s.store.preconditions.size := h.grows .precondition
  refine @Store.preconditionTree_of_copies base.store s.store id
    (fun j => base.store.Has j ∧ j ≠ p) (fun j q hj hq => ?_) (fun j q hj hq l hl => ?_) _ _ k
    ⟨known, other⟩ known (by omega) (by omega)
  · rw [List.map_id]
    exact (h.kept j hj.1 hj.2).trans hq
  · obtain ⟨there, later⟩ := whole.precondition hq l hl
    refine ⟨⟨there, ?_⟩, there, later⟩
    rintro rfl
    exact root j ⟨q, hq, hl⟩

theorem changeSet? (h : base.Spares d p s) (whole : base.store.IsWhole) (root : base.store.IsRoot p)
    (others : ∀ i c, base.store.changeSets.get? i = some c → c.preconditions ≠ some p)
    {i : ChangeSetId} (known : base.store.Has i) :
    s.store.changeSet? i = base.store.changeSet? i := by
  obtain ⟨c, hc⟩ : ∃ c : DraftChangeSet, base.store.changeSets.get? i = some c :=
    Store.exists_get?_of_has known
  have kept : s.store.changeSets.get? i = some c := (h.kept i known trivial).trans hc
  obtain ⟨changes, rollback, preconditions⟩ := whole.changeSet hc
  have container : c.preconditions.bind s.store.precondition? =
      c.preconditions.bind base.store.precondition? := by
    cases hk : c.preconditions with
    | none => rfl
    | some k =>
      exact h.precondition? whole root (preconditions k hk) fun same => others i c hc (same ▸ hk)
  have parts : ∀ {js : List ChangeId}, (∀ j ∈ js, base.store.Has j) →
      js.filterMap s.store.change? = js.filterMap base.store.change? := fun known =>
    List.filterMap_congr fun j hj => h.change? whole (known j hj)
  unfold Store.changeSet?
  rw [kept, hc, Option.map_some, Option.map_some]
  unfold Store.completeChangeSet
  rw [container, parts changes, parts rollback]

end Session.Spares

/-! ## The document of a script -/

/-- A complete document has the change sets and the removals of the one in the store. -/
theorem Store.exists_of_complete {s : Store} {i : DocumentId} {doc : CompleteDocument}
    (h : s.complete i = some doc) :
    ∃ d, s.documents.get? i = some d ∧ doc.changeSets = d.changeSets.filterMap s.changeSet? ∧
      doc.removals = d.removals := by
  unfold Store.complete at h
  obtain ⟨d, hd, h⟩ := Option.bind_eq_some_iff.1 h
  cases h
  exact ⟨d, hd, rfl, rfl⟩

namespace ScriptM

variable {e : Engine} {compiler : Compiler} {b : Store} {more : List Script.Node} {r : Running}
  {doc doc' : CompleteDocument}

/-- Structured steps leave the document of a script what it has been, and more. -/
theorem isPrefix_of_runNodes (sound : compiler.IsSound) (owns : r.Owns b)
    (whole : r.session.store.IsWhole) (apart : r.IsApart)
    (root : ∀ k, r.Sets k → r.session.store.IsRoot k)
    (stack : ∀ entry ∈ r.frame.stack, entry.2 = .script ∨ entry.2 = .changeLog)
    (kept : r.frame.kept = []) (structured : Script.areStructured more = true)
    (completes : r.session.store.complete r.frame.document = some doc)
    (completes' : (runNodes e compiler more r).2.session.store.complete r.frame.document = some doc') :
    doc.changeSets <+: doc'.changeSets ∧ doc.removals <+: doc'.removals := by
  obtain ⟨d, hd, changeSets, removals⟩ := Store.exists_of_complete completes
  obtain ⟨d', hd', changeSets', removals'⟩ := Store.exists_of_complete completes'
  obtain ⟨-, g, -, adv⟩ := (works_steady (e := e) sound).runNodes more r owns
  have gains := adv.session.gains hd hd'
  have stackNew : ∀ entry ∈ r.frame.stack, entry.2.IsNew r.session.store r.session.store := by
    rintro ⟨mark, body⟩ mem
    obtain rfl | rfl : body = .script ∨ body = .changeLog := stack _ mem
    · trivial
    · trivial
  -- what was there is left alone, but for the document and its container
  have spares := ((stays_blockwise (e := e) sound).runNodes structured
    (stays_refl owns hd stackNew kept)).session.spares
  have set : r.Sets d.preconditions := .inl ⟨d, hd, rfl⟩
  -- no change set that was there has the container of the document
  have others : ∀ i c, r.session.store.changeSets.get? i = some c →
      c.preconditions ≠ some d.preconditions :=
    fun i c hc hk => apart i _ (.inl ⟨c, hc, hk⟩) set
  have same : d.changeSets.filterMap (runNodes e compiler more r).2.session.store.changeSet? =
      d.changeSets.filterMap r.session.store.changeSet? :=
    List.filterMap_congr fun i hi =>
      spares.changeSet? whole (root _ set) others ((whole.document hd).1 i hi)
  constructor
  · rw [changeSets, changeSets', gains.changeSets, List.filterMap_append, same]
    exact List.prefix_append _ _
  · rw [removals, removals', gains.removals]
    exact List.prefix_append _ _

end ScriptM

/-! ## Compiles -/

theorem Store.isWhole_empty : ({} : Store).IsWhole := by
  refine ⟨fun {entity} i x hx => ?_⟩
  cases entity <;> cases hx

namespace SessionM

variable {e : Engine} {home path : String} {nodes : List Script.Node} {s s₁ : Session} {o : Opened}

/-- A script that is at its path is opened with its steps, whatever these are. -/
theorem openScript_of_withScript (resolves : e.sources.resolve none path = .ok home)
    (opens : openScript (e.withScript home nodes) { path } s = (.ok o, s₁)) :
    o.path = home ∧ o.nodes = nodes ∧ ∀ nodes',
      openScript (e.withScript home nodes') { path } s = (.ok { o with nodes := nodes' }, s₁) := by
  have resolved : e.sources.resolve none home = .ok home := Tree.resolve_of_resolve resolves
  have reads : ∀ nodes, (e.withScript home nodes).sources.read none home = .ok (.script nodes) :=
    fun nodes => by
      have found := Tree.file?_insert e.sources home (.script nodes)
      have read := Tree.read_of_resolve (e.withScript home nodes).sources resolved
      exact read.trans (by rw [show (e.withScript home nodes).sources.file? _ = _ from found])
  obtain ⟨file, logicalPath, resolves', reads', takes, -⟩ := of_openScript_ok opens
  have same : home = o.path := Except.ok.inj (resolves.symm.trans resolves')
  obtain rfl : .script nodes = file := Except.ok.inj ((reads nodes).symm.trans (same ▸ reads'))
  -- a script could not have been read in an encoding that is not known
  obtain ⟨encoding, known⟩ : ∃ encoding,
      Encoding.ofName? e.settings.scriptEncoding = some encoding := by
    obtain ⟨encoding, s₂, finds, -⟩ := Step.bind_eq_ok.1 takes
    have finds : ofMishap e.encoding s = (.ok encoding, s₂) := finds
    unfold Engine.encoding at finds
    cases known : Encoding.ofName? e.settings.scriptEncoding with
    | none =>
      rw [known] at finds
      cases finds
    | some encoding => exact ⟨encoding, rfl⟩
  have opened := fun nodes' => openScript_eq (e := e.withScript home nodes') (r := { path })
    resolves (reads nodes') known rfl s
  cases opens.symm.trans (opened nodes)
  exact ⟨rfl, rfl, opened⟩

variable {around : Script.Around} {first more : List Script.Node} {d d' : DocumentId} {s' : Session}
  {doc doc' : CompleteDocument}

/-- Steps at the end of a script that is opened leave its document what it has been, and more. -/
theorem isPrefix_of_endsWith (hosts : e.HostsAreBare) (whole : s.store.IsWhole) {request : Request}
    (opens : openScript e request s = (.ok o, s₁)) {depth : Nat}
    (structured : Script.areStructured nodes = true) {r : Running} {u u' : Session}
    (ends : EndsWith e (compilerBelow e depth) more
      (nodes, .start o.path o.document (s₁.opening o.path)) r u u')
    (completes : u.store.complete o.document = some doc)
    (completes' : u'.store.complete o.document = some doc') :
    doc.changeSets <+: doc'.changeSets ∧ doc.removals <+: doc'.removals := by
  have sound := compilerBelow_isSound e depth
  -- all that the last steps rely on has lasted from the start of the script to where they begin
  obtain ⟨structured, kept⟩ := ScriptM.areStructured_of_reaches ends.reaches structured rfl
  obtain ⟨owns, g, -, adv⟩ := ends.reaches.works sound (owns_of_open opens)
  have opened : s.Fills s₁ := (keeps_openScript fills_newDocument _).of_run opens
  obtain ⟨-, -, -, settled⟩ := (ScriptM.settles_steady (b := s.store) sound hosts
    (compilerBelow_fills hosts depth)).reaches ends.reaches (owns_of_open opens)
  obtain ⟨whole', apart⟩ := settled (opened.whole whole)
  have renews := (ScriptM.renews_steady (b := s.store) sound).reaches ends.reaches
  have document : r.frame.document = o.document := adv.frame.document
  rw [ends.without, ← document] at completes
  rw [ends.added, ← document] at completes'
  exact ScriptM.isPrefix_of_runNodes sound owns whole' (apart (isApart_of_openScript whole opens))
    (fun _ sets => isRoot_of_sets whole.isClosed opens renews sets) ends.stack kept
      structured completes
    completes'

/-- What a script compiles into, however deep it is included, begins with what it compiles into
without its last steps. -/
theorem isPrefix_of_compileScript (hosts : e.HostsAreBare) (whole : s.store.IsWhole)
    (resolves : e.sources.resolve none path = .ok home) {depth : Nat}
    (structured : Script.areStructured (around.script (first ++ more)) = true)
    (last : around.isLast = true)
    (compiles : compileScript (e.withScript home (around.script first)) depth { path } s = (.ok d, s₁))
    (compiles' : compileScript (e.withScript home (around.script (first ++ more))) depth { path } s =
      (.ok d', s')) (completes : s₁.store.complete d = some doc)
    (completes' : s'.store.complete d' = some doc') :
    doc.changeSets <+: doc'.changeSets ∧ doc.removals <+: doc'.removals := by
  rw [compileScript_eq] at compiles compiles'
  obtain ⟨o₁, s₂, q, opens₁, runs, -, rfl, rfl⟩ := compileWithin_ok compiles
  obtain ⟨o, s₃, q', opens, runs', -, rfl, rfl⟩ := compileWithin_ok compiles'
  obtain ⟨place, steps, opened⟩ := openScript_of_withScript resolves opens
  cases opens₁.symm.trans (opened _)
  have resolved : e.sources.resolve none home = .ok home := Tree.resolve_of_resolve resolves
  have owns := owns_of_open opens
  have isOpen : home ∈ (s₂.opening o.path).chain :=
    place ▸ List.mem_append_right _ (List.mem_singleton.2 rfl)
  -- the steps of the script that is open make no difference to what its steps do
  have sound := compilerBelow_isSound (e.withScript home (around.script (first ++ more))) depth
  have runs : ScriptM.runNodes (e.withScript home (around.script (first ++ more)))
      (compilerBelow (e.withScript home (around.script (first ++ more))) depth)
      (around.script first) (.start o.path o.document (s₂.opening o.path)) = (.ok (), q) :=
    (ScriptM.runNodes_withScript (compilerBelow_isSound _ depth) (compilerBelow_ignores resolved depth)
      (around.script first) owns isOpen).symm.trans runs
  rw [steps] at runs'
  obtain same | ⟨r, ends⟩ := ScriptM.endsWith_around sound around owns ⟨rfl, rfl⟩ structured last
  · rw [runs, runs'] at same
    have same : q.session = q'.session := same
    have completes : q.session.store.complete o.document = some doc := completes
    have completes' : q'.session.store.complete o.document = some doc' := completes'
    cases (same ▸ completes).symm.trans completes'
    exact ⟨List.prefix_rfl, List.prefix_rfl⟩
  · rw [runs, runs'] at ends
    have hosts' : (e.withScript home (around.script (first ++ more))).HostsAreBare := hosts
    exact isPrefix_of_endsWith hosts' whole opens structured ends completes completes'

/-- The compile of a change log by the parser of scripts is that of a script. -/
theorem exists_compileScript {table : Table} {suffix : String}
    (takes : e.parser? path = some (.script suffix))
    (completes : (e.compile table path).complete = .ok doc) :
    ∃ d s, compileScript e (e.settings.maxIncludeDepth - 1) { path } { table } = (.ok d, s) ∧
      s.store.complete d = some doc := by
  unfold Engine.compile at completes
  rw [compileChangeLog_eq takes] at completes
  rcases run : compileWith e (some (compileScript e (e.settings.maxIncludeDepth - 1)))
    (.script suffix) { path } { table } with ⟨failure | d, s⟩ <;> rw [run] at completes
  · cases completes
  · refine ⟨d, s, run, ?_⟩
    obtain ⟨-, document, hd, -⟩ := (compiles_compileScript _ { path }).document run
    obtain ⟨doc', there⟩ : ∃ doc', s.store.complete d = some doc' := by
      unfold Store.complete
      rw [hd]
      exact ⟨_, rfl⟩
    have completes : Except.ok ((s.store.complete d).getD _) = Except.ok doc := completes
    rw [there] at completes ⊢
    exact congrArg some (Except.ok.inj completes)

end SessionM

/-- A script with a change set, and steps that are added to it: another change set rolls back by
what the first one does. -/
def rollingBack (steps : List Script.Node) : Engine :=
  (Engine.ofScripts []).withScript "a.py"
  ((Script.Around.block [] { element := "databaseChangeLog" }
    []).script ([.block (.giving "changeSet" [("id", .text "1"), ("author", .text "a")])
      [.call (.giving "tagDatabase" [("tag", .text "v1")])]] ++ steps))

end Migration
