import Migration.Proofs.Inclusion.Chain

/-!
# The traversal of the include tree

What a change log holds, in order, as its scripts say it: a change set where its block stands, a
removal where it is called for, and in the place of an include what the included file holds. The
traversal follows the steps of the scripts and the includes in them. It runs them only to know what
their arguments are, and it puts nothing into documents.

* `traverseNodes`, `traverseScript` — the traversal of steps, and of a script with what it includes
* `Session.Adds` — a script has added to its document what the traversal says
* `SessionM.adds_act` — every element that succeeds adds what the traversal says
-/

namespace Migration

open SessionM Session

/-- What a document holds in order. -/
@[ext] structure Contents where
  changeSets : List ChangeSetId := []
  removals : List Removal := []

namespace Contents

instance : Append Contents :=
  ⟨fun t u => { changeSets := t.changeSets ++ u.changeSets, removals := t.removals ++ u.removals }⟩

/-- What a document gains by these contents. -/
def gain (t : Contents) (container : Option PreconditionId) : Gain :=
  { changeSets := t.changeSets, removals := t.removals, container }

end Contents

/-! ## Files -/

section

variable (e : Engine) (compiler : Compiler) (script : Request → Session → Contents)

/-- The traversal of a file by the parser that takes it. -/
def traverseWith (parser : Parser) (r : Request) (s : Session) : Contents :=
  match parser with
  | .script _ => script r s
  | .host _ parse =>
    match parse r.path with
    | .ok made => { changeSets := ((addChangeSets made s).1.toOption).getD [] }
    | .error _ => {}

/-- The traversal of an included file. A file that is missing or passed over has nothing. -/
def traverseFile (d : DocumentId) (relativeTo : Option String) (path : String) (i : Inclusion)
    (s : Session) : Contents :=
  match accept e relativeTo path i.skipsUnknown s with
  | (.ok (some (path, parser)), s) =>
    match compileWith e compiler parser (i.request d path) s with
    | (.ok _, _) => traverseWith script parser (i.request d path) s
    | (.error _, _) => {}
  | _ => {}

/-- The traversals of files, one after the other. -/
def traverseFiles (d : DocumentId) (i : Inclusion) : List String → Session → Contents
  | [], _ => {}
  | path :: rest, s =>
    traverseFile e compiler script d none path i s ++
      traverseFiles d i rest (includeFile e compiler d none path i s).2

/-- One change set for each file of statements. -/
def traverseStatements (d : DocumentId) (a : Attributes) (name : String → String) :
    List String → Session → Contents
  | [], _ => {}
  | path :: rest, s =>
    { changeSets := [s.store.changeSets.next] } ++
      traverseStatements d a name rest (includeStatements d a (name path) path s).2

/-- The traversal of an element by itself. -/
def traverseElement (d : DocumentId) (x : Element) (a : Attributes) (s : Session) : Contents :=
  match x with
  | .include =>
    match readInclude d a s with
    | (.ok (relativeTo, path, i), s) => traverseFile e compiler script d relativeTo path i s
    | (.error _, _) => {}
  | .includeAll =>
    match readIncludeAll e d a s with
    | (.ok (paths, i), s) => traverseFiles e compiler script d i paths s
    | (.error _, _) => {}
  | .includeAllSql =>
    match readIncludeAllSql e d a s with
    | (.ok (paths, name), s) => traverseStatements d a name paths s
    | (.error _, _) => {}
  | .removeProperty =>
    match readRemoval e d a s with
    | (.ok removal, _) => { removals := removal.toList }
    | (.error _, _) => {}
  | _ => {}

/-! ## Scripts -/

mutual

/-- The traversal of a step: an element by itself, the steps of a change log, or a change set, which
is the next one that comes into the store. -/
def traverseNode : Script.Node → Running → Contents
  | .call c, r =>
    match ScriptM.prepare e c r with
    | (.ok x, _) => traverseElement e compiler script r.frame.document x.element
        x.attributes r.session
    | (.error _, _) => {}
  | .block c body, r =>
    match ScriptM.prepare e c r with
    | (.ok { element := .changeSet, .. }, _) => { changeSets := [r.session.store.changeSets.next] }
    | (.ok { element := .changeLog, .. }, _) =>
      match ScriptM.call e compiler c r with
      | (.ok (.scope i), r) =>
        match ScriptM.enter i r with
        | (.ok (), r) => traverseNodes body r
        | (.error _, _) => {}
      | _ => {}
    | _ => {}
  | _, _ => {}

/-- The traversal of steps, one after the other. -/
def traverseNodes : List Script.Node → Running → Contents
  | [], _ => {}
  | node :: rest, r =>
    traverseNode node r ++ traverseNodes rest (ScriptM.runNode e compiler node r).2

end

end

/-- The traversal of a script, given those of the scripts that it includes. -/
def traverseWithin (e : Engine) (compiler : Compiler) (script : Request → Session → Contents)
    (r : Request) (s : Session) : Contents :=
  match openScript e r s with
  | (.ok o, s) =>
    traverseNodes e compiler script o.nodes (.start o.path o.document (s.opening o.path))
  | (.error _, _) => {}

/-- The traversal of a script in which so many more scripts may be open. -/
def traverseScript (e : Engine) : (depth : Nat) → Request → Session → Contents
  | 0 => traverseWithin e none fun _ _ => {}
  | depth + 1 => traverseWithin e (some (compileScript e depth)) (traverseScript e depth)

/-! ## What is added -/

/-- Change sets that came in between two stores, in the order in which they came in. -/
structure Store.Ascends (s s' : Store) (ids : List ChangeSetId) : Prop where
  sorted : ids.Pairwise (·.index < ·.index)
  added : ∀ i ∈ ids, s.Added s' i

namespace Store.Ascends

variable {s s' s'' : Store} {ids ids' : List ChangeSetId}

theorem nil (s s' : Store) : s.Ascends s' [] where
  sorted := .nil
  added := by simp

theorem single {i : ChangeSetId} (h : s.Added s' i) : s.Ascends s' [i] where
  sorted := List.pairwise_singleton _ _
  added j hj := by
    obtain rfl := List.mem_singleton.1 hj
    exact h

theorem append (h : s.Ascends s' ids) (h' : s'.Ascends s'' ids') (grows : s.Grows s')
    (grows' : s'.Grows s'') : s.Ascends s'' (ids ++ ids') where
  sorted := by
    refine List.pairwise_append.2 ⟨h.sorted, h'.sorted, fun i hi j hj => ?_⟩
    -- what came in first stands before the places that came in later
    exact Nat.lt_of_lt_of_le (h.added i hi).2 (Nat.le_of_not_lt (h'.added j hj).1)
  added i hi := by
    rcases List.mem_append.1 hi with hi | hi
    · exact (h.added i hi).mono grows'
    · exact (h'.added i hi).of_grows grows

theorem mono (h : s.Ascends s' ids) (grows : s'.Grows s'') : s.Ascends s'' ids where
  sorted := h.sorted
  added i hi := (h.added i hi).mono grows

theorem of_grows (h : s'.Ascends s'' ids) (grows : s.Grows s') : s.Ascends s'' ids where
  sorted := h.sorted
  added i hi := (h.added i hi).of_grows grows

end Store.Ascends

namespace Session

/-- A script has added to its document what the traversal says, and perhaps set its
preconditions. -/
structure Adds (b : Store) (d : DocumentId) (t : Contents) (s s' : Session) : Prop where
  advances : ∃ container, Advances b d (t.gain container) s s'
  ascends : s.store.Ascends s'.store t.changeSets

/-- A compile has made a document that holds what the traversal says. -/
structure Yields (t : Contents) (d : DocumentId) (s s' : Session) : Prop where
  document : ∃ doc, s'.store.documents.get? d = some doc ∧ doc.changeSets = t.changeSets ∧
    doc.removals = t.removals
  ascends : s.store.Ascends s'.store t.changeSets

namespace Adds

variable {b : Store} {d : DocumentId} {t u : Contents} {s s' s'' : Session}

theorem grows (h : Adds b d t s s') : s.store.Grows s'.store := by
  obtain ⟨_, adv⟩ := h.advances
  exact adv.grows

theorem quiet (adv : Advances b d {} s s') : Adds b d {} s s' where
  advances := ⟨none, adv⟩
  ascends := .nil _ _

theorem of_extends (base : b.Grows s.store) (hs : s.Extends s') : Adds b d {} s s' :=
  quiet (.of_extends base hs)

theorem trans (h : Adds b d t s s') (h' : Adds b d u s' s'') (known : s.store.Has d) :
    Adds b d (t ++ u) s s'' where
  advances := by
    obtain ⟨container, adv⟩ := h.advances
    obtain ⟨container', adv'⟩ := h'.advances
    exact ⟨_, adv.trans adv' known⟩
  ascends := h.ascends.append h'.ascends h.grows h'.grows

end Adds
end Session

/-- The compiler of included scripts makes documents that hold what the traversal says. -/
def Compiler.Follows (compiler : Compiler) (script : Request → Session → Contents) : Prop :=
  ∀ compile ∈ compiler, ∀ {r s d s'}, compile r s = (.ok d, s') → Yields (script r s) d s s'

namespace SessionM

variable {e : Engine} {compiler : Compiler} {script : Request → Session → Contents} {b : Store}
  {d : DocumentId} {s s₁ : Session}

theorem ascends_addChangeSets {made : List DraftChangeSet} {ids : List ChangeSetId}
    (h : addChangeSets made s = (.ok ids, s₁)) : s.store.Ascends s₁.store ids := by
  induction made generalizing s ids with
  | nil =>
    cases h
    exact .nil _ _
  | cons c rest ih =>
    obtain ⟨i, s₂, hi, h⟩ := Step.bind_eq_ok.1 h
    obtain ⟨more, s₃, hmore, h⟩ := Step.bind_eq_ok.1 h
    cases h
    have first : s.Extends s₂ := (keeps_addChangeSet c).of_run hi
    have others : s₂.Extends s₁ := (keeps_addChangeSets rest).of_run hmore
    exact (Store.Ascends.single (added_of_addChangeSet (.refl _) hi)).append (ih hmore)
      first.grows others.grows

/-- A file that is compiled becomes a document that holds what the traversal says. -/
theorem yields_compileWith (follows : compiler.Follows script) {parser : Parser} {r : Request}
    (h : compileWith e compiler parser r s = (.ok d, s₁)) :
    Yields (traverseWith script parser r s) d s s₁ := by
  cases parser with
  | host supports parse =>
    rw [compileWith_host] at h
    obtain ⟨made, ids, s₂, doc, parses, puts, pool, hd, changeSets, removals⟩ := hostDocument_ok h
    have contents : traverseWith script (.host supports parse) r s = { changeSets := ids } := by
      unfold traverseWith
      simp only [parses, puts]
      rfl
    rw [contents]
    refine ⟨⟨doc, hd, changeSets, removals⟩, (ascends_addChangeSets puts).sorted, fun i hi => ?_⟩
    obtain ⟨old, new⟩ := (ascends_addChangeSets puts).added i hi
    refine ⟨old, ?_⟩
    show i.index < s₁.store.changeSets.size
    rw [pool]
    exact new
  | script suffix =>
    cases compiler with
    | none => cases h
    | some compile => exact follows compile rfl h

/-- An include that succeeds adds the traversal of its file. -/
theorem adds_includeFile (sound : compiler.IsSound) (follows : compiler.Follows script)
    (owns : Owns b d s) {relativeTo : Option String} {path : String} {i : Inclusion}
    (h : includeFile e compiler d relativeTo path i s = (.ok (), s₁)) :
    Adds b d (traverseFile e compiler script d relativeTo path i s) s s₁ := by
  unfold traverseFile
  obtain ⟨failure, s₂, accepts, run⟩ | ⟨s₂, accepts, run⟩ |
    ⟨found, parser, s₂, s₃, accepts, ⟨failure, hc, run⟩ | ⟨child, hc, run⟩⟩ :=
      includeFile_cases e compiler d relativeTo path i s
  all_goals
    rw [run] at h
    rw [accepts]
    have kept : s.Extends s₂ := (keeps_accept e _ path _).of_run accepts
  · cases h
  · cases h
    exact .of_extends owns.base kept
  all_goals
    dsimp only
    rw [hc]
    have compiles := compiles_compileWith (e := e) sound parser (i.request d found)
    have made : s₂.Extends s₃ := compiles.keeps.of_run hc
  · -- a failure that is excused leaves the document as it was
    have excused : s₃.Extends s₁ := (keeps_excuse found i.required failure).of_run h
    exact .of_extends owns.base (kept.trans (made.trans excused))
  · obtain ⟨new, -⟩ := compiles.document hc
    obtain ⟨⟨doc, hd, changeSets, removals⟩, ascends⟩ := yields_compileWith follows hc
    have adv := advances_merge owns (kept.trans made) hd (fun old => new (kept.grows.has old))
      i.logicalPath
    have merged : (merge d child i.logicalPath s₃).2 = s₁ := by rw [h]
    rw [merged] at adv
    refine ⟨⟨none, ?_⟩, (ascends.mono ?_).of_grows kept.grows⟩
    · unfold Contents.gain
      rw [← changeSets, ← removals]
      exact adv
    · rw [← merged]
      exact grows_merge child i.logicalPath s₃

theorem adds_includeFiles (sound : compiler.IsSound) (follows : compiler.Follows script)
    (owns : Owns b d s) {i : Inclusion} {paths : List String}
    (h : includeFiles e compiler d i paths s = (.ok (), s₁)) :
    Adds b d (traverseFiles e compiler script d i paths s) s s₁ := by
  induction paths generalizing s with
  | nil =>
    cases h
    exact .quiet (.refl owns.base)
  | cons path rest ih =>
    obtain ⟨_, s₂, first, h⟩ := Step.bind_eq_ok.1 h
    have owns' := owns.works ((works_includeFile sound none path i).of_run first)
    have rest := ih owns' h
    have added := (adds_includeFile sound follows owns first).trans rest owns.known
    unfold traverseFiles
    rw [first]
    exact added

/-- The change set for a file of statements is the next one that comes into the store. -/
theorem next_of_newStatements {a : Attributes} {id path : String} {i : ChangeSetId}
    (h : newStatements d a id path s = (.ok i, s₁)) : i = s.store.changeSets.next := by
  obtain ⟨c, -, h⟩ := (keeps_newChangeSet d _).bind_eq_ok.1 h
  obtain ⟨record, -, h⟩ := (keeps_fill d _ _ _ _).bind_eq_ok.1 h
  obtain ⟨change, s₄, h₄, h⟩ := Step.bind_eq_ok.1 h
  cases h₄
  cases h
  rfl

/-- Every file of statements adds one change set. -/
theorem adds_includeStatementFiles (owns : Owns b d s) {a : Attributes} {name : String → String}
    {paths : List String} (h : includeStatementFiles d a name paths s = (.ok (), s₁)) :
    Adds b d (traverseStatements d a name paths s) s s₁ := by
  induction paths generalizing s with
  | nil =>
    cases h
    exact .quiet (.refl owns.base)
  | cons path rest ih =>
    obtain ⟨_, s₂, first, h⟩ := Step.bind_eq_ok.1 h
    have owns' := owns.works ((works_includeStatements a (name path) path).of_run first)
    have one : Adds b d { changeSets := [s.store.changeSets.next] } s s₂ := by
      obtain ⟨i, s₃, puts, first⟩ := Step.bind_eq_ok.1 first
      obtain rfl := next_of_newStatements puts
      have kept : s.Extends s₃ := (keeps_newStatements _ _ _).of_run puts
      have adv := advances_append owns kept s.store.changeSets.next
      cases first
      exact ⟨⟨none, adv⟩,
        .single ((added_of_newStatements puts).mono (grows_modifyDocument _ _ s₃))⟩
    have added := one.trans (ih owns' h) owns.known
    unfold traverseStatements
    rw [first]
    exact added

/-- An element that succeeds adds its traversal, whether it contributes to the document or not. -/
theorem adds_act (sound : compiler.IsSound) (follows : compiler.Follows script) (owns : Owns b d s)
    {x : Element} (new : x.IsNew b s.store) {positional : List Value} {a : Attributes}
    {result : Result} (h : act e compiler d x positional a s = (.ok result, s₁)) :
    Adds b d (traverseElement e compiler script d x a s) s s₁ := by
  by_cases contributes : x.contributes = true
  · cases x with
    | «include» =>
      obtain ⟨_, s₂, included, h⟩ := Step.bind_eq_ok.1 h
      cases h
      obtain ⟨⟨relativeTo, path, i⟩, reads, included⟩ :=
        (keeps_readInclude _ _).bind_eq_ok.1 included
      simp only [traverseElement, reads]
      exact adds_includeFile sound follows owns included
    | includeAll =>
      obtain ⟨_, s₂, included, h⟩ := Step.bind_eq_ok.1 h
      cases h
      obtain ⟨⟨paths, i⟩, s₂, reads, included⟩ := Step.bind_eq_ok.1 included
      have kept : s.Extends s₂ := (keeps_readIncludeAll e _).of_run reads
      have owns' := owns.works (AllowsGrowth.of_extends kept)
      simp only [traverseElement, reads]
      exact (Adds.of_extends owns.base kept).trans
        (adds_includeFiles sound follows owns' included) owns.known
    | includeAllSql =>
      obtain ⟨_, s₂, included, h⟩ := Step.bind_eq_ok.1 h
      cases h
      obtain ⟨⟨paths, name⟩, s₂, reads, included⟩ := Step.bind_eq_ok.1 included
      have kept : s.Extends s₂ := (keeps_readIncludeAllSql e _).of_run reads
      have owns' := owns.works (AllowsGrowth.of_extends kept)
      simp only [traverseElement, reads]
      exact (Adds.of_extends owns.base kept).trans (adds_includeStatementFiles owns' included)
        owns.known
    | removeProperty =>
      obtain ⟨_, s₂, removed, h⟩ := Step.bind_eq_ok.1 h
      cases h
      obtain ⟨removal, reads, removed⟩ := (keeps_readRemoval _ _ _).bind_eq_ok.1 removed
      simp only [traverseElement, reads]
      cases removal with
      | none =>
        cases removed
        exact .quiet (.refl owns.base)
      | some removal =>
        cases removed
        exact ⟨⟨none, advances_removal owns.owned removal s⟩, .nil _ _⟩
    | _ => cases contributes
  · have quiet := quiet_act owns.owned new (Bool.eq_false_iff.2 contributes) h owns.base owns.known
    have nothing : traverseElement e compiler script d x a s = {} := by
      cases x <;> first | rfl | exact absurd rfl contributes
    rw [nothing]
    exact .quiet quiet

end SessionM

end Migration
