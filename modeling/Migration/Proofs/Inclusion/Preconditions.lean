import Migration.Proofs.Inclusion.Nesting

/-!
# Included preconditions

An include puts the container of the included document into the container that the including
document has at that time. A block of preconditions that is left afterwards sets another container
for the document, and what was put into the one before is no longer in the document.

* `Includes` — a script includes a file on its way
* `Includes.nesting` — what becomes of the container of the included document
* `Carries.holds_iff` — whether a container that came in through several includes is in the document
* `preconditions_of_runs` — both for the scripts of a compile
-/

namespace Migration

open SessionM Session

/-- A script includes a file on its way: what is asked of the parser that takes the file, and the
session in which the file is compiled. -/
inductive Includes (e : Engine) (depth : Nat) (r : Request) (s : Session) (parser : Parser) :
    Request → Session → Prop
  | mk {o s₁ node rest running c relativeTo file i s₂ path s₃}
      (opens : openScript e r s = (.ok o, s₁))
      (reaches : Reaches e (compilerBelow e depth)
        (o.nodes, .start o.path o.document (s₁.opening o.path)) (node :: rest, running))
      (calls : node.call? = some c)
      (meets : Meets e (compilerBelow e depth) c running relativeTo file i s₂)
      (accepts : accept e relativeTo file i.skipsUnknown s₂ = (.ok (some (path, parser)), s₃)) :
      Includes e depth r s parser (i.request running.frame.document path) s₃

/-- What becomes of the container of an included document: `brought` is that container, `taken` the
one that the including document has at the include, and `kept` the one that it has in the end. The
included file is compiled between the stores `s₁` and `s₂`, and the including script ends in
`s'`. -/
structure Nesting (s₁ s₂ s' : Store) (taken brought kept : PreconditionId) : Prop where
  closed : s₂.IsClosed
  grows : s₂.Grows s'
  fenced : ∀ p c, s₁.Has p → s₂.Nests p c → s₁.Has c
  brought_isNew : s₁.Added s₂ brought
  brought_isRoot : s₂.IsRoot brought
  taken_isRoot : s'.IsRoot taken
  kept_isOld : s₂.Has kept → s₁.Has kept
  nests : ∀ p c, s₂.Has c →
    (s'.Nests p c ↔ s₂.Nests p c ∨ s₂.IsFull brought ∧ p = taken ∧ c = brought)
  order : s₂.IsFull brought → ∃ x x' after, s₂.preconditions.get? taken = some x ∧
    s'.preconditions.get? taken = some x' ∧ x'.nested = x.nested ++ brought :: after

namespace Nesting

variable {s₁ s₂ s' : Store} {taken brought kept p c : PreconditionId}

/-- The container of the included document is put into the one that the including document has at
the include, and into no other one. -/
theorem nests_brought (h : Nesting s₁ s₂ s' taken brought kept) :
    s'.Nests p brought ↔ s₂.IsFull brought ∧ p = taken := by
  rw [h.nests p brought h.brought_isNew.2]
  constructor
  · rintro (nests | ⟨full, same, -⟩)
    · exact absurd nests (h.brought_isRoot p)
    · exact ⟨full, same⟩
  · rintro ⟨full, same⟩
    exact .inr ⟨full, same, rfl⟩

/-- What was in the store when the included file was compiled holds nothing of the included
document. -/
theorem has_of_holds (h : Nesting s₁ s₂ s' taken brought kept) (old : s₁.Has p)
    (hc : s₂.Holds p c) : s₁.Has c := by
  induction hc with
  | refl => exact old
  | tail _ nests ih => exact h.fenced _ _ ih nests

theorem holds_mono (h : Nesting s₁ s₂ s' taken brought kept) (hc : s₂.Holds p c) :
    s'.Holds p c := by
  refine Relation.ReflTransGen.mono (fun q j nests => ?_) _ _ hc
  exact (h.nests q j (h.closed q j nests)).2 (.inl nests)

/-- What holds a precondition of the included document in the end has held it before, or it holds
the container that the include has put the other one into. -/
theorem holds_cases (h : Nesting s₁ s₂ s' taken brought kept) (hc : s'.Holds p c) (has : s₂.Has c) :
    s₂.Holds p c ∨ s'.Holds p taken ∧ s₂.IsFull brought ∧ s₂.Holds brought c := by
  induction hc with
  | refl => exact .inl .refl
  | @tail q j holds nests ih =>
    rcases (h.nests q j has).1 nests with nests | ⟨full, rfl, rfl⟩
    · rcases ih nests.has with holds | ⟨outer, full, inner⟩
      · exact .inl (holds.tail nests)
      · exact .inr ⟨outer, full, inner.tail nests⟩
    · exact .inr ⟨holds, full, .refl⟩

/-- A container that came in with the included document is in the including one in the end if and
only if that still has the container which it had at the include. -/
theorem holds_iff (h : Nesting s₁ s₂ s' taken brought kept) (new : s₁.Added s₂ c)
    (full : s₂.IsFull c) : s'.Holds kept c ↔ taken = kept ∧ s₂.Holds brought c := by
  constructor
  · intro hc
    rcases h.holds_cases hc new.2 with holds | ⟨outer, -, inner⟩
    · exact absurd (h.has_of_holds (h.kept_isOld (holds.has new.2)) holds) new.1
    · exact ⟨(outer.eq_of_isRoot h.taken_isRoot).symm, inner⟩
  · rintro ⟨rfl, inner⟩
    have brought_isFull : s₂.IsFull brought := by
      rcases Relation.ReflTransGen.cases_head inner with rfl | ⟨j, nests, -⟩
      · exact full
      · exact ⟨j, nests⟩
    have nests : s'.Nests taken brought := h.nests_brought.2 ⟨brought_isFull, rfl⟩
    exact Relation.ReflTransGen.head nests (h.holds_mono inner)

end Nesting

section

variable {e : Engine} {depth : Nat} {r r' : Request} {s s₁ s₂ s' : Session} {parser : Parser}
  {d child : DocumentId}

/-- The session in which an included file is compiled. -/
theorem Includes.deepens (h : Includes e depth r s parser r' s₁) :
    s.store.Deepens s₁.store := by
  obtain ⟨opens, reaches, -, meets, accepts⟩ := h
  rename_i o s₀ node rest running c relativeTo file i s₂ path
  have sound := compilerBelow_isSound e depth
  obtain ⟨-, kept, -⟩ := openScript_ok opens
  obtain ⟨owns, _, -, adv⟩ := reaches.works sound (owns_of_open opens)
  obtain ⟨_, -, -, met⟩ := meets.works sound owns.session
  obtain ⟨-, -, -, -, rfl⟩ := of_accept accepts
  exact kept.deepens.trans (adv.session.deepens.trans met.deepens)

theorem includeFile_of_ok {compiler : Compiler} {relativeTo : Option String} {file path : String}
    {i : Inclusion} {included : DraftDocument}
    (accepts : accept e relativeTo file i.skipsUnknown s = (.ok (some (path, parser)), s₁))
    (made : compileWith e compiler parser (i.request d path) s₁ = (.ok child, s₂))
    (hc : s₂.store.documents.get? child = some included) :
    includeFile e compiler d relativeTo file i s =
      (.ok (), (merge d child i.logicalPath s₂).2) := by
  rw [includeFile_of_accept accepts, bringIn_of_ok made, merge_eq hc]
  rfl

/-- The container of a document comes in with the compile of its file, and it is inside no other
precondition. -/
theorem container_of_compileWith {r : Request} (closed : s.store.IsClosed)
    (made : compileWith e (compilerBelow e depth) parser r s = (.ok child, s₁)) :
    s.Extends s₁ ∧ ∃ included, s₁.store.documents.get? child = some included ∧
      s.store.Added s₁.store included.preconditions ∧ s₁.store.IsRoot included.preconditions := by
  have compiled := compiles_compileWith (e := e) (compilerBelow_isSound e depth) parser r
  have extends_ : s.Extends s₁ := compiled.keeps.of_run made
  obtain ⟨fresh, included, hchild, -⟩ := compiled.document made
  obtain ⟨included', hchild', root⟩ := isRoot_of_compileWith closed made
  obtain rfl : included = included' := Option.some.inj (hchild.symm.trans hchild')
  have parts := extends_.newDocuments child included hchild fresh
  exact ⟨extends_, included, hchild, parts.preconditions, root⟩

/-- From where a file has been included to the end of its script the containers only deepen, and
those that the script sets in the end are those that it could set before, or new ones. -/
theorem resumes_of_includeFile {compiler : Compiler} (sound : compiler.IsSound) {b : Store}
    {start running last : Running} {nodes rest : List Script.Node} {node : Script.Node}
    {c : Script.Call} {relativeTo : Option String} {file : String} {i : Inclusion}
    (owns : running.Owns b) (reaches : Reaches e compiler (nodes, start) (node :: rest, running))
    (calls : node.call? = some c) (meets : Meets e compiler c running relativeTo file i s₁)
    (ends : includeFile e compiler running.frame.document relativeTo file i s₁ = (.ok (), s₂))
    (runs : ScriptM.runNodes e compiler nodes start = (.ok (), last)) :
    last.Owns b ∧ s₂.store.Deepens last.session.store ∧ ∀ container, last.Sets container →
      running.Sets container ∨ s₂.store.Added last.session.store container := by
  have steady := ScriptM.renews_steady (e := e) (b := b) sound
  have met : running.session.Works b running.frame.document s₁ := meets.works sound
  have merged := (works_includeFile (b := b) (d := running.frame.document) sound relativeTo file
    i).of_run ends
  obtain ⟨outcome, s₃, called, more⟩ := meets.call_of_ok (b := b) sound ends
  have total := trans_of (Works b _) met (trans_of (Works b _) merged more)
  have ownsMerged := (owns.session.works met).works merged
  have rests := trans_of (Running.Renews b) (steady.rest_of_call calls called rest)
    (steady.rest_of_reaches reaches)
  rw [runs] at rests
  obtain ⟨ownsCalled, -⟩ := (ScriptM.works_call (b := b) sound c).of_run called owns
  obtain ⟨ownsLast, deepens, renews⟩ := rests ownsCalled
  refine ⟨ownsLast, (more.deepens ownsMerged).trans deepens, fun container sets => ?_⟩
  rcases renews container sets with sets | ⟨added, -⟩
  · exact .inl (Running.sets_of_works owns total sets)
  · exact .inr (added.of_grows (more.deepens ownsMerged).grows)

/-- What a merge makes of the container of a document that has been compiled, when the preconditions
only deepen after it. -/
theorem Nesting.of_merge {included doc : DraftDocument} {path : Value} {kept : PreconditionId}
    (closed : s₁.store.IsClosed) (extends_ : s₁.Extends s₂)
    (hchild : s₂.store.documents.get? child = some included)
    (hd : s₂.store.documents.get? d = some doc)
    (brought_isNew : s₁.store.Added s₂.store included.preconditions)
    (brought_isRoot : s₂.store.IsRoot included.preconditions)
    (known : s₁.store.Has doc.preconditions) (taken_isRoot : s'.store.IsRoot doc.preconditions)
    (kept_isOld : s₂.store.Has kept → s₁.store.Has kept)
    (follows : (merge d child path s₂).2.store.Deepens s'.store) :
    Nesting s₁.store s₂.store s'.store doc.preconditions included.preconditions kept where
  closed := extends_.deepens.isClosed closed
  grows := (grows_merge (d := d) child path s₂).trans follows.grows
  fenced := fun p j old ⟨x, hx, mem⟩ => closed p j ⟨x, (extends_.kept p old).symm.trans hx, mem⟩
  brought_isNew := brought_isNew
  brought_isRoot := brought_isRoot
  taken_isRoot := taken_isRoot
  kept_isOld := kept_isOld
  nests := fun p j has => by
    have known : s₂.store.Has doc.preconditions := extends_.grows.has known
    have has := (grows_merge (d := d) child path s₂).has has
    rw [← nests_merge hchild hd known path]
    exact ⟨fun h => follows.nests_of_has h has, follows.nests⟩
  order := fun full => by
    obtain ⟨x, hx⟩ := Store.exists_get?_of_has (extends_.grows.has known)
    have hx : s₂.store.preconditions.get? doc.preconditions = some x := hx
    have pool := (preconditions_merge hchild hd path).1 full
    obtain ⟨x', more, hx', heq, -⟩ := follows.nested doc.preconditions
      { x with nested := x.nested ++ [included.preconditions] } (by
        rw [pool, Pool.get?_modify, if_pos rfl, hx]
        rfl)
    exact ⟨x, x', more, hx, hx', by rw [heq, List.append_assoc]; rfl⟩

/-- What becomes of the container of an included document. -/
theorem Includes.nesting (closed : s.store.IsClosed) (h : Includes e depth r s parser r' s₁)
    (compiles : compileScript e depth r s = (.ok d, s'))
    (made : compileWith e (compilerBelow e depth) parser r' s₁ = (.ok child, s₂)) :
    ∃ doc included doc', s₂.store.documents.get? d = some doc ∧
      s₂.store.documents.get? child = some included ∧ s'.store.documents.get? d = some doc' ∧
      Nesting s₁.store s₂.store s'.store doc.preconditions included.preconditions
        doc'.preconditions := by
  have closed₁ := h.deepens.isClosed closed
  obtain ⟨extends_, included, hchild, brought_isNew, brought_isRoot⟩ :=
    container_of_compileWith closed₁ made
  obtain ⟨opens, reaches, calls, meets, accepts⟩ := h
  rename_i o s₀ node rest running c relativeTo file i before path
  have sound := compilerBelow_isSound e depth
  rw [compileScript_eq] at compiles
  obtain ⟨o', s₀', last, opens', runs, -, rfl, rfl⟩ := compileWithin_ok compiles
  obtain ⟨rfl, rfl⟩ : o = o' ∧ s₀ = s₀' := by
    obtain ⟨opened, session⟩ := Prod.mk.inj (opens.symm.trans opens')
    exact ⟨Except.ok.inj opened, session⟩
  -- up to the include
  obtain ⟨owns, _, -, adv⟩ := reaches.works sound (owns_of_open opens)
  have document : running.frame.document = o.document := adv.frame.document
  obtain rfl : s₁ = before := (of_accept accepts).2.2.2.2
  have met : running.session.Works s.store running.frame.document s₁ := meets.works sound
  have owns₁ := owns.session.works met
  obtain ⟨doc, hd₁, parts⟩ := owns₁.document
  have hd : s₂.store.documents.get? running.frame.document = some doc :=
    (extends_.kept _ owns₁.known).trans hd₁
  -- the merge, and what follows it
  have ends := includeFile_of_ok accepts made hchild
  have merged :=
    (works_includeFile (b := s.store) (d := running.frame.document) sound relativeTo file
    i).of_run ends
  obtain ⟨ownsLast, follows, renews⟩ :=
    resumes_of_includeFile sound owns reaches calls meets ends runs
  obtain ⟨_, _, -, advLast⟩ := ((ScriptM.works_steady (b := s.store) sound).runNodes o.nodes).of_run
    runs (owns_of_open opens)
  have documentLast : last.frame.document = o.document := advLast.frame.document
  obtain ⟨doc', hd', -⟩ := ownsLast.session.document
  refine ⟨doc, included, doc', document ▸ hd, hchild, documentLast ▸ hd', ?_⟩
  -- the container at the include is one that the script has set, and so is the last one if it is
  -- old
  have sets : running.Sets doc.preconditions :=
    Running.sets_of_works owns met (.inl ⟨doc, hd₁, rfl⟩)
  have root := isRoot_of_sets closed opens
    ((ScriptM.renews_steady sound).reaches reaches) sets
  have whole := (met.deepens owns.session).trans ((merged.deepens owns₁).trans follows)
  refine .of_merge closed₁ extends_ hchild hd brought_isNew brought_isRoot parts.preconditions.2
    (whole.isRoot (sets.has owns) root) (fun has => ?_) follows
  rcases renews _ (.inl ⟨doc', hd', rfl⟩) with sets | added
  · exact (met.deepens owns.session).grows.has (sets.has owns)
  · exact absurd ((grows_merge child i.logicalPath s₂).has has) added.1

/-! ## Through several includes -/

/-- The containers that an including document has: the one at an include, and the one in the end. -/
structure Link where
  taken : PreconditionId
  kept : PreconditionId

/-- A compile of a script has brought in a container with something inside it: that of its document,
or one that came in through includes, each with the containers of the including document. -/
inductive Carries (e : Engine) :
    Nat → Request → Session → DocumentId → Session → List Link → PreconditionId → Prop
  | own {depth r s d s' doc} (compiles : compileScript e depth r s = (.ok d, s'))
      (hd : s'.store.documents.get? d = some doc) (full : s'.store.IsFull doc.preconditions) :
      Carries e depth r s d s' [] doc.preconditions
  | included {depth r s d s' suffix r' s₁ child s₂ doc doc' links c}
      (compiles : compileScript e (depth + 1) r s = (.ok d, s'))
      (includes : Includes e (depth + 1) r s (.script suffix) r' s₁)
      (carries : Carries e depth r' s₁ child s₂ links c)
      (hd : s₂.store.documents.get? d = some doc) (hd' : s'.store.documents.get? d = some doc') :
      Carries e (depth + 1) r s d s' (⟨doc.preconditions, doc'.preconditions⟩ :: links) c

theorem Carries.compiles {links : List Link} {c : PreconditionId}
    (h : Carries e depth r s d s' links c) : compileScript e depth r s = (.ok d, s') := by
  cases h with
  | own compiles => exact compiles
  | included compiles => exact compiles

/-- What a compile carries came in by it, and has something inside. -/
theorem Carries.added {links : List Link} {c : PreconditionId}
    (h : Carries e depth r s d s' links c) (closed : s.store.IsClosed) :
    s.store.Added s'.store c ∧ s'.store.IsFull c := by
  induction h with
  | @own depth r s d s' doc compiles hd full =>
    have compiled := compiles_compileScript (e := e) depth r
    have extends_ : s.Extends s' := compiled.keeps.of_run compiles
    obtain ⟨new, -⟩ := compiled.document compiles
    exact ⟨(extends_.newDocuments d doc hd new).preconditions, full⟩
  | @included depth r s d s' suffix r' s₁ child s₂ doc doc' links c
      compiles includes carries hd hd' ih =>
    have deepens := includes.deepens
    obtain ⟨added, j, nests⟩ := ih (deepens.isClosed closed)
    obtain ⟨_, _, _, -, -, -, nesting⟩ := includes.nesting closed compiles carries.compiles
    refine ⟨(added.mono nesting.grows).of_grows deepens.grows, j, ?_⟩
    exact (nesting.nests c j (nesting.closed c j nests)).2 (.inl nests)

/-- A container that came in through includes is in the document in the end if and only if every
including document has kept the container that it had at the include. -/
theorem Carries.holds_iff {links : List Link} {c : PreconditionId} {final : DraftDocument}
    (h : Carries e depth r s d s' links c) (closed : s.store.IsClosed)
    (hd : s'.store.documents.get? d = some final) :
    s'.store.Holds final.preconditions c ↔ ∀ l ∈ links, l.taken = l.kept := by
  induction h generalizing final with
  | @own depth r s d s' doc compiles hdoc full =>
    obtain rfl : doc = final := Option.some.inj (hdoc.symm.trans hd)
    exact ⟨fun _ l hl => (by cases hl), fun _ => .refl⟩
  | @included depth r s d s' suffix r' s₁ child s₂ doc doc' links c compiles includes
      carries hdoc hdoc'
      ih =>
    have closed₁ := includes.deepens.isClosed closed
    obtain ⟨added, full⟩ := carries.added closed₁
    obtain ⟨before, inner, after, hb, hi, ha, nesting⟩ :=
      includes.nesting closed compiles carries.compiles
    obtain rfl : before = doc := Option.some.inj (hb.symm.trans hdoc)
    obtain rfl : after = doc' := Option.some.inj (ha.symm.trans hdoc')
    obtain rfl : after = final := Option.some.inj (ha.symm.trans hd)
    rw [nesting.holds_iff added full, ih closed₁ hi, List.forall_mem_cons]

/-! ## Scripts of a compile -/

/-- A script is compiled in the course of the compile of a change log. -/
inductive Engine.Runs (e : Engine) (table : Table) (path : String) : Nat → Request → Session → Prop
  | root : Runs e table path (e.settings.maxIncludeDepth - 1) { path } { table }
  | included {depth r s suffix r' s'} (runs : Runs e table path (depth + 1) r s)
      (includes : Includes e (depth + 1) r s (.script suffix) r' s') : Runs e table path depth r' s'

theorem Engine.Runs.isClosed {table : Table} {path : String} (h : e.Runs table path depth r s) :
    s.store.IsClosed := by
  induction h with
  | root =>
    rintro p c ⟨x, hx, -⟩
    cases Array.getElem?_eq_some_iff.1 hx with
    | intro lt _ => cases lt
  | included _ includes ih => exact includes.deepens.isClosed ih

end

/-- Any script of a compile, in whatever order its includes and its blocks of preconditions stand:
when it includes a file whose document has a container with something inside, that container is put
behind what is in the container that the including document has at the time, and it stays there. It
is in the container that the document has in the end if and only if that is still the same one,
which it is not when a block of preconditions has set another one after the include. A container
that comes in through several includes is in the document in the end if and only if this holds of
every one of them. -/
theorem preconditions_of_runs (e : Engine) (table : Table) (path : String) {depth : Nat} {r : Request}
    {s s' : Session} {d : DocumentId} {final : DraftDocument} (runs : e.Runs table path depth r s)
    (compiles : compileScript e depth r s = (.ok d, s'))
    (hd : s'.store.documents.get? d = some final) :
    (∀ parser r' s₁ child s₂, Includes e depth r s parser r' s₁ →
      compileWith e (compilerBelow e depth) parser r' s₁ = (.ok child, s₂) →
      ∃ doc included, s₂.store.documents.get? d = some doc ∧
        s₂.store.documents.get? child = some included ∧
        (s₂.store.IsFull included.preconditions →
          (∃ x x' after, s₂.store.preconditions.get? doc.preconditions = some x ∧
            s'.store.preconditions.get? doc.preconditions = some x' ∧
            x'.nested = x.nested ++ included.preconditions :: after) ∧
          (s'.store.Nests final.preconditions included.preconditions ↔
            final.preconditions = doc.preconditions))) ∧
      ∀ links c, Carries e depth r s d s' links c →
        (s'.store.Holds final.preconditions c ↔ ∀ l ∈ links, l.taken = l.kept) := by
  refine ⟨fun parser r' s₁ child s₂ includes made => ?_, fun links c carries => ?_⟩
  · obtain ⟨doc, included, last, hdoc, hchild, hlast, nesting⟩ :=
      includes.nesting runs.isClosed compiles made
    obtain rfl : last = final := Option.some.inj (hlast.symm.trans hd)
    refine ⟨doc, included, hdoc, hchild, fun full => ⟨nesting.order full, ?_⟩⟩
    rw [nesting.nests_brought]
    exact ⟨fun h => h.2, fun same => ⟨full, same⟩⟩
  · exact carries.holds_iff runs.isClosed hd

/-- A script that includes another one, which has a precondition, and then goes on. -/
def includingPreconditions (more : List Script.Node) : Engine := .ofScripts [
  ("a.py", [.block { element := "databaseChangeLog" }
    (.call { element := "include", attributes := [("file", .literal (.text "b.py"))] } :: more)]),
  ("b.py", [.block { element := "databaseChangeLog" } [
    .block { element := "preConditions" } [
      .call { element := "tableExists", attributes := [("tableName", .literal (.text "t"))] }]]])]

/-- Where the script does not go on, the precondition is in its document. -/
theorem preconditions_of_runs_includingPreconditions :
    ∃ s' final r' s₁ s₂ included,
      compileScript (includingPreconditions []) 63 { path := "a.py" }
        { table := .ofRun none none none } = (.ok ⟨0⟩, s') ∧
      s'.store.documents.get? ⟨0⟩ = some final ∧
      Includes (includingPreconditions []) 63 { path := "a.py" } { table := .ofRun none none none }
        (.script ".py") r' s₁ ∧
      compileWith (includingPreconditions []) (compilerBelow (includingPreconditions []) 63)
        (.script ".py") r' s₁ = (.ok ⟨1⟩, s₂) ∧
      s₂.store.documents.get? ⟨1⟩ = some included ∧ s₂.store.IsFull included.preconditions ∧
      s'.store.Nests final.preconditions included.preconditions := by
  let c : Script.Call :=
    { element := "include", attributes := [("file", .literal (.text "b.py"))] }
  let s₁ : Session := (newDocument { path := "a.py" } none { table := .ofRun none none none }).2
  have opens : openScript (includingPreconditions []) { path := "a.py" }
      { table := .ofRun none none none } =
    (.ok { path := "a.py", nodes := [.block { element := "databaseChangeLog" } [.call c]],
           document := ⟨0⟩ }, s₁) := rfl
  -- the block is opened, and nothing is done in it before the include
  let r₁ : Running := (ScriptM.call (includingPreconditions [])
    (compilerBelow (includingPreconditions []) 63) { element := "databaseChangeLog" }
    (.start "a.py" ⟨0⟩ (s₁.opening "a.py"))).2
  let r₂ : Running := (ScriptM.enter 0 r₁).2
  have calls : ScriptM.call (includingPreconditions [])
    (compilerBelow (includingPreconditions []) 63) { element := "databaseChangeLog" }
    (.start "a.py" ⟨0⟩ (s₁.opening "a.py")) = (.ok (.scope 0), r₁) := rfl
  have enters : ScriptM.enter 0 r₁ = (.ok (), r₂) := rfl
  have reaches : Reaches (includingPreconditions []) (compilerBelow (includingPreconditions []) 63)
      ([.block { element := "databaseChangeLog" } [.call c]],
        .start "a.py" ⟨0⟩ (s₁.opening "a.py")) ([.call c], r₂) :=
    .single (.block calls enters)
  have prepares : ScriptM.prepare (includingPreconditions []) c r₂ =
      (.ok { element := .include, positional := [], attributes := [("file", .text "b.py")] }, r₂) :=
    rfl
  have reads : readInclude ⟨0⟩ [("file", .text "b.py")] (s₁.opening "a.py") = _ :=
    readInclude_file (by decide +kernel) (by decide) _ _
  have accepts : accept (includingPreconditions []) none "b.py" false (s₁.opening "a.py") =
      (.ok (some ("b.py", .script ".py")), s₁.opening "a.py") := by
    have takes : (includingPreconditions []).parser? "b.py" = some (.script ".py") :=
      Engine.parser?_ofScripts (by decide +kernel)
    exact accept_eq rfl takes false (s₁.opening "a.py")
  have includes := Includes.mk opens reaches rfl (.file prepares rfl reads) accepts
  let i : Inclusion := { inheritance := {}, logicalPath := .null }
  have made : (compileScript (includingPreconditions []) 62 (i.request ⟨0⟩ "b.py")
      (s₁.opening "a.py")).1.toOption.map id = some ⟨1⟩ := by
    decide +kernel
  have inner : (fun s : Session => ((s.store.documents.get? ⟨0⟩).map (·.preconditions),
      (s.store.documents.get? ⟨1⟩).map (·.preconditions),
      (s.store.preconditions.get? ⟨2⟩).any (!·.nested.isEmpty)))
        (compileScript (includingPreconditions []) 62 (i.request ⟨0⟩ "b.py") (s₁.opening "a.py")).2 =
      (some ⟨0⟩, some ⟨2⟩, true) := by
    decide +kernel
  have compiles : (compileScript (includingPreconditions []) 63 { path := "a.py" }
      { table := .ofRun none none none }).1.toOption.map id = some ⟨0⟩ := by
    decide +kernel
  have outer : ((compileScript (includingPreconditions []) 63 { path := "a.py" }
      { table := .ofRun none none none }).2.store.documents.get? ⟨0⟩).map (·.preconditions) =
        some ⟨0⟩ := by
    decide +kernel
  obtain ⟨child, s₂, made, rfl⟩ := Step.eq_ok_of_map made
  obtain ⟨root, s', compiles, rfl⟩ := Step.eq_ok_of_map compiles
  rw [made] at inner
  rw [compiles] at outer
  simp only [Prod.mk.injEq] at inner
  obtain ⟨first, second, full⟩ := inner
  obtain ⟨final, hd, kept⟩ := Option.map_eq_some_iff.1 outer
  obtain ⟨doc', hdoc', taken⟩ := Option.map_eq_some_iff.1 first
  obtain ⟨included', hchild', brought⟩ := Option.map_eq_some_iff.1 second
  obtain ⟨one, -⟩ := preconditions_of_runs (includingPreconditions []) (.ofRun none none none) "a.py"
    .root compiles hd
  obtain ⟨doc, included, hdoc, hchild, nested⟩ := one _ _ _ _ _ includes made
  obtain rfl : doc' = doc := Option.some.inj (hdoc'.symm.trans hdoc)
  obtain rfl : included' = included := Option.some.inj (hchild'.symm.trans hchild)
  have full : s₂.store.IsFull included'.preconditions := (isFull_iff _ _).1 (brought ▸ full)
  obtain ⟨-, iff⟩ := nested full
  exact ⟨s', final, _, _, s₂, included', compiles, hd, includes, made, hchild, full,
    iff.2 (kept.trans taken.symm)⟩

/-- Where the script goes on with a block of preconditions, the container of the included document
is nowhere in its document, although the include has succeeded and there is a precondition
inside. -/
theorem not_holds_includingPreconditions :
    ∃ c : Compilation, c =
      (includingPreconditions [.block { element := "preConditions" } []]).compile
        (.ofRun none none none) "a.py" ∧
      ∃ final included, c.document? = some final ∧
        c.session.store.documents.get? ⟨1⟩ = some included ∧ included.parent = some ⟨0⟩ ∧
        c.session.store.IsFull included.preconditions ∧
        ¬c.session.store.Holds final.preconditions included.preconditions := by
  have outer : (fun c : Compilation => c.document?.map fun d => (d.preconditions,
      (c.session.store.preconditions.get? d.preconditions).map (·.nested)))
        ((includingPreconditions [.block { element := "preConditions" } []]).compile
          (.ofRun none none none) "a.py") = some (⟨4⟩, some []) := by
    decide +kernel
  have inner : (fun c : Compilation => (c.session.store.documents.get? ⟨1⟩).map fun d =>
      (d.parent, d.preconditions, (c.session.store.preconditions.get? ⟨2⟩).any (!·.nested.isEmpty)))
        ((includingPreconditions [.block { element := "preConditions" } []]).compile
          (.ofRun none none none) "a.py") = some (some ⟨0⟩, ⟨2⟩, true) := by
    decide +kernel
  refine ⟨_, rfl, ?_⟩
  generalize (includingPreconditions [.block { element := "preConditions" } []]).compile
    (.ofRun none none none) "a.py" = c at outer inner ⊢
  obtain ⟨final, hd, seen⟩ := Option.map_eq_some_iff.1 outer
  obtain ⟨included, hchild, seen'⟩ := Option.map_eq_some_iff.1 inner
  simp only [Prod.mk.injEq] at seen seen'
  obtain ⟨kept, nothing⟩ := seen
  obtain ⟨parent, brought, full⟩ := seen'
  refine ⟨final, included, hd, hchild, parent, ?_, fun holds => ?_⟩
  · exact (isFull_iff _ _).1 (brought ▸ full)
  · rcases Relation.ReflTransGen.cases_head holds with same | ⟨j, ⟨x, hx, mem⟩, -⟩
    · rw [kept, brought] at same
      cases same
    · rw [hx] at nothing
      have empty : x.nested = [] := Option.some.inj nothing
      rw [empty] at mem
      cases mem

end Migration
