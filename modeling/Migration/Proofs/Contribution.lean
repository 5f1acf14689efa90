import Migration.Proofs.Element

/-!
# What elements contribute

An include compiles another document, which leaves alone everything that was there, and then adds
what that document holds to the including one. Whatever elements contribute to a document is new,
whether they succeed or fail half way.

* `Session.Owns` — a script owns the document that it builds
* `Compiles` — what the compile of an included file does
* `SessionM.advances_merge` — what a merge adds
* `SessionM.works_act` — every element of a script contributes something new, and changes only what
  the script owns
-/

namespace Migration

/-- The compile of a file leaves alone what was there and makes a new document, which notes what the
request says about its change sets. -/
structure Compiles (r : Request) (compile : SessionM DocumentId) : Prop where
  keeps : Keeps Session.Extends compile
  document : ∀ {s i s'}, compile s = (.ok i, s') →
    ¬s.store.Has i ∧ ∃ d, s'.store.documents.get? i = some d ∧ d.inheritance = r.inheritance

namespace Session

/-- The script that was opened on the store `b` owns its document and the parts of it. -/
structure Owns (b : Store) (d : DocumentId) (s : Session) : Prop where
  base : b.Grows s.store
  owned : ¬b.Has d
  document : ∃ doc, s.store.documents.get? d = some doc ∧ doc.IsNew b s.store

theorem Owns.of_grows {b c : Store} {d : DocumentId} {s : Session} (grows : c.Grows b)
    (h : Owns b d s) : Owns c d s where
  base := grows.trans h.base
  owned old := h.owned (grows.has old)
  document := by
    obtain ⟨doc, hd, parts⟩ := h.document
    exact ⟨doc, hd, parts.of_grows grows⟩

/-- What an element does to the session: its document gains something that comes in with it, but no
other container. -/
def Works (b : Store) (d : DocumentId) (s s' : Session) : Prop :=
  Owns b d s → ∃ g : Gain, g.IsNew s.store s'.store ∧ g.container = none ∧ Advances b d g s s'

variable {b : Store} {d : DocumentId} {g : Gain} {s s' : Session}

theorem Owns.known (h : Owns b d s) : s.store.Has d := by
  obtain ⟨doc, hd, -⟩ := h.document
  exact Store.has_of_get? hd

theorem Owns.advance (h : Owns b d s) (adv : Advances b d g s s') (new : g.IsNew b s'.store) :
    Owns b d s' where
  base := h.base.trans adv.grows
  owned := h.owned
  document := by
    obtain ⟨doc, hd, parts⟩ := h.document
    obtain ⟨doc', hd', gains⟩ := adv.document doc hd
    exact ⟨doc', hd', (parts.mono adv.grows).gains new gains⟩

theorem Owns.works (h : Owns b d s) (works : Works b d s s') : Owns b d s' := by
  obtain ⟨g, new, -, adv⟩ := works h
  exact h.advance adv (new.of_grows h.base)

theorem Quiet.works (h : Quiet b d s s') : Works b d s s' :=
  fun owns => ⟨{}, Gain.isNew_empty _ _, rfl, h owns.base owns.known⟩

instance : AllowsGrowth (Works b d) where
  refl _ := Quiet.works (refl_of (Quiet b d) _)
  trans s₁ s₂ s₃ h h' owns := by
    obtain ⟨g, new, same, adv⟩ := h owns
    obtain ⟨g', new', same', adv'⟩ := h' (owns.works h)
    refine ⟨g ++ g', (new.mono adv'.grows).append (new'.of_grows adv.grows), ?_,
      adv.trans adv' owns.known⟩
    rw [Gain.container_append, same, same', Option.or_none]
  of_extends h := Quiet.works (AllowsGrowth.of_extends h)

/-- A script that has started on new ground changes nothing that was there before. -/
theorem Extends.advance {s₁ s₂ : Session} (hs : s.Extends s₁) (owns : Owns s.store d s₁)
    (adv : Advances s.store d g s₁ s₂) (new : g.IsNew s.store s₂.store) : s.Extends s₂ where
  chain := adv.chain.trans hs.chain
  grows := hs.grows.trans adv.grows
  kept i hi := (adv.kept i hi).trans (hs.kept i hi)
  newDocuments i doc hd hi := by
    by_cases old : s₁.store.Has i
    · by_cases h : i = d
      · subst h
        obtain ⟨doc₁, hd₁, parts⟩ := owns.document
        have gains := adv.gains hd₁ hd
        exact (parts.mono adv.grows).gains new gains
      · have hd₁ : s₁.store.documents.get? i = some doc := (adv.others i old h).symm.trans hd
        exact (hs.newDocuments i doc hd₁ hi).mono adv.grows
    · exact (adv.newDocuments i doc hd old).of_grows hs.grows
  newPreconditions := (hs.deepens.trans adv.deepens).newPreconditions

end Session

namespace SessionM

open Session

variable {b : Store} {d : DocumentId} {g : Gain} {s s₁ : Session}

theorem document_eq {i : DocumentId} {doc : DraftDocument}
    (h : s.store.documents.get? i = some doc) : SessionM.document i s = (.ok doc, s) := by
  show (Except.ok ((s.store.documents.get? i).getD _), s) = _
  rw [h]
  rfl

/-! ## Merges -/

@[grind ←] theorem grows_mergeChangeSets (h : Inheritance) (path : Value) (ids : List ChangeSetId) :
    Keeps Grows (mergeChangeSets d h path ids) := by
  induction ids with
  | nil => exact .pure _
  | cons i rest ih => grind [mergeChangeSets]

@[grind ←] theorem grows_nestContainer (container : PreconditionId) :
    Keeps Grows (nestContainer d container) := by
  grind [nestContainer]

theorem grows_merge (child : DocumentId) (path : Value) : Keeps Grows (merge d child path) := by
  grind [merge]

theorem mergeChangeSets_ok (h : Inheritance) (path : Value) (ids : List ChangeSetId) (s : Session) :
    (mergeChangeSets d h path ids s).1 = .ok () := by
  induction ids generalizing s with
  | nil => rfl
  | cons i rest ih => exact ih _

theorem mergeChangeSets_advances (owns : Owns b d s) (adv : Advances b d g s s₁)
    (h : Inheritance) (path : Value) (ids : List ChangeSetId) (new : ∀ i ∈ ids, ¬s.store.Has i) :
    Advances b d (g ++ { changeSets := ids }) s (mergeChangeSets d h path ids s₁).2 := by
  induction ids generalizing g s₁ with
  | nil => exact (Gain.append_empty g).symm ▸ adv
  | cons i rest ih =>
    have tagged := adv.changeSet owns.base (new i List.mem_cons_self) (h.applyTo path)
    have appended := tagged.trans (advances_modifyDocument (g := { changeSets := [i] }) owns.owned
      (f := fun d => { d with changeSets := d.changeSets ++ [i] })
      fun doc _ => ⟨rfl, (List.append_nil _).symm, rfl, rfl, rfl, rfl⟩) owns.known
    have merged := ih appended fun j hj => new j (List.mem_cons_of_mem _ hj)
    rw [Gain.append_assoc] at merged
    exact merged

theorem nestContainer_ok (container : PreconditionId) (s : Session) :
    (nestContainer d container s).1 = .ok () := by
  show ((if _ then _ else _ : SessionM Unit) s).1 = _
  split <;> rfl

/-- A container that came in on the way is put into the container of the document. -/
theorem nestContainer_advances (owns : Owns b d s) (adv : Advances b d g s s₁)
    (kept : g.container = none) {container : PreconditionId}
    (new : s.store.Added s₁.store container) :
    Advances b d g s (nestContainer d container s₁).2 := by
  show Advances b d g s ((if _ then _ else _ : SessionM Unit) s₁).2
  split
  · obtain ⟨doc, hd, parts⟩ := owns.document
    obtain ⟨doc', hd', gains⟩ := adv.document doc hd
    rw [Step.run_bind_of_ok (document_eq hd')]
    refine adv.nest ?_ new
    rw [gains.preconditions, kept]
    exact parts.preconditions.1
  · exact adv

/-- A merge is what it does to the change sets, to the preconditions, and to the removals. -/
theorem merge_eq {child : DocumentId} {c : DraftDocument}
    (hc : s.store.documents.get? child = some c) (path : Value) :
    merge d child path s =
      modifyDocument d (fun d => { d with removals := d.removals ++ c.removals })
        (nestContainer d c.preconditions
          (mergeChangeSets d c.inheritance path c.changeSets s).2).2 := by
  unfold merge
  rw [Step.run_bind_of_ok (document_eq hc),
    Step.run_bind_of_ok (Prod.ext (mergeChangeSets_ok _ _ _ _) rfl),
    Step.run_bind_of_ok (Prod.ext (nestContainer_ok _ _) rfl)]

/-- A merge adds the change sets and the removals of the included document. -/
theorem advances_merge (owns : Owns b d s) (hs : s.Extends s₁) {child : DocumentId}
    {c : DraftDocument} (hc : s₁.store.documents.get? child = some c) (new : ¬s.store.Has child)
    (path : Value) :
    Advances b d { changeSets := c.changeSets, removals := c.removals } s
      (merge d child path s₁).2 := by
  have parts := hs.newDocuments child c hc new
  have merged := mergeChangeSets_advances owns (.of_extends owns.base hs) c.inheritance path
    c.changeSets fun i hi => (parts.changeSets i hi).1
  have nested := nestContainer_advances owns merged rfl
    (parts.preconditions.mono (grows_mergeChangeSets _ _ _ _))
  have removed := nested.trans (advances_modifyDocument (g := { removals := c.removals }) owns.owned
    (f := fun d => { d with removals := d.removals ++ c.removals })
    fun doc _ => ⟨(List.append_nil _).symm, rfl, rfl, rfl, rfl, rfl⟩) owns.known
  have total : ({ changeSets := c.changeSets } ++ { removals := c.removals } : Gain) =
      { changeSets := c.changeSets, removals := c.removals } :=
    Gain.ext (List.append_nil _) rfl rfl
  rw [Gain.empty_append, total] at removed
  rw [merge_eq hc]
  exact removed

/-! ## Documents -/

/-- A new document is put down with a container of its own, and with nothing else in it. -/
theorem newDocument_eq (r : Request) (logicalPath : Option String) (s : Session) :
    newDocument r logicalPath s = (.ok s.store.documents.next, { s with store := { s.store with
      preconditions := s.store.preconditions.add { record := .fresh Catalog.container }
      documents := s.store.documents.add {
        physicalPath := r.path, logicalPath, preconditions := s.store.preconditions.next
        inheritance := r.inheritance, parent := r.parent } } }) :=
  rfl

theorem extends_newDocument (r : Request) (logicalPath : Option String) :
    Keeps Extends (newDocument r logicalPath) := by
  intro s
  have container : s.Extends _ := keeps_addPrecondition (.fresh Catalog.container) s
  refine container.addDocument ⟨by simp, ?_⟩
  exact Store.added_next (.refl _) .precondition (Pool.size_add ..)

/-- The script for a new document owns it. -/
theorem owns_newDocument {r : Request} {logicalPath : Option String}
    (h : newDocument r logicalPath s = (.ok d, s₁)) : Owns s.store d s₁ := by
  have hs : s.Extends s₁ := (extends_newDocument r logicalPath).of_run h
  rw [newDocument_eq] at h
  cases h
  refine ⟨hs.grows, s.store.not_has_next .document, _, Pool.get?_add .. |>.trans (if_pos rfl), ?_⟩
  exact hs.newDocuments _ _ (Pool.get?_add .. |>.trans (if_pos rfl))
    (s.store.not_has_next .document)

@[grind ←] theorem keeps_addChangeSets {R : Session → Session → Prop} [AllowsGrowth R]
    (cs : List DraftChangeSet) : Keeps R (addChangeSets cs) := by
  induction cs with
  | nil => exact .pure _
  | cons c rest ih => grind [addChangeSets]

theorem added_of_addChangeSets {cs : List DraftChangeSet} {ids : List ChangeSetId}
    (h : addChangeSets cs s = (.ok ids, s₁)) : ∀ i ∈ ids, s.store.Added s₁.store i := by
  induction cs generalizing s ids with
  | nil =>
    cases h
    simp
  | cons c rest ih =>
    obtain ⟨i, s₂, hi, h⟩ := Step.bind_eq_ok.1 h
    obtain ⟨more, s₃, hmore, h⟩ := Step.bind_eq_ok.1 h
    cases h
    have first : s.store.Grows s₂.store := ((keeps_addChangeSet c).of_run hi : s.Extends s₂).grows
    have rest : s₂.store.Grows s₁.store :=
      ((keeps_addChangeSets rest).of_run hmore : s₂.Extends s₁).grows
    intro j hj
    rcases List.mem_cons.1 hj with rfl | hj
    · exact (added_of_addChangeSet (.refl _) hi).mono rest
    · exact (ih hmore j hj).of_grows first

theorem addChangeSets_ok (cs : List DraftChangeSet) (s : Session) :
    ∃ ids s', addChangeSets cs s = (.ok ids, s') := by
  induction cs generalizing s with
  | nil => exact ⟨_, _, rfl⟩
  | cons c rest ih =>
    obtain ⟨ids, s', h⟩ := ih (addChangeSet c s).2
    exact ⟨_, s', Step.bind_eq_ok.2 ⟨_, _, rfl, Step.bind_eq_ok.2 ⟨_, _, h, rfl⟩⟩⟩

/-- What a parser of the host gives becomes a new document. -/
theorem hostDocument_spec {parse : String → Except ResourceError (List DraftChangeSet)}
    {r : Request} {cs : List DraftChangeSet} {ids : List ChangeSetId} (hp : parse r.path = .ok cs)
    (hcs : addChangeSets cs s = (.ok ids, s₁)) :
    ∃ d s₂ doc, hostDocument parse r s = (.ok d, s₂) ∧ s.Extends s₂ ∧ ¬s.store.Has d ∧
      s₂.store.changeSets = s₁.store.changeSets ∧ s₂.store.documents.get? d = some doc ∧
      doc.changeSets = ids ∧ doc.removals = [] ∧ doc.inheritance = r.inheritance := by
  have hs₁ : s.Extends s₁ := (keeps_addChangeSets cs).of_run hcs
  let s₂ := (newDocument { r with parent := none } none s₁).2
  have hs₂ : s₁.Extends s₂ := extends_newDocument _ _ s₁
  have owns : Owns s.store s₁.store.documents.next s₂ :=
    (owns_newDocument (newDocument_eq { r with parent := none } none s₁)).of_grows hs₁.grows
  obtain ⟨doc, put, empty, nothing, inherits⟩ : ∃ doc : DraftDocument,
      s₂.store.documents.get? s₁.store.documents.next = some doc ∧ doc.changeSets = [] ∧
        doc.removals = [] ∧ doc.inheritance = r.inheritance :=
    ⟨_, (Pool.get?_add ..).trans (if_pos rfl), rfl, rfl, rfl⟩
  have adv := advances_modifyDocument (b := s.store) (g := { changeSets := ids }) owns.owned
    (f := fun d => { d with changeSets := ids, knowsParameters := false })
    fun doc' hd => by
      obtain rfl : doc = doc' := Option.some.inj (put.symm.trans hd)
      exact ⟨by rw [empty]; rfl, (List.append_nil _).symm, rfl, rfl, rfl, rfl⟩
  have new : ({ changeSets := ids } : Gain).IsNew s.store
      (modifyDocument s₁.store.documents.next
        (fun d => { d with changeSets := ids, knowsParameters := false }) s₂).2.store :=
    ⟨fun i hi => (added_of_addChangeSets hcs i hi).mono (hs₂.grows.trans adv.grows), by simp⟩
  refine ⟨_, _, { doc with changeSets := ids, knowsParameters := false }, ?_,
    (hs₁.trans hs₂).advance owns adv new, owns.owned, rfl, ?_, rfl, nothing, inherits⟩
  · unfold hostDocument
    rw [hp]
    rw [Step.run_bind_of_ok (show ofResource (.ok cs) s = (.ok cs, s) from rfl),
      Step.run_bind_of_ok hcs, Step.run_bind_of_ok (newDocument_eq _ _ _)]
    rfl
  · exact (Pool.get?_modify ..).trans (by rw [if_pos rfl, put]; rfl)

/-- A document of the host holds what the parser gave, as it was put into the store. -/
theorem hostDocument_ok {parse : String → Except ResourceError (List DraftChangeSet)} {r : Request}
    (h : hostDocument parse r s = (.ok d, s₁)) :
    ∃ made ids s₂ doc, parse r.path = .ok made ∧ addChangeSets made s = (.ok ids, s₂) ∧
      s₁.store.changeSets = s₂.store.changeSets ∧ s₁.store.documents.get? d = some doc ∧
      doc.changeSets = ids ∧ doc.removals = [] := by
  cases hp : parse r.path with
  | error failure =>
    unfold hostDocument at h
    rw [hp] at h
    cases h
  | ok made =>
    obtain ⟨ids, s₂, puts⟩ := addChangeSets_ok made s
    obtain ⟨d', s₃, doc, run, -, -, pool, hd, changeSets, removals, -⟩ := hostDocument_spec hp puts
    cases run.symm.trans h
    exact ⟨made, ids, s₂, doc, rfl, puts, pool, hd, changeSets, removals⟩

/-- A parser of the host makes a new document of what it gives. -/
theorem compiles_hostDocument (parse : String → Except ResourceError (List DraftChangeSet))
    (r : Request) : Compiles r (hostDocument parse r) := by
  have spec : ∀ s, s.Extends (hostDocument parse r s).2 ∧
      ∀ i s', hostDocument parse r s = (.ok i, s') → ¬s.store.Has i ∧
        ∃ d, s'.store.documents.get? i = some d ∧ d.inheritance = r.inheritance := by
    intro s
    cases hp : parse r.path with
    | error e =>
      have fails : hostDocument parse r s = (.error (.resource e), s) := by
        unfold hostDocument
        rw [hp]
        rfl
      rw [fails]
      exact ⟨.refl s, fun _ _ h => by cases h⟩
    | ok cs =>
      obtain ⟨ids, s₁, hcs⟩ := addChangeSets_ok cs s
      obtain ⟨d, s₂, doc, run, hs, new, -, hd, -, -, inherits⟩ := hostDocument_spec hp hcs
      rw [run]
      refine ⟨hs, fun i s' h => ?_⟩
      cases h
      exact ⟨new, doc, hd, inherits⟩
  exact ⟨fun s => (spec s).1, fun h => (spec _).2 _ _ h⟩

/-! ## Included files -/

theorem bringIn_of_ok {compile : SessionM DocumentId} {path : String} {i : Inclusion}
    {child : DocumentId} (h : compile s = (.ok child, s₁)) :
    bringIn d path i compile s = merge d child i.logicalPath s₁ := by
  unfold bringIn
  rw [Step.run_bind, run_observe, h]

theorem bringIn_of_error {compile : SessionM DocumentId} {path : String} {i : Inclusion}
    {failure : Failure} (h : compile s = (.error failure, s₁)) :
    bringIn d path i compile s = excuse path i.required failure s₁ := by
  unfold bringIn
  rw [Step.run_bind, run_observe, h]

theorem keeps_excuse {R : Session → Session → Prop} [AllowsNotes R] (path : String)
    (required : Bool) (failure : Failure) : Keeps R (excuse path required failure) := by
  cases failure <;> grind [excuse]

/-- Bringing in a file adds what the compile of it has made, unless that fails. -/
theorem works_bringIn {r : Request} {compile : SessionM DocumentId} (compiles : Compiles r compile)
    (path : String) (i : Inclusion) : Keeps (Works b d) (bringIn d path i compile) := by
  intro s owns
  rcases hc : compile s with ⟨failure | child, s₁⟩
  · have hs : s.Extends s₁ := compiles.keeps.of_run hc
    rw [bringIn_of_error hc]
    have excused : s₁.Extends _ := keeps_excuse path i.required failure s₁
    exact ⟨{}, Gain.isNew_empty _ _, rfl, .of_extends owns.base (hs.trans excused)⟩
  · have hs : s.Extends s₁ := compiles.keeps.of_run hc
    obtain ⟨new, c, hd, -⟩ := compiles.document hc
    have parts := hs.newDocuments child c hd new
    have merged := advances_merge owns hs hd new i.logicalPath
    rw [bringIn_of_ok hc]
    refine ⟨_, ⟨fun j hj => (parts.changeSets j hj).mono ?_, by simp⟩, rfl, merged⟩
    exact grows_merge child i.logicalPath s₁

@[grind ←] theorem keeps_checkChain {R : Session → Session → Prop} [IsPreorder Session R]
    (path : String) :
    Keeps R (checkChain path) := by
  grind [checkChain]

@[grind ←] theorem keeps_checkDepth {R : Session → Session → Prop} [IsPreorder Session R] (e : Engine)
    (path : String) : Keeps R (checkDepth e path) := by
  grind [checkDepth]

theorem keeps_accept {R : Session → Session → Prop} [AllowsNotes R] (e : Engine)
    (relativeTo : Option String) (path : String) (skipsUnknown : Bool) :
    Keeps R (accept e relativeTo path skipsUnknown) := by
  grind [accept]

end SessionM

/-- A compiler does with every request what the compile of a file does. -/
def Compiler.IsSound (compiler : Compiler) : Prop :=
  ∀ compile ∈ compiler, ∀ r, Compiles r (compile r)

namespace SessionM

open Session

variable {b : Store} {d : DocumentId} {s s₁ : Session} {e : Engine} {compiler : Compiler}

theorem compileWith_host (e : Engine) (compiler : Compiler) (supports : String → Bool)
    (parse : String → Except ResourceError (List DraftChangeSet)) (r : Request) :
    compileWith e compiler (.host supports parse) r = hostDocument parse r := by
  cases compiler <;> rfl

theorem compiles_compileWith (sound : compiler.IsSound) (parser : Parser) (r : Request) :
    Compiles r (compileWith e compiler parser r) := by
  cases parser with
  | host supports parse =>
    rw [compileWith_host]
    exact compiles_hostDocument parse r
  | script suffix =>
    cases compiler with
    | none => exact ⟨Keeps.throw _, fun h => by cases h⟩
    | some compile => exact sound compile rfl r

/-- A file that is accepted is brought in. -/
theorem includeFile_of_accept {relativeTo : Option String} {path found : String} {parser : Parser}
    {i : Inclusion} {s s₁ : Session}
    (accepts : accept e relativeTo path i.skipsUnknown s = (.ok (some (found, parser)), s₁)) :
    includeFile e compiler d relativeTo path i s =
      bringIn d found i (compileWith e compiler parser (i.request d found)) s₁ :=
  Step.run_bind_of_ok accepts _

/-- An include refuses its file or passes it over, or it excuses that the compile of it fails, or it
merges what the compile gives. -/
theorem includeFile_cases (e : Engine) (compiler : Compiler) (d : DocumentId)
    (relativeTo : Option String) (path : String) (i : Inclusion) (s : Session) :
    (∃ failure s₁, accept e relativeTo path i.skipsUnknown s = (.error failure, s₁) ∧
      includeFile e compiler d relativeTo path i s = (.error failure, s₁)) ∨
    (∃ s₁, accept e relativeTo path i.skipsUnknown s = (.ok none, s₁) ∧
      includeFile e compiler d relativeTo path i s = (.ok (), s₁)) ∨
    ∃ found parser s₁ s₂,
      accept e relativeTo path i.skipsUnknown s = (.ok (some (found, parser)), s₁) ∧
      ((∃ failure, compileWith e compiler parser (i.request d found) s₁ = (.error failure, s₂) ∧
        includeFile e compiler d relativeTo path i s = excuse found i.required failure s₂) ∨
      ∃ child, compileWith e compiler parser (i.request d found) s₁ = (.ok child, s₂) ∧
        includeFile e compiler d relativeTo path i s = merge d child i.logicalPath s₂) := by
  rcases accepts : accept e relativeTo path i.skipsUnknown s
    with ⟨failure | _ | ⟨found, parser⟩, s₁⟩
  · exact .inl ⟨failure, s₁, rfl, Step.run_bind_of_error accepts _⟩
  · exact .inr (.inl ⟨s₁, rfl, Step.run_bind_of_ok accepts _⟩)
  · have brings : includeFile e compiler d relativeTo path i s = _ := includeFile_of_accept accepts
    rcases made : compileWith e compiler parser (i.request d found) s₁ with ⟨failure | child, s₂⟩
    · exact .inr (.inr ⟨found, parser, s₁, s₂, rfl,
        .inl ⟨failure, made, brings.trans (bringIn_of_error made)⟩⟩)
    · exact .inr (.inr ⟨found, parser, s₁, s₂, rfl,
        .inr ⟨child, made, brings.trans (bringIn_of_ok made)⟩⟩)

theorem works_includeFile (sound : compiler.IsSound) (relativeTo : Option String) (path : String)
    (i : Inclusion) : Keeps (Works b d) (includeFile e compiler d relativeTo path i) := by
  refine Keeps.bind (keeps_accept e relativeTo path i.skipsUnknown) fun accepted => ?_
  cases accepted with
  | none => exact .pure _
  | some accepted => exact works_bringIn (compiles_compileWith sound _ _) _ i

theorem works_includeFiles (sound : compiler.IsSound) (i : Inclusion) (paths : List String) :
    Keeps (Works b d) (includeFiles e compiler d i paths) := by
  induction paths with
  | nil => exact .pure _
  | cons path rest ih => exact Keeps.bind (works_includeFile sound none path i) fun _ => ih

/-- The files of a directory are included one after the other. -/
theorem includeFiles_append (i : Inclusion) (before after : List String) :
    includeFiles e compiler d i (before ++ after) =
      includeFiles e compiler d i before >>= fun _ => includeFiles e compiler d i after := by
  induction before with
  | nil => exact (pure_bind _ _).symm
  | cons path rest ih =>
    show (includeFile e compiler d none path i >>= fun _ =>
      includeFiles e compiler d i (rest ++ after)) = _
    rw [ih]
    exact (bind_assoc _ _ _).symm

theorem works_include (sound : compiler.IsSound) (a : Attributes) :
    Keeps (Works b d) («include» e compiler d a) :=
  Keeps.bind (keeps_readInclude d a) fun _ => works_includeFile sound _ _ _

theorem works_includeAll (sound : compiler.IsSound) (a : Attributes) :
    Keeps (Works b d) (includeAll e compiler d a) :=
  Keeps.bind (keeps_readIncludeAll e a) fun _ => works_includeFiles sound _ _

/-! ## Files of statements -/

@[grind ←] theorem keeps_newStatements {R : Session → Session → Prop} [AllowsGrowth R]
    (a : Attributes) (id path : String) : Keeps R (newStatements d a id path) := by
  grind [newStatements]

theorem added_of_newStatements {a : Attributes} {id path : String} {i : ChangeSetId}
    (h : newStatements d a id path s = (.ok i, s₁)) : s.store.Added s₁.store i := by
  obtain ⟨c, s₂, h₂, h⟩ := Step.bind_eq_ok.1 h
  obtain ⟨record, s₃, h₃, h⟩ := Step.bind_eq_ok.1 h
  obtain ⟨change, s₄, h₄, h⟩ := Step.bind_eq_ok.1 h
  have read : s.Extends s₂ := (keeps_newChangeSet d _).of_run h₂
  have filled : s₂.Extends s₃ := (keeps_fill d _ _ _ _).of_run h₃
  have put : s₃.Extends s₄ := (keeps_addChange _).of_run h₄
  exact added_of_addChangeSet (read.trans (filled.trans put)).grows h

/-- A change set that came in is appended to the document. -/
theorem advances_append (owns : Owns b d s) (hs : s.Extends s₁) (i : ChangeSetId) :
    Advances b d { changeSets := [i] } s
      (modifyDocument d (fun d => { d with changeSets := d.changeSets ++ [i] }) s₁).2 := by
  have appended := (Advances.of_extends owns.base hs).trans (advances_modifyDocument
    (g := { changeSets := [i] }) owns.owned
    (f := fun d => { d with changeSets := d.changeSets ++ [i] })
    fun doc _ => ⟨rfl, (List.append_nil _).symm, rfl, rfl, rfl, rfl⟩) owns.known
  rw [Gain.empty_append] at appended
  exact appended

theorem works_includeStatements (a : Attributes) (id path : String) :
    Keeps (Works b d) (includeStatements d a id path) := by
  intro s owns
  unfold includeStatements
  rcases h : newStatements d a id path s with ⟨failure | i, s₁⟩
  · have hs : s.Extends s₁ := (keeps_newStatements a id path).of_run h
    rw [Step.run_bind_of_error h]
    exact ⟨{}, Gain.isNew_empty _ _, rfl, .of_extends owns.base hs⟩
  · have hs : s.Extends s₁ := (keeps_newStatements a id path).of_run h
    have appended := advances_append owns hs i
    rw [Step.run_bind_of_ok h]
    refine ⟨_, Gain.isNew_changeSet ?_, rfl, appended⟩
    exact (added_of_newStatements h).mono (grows_modifyDocument _ _ s₁)

theorem works_includeStatementFiles (a : Attributes) (id : String → String) (paths : List String) :
    Keeps (Works b d) (includeStatementFiles d a id paths) := by
  induction paths with
  | nil => exact .pure _
  | cons path rest ih => exact Keeps.bind (works_includeStatements a (id path) path) fun _ => ih

/-- Files of statements are taken one after the other. -/
theorem includeStatementFiles_append (a : Attributes) (id : String → String)
    (before after : List String) :
    includeStatementFiles d a id (before ++ after) =
      includeStatementFiles d a id before >>= fun _ => includeStatementFiles d a id after := by
  induction before with
  | nil => exact (pure_bind _ _).symm
  | cons path rest ih =>
    show (includeStatements d a (id path) path >>= fun _ =>
      includeStatementFiles d a id (rest ++ after)) = _
    rw [ih]
    exact (bind_assoc _ _ _).symm

theorem works_includeAllSql (a : Attributes) : Keeps (Works b d) (includeAllSql e d a) :=
  Keeps.bind (keeps_readIncludeAllSql e a) fun _ => works_includeStatementFiles a _ _

/-! ## All elements -/

/-- What is to be removed is added to the document. -/
theorem advances_removal (owned : ¬b.Has d) (removal : Removal) (s : Session) :
    Advances b d { removals := [removal] } s
      (modifyDocument d (fun d => { d with removals := d.removals ++ [removal] }) s).2 :=
  advances_modifyDocument owned fun _ _ => ⟨(List.append_nil _).symm, rfl, rfl, rfl, rfl, rfl⟩

/-- Nothing but what is to be removed is added. -/
theorem removeProperty_advances (owns : Owns b d s) (a : Attributes) :
    ∃ removals, Advances b d { removals } s (removeProperty e d a s).2 := by
  unfold removeProperty
  obtain ⟨failure, h⟩ | ⟨removal, h⟩ := (keeps_readRemoval e d a).run_cases s
  · rw [Step.run_bind_of_error h]
    exact ⟨[], .refl owns.base⟩
  · rw [Step.run_bind_of_ok h]
    cases removal with
    | none => exact ⟨[], .refl owns.base⟩
    | some removal => exact ⟨[removal], advances_removal owns.owned removal s⟩

theorem works_removeProperty (a : Attributes) : Keeps (Works b d) (removeProperty e d a) := by
  intro s owns
  obtain ⟨removals, adv⟩ := removeProperty_advances (e := e) owns a
  exact ⟨_, ⟨by simp, by simp⟩, rfl, adv⟩

/-- An element that works on what its script owns changes nothing else, and what its document gains
by it is the script's own. -/
theorem works_act {x : Element} {positional : List Value} {a : Attributes}
    (sound : compiler.IsSound) {s s' : Session} {result : Except Failure Result}
    (new : x.IsNew b s.store) (acts : act e compiler d x positional a s = (result, s')) :
    Works b d s s' := by
  intro owns
  cases contributes : x.contributes with
  | false => exact Quiet.works (quiet_act owns.owned new contributes acts) owns
  | true =>
    cases x with
    | «include» =>
      exact (Keeps.bind (works_include sound a) fun _ => .pure _).of_run acts owns
    | includeAll =>
      exact (Keeps.bind (works_includeAll sound a) fun _ => .pure _).of_run acts owns
    | includeAllSql =>
      exact (Keeps.bind (works_includeAllSql a) fun _ => .pure _).of_run acts owns
    | removeProperty =>
      exact (Keeps.bind (works_removeProperty a) fun _ => .pure _).of_run acts owns
    | _ => cases contributes

end SessionM
end Migration
