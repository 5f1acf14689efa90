import Migration.Proofs.Discipline
import Migration.Proofs.Inclusion.Order

/-!
# Change sets and the blocks of them that have been left

A change set comes into its document where a block of its result is left without a failure, and in
no other way. So in every state of a script, whatever has failed until then, it is there at most as
often as blocks of its result have been opened and are not open any more; while all of them are open
it is not there at all.

* `openedBy`, `Frame.stillOpen` — the result that a block was opened from, and how many of its
  blocks are open
* `Frame.Appends` — the results that bring change sets into the document
* `Running.Ledger` — what the document holds against what has been opened and what is open
* `ScriptM.tracks_ledger` — the ledger is kept whatever the script does
* `Frame.Withholds` — a change set of which no block has been left
-/

namespace Migration

/-! ## Open blocks -/

/-- The result that the block of a number was opened from, given what has been opened, the last one
first. -/
def openedBy : List ScopeId → Nat → Option ScopeId
  | [], _ => none
  | i :: earlier, n => if n = earlier.length + 1 then some i else openedBy earlier n

/-- How many open blocks were opened from a result. -/
def Frame.stillOpen (f : Frame) (history : List ScopeId) (i : ScopeId) : Nat :=
  f.stack.countP fun block => openedBy history block.1 = some i

theorem mem_of_openedBy {history : List ScopeId} {n : Nat} {i : ScopeId}
    (h : openedBy history n = some i) : i ∈ history := by
  induction history with
  | nil => cases h
  | cons j earlier ih =>
    unfold openedBy at h
    split at h
    · cases h
      exact List.mem_cons_self
    · exact List.mem_cons_of_mem _ (ih h)

/-- The block that a result was opened as last was opened from it. -/
theorem openedBy_of_lastOpening {history : List ScopeId} {n : Nat} {i : ScopeId}
    (h : lastOpening history i = some n) : n ≤ history.length ∧ openedBy history n = some i := by
  induction history with
  | nil => cases h
  | cons j earlier ih =>
    unfold lastOpening at h
    split at h
    next same =>
      cases h
      exact ⟨Nat.le_refl _, (if_pos rfl).trans (congrArg some same)⟩
    next =>
      obtain ⟨le, opened⟩ := ih h
      refine ⟨Nat.le_succ_of_le le, ?_⟩
      rw [openedBy, if_neg (by omega), opened]

namespace Frame

variable {history : List ScopeId} {f : Frame} {i : ScopeId}

theorem stillOpen_of_not_mem (h : i ∉ history) : f.stillOpen history i = 0 := by
  refine List.countP_eq_zero.2 fun block _ opened => ?_
  exact h (mem_of_openedBy (of_decide_eq_true opened))

/-- A result that is opened has one more open block. -/
theorem Disciplined.stillOpen_opened (h : f.Disciplined history) (i j : ScopeId) (body : Body) :
    (ScriptM.opened i body f).stillOpen (i :: history) j =
      f.stillOpen history j + if i = j then 1 else 0 := by
  have top : openedBy (i :: history) f.nextMark = some i := if_pos h.counts
  have rest : f.stack.countP (fun block => openedBy (i :: history) block.1 = some j) =
      f.stillOpen history j := by
    refine List.countP_congr fun block mem => ?_
    have below := h.below block mem
    rw [openedBy, if_neg (by rw [← h.counts]; omega)]
  show ((f.nextMark, body) :: f.stack).countP
    (fun block => openedBy (i :: history) block.1 = some j) = _
  rw [List.countP_cons, rest]
  simp [top]

/-- A result of which the innermost block is left has one open block less. -/
theorem Disciplined.stillOpen_left (h : f.Disciplined history) {n : Nat} {body : Body}
    {rest : List (Nat × Body)} (stack : f.stack = (n, body) :: rest)
    (known : (f.scopes[i]?).bind (·.mark) = some n) (j : ScopeId) :
    f.stillOpen history j =
      Frame.stillOpen { f with stack := rest } history j + if i = j then 1 else 0 := by
  obtain ⟨-, top⟩ := openedBy_of_lastOpening ((h.marks i).symm.trans known)
  unfold stillOpen
  rw [stack, List.countP_cons]
  simp [top]

end Frame

/-! ## What comes into the document -/

/-- Where a block of a result is left, a change set comes into the document. -/
def Frame.Appends (f : Frame) (i : ScopeId) (made : ChangeSetId) : Prop :=
  ∃ x, f.scopes[i]? = some x ∧ x.completion = .appendChangeSet made

namespace Frame

variable {f f' : Frame} {i j : ScopeId} {made : ChangeSetId}

theorem Appends.mono (h : f.Continues f') (appends : f.Appends i made) : f'.Appends i made := by
  obtain ⟨x, at_, completion⟩ := appends
  obtain ⟨x', at', -, same⟩ := h.scopes i x at_
  exact ⟨x', at', same.trans completion⟩

theorem appends_of_push {x : Scope} {pending : List ScopeId}
    (h : Frame.Appends { f with scopes := f.scopes.push x, pending } i made) :
    f.Appends i made ∨ i = f.scopes.size ∧ x.completion = .appendChangeSet made := by
  obtain ⟨y, at_, completion⟩ := h
  have at_ : (f.scopes.push x)[i]? = some y := at_
  rw [Array.getElem?_push] at at_
  split at at_
  next new =>
    cases at_
    exact .inr ⟨new, completion⟩
  next => exact .inl ⟨y, at_, completion⟩

theorem appends_of_opened {body : Body} (h : (ScriptM.opened i body f).Appends j made) :
    f.Appends j made := by
  obtain ⟨x, at_, completion⟩ := h
  have at_ : (f.scopes.modify i fun s => { s with mark := some f.nextMark })[j]? = some x := at_
  rw [Array.getElem?_modify] at at_
  split at at_
  · obtain ⟨y, before, rfl⟩ := Option.map_eq_some_iff.1 at_
    exact ⟨y, before, completion⟩
  · exact ⟨x, at_, completion⟩

/-- No change set comes into the document from two results. -/
def Separates (f : Frame) : Prop :=
  ∀ i j made, f.Appends i made → f.Appends j made → i = j

/-- What comes into the document where a block of a result is left is the change set of this
result. -/
theorem Separates.count_gainOf (separates : f.Separates) (appends : f.Appends j made) :
    (ScriptM.gainOf (f.scopes[i]?.getD default).completion).changeSets.count made =
      if i = j then 1 else 0 := by
  by_cases same : i = j
  · subst same
    obtain ⟨x, at_, completion⟩ := appends
    simp [at_, completion, ScriptM.gainOf]
  · rw [if_neg same, List.count_eq_zero]
    intro mem
    have completion := ScriptM.eq_of_mem_gainOf mem
    cases at_ : f.scopes[i]? with
    | none =>
      rw [at_] at completion
      cases completion
    | some x =>
      rw [at_] at completion
      exact same (separates i j made ⟨x, at_, completion⟩ appends)

end Frame

/-- What a result is opened as, if it is a change set, comes into the document where its block is
left. -/
def Result.IsBuilt : Result → Prop
  | .nothing | .object _ => True
  | .scope y => ∀ owner made, y.opening = .body (.changeSet owner made) →
    y.completion = .appendChangeSet made

namespace SessionM

theorem isBuilt_act (e : Engine) (compiler : Compiler) (d : DocumentId) (x : Element)
    (positional : List Value) (a : Attributes) :
    Gives Result.IsBuilt (act e compiler d x positional a) := by
  intro s r s' acts
  cases act_yields acts with
  | changeSet =>
    intro owner made same
    cases same
    rfl
  | nothing | object => trivial
  | _ => exact nofun

end SessionM

namespace Running.Owns

variable {b : Store} {r r' : Running} {e : Engine} {compiler : Compiler} {i j : ScopeId}
  {made : ChangeSetId} {doc : DraftDocument}

open ScriptM

theorem has_of_appends (owns : r.Owns b) (h : r.frame.Appends i made) :
    r.session.store.Has made := by
  obtain ⟨x, at_, completion⟩ := h
  have new := (owns.scopes x (Array.mem_of_getElem? at_)).completion
  rw [completion] at new
  exact new.2

/-- What is gained by what has come in since is no change set of a result. -/
theorem count_of_advances (owns : r.Owns b) {s : Session} {g : Gain}
    (new : g.IsNew r.session.store s.store) (adv : r.session.Advances b r.frame.document g s)
    (has : r.session.store.Has made) (put : s.store.documents.get? r.frame.document = some doc) :
    ∃ old, r.session.store.documents.get? r.frame.document = some old ∧
      doc.changeSets.count made = old.changeSets.count made := by
  obtain ⟨old, hd, -⟩ := owns.session.document
  have gains := adv.gains hd put
  have absent : made ∉ g.changeSets := fun mem => (new.changeSets made mem).1 has
  refine ⟨old, hd, ?_⟩
  rw [gains.changeSets, List.count_append, List.count_eq_zero.2 absent, Nat.add_zero]

/-- What a result appends after a call was appended by it before, and is in the document as often as
it was; or the result has come in with the call, and so has its change set, which is not in the
document. -/
theorem appends_of_call (owns : r.Owns b) (sound : compiler.IsSound) (c : Script.Call)
    (appends : (call e compiler c r).2.frame.Appends i made)
    (put : (call e compiler c r).2.session.store.documents.get? r.frame.document = some doc) :
    (r.frame.Appends i made ∧ ∃ old, r.session.store.documents.get? r.frame.document = some old ∧
      doc.changeSets.count made = old.changeSets.count made) ∨
    (i = r.frame.scopes.size ∧ ¬r.session.store.Has made ∧ made ∉ doc.changeSets) := by
  obtain ⟨plain, -, calls, -⟩ | ⟨x, result, s, prepares, acts, calls⟩ := call_cases e compiler c r
  all_goals rw [calls] at appends put
  · exact .inl ⟨appends, doc, put, rfl⟩
  · have isNew := prepare_isNew owns prepares
    obtain ⟨g, new, -, adv⟩ := SessionM.works_act sound isNew acts owns.session
    obtain same | ⟨y, rfl, puts⟩ := outcomeOf_cases result { r with session := s }
    · rw [same] at appends put
      exact .inl ⟨appends, owns.count_of_advances new adv (owns.has_of_appends appends) put⟩
    · rw [puts] at appends put
      obtain before | ⟨rfl, completion⟩ := Frame.appends_of_push appends
      · exact .inl ⟨before, owns.count_of_advances new adv (owns.has_of_appends before) put⟩
      · -- only a change set leaves behind something to append, and it contributes nothing by itself
        have quiet := SessionM.quiet_act owns.session.owned isNew
          (SessionM.not_contributes_of_leaves acts) acts owns.session.base owns.known
        obtain ⟨old, hd, parts⟩ := owns.session.document
        have gains := quiet.gains hd put
        have fresh : ¬r.session.store.Has made := (SessionM.appends_of_act acts completion).2.1
        refine .inr ⟨rfl, fresh, fun mem => fresh ?_⟩
        rw [gains.changeSets, List.append_nil] at mem
        exact (parts.changeSets made mem).2

/-- Opening a result brings nothing into the document. -/
theorem appends_of_enter (owns : r.Owns b) (i : ScopeId)
    (appends : (enter i r).2.frame.Appends j made)
    (put : (enter i r).2.session.store.documents.get? r.frame.document = some doc) :
    r.frame.Appends j made ∧ ∃ old, r.session.store.documents.get? r.frame.document = some old ∧
      doc.changeSets.count made = old.changeSets.count made := by
  have before : r.frame.Appends j made := by
    obtain ⟨s, ⟨failure, -, enters⟩ | ⟨body, -, enters⟩⟩ := enter_cases i r
    all_goals rw [enters] at appends
    · exact appends
    · have old := Frame.appends_of_opened appends
      exact old
  have quiet := (quiet_openBody owns.session.owned (scope_isNew owns i).opening r.session)
    owns.session.base owns.known
  rw [session_enter] at put
  exact ⟨before, owns.count_of_advances (Gain.isNew_empty _ _) quiet (owns.has_of_appends before) put⟩

/-- Where a block is left without a failure, the change set of its result comes in once, and no
other one. -/
theorem count_of_complete (owns : r.Owns b) (separates : r.frame.Separates)
    (appends : r.frame.Appends j made)
    (put : (complete r.frame.document (r.frame.scopes[i]?.getD default).completion
      r.session).2.store.documents.get? r.frame.document = some doc) :
    ∃ old, r.session.store.documents.get? r.frame.document = some old ∧
      doc.changeSets.count made = old.changeSets.count made + if i = j then 1 else 0 := by
  have adv := complete_advances owns.session (scope_isNew owns i).completion
  obtain ⟨old, hd, -⟩ := owns.session.document
  refine ⟨old, hd, ?_⟩
  rw [(adv.gains hd put).changeSets, List.count_append, separates.count_gainOf appends]

theorem separates_call (owns : r.Owns b) (sound : compiler.IsSound) (separates : r.frame.Separates)
    (c : Script.Call) : (call e compiler c r).2.frame.Separates := by
  obtain ⟨owns', _, -, adv⟩ := works_call (e := e) sound c r owns
  obtain ⟨doc, put, -⟩ := owns'.session.document
  rw [adv.frame.document] at put
  intro i j made hi hj
  obtain ⟨old, -⟩ | ⟨rfl, new, -⟩ := owns.appends_of_call sound c hi put <;>
    obtain ⟨old', -⟩ | ⟨rfl, new', -⟩ := owns.appends_of_call sound c hj put
  · exact separates i j made old old'
  · exact absurd (owns.has_of_appends old) new'
  · exact absurd (owns.has_of_appends old') new
  · rfl

theorem separates_enter (owns : r.Owns b) (separates : r.frame.Separates) (i : ScopeId) :
    (enter i r).2.frame.Separates := by
  obtain ⟨owns', _, -, adv⟩ := works_enter i r owns
  obtain ⟨doc, put, -⟩ := owns'.session.document
  rw [adv.frame.document] at put
  intro j k made hj hk
  exact separates j k made (owns.appends_of_enter i hj put).1 (owns.appends_of_enter i hk put).1

end Running.Owns

/-! ## The ledger -/

/-- The document of a script against what has been opened: a change set that a result appends is
there at most as often as blocks of the result have been opened and are not open any more. An open
block of a change set was opened from the one result that appends it. -/
structure Running.Ledger (b : Store) (history : List ScopeId) (r : Running) : Prop where
  owns : r.Owns b
  disciplined : r.frame.Disciplined history
  separates : r.frame.Separates
  built : ∀ y ∈ r.frame.scopes, (Result.scope y).IsBuilt
  blocks : ∀ n owner made, (n, Body.changeSet owner made) ∈ r.frame.stack →
    ∃ i, openedBy history n = some i ∧ r.frame.Appends i made
  entries : ∀ i made doc, r.frame.Appends i made →
    r.session.store.documents.get? r.frame.document = some doc →
    doc.changeSets.count made + r.frame.stillOpen history i ≤ history.count i

namespace Running.Ledger

open ScriptM

variable {b : Store} {r r' : Running} {e : Engine} {compiler : Compiler} {history : List ScopeId}
  {i : ScopeId}

theorem start {path : String} {document : DocumentId}
    (owns : r.Owns b) (fresh : r.frame = { path, document }) : r.Ledger b [] := by
  have nothing : ∀ i made, ¬r.frame.Appends i made := by
    rintro i made ⟨x, at_, -⟩
    simp [fresh] at at_
  refine ⟨owns, fresh ▸ .start path document, ?_, ?_, ?_, ?_⟩
  · exact fun i j made appends => absurd appends (nothing i made)
  · simp [fresh]
  · simp [fresh]
  · exact fun i made doc appends => absurd appends (nothing i made)

theorem call (h : r.Ledger b history) (sound : compiler.IsSound) (c : Script.Call) :
    (ScriptM.call e compiler c r).2.Ledger b history := by
  obtain ⟨owns', _, -, adv⟩ := works_call (e := e) sound c r h.owns
  have stack : (ScriptM.call e compiler c r).2.frame.stack = r.frame.stack :=
    (restores_call c r).stack
  refine ⟨owns', disciplined_call e compiler h.disciplined c,
    h.owns.separates_call sound h.separates c,
    ?_, ?_, ?_⟩
  · obtain ⟨plain, -, calls, -⟩ | ⟨x, result, s, prepares, acts, calls⟩ := call_cases e compiler c r
    all_goals rw [calls]
    · exact h.built
    · obtain same | ⟨y, rfl, puts⟩ := outcomeOf_cases result { r with session := s }
      · rw [same]
        exact h.built
      · rw [puts]
        intro z mem
        rcases Array.mem_push.1 mem with mem | rfl
        · exact h.built z mem
        · exact SessionM.isBuilt_act e compiler _ _ _ _ _ _ _ acts
  · intro n owner made mem
    rw [stack] at mem
    obtain ⟨i, opened, appends⟩ := h.blocks n owner made mem
    exact ⟨i, opened, appends.mono adv.frame⟩
  · intro i made doc appends put
    rw [adv.frame.document] at put
    have still : (ScriptM.call e compiler c r).2.frame.stillOpen history i =
        r.frame.stillOpen history i := by
      rw [Frame.stillOpen, stack, Frame.stillOpen]
    rw [still]
    obtain ⟨before, old, hd, same⟩ | ⟨rfl, -, absent⟩ := h.owns.appends_of_call sound c appends put
    · rw [same]
      exact h.entries i made old before hd
    · -- a result that has just come in has not been opened
      have fresh : r.frame.scopes.size ∉ history := fun mem =>
        Nat.lt_irrefl _ (h.disciplined.known _ mem)
      simp [List.count_eq_zero.2 absent, Frame.stillOpen_of_not_mem fresh]

theorem keep (h : r.Ledger b history) {name : String} {outcome : Outcome}
    (own : ∀ i, outcome = .scope i → i < r.frame.scopes.size) :
    Ledger b history { r with frame := { r.frame with kept := (name, outcome) :: r.frame.kept } } where
  owns := ⟨h.owns.session, h.owns.scopes, h.owns.stack⟩
  disciplined := h.disciplined.keep own
  separates := h.separates
  built := h.built
  blocks := h.blocks
  entries := h.entries

/-- The block of a change set is opened from the result that appends it. -/
theorem appends_of_openBody (h : r.Ledger b history) {i : ScopeId} (own : i < r.frame.scopes.size)
    {owner : String} {made : ChangeSetId} {s : Session}
    (opens : openBody r.frame.document (r.frame.scopes[i]?.getD default).opening r.session =
      (.ok (.changeSet owner made), s)) : r.frame.Appends i made := by
  have at_ : r.frame.scopes[i]? = some r.frame.scopes[i] := Array.getElem?_eq_getElem own
  have built := h.built _ (Array.getElem_mem own)
  rw [at_, Option.getD_some] at opens
  refine ⟨_, at_, built owner made ?_⟩
  cases opening : r.frame.scopes[i].opening with
  | body body =>
    rw [opening] at opens
    cases opens
    rfl
  | constraints =>
    rw [opening] at opens
    cases opens
  | visitors _ _ a =>
    rw [opening] at opens
    obtain ⟨filter, s₁, -, opens⟩ := Step.bind_eq_ok.1 opens
    cases opens

/-- Whether a result is opened or cannot be, the document holds no more than before. -/
theorem counts_of_enter (h : r.Ledger b history) {result : Except Failure Unit}
    (enters : ScriptM.enter i r = (result, r')) (j : ScopeId) (made : ChangeSetId)
    (doc : DraftDocument) (appends : r'.frame.Appends j made)
    (put : r'.session.store.documents.get? r'.frame.document = some doc) :
    doc.changeSets.count made + r.frame.stillOpen history j ≤ history.count j := by
  obtain ⟨-, _, -, adv⟩ := (works_enter i).of_run enters h.owns
  rw [adv.frame.document] at put
  obtain ⟨before, old, hd, same⟩ := h.owns.appends_of_enter i (by rwa [enters]) (by rwa [enters])
  rw [same]
  exact h.entries j made old before hd

theorem enter (h : r.Ledger b history) (own : i < r.frame.scopes.size)
    (enters : ScriptM.enter i r = (.ok (), r')) : r'.Ledger b (i :: history) := by
  obtain ⟨owns', _, -, adv⟩ := (works_enter i).of_run enters h.owns
  have separates' := h.owns.separates_enter h.separates i
  have counts := h.counts_of_enter enters
  rw [enters] at separates'
  refine ⟨owns', (disciplined_enter h.disciplined own enters).1, separates', ?_, ?_, ?_⟩
  all_goals
    obtain ⟨s, ⟨failure, opens, enters'⟩ | ⟨body, opens, enters'⟩⟩ := enter_cases i r <;>
      cases enters'.symm.trans enters
  · intro y mem
    obtain ⟨z, mem, opening, completion⟩ := exists_of_mem_opened mem
    intro owner made same
    exact completion.trans (h.built z mem owner made (opening ▸ same))
  · intro n owner made mem
    rcases List.mem_cons.1 mem with same | mem
    · -- the block that has just been opened
      cases same
      refine ⟨i, if_pos h.disciplined.counts, ?_⟩
      exact (h.appends_of_openBody own opens).mono adv.frame
    · obtain ⟨j, opened, appends⟩ := h.blocks n owner made mem
      have below := h.disciplined.below _ mem
      refine ⟨j, ?_, appends.mono adv.frame⟩
      rw [openedBy, if_neg (by rw [← h.disciplined.counts]; omega), opened]
  · intro j made doc appends put
    have counted := counts j made doc appends put
    have forgotten := h.disciplined.forget (r.frame.pending.erase i)
    rw [forgotten.stillOpen_opened i j body, List.count_cons]
    have still : Frame.stillOpen { r.frame with pending := r.frame.pending.erase i } history j =
      r.frame.stillOpen history j := rfl
    simp only [still, beq_iff_eq]
    omega

theorem refuse (h : r.Ledger b history) {failure : Failure}
    (enters : ScriptM.enter i r = (.error failure, r')) : r'.Ledger b history := by
  obtain ⟨owns', -⟩ := (works_enter i).of_run enters h.owns
  have disciplined' := disciplined_enter_of_error h.disciplined enters
  have counts := h.counts_of_enter enters
  obtain ⟨s, ⟨failure, opens, enters'⟩ | ⟨body, opens, enters'⟩⟩ := enter_cases i r <;>
    cases enters'.symm.trans enters
  exact ⟨owns', disciplined', h.separates, h.built, h.blocks, counts⟩

theorem leave (h : r.Ledger b history) (i : ScopeId) (result : Except Failure Unit) :
    (ScriptM.leave i result r).2.Ledger b history := by
  obtain ⟨n, body, rest, stack, known, pops⟩ | pops := pop_cases i r
  · have owns' : (ScriptM.leave i result r).2.Owns b := (works_leave i result r h.owns).1
    have disciplined' := disciplined_leave h.disciplined i result
    obtain ⟨frame, -, session⟩ := leave_of_mark stack known result
    have still := h.disciplined.stillOpen_left stack known
    refine ⟨owns', disciplined', ?_, ?_, ?_, ?_⟩
    all_goals rw [frame]
    · exact h.separates
    · exact h.built
    · exact fun m owner made mem => h.blocks m owner made (stack ▸ List.mem_cons_of_mem _ mem)
    · intro j made doc appends put
      dsimp only
      cases result with
      | ok _ =>
        rw [leave_ok pops] at put
        obtain ⟨old, hd, counts⟩ := h.owns.count_of_complete h.separates appends put
        have before := h.entries j made old appends hd
        rw [still j] at before
        omega
      | error failure =>
        rw [session nofun] at put
        have before := h.entries j made doc appends put
        rw [still j] at before
        omega
  · unfold ScriptM.leave
    rw [Step.run_bind_of_error pops]
    exact h

end Running.Ledger

/-- Whatever a script does, its document holds no more than the ledger says. -/
theorem ScriptM.tracks_ledger {e : Engine} {compiler : Compiler} (sound : compiler.IsSound)
    (b : Store) :
    Tracks e compiler (Running.Ledger b) where
  keepsOwn h := h.disciplined.keepsOwn
  call c h := h.call sound c
  keep _ h own := h.keep own
  enter h own enters := h.enter own enters
  refuse h enters := h.refuse enters
  leave i result h := h.leave i result

/-! ## Change sets that are being built -/

/-- No block of a change set's result has been left: every block of it that was opened is still
open. -/
def Frame.Withholds (f : Frame) (history : List ScopeId) (made : ChangeSetId) : Prop :=
  ∃ i, f.Appends i made ∧ f.stillOpen history i = history.count i

namespace Running.Ledger

variable {b : Store} {r : Running} {history : List ScopeId} {made : ChangeSetId}

/-- While no block of a change set has been left, it is not in the document. -/
theorem not_mem_of_withholds (h : r.Ledger b history) (withholds : r.frame.Withholds history made)
    {doc : DraftDocument} (put : r.session.store.documents.get? r.frame.document = some doc) :
    made ∉ doc.changeSets := by
  obtain ⟨i, appends, still⟩ := withholds
  have counted := h.entries i made doc appends put
  exact List.count_eq_zero.1 (by omega)

/-- In a block of a change set whose result has been opened only once, the change set is being
built. -/
theorem withholds_of_once (h : r.Ledger b history) {n : Nat} {owner : String}
    {rest : List (Nat × Body)} (stack : r.frame.stack = (n, .changeSet owner made) :: rest)
    (once : ∀ i, openedBy history n = some i → history.count i = 1) :
    r.frame.Withholds history made := by
  obtain ⟨i, opened, appends⟩ := h.blocks n owner made (stack ▸ List.mem_cons_self)
  refine ⟨i, appends, ?_⟩
  have one := once i opened
  obtain ⟨doc, put, -⟩ := h.owns.session.document
  have counted := h.entries i made doc appends put
  have open_ : 0 < r.frame.stillOpen history i :=
    List.countP_pos_iff.2 ⟨(n, .changeSet owner made), stack ▸ List.mem_cons_self, by simp [opened]⟩
  omega

/-- A change set that a result appends has come in since the script was opened. -/
theorem added_of_withholds (h : r.Ledger b history) (withholds : r.frame.Withholds history made) :
    b.Added r.session.store made := by
  obtain ⟨i, ⟨x, at_, completion⟩, -⟩ := withholds
  have new := (h.owns.scopes x (Array.mem_of_getElem? at_)).completion
  rw [completion] at new
  exact new

end Running.Ledger

end Migration
