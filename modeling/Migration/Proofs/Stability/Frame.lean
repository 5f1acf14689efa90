import Migration.Proofs.Relocation.Merges
import Migration.Proofs.Stability.Structured

/-!
# What later steps leave alone

The steps of a structured script work on what these steps bring in: of what was there before them,
they change no more than the document and the container of that.

* `Session.Stays` — of what was there, nothing but a document and its container has changed
* `SessionM.staying_act` — so it is after an element that works on what has come in since
* `Running.Stays`, `ScriptM.stays_blockwise` — so it is after structured steps
-/

namespace Migration

open SessionM

namespace Session

variable {base s s₁ s' : Session} {b : Store} {d : DocumentId} {p q : PreconditionId}

/-- What spares the container that the document has by now spares what was there, if that container
was there as the one of the document or was not there. -/
theorem Spares.trans_of_container (h : base.Spares d p s) (h' : s.Spares d q s')
    (container : q = p ∨ ¬base.store.Has q) : base.Spares d p s' where
  grows := h.grows.trans h'.grows
  kept {entity} i hi other := by
    refine (h'.kept i (h.grows.has hi) ?_).trans (h.kept i hi other)
    cases entity with
    | precondition =>
      rintro rfl
      exact container.elim (fun same => other same) fun new => new hi
    | _ => exact other

/-- A write to what has come in since spares what was there. -/
theorem Write.spares (h : Write base.store d s s') (spares : base.Spares d p s) :
    base.Spares d p s' := by
  have more : ∀ {s'}, s.Extends s' → base.Spares d p s' := fun h => spares.trans (.of_extends h)
  cases h with
  | note store chain => exact more (.of_same store chain)
  | addColumn c => exact more (keeps_addColumn c s)
  | addChange => exact more (keeps_addChange _ s)
  | addChangeSet => exact more (keeps_addChangeSet _ s)
  | addPrecondition r => exact more (keeps_addPrecondition r s)
  | nest new r =>
    exact (more (keeps_addPrecondition r s)).modify (.precondition _ _ _) (absurd · new.1)
  | modifyColumn new f => exact spares.modify (.column _ _ f) (absurd · new)
  | modifyChange new => exact spares.modify (.change _ _ _) (absurd · new)
  | modifyChangeSet new => exact spares.modify (.changeSet _ _ _) (absurd · new)
  | modifyDocument => exact spares.modify (.document _ _ _) fun _ other => other rfl

theorem Writes.spares (h : Writes base.store d s s') (spares : base.Spares d p s) :
    base.Spares d p s' := by
  induction h with
  | refl => exact spares
  | tail _ last ih => exact last.spares ih

/-- A script owns its document, nothing but that and its container has changed of what was there,
and if the document has another container by now, that one was not there. -/
structure Stays (base : Session) (p : PreconditionId) (b : Store) (d : DocumentId) (s : Session) :
    Prop where
  owns : Owns b d s
  spares : base.Spares d p s
  container : ∀ doc, s.store.documents.get? d = some doc →
    doc.preconditions = p ∨ ¬base.store.Has doc.preconditions

/-- A document stays so. -/
def Staying (base : Session) (p : PreconditionId) (b : Store) (d : DocumentId) (s s' : Session) :
    Prop :=
  Stays base p b d s → Stays base p b d s'

instance : IsPreorder Session (Staying base p b d) where
  refl _ := id
  trans _ _ _ h h' := h' ∘ h

/-- No element gives its document another container. -/
theorem Works.staying (works : Works b d s s')
    (spares : Stays base p b d s → base.Spares d p s') : Staying base p b d s s' := by
  intro stays
  obtain ⟨g, -, same, adv⟩ := works stays.owns
  refine ⟨stays.owns.works works, spares stays, fun doc' hd' => ?_⟩
  obtain ⟨doc, hd, -⟩ := stays.owns.document
  rw [(adv.gains hd hd').preconditions, same]
  exact stays.container doc hd

instance : AllowsNotes (Staying base p b d) :=
  ⟨fun store chain => Works.staying (AllowsNotes.of_same store chain) fun stays =>
    stays.spares.trans (.of_extends (.of_same store chain))⟩

end Session

namespace SessionM

open Session

variable {base : Session} {b : Store} {d : DocumentId} {p : PreconditionId} {e : Engine}
  {compiler : Compiler}

/-! ## Elements -/

theorem staying_includeFile (sound : compiler.IsSound) (relativeTo : Option String) (path : String)
    (i : Inclusion) : Keeps (Staying base p b d) (includeFile e compiler d relativeTo path i) := by
  refine fun s => (works_includeFile sound relativeTo path i s).staying fun stays => ?_
  obtain ⟨doc, hd, -⟩ := stays.owns.document
  exact stays.spares.trans_of_container (includeFile_spares sound hd relativeTo path i)
    (stays.container doc hd)

theorem staying_includeFiles (sound : compiler.IsSound) (i : Inclusion) (paths : List String) :
    Keeps (Staying base p b d) (includeFiles e compiler d i paths) := by
  induction paths with
  | nil => exact .pure _
  | cons path rest ih => exact Keeps.bind (staying_includeFile sound none path i) fun _ => ih

theorem staying_includeStatements (a : Attributes) (id path : String) :
    Keeps (Staying base p b d) (includeStatements d a id path) := by
  refine fun s => (works_includeStatements a id path s).staying fun stays => ?_
  have made : s.Extends (newStatements d a id path s).2 := keeps_newStatements a id path s
  unfold includeStatements
  rcases makes : newStatements d a id path s with ⟨failure | i, s₁⟩ <;> rw [makes] at made
  · rw [Step.run_bind_of_error makes]
    exact stays.spares.trans (.of_extends made)
  · rw [Step.run_bind_of_ok makes]
    exact (stays.spares.trans (.of_extends made)).modify (.document _ d _) fun _ other => other rfl

theorem staying_includeStatementFiles (a : Attributes) (id : String → String)
    (paths : List String) :
    Keeps (Staying base p b d) (includeStatementFiles d a id paths) := by
  induction paths with
  | nil => exact .pure _
  | cons path rest ih => exact Keeps.bind (staying_includeStatements a (id path) path) fun _ => ih

theorem staying_removeProperty (a : Attributes) :
    Keeps (Staying base p b d) (removeProperty e d a) := by
  refine fun s => (works_removeProperty a s).staying fun stays => ?_
  unfold removeProperty
  obtain ⟨failure, reads⟩ | ⟨_ | removal, reads⟩ := (keeps_readRemoval e d a).run_cases s
  · rw [Step.run_bind_of_error reads]
    exact stays.spares
  · rw [Step.run_bind_of_ok reads]
    exact stays.spares
  · rw [Step.run_bind_of_ok reads]
    exact stays.spares.modify (.document _ d _) fun _ other => other rfl

/-- An element that works on what has come in since leaves alone what was there. -/
theorem staying_act (sound : compiler.IsSound) {x : Element} {positional : List Value}
    {a : Attributes} {s s' : Session} {result : Except Failure Result} (owned : x.IsNew b s.store)
    (new : x.IsNew base.store s.store) (acts : act e compiler d x positional a s = (result, s')) :
    Staying base p b d s s' := by
  cases contributes : x.contributes with
  | false =>
    exact (works_act sound owned acts).staying fun stays =>
      (writes_act new contributes acts).spares stays.spares
  | true =>
    suffices Staying base p b d s (act e compiler d x positional a s).2 by rwa [acts] at this
    cases x with
    | «include» =>
      refine Keeps.bind (Keeps.bind (keeps_readInclude d a) fun _ => ?_) (fun _ => .pure _) s
      exact staying_includeFile sound _ _ _
    | includeAll =>
      refine Keeps.bind (Keeps.bind (keeps_readIncludeAll e a) fun _ => ?_) (fun _ => .pure _) s
      exact staying_includeFiles sound _ _
    | includeAllSql =>
      refine Keeps.bind (Keeps.bind (keeps_readIncludeAllSql e a) fun _ => ?_) (fun _ => .pure _) s
      exact staying_includeStatementFiles _ _ _
    | removeProperty => exact Keeps.bind (staying_removeProperty a) (fun _ => .pure _) s
    | _ => cases contributes

end SessionM

/-! ## Steps of a script -/

/-- A script has brought in the results from some number on, and the blocks that are open, and has
left alone what was there before. It has kept no results. -/
structure Running.Stays (base : Session) (p : PreconditionId) (b : Store) (first : ScopeId)
    (r : Running) : Prop where
  owns : r.Owns b
  session : base.Stays p b r.frame.document r.session
  size : first ≤ r.frame.scopes.size
  scopes : ∀ i x, first ≤ i → r.frame.scopes[i]? = some x → x.IsNew base.store r.session.store
  stack : ∀ entry ∈ r.frame.stack, entry.2.IsNew base.store r.session.store
  kept : r.frame.kept = []

theorem Running.Stays.scope_isNew {base : Session} {b : Store} {p : PreconditionId}
    {first i : ScopeId} {r : Running} (stays : r.Stays base p b first) (hi : first ≤ i) :
    (r.frame.scopes[i]?.getD default).IsNew base.store r.session.store := by
  cases h : r.frame.scopes[i]? with
  | none => exact ⟨trivial, trivial⟩
  | some x => exact stays.scopes i x hi h

namespace ScriptM

open Running

variable {base : Session} {b : Store} {p : PreconditionId} {first : ScopeId} {e : Engine}
  {compiler : Compiler} {r : Running}

theorem stays_call (sound : compiler.IsSound) (stays : r.Stays base p b first) (c : Script.Call) :
    (call e compiler c r).2.Stays base p b first := by
  obtain ⟨plain, -, calls, -⟩ | ⟨x, result, s, prepares, acts, calls⟩ := call_cases e compiler c r
  · rw [calls]
    exact stays
  · have owned := prepare_isNew stays.owns prepares
    -- the block that is open has come in since, and so has all that its elements work on
    have new : x.element.IsNew base.store r.session.store :=
      Element.isNew_of_element? (element?_of_prepare prepares) (innermostBody_isNew stays.stack)
    have grows : r.session.store.Grows s.store := by
      obtain ⟨g, -, -, adv⟩ := works_act sound owned acts stays.owns.session
      exact adv.grows
    have session := staying_act sound owned new acts stays.session
    obtain ⟨owns, -⟩ := works_call (e := e) sound c r stays.owns
    have old : ∀ i x, first ≤ i → r.frame.scopes[i]? = some x → x.IsNew base.store s.store :=
      fun i x hi hx => (stays.scopes i x hi hx).mono grows
    have stack : ∀ entry ∈ r.frame.stack, entry.2.IsNew base.store s.store :=
      fun entry mem => (stays.stack entry mem).mono grows
    rw [calls] at owns ⊢
    obtain same | ⟨y, rfl, puts⟩ := outcomeOf_cases result { r with session := s }
    · rw [same] at owns ⊢
      exact ⟨owns, session, stays.size, old, stack, stays.kept⟩
    · rw [puts] at owns ⊢
      have left : y.IsNew base.store s.store := act_isNew stays.session.spares.grows new acts
      refine ⟨owns, session, ?_, fun i z hi hz => ?_, stack, stays.kept⟩
      · show first ≤ (r.frame.scopes.push y).size
        rw [Array.size_push]
        exact Nat.le_succ_of_le stays.size
      · have hz : (r.frame.scopes.push y)[i]? = some z := hz
        rw [Array.getElem?_push] at hz
        split at hz
        · cases hz
          exact left
        · exact old i z hi hz

theorem stays_enter {i : ScopeId} (hi : first ≤ i) (stays : r.Stays base p b first) :
    (enter i r).2.Stays base p b first := by
  have new := stays.scope_isNew hi
  obtain ⟨owns, -⟩ := works_enter i r stays.owns
  have session : base.Stays p b r.frame.document _ :=
    Session.Works.staying (quiet_openBody stays.owns.session.owned
      (scope_isNew stays.owns i).opening r.session).works
      (fun stays => (writes_openBody new.opening r.session).spares stays.spares) stays.session
  have grows := (writes_openBody (d := r.frame.document) new.opening r.session).grows
  have kept := (kept_enter i r).trans stays.kept
  obtain ⟨s, ⟨failure, opens, enters⟩ | ⟨body, opens, enters⟩⟩ := enter_cases i r
  all_goals
    rw [enters] at owns kept ⊢
    rw [opens] at session grows
    have old : ∀ j x, first ≤ j → r.frame.scopes[j]? = some x → x.IsNew base.store s.store :=
      fun j x hj hx => (stays.scopes j x hj hx).mono grows
    have stack : ∀ entry ∈ r.frame.stack, entry.2.IsNew base.store s.store :=
      fun entry mem => (stays.stack entry mem).mono grows
  · exact ⟨owns, session, stays.size, old, stack, kept⟩
  · refine ⟨owns, session, ?_, fun j x hj hx => ?_, fun entry mem => ?_, kept⟩
    · show first ≤ (r.frame.scopes.modify i _).size
      rw [Array.size_modify]
      exact stays.size
    · have hx : (r.frame.scopes.modify i _)[j]? = some x := hx
      rw [Array.getElem?_modify] at hx
      split at hx
      · obtain ⟨y, hy, rfl⟩ := Option.map_eq_some_iff.1 hx
        exact ⟨(old j y hj hy).opening, (old j y hj hy).completion⟩
      · exact old j x hj hx
    · rcases List.mem_cons.1 mem with rfl | mem
      · exact openBody_isNew new.opening opens
      · exact stack entry mem

/-- What remains to be done when a block is left leaves alone what was there, if the block is a new
one. -/
theorem stays_complete {d : DocumentId} {x : Completion} {s : Session} (owned : x.IsNew b s.store)
    (new : x.IsNew base.store s.store) (stays : base.Stays p b d s) :
    base.Stays p b d (complete d x s).2 := by
  have adv := complete_advances stays.owns owned
  refine ⟨stays.owns.advance adv ((gainOf_isNew owned).mono adv.grows), ?_, fun doc' hd' => ?_⟩
  · cases x with
    | nothing => exact stays.spares
    | appendChangeSet | setPreconditions =>
      exact stays.spares.modify (.document _ d _) fun _ other => other rfl
    | setChangeSetPreconditions => exact stays.spares.modify (.changeSet _ _ _) (absurd · new.1.1)
  · obtain ⟨doc, hd, -⟩ := stays.owns.document
    rw [(adv.gains hd hd').preconditions]
    cases hc : (gainOf x).container with
    | none => exact stays.container doc hd
    | some c =>
      rw [eq_of_mem_container_gainOf hc] at new
      exact .inr new.1

theorem stays_leave {i : ScopeId} (result : Except Failure Unit) (hi : first ≤ i)
    (stays : r.Stays base p b first) : (leave i result r).2.Stays base p b first := by
  have new := stays.scope_isNew hi
  obtain ⟨owns, g, -, adv⟩ := works_leave i result r stays.owns
  obtain ⟨⟨stack, shorter, frame⟩, session⟩ := leave_cases i result r
  refine ⟨owns, ?_, ?_, ?_, ?_, ?_⟩
  all_goals rw [frame]
  · rcases session with same | session
    · rw [same]
      exact stays.session
    · rw [session]
      exact stays_complete (scope_isNew stays.owns i).completion new.completion stays.session
  · exact stays.size
  · exact fun j x hj hx => (stays.scopes j x hj hx).mono adv.session.grows
  · exact fun entry mem => (stays.stack entry (shorter.subset mem)).mono adv.session.grows
  · exact stays.kept

/-- Structured steps leave alone what was there before them. -/
theorem stays_blockwise (sound : compiler.IsSound) :
    Blockwise e compiler (first ≤ ·) (Running.Stays base p b first) where
  kept := Running.Stays.kept
  call c stays := stays_call sound stays c
  scope stays calls := (scope_of_call calls).1 ▸ stays.size
  enter := stays_enter
  leave := stays_leave

/-- What is there before some steps is left alone by them. -/
theorem stays_refl (owns : r.Owns b) {doc : DraftDocument}
    (hd : r.session.store.documents.get? r.frame.document = some doc)
    (stack : ∀ entry ∈ r.frame.stack, entry.2.IsNew r.session.store r.session.store)
    (kept : r.frame.kept = []) : r.Stays r.session doc.preconditions b r.frame.scopes.size where
  owns := owns
  session := ⟨owns.session, .refl _, fun doc' hd' => .inl (by
    obtain rfl : doc = doc' := Option.some.inj (hd.symm.trans hd')
    rfl)⟩
  size := Nat.le_refl _
  scopes i x hi hx := absurd (Array.getElem?_eq_some_iff.1 hx).1 (Nat.not_lt.2 hi)
  stack := stack
  kept := kept

end ScriptM
end Migration
