import Migration.Proofs.Inclusion.Nesting
import Migration.Proofs.Relocation.Inclusions

/-!
# Whole stores

Whatever the things of a store refer to is in the store, and what a compile brings in refers to
nothing else, if the parsers of the host give change sets without parts. A change set that gets
preconditions gets new ones.

* `Store.IsWhole` — whatever is referred to is there
* `Session.Fills` — what comes in refers to what is there
* `SessionM.fills_act` — every element fills in what it refers to
-/

namespace Migration

open SessionM

namespace Store

variable {s : Store} {entity : Entity} {i : Place entity}

/-- Whatever the things of a store refer to is in the store. -/
structure IsWhole (s : Store) : Prop where
  closed : ({} : Store).IsSelfContained s

theorem not_has_empty (i : Place entity) : ¬({} : Store).Has i := by
  cases entity <;> exact Nat.not_lt_zero _

theorem added_empty (h : s.Has i) : ({} : Store).Added s i := ⟨not_has_empty i, h⟩

namespace IsWhole

theorem change (h : s.IsWhole) {i : ChangeId} {c : DraftChange} (hc : s.changes.get? i = some c) :
    ∀ j ∈ c.columns, s.Has j :=
  fun j hj => (@h.closed .change i c hc (not_has_empty i) j hj).2

theorem precondition (h : s.IsWhole) {i : PreconditionId} {p : DraftPrecondition}
    (hp : s.preconditions.get? i = some p) : ∀ j ∈ p.nested, s.Has j ∧ i.index < j.index :=
  fun j hj => (@h.closed .precondition i p hp (not_has_empty i) j hj).imp_left (·.2)

theorem changeSet (h : s.IsWhole) {i : ChangeSetId} {c : DraftChangeSet}
    (hc : s.changeSets.get? i = some c) : (∀ j ∈ c.changes, s.Has j) ∧ (∀ j ∈ c.rollback, s.Has j) ∧
      ∀ j ∈ c.preconditions, s.Has j := by
  obtain ⟨changes, rollback, preconditions⟩ := @h.closed .changeSet i c hc (not_has_empty i)
  exact ⟨fun j hj => (changes j hj).2, fun j hj => (rollback j hj).2,
    fun j hj => (preconditions j hj).2⟩

theorem document (h : s.IsWhole) {i : DocumentId} {d : DraftDocument}
    (hd : s.documents.get? i = some d) : (∀ j ∈ d.changeSets, s.Has j) ∧ s.Has d.preconditions := by
  have parts : d.IsNew {} s := @h.closed .document i d hd (not_has_empty i)
  exact ⟨fun j hj => (parts.changeSets j hj).2, parts.preconditions.2⟩

theorem isClosed (h : s.IsWhole) : s.IsClosed := by
  rintro p c ⟨x, hx, mem⟩
  exact (h.precondition hx c mem).1

/-- What some change set offers is in the store. -/
theorem of_offers (h : s.IsWhole) {j : ChangeId} (offers : s.Offers j) : s.Has j := by
  obtain known | ⟨i, c, hc, hj⟩ := offers
  · exact known
  · exact (h.changeSet hc).1 j hj

end IsWhole
end Store

namespace Session

/-- What has come in refers to what is there, and the preconditions that change sets have got are
new. -/
structure Fills (s s' : Session) : Prop where
  grows : s.store.Grows s'.store
  whole : s.store.IsWhole → s'.store.IsWhole
  checks : ∀ i c k, s'.store.changeSets.get? i = some c → c.preconditions = some k →
    (∃ c, s.store.changeSets.get? i = some c ∧ c.preconditions = some k) ∨ s.store.Added s'.store k

namespace Fills

variable {s s₁ s' : Session}

theorem trans (h : s.Fills s₁) (h' : s₁.Fills s') : s.Fills s' where
  grows := h.grows.trans h'.grows
  whole := h'.whole ∘ h.whole
  checks i c k hc hk := by
    obtain ⟨c₁, hc₁, hk₁⟩ | new := h'.checks i c k hc hk
    · exact (h.checks i c₁ k hc₁ hk₁).imp_right (·.mono h'.grows)
    · exact .inr (new.of_grows h.grows)

/-- Where no change set gets preconditions. -/
theorem of_checks (grows : s.store.Grows s'.store) (whole : s.store.IsWhole → s'.store.IsWhole)
    (checks : ∀ i c, s'.store.changeSets.get? i = some c → c.preconditions = none ∨
      ∃ c₀, s.store.changeSets.get? i = some c₀ ∧ c₀.preconditions = c.preconditions) :
    s.Fills s' where
  grows := grows
  whole := whole
  checks i c k hc hk := by
    obtain none_ | ⟨c₀, hc₀, same⟩ := checks i c hc
    · cases none_.symm.trans hk
    · exact .inl ⟨c₀, hc₀, same.trans hk⟩

theorem of_same (store : s'.store = s.store) : s.Fills s' :=
  .of_checks (store ▸ .refl _) (fun whole => store ▸ whole) fun _ c hc =>
    .inr ⟨c, store ▸ hc, rfl⟩

instance : IsPreorder Session Fills where
  refl _ := of_same rfl
  trans _ _ _ := trans

instance : AllowsNotes Fills := ⟨fun store _ => of_same store⟩

variable {u : Store}

/-- Something is put in that refers to what is there. -/
theorem put {entity : Entity} {x : entity.Item} (hu : s.store.Puts u entity x)
    (refers : s.store.IsWhole → ({} : Store).Refers u (s.store.pool entity).next x)
    (checks : ∀ i c, u.changeSets.get? i = some c → c.preconditions = none ∨
      ∃ c₀, s.store.changeSets.get? i = some c₀ ∧ c₀.preconditions = c.preconditions) :
    s.Fills { s with store := u } :=
  .of_checks hu.grows (fun whole => ⟨Store.IsSelfContained.put whole.closed hu (refers whole)⟩) checks

/-- Something is changed to refer to what is there. -/
theorem modify {entity : Entity} {i : Place entity} {f : entity.Item → entity.Item}
    (hu : s.store.Modifies u entity i f)
    (refers : s.store.IsWhole → ∀ x, (s.store.pool entity).get? i = some x →
      ({} : Store).Refers s.store i x → ({} : Store).Refers s.store i (f x))
    (checks : ∀ i c, u.changeSets.get? i = some c → c.preconditions = none ∨
      ∃ c₀, s.store.changeSets.get? i = some c₀ ∧ c₀.preconditions = c.preconditions) :
    s.Fills { s with store := u } :=
  .of_checks hu.grows (fun whole => ⟨Store.IsSelfContained.modify whole.closed hu fun _ x hx old =>
    (refers whole x hx old).mono hu.grows⟩) checks

end Fills

/-! ## Writes -/

variable {b : Store} {d : DocumentId} {s s' : Session}

theorem Fills.addColumn (c : Column) (s : Session) : s.Fills (addColumn c s).2 :=
  .put (.column _ c) (fun _ => trivial) fun _ c hc => .inr ⟨c, hc, rfl⟩

theorem Fills.addChange {c : DraftChange} (columns : c.columns = []) (s : Session) :
    s.Fills (addChange c s).2 := by
  refine .put (.change _ c) (fun _ j hj => ?_) fun _ c hc => .inr ⟨c, hc, rfl⟩
  rw [columns] at hj
  cases hj

/-- A change set is put in with changes that are there. -/
theorem Fills.addChangeSet {c : DraftChangeSet} {s : Session}
    (changes : ∀ j ∈ c.changes, s.store.Has j) (rollback : c.rollback = [])
    (preconditions : c.preconditions = none) :
    s.Fills (addChangeSet c s).2 := by
  have put := Store.Puts.changeSet s.store c
  refine .put put (fun _ => ⟨fun j hj => ?_, fun j hj => ?_, fun j hj => ?_⟩) fun i c' hc => ?_
  · exact (Store.added_empty (changes j hj)).mono put.grows
  · rw [rollback] at hj
    cases hj
  · rw [preconditions] at hj
    cases hj
  · have hc : (s.store.changeSets.add c).get? i = some c' := hc
    rw [Pool.get?_add] at hc
    split at hc
    · cases hc
      exact .inl preconditions
    · exact .inr ⟨c', hc, rfl⟩

theorem Fills.addPrecondition (r : Record) (s : Session) :
    s.Fills (addPrecondition { record := r } s).2 :=
  .put (.precondition _ _) (fun _ => nofun) fun _ c hc => .inr ⟨c, hc, rfl⟩

theorem Fills.modifyColumn (i : ColumnId) (f : Column → Column) (s : Session) :
    s.Fills (modifyColumn i f s).2 :=
  .modify (.column _ i f) (fun _ _ _ _ => trivial) fun _ c hc => .inr ⟨c, hc, rfl⟩

theorem Fills.modifyChange {i : ChangeId} {f : DraftChange → DraftChange} {s : Session}
    (columns : ∀ c, ∀ j ∈ (f c).columns, j ∈ c.columns ∨ s.store.Has j) :
    s.Fills (modifyChange i f s).2 :=
  .modify (.change _ i f) (fun _ c _ old j hj =>
    (columns c j hj).elim (old j) Store.added_empty) fun _ c hc => .inr ⟨c, hc, rfl⟩

/-- A change set is changed to have changes that are offered. -/
theorem Fills.modifyChangeSet {i : ChangeSetId} {f : DraftChangeSet → DraftChangeSet} {s : Session}
    (preconditions : ∀ c, (f c).preconditions = c.preconditions)
    (changes : ∀ c, ∀ j ∈ (f c).changes, j ∈ c.changes ∨ s.store.Offers j)
    (rollback : ∀ c, ∀ j ∈ (f c).rollback, j ∈ c.rollback ∨ s.store.Offers j) :
    s.Fills (modifyChangeSet i f s).2 := by
  refine .modify (.changeSet _ i f) (fun whole c _ old => ?_) fun j c hc => ?_
  · refine ⟨fun j hj => (changes c j hj).elim (old.1 j) fun offers => ?_,
      fun j hj => (rollback c j hj).elim (old.2.1 j) fun offers => ?_, fun j hj => ?_⟩
    · exact Store.added_empty (whole.of_offers offers)
    · exact Store.added_empty (whole.of_offers offers)
    · exact old.2.2 j (preconditions c ▸ hj)
  · have hc : (s.store.changeSets.modify i f).get? j = some c := hc
    rw [Pool.get?_modify] at hc
    split at hc
    · obtain ⟨c₀, hc₀, rfl⟩ := Option.map_eq_some_iff.1 hc
      exact .inr ⟨c₀, hc₀, (preconditions c₀).symm⟩
    · exact .inr ⟨c, hc, rfl⟩

/-- A document is changed to have parts that are there. -/
theorem Fills.modifyDocument {i : DocumentId} {f : DraftDocument → DraftDocument} {s : Session}
    (parts : s.store.IsWhole → ∀ doc, s.store.documents.get? i = some doc →
      doc.IsNew {} s.store → (f doc).IsNew {} s.store) : s.Fills (modifyDocument i f s).2 :=
  .modify (.document _ i f) parts fun _ c hc => .inr ⟨c, hc, rfl⟩

/-- A precondition is put into an earlier one. -/
theorem Fills.nestIn {parent i : PreconditionId} {s : Session} (known : s.store.Has i)
    (later : s.store.IsWhole → parent.index < i.index) :
    s.Fills (modifyPrecondition parent (fun p => { p with nested := p.nested ++ [i] }) s).2 := by
  refine .modify (.precondition _ parent _) (fun whole p _ old j hj => ?_)
    fun _ c hc => .inr ⟨c, hc, rfl⟩
  rcases List.mem_append.1 hj with hj | hj
  · exact old j hj
  · obtain rfl := List.mem_singleton.1 hj
    exact ⟨Store.added_empty known, later whole⟩

theorem Fills.nest {parent : PreconditionId} {s : Session} (known : s.store.Has parent)
    (r : Record) :
    s.Fills (nest parent r s).2 := by
  refine (Fills.addPrecondition r s).trans
    (.nestIn (i := s.store.preconditions.next) ?_ fun _ => known)
  exact (added_of_addPrecondition (p := { record := r }) (.refl s.store) rfl).2

theorem Write.fills (h : Write b d s s') : s.Fills s' := by
  cases h with
  | note store chain => exact .of_same store
  | addColumn c => exact .addColumn c s
  | addChange columns => exact .addChange columns s
  | addChangeSet bare =>
    obtain ⟨changes, rollback, preconditions⟩ := bare
    exact .addChangeSet (by simp [changes]) rollback preconditions
  | addPrecondition r => exact .addPrecondition r s
  | nest owned r => exact .nest owned.2 r
  | modifyColumn _ f => exact .modifyColumn _ f s
  | modifyChange _ columns => exact .modifyChange columns
  | modifyChangeSet _ _ preconditions changes rollback =>
    exact .modifyChangeSet preconditions changes rollback
  | modifyDocument gains =>
    exact .modifyDocument fun _ doc _ parts => parts.gains (Gain.isNew_empty _ _) (gains doc)

theorem Writes.fills (h : Writes b d s s') : s.Fills s' := h.of_write Write.fills

/-- A change set that is there is appended to a document. -/
theorem Fills.append {i : ChangeSetId} (known : s.store.Has i) :
    s.Fills (SessionM.modifyDocument d (fun d => { d with changeSets := d.changeSets ++ [i] }) s).2 :=
  .modifyDocument fun _ _ _ parts => ⟨fun j hj => (List.mem_append.1 hj).elim (parts.changeSets j)
    fun hj => List.mem_singleton.1 hj ▸ Store.added_empty known, parts.preconditions⟩

/-- What is to be removed is added to a document. -/
theorem Fills.remove (removals : List Removal) :
    s.Fills (SessionM.modifyDocument d (fun d => { d with removals := d.removals ++ removals }) s).2 :=
  .modifyDocument fun _ _ _ parts => ⟨parts.changeSets, parts.preconditions⟩

/-- A script goes on to own its document, and what it brings in refers to what is there. -/
def FillsIn (b : Store) (d : DocumentId) (s s' : Session) : Prop :=
  Owns b d s → Owns b d s' ∧ s.Fills s'

instance : IsPreorder Session (FillsIn b d) where
  refl s owns := ⟨owns, refl_of Fills s⟩
  trans _ _ _ h h' owns := by
    obtain ⟨owns', fills⟩ := h owns
    obtain ⟨owns'', fills'⟩ := h' owns'
    exact ⟨owns'', fills.trans fills'⟩

theorem Works.fillsIn (works : Works b d s s') (fills : Owns b d s → s.Fills s') :
    FillsIn b d s s' :=
  fun owns => ⟨owns.works works, fills owns⟩

instance : AllowsNotes (FillsIn b d) :=
  ⟨fun store chain => Works.fillsIn (AllowsNotes.of_same store chain) fun _ => .of_same store⟩

end Session

/-- Whatever a compiler compiles refers to what is there. -/
def Compiler.Fills (compiler : Compiler) : Prop :=
  ∀ compile ∈ compiler, ∀ r, Keeps Session.Fills (compile r)

namespace SessionM

open Session

variable {b : Store} {d : DocumentId} {s s₁ : Session} {e : Engine} {compiler : Compiler}

/-! ## Documents -/

theorem fills_newDocument (r : Request) (logicalPath : Option String) :
    Keeps Fills (newDocument r logicalPath) := by
  refine fun s => Keeps.run_bind_of_ok (.addPrecondition _ s) fun container s₁ adds => ?_
  have known := (added_of_addPrecondition (.refl s.store) adds).2
  have put := Store.Puts.document s₁.store {
    physicalPath := r.path, logicalPath, preconditions := container
    inheritance := r.inheritance, parent := r.parent }
  exact .put put (fun _ => ⟨nofun, (Store.added_empty known).mono put.grows⟩)
    fun _ c hc => .inr ⟨c, hc, rfl⟩

theorem fills_addChangeSets {made : List DraftChangeSet} (bare : ∀ x ∈ made, x.IsBare) :
    Keeps Fills (addChangeSets made) := by
  induction made with
  | nil => exact .pure _
  | cons x rest ih =>
    obtain ⟨changes, rollback, preconditions⟩ := bare x List.mem_cons_self
    refine Keeps.bind (fun s => .addChangeSet (by simp [changes]) rollback preconditions) fun i => ?_
    exact Keeps.bind (ih fun y hy => bare y (List.mem_cons_of_mem _ hy)) fun _ => .pure _

/-- What a parser of the host gives refers to nothing. -/
theorem fills_hostDocument {parse : String → Except ResourceError (List DraftChangeSet)} {r : Request}
    (bare : ∀ made, parse r.path = .ok made → ∀ x ∈ made, x.IsBare) :
    Keeps Fills (hostDocument parse r) := by
  refine fun s => Keeps.run_bind_of_ok (keeps_ofResource _ s) fun made s₁ parses => ?_
  obtain rfl : s = s₁ := (keeps_ofResource _).of_run (R := (· = ·)) parses
  have bare := bare made (of_ofResource_ok parses)
  refine Keeps.run_bind_of_ok (fills_addChangeSets bare s) fun ids s₁ adds => ?_
  have known : ∀ i ∈ ids, s₁.store.Has i := fun i hi => (added_of_addChangeSets adds i hi).2
  refine Keeps.run_bind_of_ok (fills_newDocument _ _ s₁) fun document s₂ puts => ?_
  have grows := ((fills_newDocument _ _).of_run puts).grows
  refine Keeps.run_bind (.modifyDocument fun _ _ _ parts => ⟨fun i hi => ?_, parts.preconditions⟩)
    fun _ => .pure _
  exact Store.added_empty (grows.has (known i hi))

theorem fills_compileWith (hosts : e.HostsAreBare) (fills : compiler.Fills) {parser : Parser}
    {r : Request} (takes : e.parser? r.path = some parser) :
    Keeps Fills (compileWith e compiler parser r) := by
  cases parser with
  | host supports parse =>
    rw [compileWith_host]
    exact fills_hostDocument (hosts r.path supports parse takes)
  | script suffix =>
    cases compiler with
    | none => exact .throw _
    | some compile => exact fills compile rfl r

/-! ## Merges -/

theorem fills_mergeChangeSets (h : Inheritance) (path : Value) {ids : List ChangeSetId}
    (known : ∀ i ∈ ids, s.store.Has i) : s.Fills (mergeChangeSets d h path ids s).2 := by
  induction ids generalizing s with
  | nil => exact refl_of Fills s
  | cons i rest ih =>
    have tagged : s.Fills (modifyChangeSet i (h.applyTo path) s).2 :=
      .modifyChangeSet (fun _ => rfl) (fun _ _ hj => .inl hj) fun _ _ hj => .inl hj
    have appended := tagged.trans (.append (d := d) (tagged.grows.has (known i List.mem_cons_self)))
    exact appended.trans (ih fun j hj =>
      appended.grows.has (known j (List.mem_cons_of_mem _ hj)))

/-- A container that is there is put into an earlier one. -/
theorem fills_nestContainer {doc : DraftDocument} (hd : s.store.documents.get? d = some doc)
    {container : PreconditionId} (known : s.store.Has container)
    (later : doc.preconditions.index < container.index) :
    s.Fills (nestContainer d container s).2 := by
  show s.Fills ((if _ then _ else _ : SessionM Unit) s).2
  split
  · rw [Step.run_bind_of_ok (document_eq hd)]
    exact .nestIn known fun _ => later
  · exact refl_of Fills s

/-- What an included document adds to the one that includes it refers to what is there. -/
theorem fills_merge (owns : Owns b d s) (hs : s.Extends s₁) {child : DocumentId} {c : DraftDocument}
    (hc : s₁.store.documents.get? child = some c) (new : ¬s.store.Has child) (path : Value) :
    s₁.Fills (merge d child path s₁).2 := by
  have parts := hs.newDocuments child c hc new
  have sets := fills_mergeChangeSets (d := d) c.inheritance path fun i hi =>
    (parts.changeSets i hi).2
  obtain ⟨doc, hd, own⟩ := owns.document
  have container := (mergeChangeSets_spec (d := d) c.inheritance path c.changeSets s₁).2
  rw [show s₁.store.documents.get? d = some doc from (hs.kept d owns.known).trans hd] at container
  obtain ⟨doc', hd', same⟩ := Option.map_eq_some_iff.1 container
  have nested := sets.trans (fills_nestContainer hd' (sets.grows.has parts.preconditions.2)
    -- the container of the including document was there before the file was compiled
    (same ▸ Nat.lt_of_lt_of_le own.preconditions.2 (Nat.le_of_not_lt parts.preconditions.1)))
  rw [merge_eq hc]
  exact nested.trans (.remove c.removals)

/-! ## Included files -/

theorem fills_bringIn (owns : Owns b d s) {r : Request} {compile : SessionM DocumentId}
    (compiles : Compiles r compile) (fills : Keeps Fills compile) (path : String) (i : Inclusion) :
    s.Fills (bringIn d path i compile s).2 := by
  rcases hs : compile s with ⟨failure | child, s₁⟩
  · rw [bringIn_of_error hs]
    exact (fills.of_run hs).trans (keeps_excuse path i.required failure s₁)
  · obtain ⟨new, c, hc, -⟩ := compiles.document hs
    rw [bringIn_of_ok hs]
    exact (fills.of_run hs).trans (fills_merge owns (compiles.keeps.of_run hs) hc new i.logicalPath)

theorem fillsIn_includeFile (sound : compiler.IsSound) (hosts : e.HostsAreBare)
    (fills : compiler.Fills) (relativeTo : Option String) (path : String) (i : Inclusion) :
    Keeps (FillsIn b d) (includeFile e compiler d relativeTo path i) := by
  refine fun s => (works_includeFile sound relativeTo path i s).fillsIn fun owns => ?_
  refine Keeps.run_bind_of_ok (keeps_accept e relativeTo path i.skipsUnknown s)
    fun accepted s₁ accepts => ?_
  rcases accepted with _ | ⟨path', parser⟩
  · exact refl_of Fills s₁
  · obtain ⟨-, takes, -, -, rfl⟩ := of_accept accepts
    exact fills_bringIn owns (compiles_compileWith sound parser _)
      (fills_compileWith (r := i.request d path') hosts fills takes) path' i

theorem fillsIn_includeFiles (sound : compiler.IsSound) (hosts : e.HostsAreBare)
    (fills : compiler.Fills) (i : Inclusion) (paths : List String) :
    Keeps (FillsIn b d) (includeFiles e compiler d i paths) := by
  induction paths with
  | nil => exact .pure _
  | cons path rest ih =>
    exact Keeps.bind (fillsIn_includeFile sound hosts fills none path i) fun _ => ih

theorem fillsIn_includeStatements (a : Attributes) (id path : String) :
    Keeps (FillsIn b d) (includeStatements d a id path) := by
  refine fun s => (works_includeStatements a id path s).fillsIn fun _ => ?_
  have made : Keeps Fills (newStatements d a id path) := by
    refine fun s => Keeps.run_bind_of_ok (keeps_newChangeSet _ _ s) fun c s₁ makes => ?_
    obtain ⟨changes, rollback, preconditions⟩ := gives_newChangeSet _ _ _ _ _ makes
    refine Keeps.bind (keeps_fill _ _ _ _ _) (fun record s₂ => ?_) s₁
    refine Keeps.run_bind_of_ok (.addChange rfl s₂) fun j s₃ adds => ?_
    refine .addChangeSet (fun k hk => ?_) rollback preconditions
    rw [changes, List.nil_append] at hk
    exact List.mem_singleton.1 hk ▸ (added_of_addChange (.refl s₂.store) adds).2
  refine Keeps.run_bind_of_ok (made s) fun i s₁ makes => ?_
  exact .append (added_of_newStatements makes).2

theorem fillsIn_includeStatementFiles (a : Attributes) (id : String → String)
    (paths : List String) :
    Keeps (FillsIn b d) (includeStatementFiles d a id paths) := by
  induction paths with
  | nil => exact .pure _
  | cons path rest ih => exact Keeps.bind (fillsIn_includeStatements a (id path) path) fun _ => ih

theorem fillsIn_removeProperty (a : Attributes) : Keeps (FillsIn b d) (removeProperty e d a) := by
  refine fun s => (works_removeProperty a s).fillsIn fun _ => ?_
  refine Keeps.run_bind (keeps_readRemoval e d a s) fun removal s => ?_
  cases removal with
  | none => exact refl_of Fills s
  | some removal => exact .remove [removal]

/-! ## All elements -/

/-- Whatever an element brings in refers to what is there. -/
theorem fills_act (sound : compiler.IsSound) (hosts : e.HostsAreBare) (fills : compiler.Fills)
    {x : Element} {positional : List Value} {a : Attributes} {s s' : Session}
    {result : Except Failure Result} (owns : Owns b d s) (new : x.IsNew b s.store)
    (acts : act e compiler d x positional a s = (result, s')) : s.Fills s' := by
  cases contributes : x.contributes with
  | false => exact (writes_act new contributes acts).fills
  | true =>
    suffices FillsIn b d s (act e compiler d x positional a s).2 by
      rw [acts] at this
      exact (this owns).2
    cases x with
    | «include» =>
      refine Keeps.bind (Keeps.bind (keeps_readInclude d a) fun _ => ?_) (fun _ => .pure _) s
      exact fillsIn_includeFile sound hosts fills _ _ _
    | includeAll =>
      refine Keeps.bind (Keeps.bind (keeps_readIncludeAll e a) fun _ => ?_) (fun _ => .pure _) s
      exact fillsIn_includeFiles sound hosts fills _ _
    | includeAllSql =>
      refine Keeps.bind (Keeps.bind (keeps_readIncludeAllSql e a) fun _ => ?_) (fun _ => .pure _) s
      exact fillsIn_includeStatementFiles _ _ _
    | removeProperty => exact Keeps.bind (fillsIn_removeProperty a) (fun _ => .pure _) s
    | _ => cases contributes

end SessionM
end Migration
