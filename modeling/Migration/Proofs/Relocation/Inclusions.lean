import Migration.Proofs.Inclusion.Chain
import Migration.Proofs.Relocation.Elements

/-!
# Includes in two sessions

A document that is put down, or made of a file and merged into the one that includes it, is the same
in two sessions that hold the same things at other places, if the compile of the file is.

* `Relocation.Matches` — what a step gives and leaves in the one session is what it gives and leaves
  in the other one
* `SessionM.hostDocument_pairs` — the documents of parsers of the host
* `SessionM.bringIn_matches`, `SessionM.includeFile_matches` — a file is included in both sessions
-/

namespace Migration

/-- What the parsers of the host give has no parts that the store of a compile would hold. -/
def Engine.HostsAreBare (e : Engine) : Prop :=
  ∀ path supports parse, e.parser? path = some (.host supports parse) →
    ∀ made, parse path = .ok made → ∀ x ∈ made, ChangeSet.IsBare x

/-- An engine that has but the parser of scripts has no parsers of the host. -/
theorem Engine.hostsAreBare_ofScripts (scripts : List (String × List Script.Node)) :
    (Engine.ofScripts scripts).HostsAreBare := by
  intro path supports parse takes
  have script : (Engine.ofScripts scripts).parsers = Parsers.add {} "script" (.script ".py") := rfl
  simp only [Engine.parser?, Parsers.find?, script, Parsers.add, List.find?_cons,
    List.find?_nil] at takes
  split at takes <;> cases takes

namespace Relocation

open SessionM

variable (m : Relocation)

/-- A request with the document that includes moved. -/
def request (r : Request) : Request := { r with parent := r.parent.map m.parent }

/-- Two steps have failed in the same way or given the same, up to the places, and have left
sessions that hold the same. -/
structure Matches {α : Type} (move : α → α) (x y : Except Failure α × Session) : Prop where
  result : y.1 = x.1.map move
  relates : m.Relates x.2 y.2

/-- A file is compiled alike in all sessions that are related to one. -/
def CompilesAlike (e : Engine) (compiler compiler' : Compiler) (parser : Parser) (r : Request)
    (s : Session) : Prop :=
  ∀ t, m.Relates s t → m.Matches m.place (compileWith e compiler parser r s)
    (compileWith e compiler' parser (m.request r) t)

variable {m}

theorem Matches.of_agrees {α : Type} {c : Store} {x y : SessionM α} (agrees : Agrees (m.At c) x y)
    {s t : Session} (h : m.Relates s t) (grown : c.Grows s.store) : m.Matches id (x s) (y t) := by
  obtain ⟨same, related⟩ := agrees ⟨h, grown⟩
  refine ⟨?_, related.relates⟩
  rw [same]
  cases (x s).1 <;> rfl

/-- One step after another one that gives the same. -/
theorem Matches.bind {α β : Type} {move : β → β} {x y : SessionM α} {f g : α → SessionM β}
    {s t : Session} (hx : m.Matches id (x s) (y t))
    (hf : ∀ a s' t', x s = (.ok a, s') → m.Relates s' t' → m.Matches move (f a s') (g a t')) :
    m.Matches move ((x >>= f) s) ((y >>= g) t) := by
  obtain ⟨same, related⟩ := hx
  rw [Step.run_bind, Step.run_bind]
  rcases hs : x s with ⟨_ | a, s'⟩
  all_goals
    rcases ht : y t with ⟨_ | b, t'⟩
    all_goals
      rw [hs, ht] at same related
      cases same
  · exact ⟨rfl, related⟩
  · exact hf a s' t' hs related

theorem request_inclusion {d : DocumentId} (new : ¬m.source.Has d) (i : Inclusion) (path : String) :
    m.request (i.request d path) = i.request (m.place d) path := by
  unfold request Inclusion.request
  rw [Option.map_some, parent_eq new]

end Relocation

namespace SessionM

open Relocation Session

variable {m : Relocation} {c : Store} {d : DocumentId} {s t : Session} {e : Engine}
  {compiler compiler' : Compiler}

/-! ## New documents -/

theorem newDocument_pairs (r : Request) (logicalPath : Option String) :
    m.Pairs c (m.Fresh c) m.place (newDocument r logicalPath)
      (newDocument (m.request r) logicalPath) := by
  refine .bind (addPrecondition_pairs _) fun c' i grows fresh => ?_
  exact (addDocument_pairs ⟨by simp, fresh.1⟩).imp fun s i h =>
    ⟨h.1, fun old => h.2 (grows.has old)⟩

theorem addChangeSets_pairs {made : List DraftChangeSet} (bare : ∀ x ∈ made, x.IsBare) :
    m.Pairs c (fun s ids => ∀ i ∈ ids, m.source.Added s i) (List.map m.place) (addChangeSets made)
      (addChangeSets made) := by
  induction made generalizing c with
  | nil => exact .pure fun _ _ => nofun
  | cons x rest ih =>
    refine .bind (addChangeSet_pairs_of_isBare (bare x List.mem_cons_self)) fun c₁ i grows fresh => ?_
    refine .bind (ih fun y hy => bare y (List.mem_cons_of_mem _ hy)) fun c₂ more grows new => ?_
    refine .pure fun s grows' j hj => ?_
    rcases List.mem_cons.1 hj with rfl | hj
    · exact fresh.1.mono (grows.trans grows')
    · exact (new j hj).mono grows'

/-- The document that a parser of the host makes of a file. -/
theorem hostDocument_pairs {parse : String → Except ResourceError (List DraftChangeSet)} {r : Request}
    (bare : ∀ made, parse r.path = .ok made → ∀ x ∈ made, x.IsBare) :
    m.Pairs c (fun s => m.source.Added s) m.place (hostDocument parse r)
      (hostDocument parse (m.request r)) := by
  show m.Pairs c _ _ (ofResource (parse r.path) >>= _) (ofResource (parse r.path) >>= _)
  cases hp : parse r.path with
  | error failure => exact .throw_bind _ _ _
  | ok made =>
    simp only [ofResource, pure_bind]
    refine .bind (addChangeSets_pairs (bare made hp)) fun c₁ ids grows₁ new => ?_
    refine .bind (newDocument_pairs { r with parent := none } none) fun c₂ d grows₂ fresh => ?_
    refine .bind_agrees ?_ fun _ => .pure fun s grows => fresh.1.mono grows
    exact modifyDocument_agrees fresh.1 (fun _ => rfl) fun s x grows h =>
      ⟨fun i hi => (new i hi).mono (grows₂.trans grows), h.preconditions⟩

/-- What is made of a file is the same in both sessions if that is so where it is a script. -/
theorem compilesAlike_of_scripts (hosts : e.HostsAreBare) {parser : Parser} {r : Request}
    (takes : e.parser? r.path = some parser)
    (scripts : ∀ suffix, parser = .script suffix →
      m.CompilesAlike e compiler compiler' (.script suffix) r s) :
    m.CompilesAlike e compiler compiler' parser r s := by
  cases parser with
  | script suffix => exact scripts suffix rfl
  | host supports parse =>
    intro t related
    rw [compileWith_host, compileWith_host]
    obtain ⟨same, related, -⟩ := hostDocument_pairs (m := m) (c := s.store)
      (hosts r.path supports parse takes) ⟨related, .refl _⟩
    exact ⟨same, related.relates⟩

theorem ofReading_agrees (path : String) (reading : Script.Reading) :
    Agrees (m.At c) (ofReading path reading) (ofReading path reading) := by
  cases reading with
  | steps nodes => exact .pure _
  | invalid fault => exact reject_agrees _ _
  | abandoned x => exact .throw _

theorem scriptOf_agrees (path : String) (file : SourceFile) :
    Agrees (m.At c) (scriptOf e path file) (scriptOf e path file) := by
  cases file with
  | script nodes => exact .bind (ofMishap_agrees _) fun _ => .pure _
  | broken => exact .bind (ofMishap_agrees _) fun _ => reject_agrees _ _
  | bytes bytes =>
    cases bytes with
    | nil => exact .pure _
    | cons byte rest =>
      refine .bind (ofMishap_agrees _) fun encoding => ?_
      cases encoding.decode (byte :: rest) with
      | ok text => exact ofReading_agrees _ _
      | error fault => exact reject_agrees _ _

/-- The script that is opened and the document for it. -/
theorem openScript_pairs (r : Request) :
    m.Pairs c (fun s o => m.source.Added s o.document)
      (fun o => { o with document := m.place o.document }) (openScript e r)
      (openScript e (m.request r)) := by
  refine .bind_agrees (ofResource_agrees _) fun path => ?_
  refine .bind_agrees (ofResource_agrees _) fun file => ?_
  refine .bind_agrees (scriptOf_agrees path file) fun nodes => ?_
  dsimp only [Relocation.request]
  cases r.logicalPath.textOrNull? with
  | none => exact .throw _
  | some logicalPath =>
    refine .bind (newDocument_pairs { r with path } logicalPath) fun c' d grows fresh => ?_
    exact .pure fun s grows => fresh.1.mono grows

/-! ## Merges -/

theorem mergeChangeSets_agrees (known : m.source.Added c d) (h : Inheritance) (path : Value)
    {ids : List ChangeSetId} (new : ∀ i ∈ ids, m.source.Added c i) :
    Agrees (m.At c) (mergeChangeSets d h path ids)
      (mergeChangeSets (m.place d) h path (ids.map m.place)) := by
  induction ids with
  | nil => exact .pure _
  | cons i rest ih =>
    have added := new i List.mem_cons_self
    refine .bind (modifyChangeSet_agrees added (fun _ => rfl) fun _ _ _ h => h) fun _ => ?_
    refine .bind ?_ fun _ => ih fun j hj => new j (List.mem_cons_of_mem _ hj)
    exact modifyDocument_agrees known
      (fun x => by simp only [Relocation.item, List.map_append, List.map_cons, List.map_nil])
      fun s x grows h => ⟨fun j hj => by
        rcases List.mem_append.1 hj with hj | hj
        · exact h.changeSets j hj
        · obtain rfl := List.mem_singleton.1 hj
          exact added.mono grows, h.preconditions⟩

/-- There is something inside a precondition in both sessions or in neither. -/
theorem isFull_place (h : m.Relates s t) {container : PreconditionId}
    (new : ¬m.source.Has container) :
    (t.store.preconditions.get? (m.place container)).any (!·.nested.isEmpty) =
      (s.store.preconditions.get? container).any (!·.nested.isEmpty) := by
  have placed : t.store.preconditions.get? (m.place container) =
      (s.store.preconditions.get? container).map (m.item .precondition) := h.items container new
  rw [placed]
  cases s.store.preconditions.get? container with
  | none => rfl
  | some p => exact congrArg (!·) List.isEmpty_map

/-- A container that came in after the one of the including document is put into it. -/
theorem nestContainer_matches (h : m.Relates s t) (known : m.source.Added s.store d)
    {container : PreconditionId} (new : m.source.Added s.store container)
    (later : ∀ doc, s.store.documents.get? d = some doc →
      doc.preconditions.index < container.index) :
    m.Matches id (nestContainer d container s)
      (nestContainer (m.place d) (m.place container) t) := by
  obtain ⟨doc, hd⟩ := Store.exists_get?_of_has known.2
  have hd' : t.store.documents.get? (m.place d) = some (m.item .document doc) :=
    h.get?_place known.1 hd
  have parts : doc.IsNew m.source s.store := h.closed d doc hd known.1
  show m.Matches id ((if _ then _ else _ : SessionM Unit) s)
    ((if _ then _ else _ : SessionM Unit) t)
  rw [isFull_place h new.1]
  split
  · rw [Step.run_bind_of_ok (document_eq hd), Step.run_bind_of_ok (document_eq hd')]
    exact .of_agrees (nested_agrees parts.preconditions new (later doc hd)) h (.refl _)
  · exact ⟨rfl, h⟩

/-- What an included document adds to the one that includes it. -/
theorem merge_matches (owns : Owns m.source d s) {s₁ t₁ : Session} (hs : s.Extends s₁)
    (h : m.Relates s₁ t₁) {child : DocumentId} {x : DraftDocument}
    (hx : s₁.store.documents.get? child = some x) (new : ¬s.store.Has child) (path : Value) :
    m.Matches id (merge d child path s₁) (merge (m.place d) (m.place child) path t₁) := by
  have parts := hs.newDocuments child x hx new
  have known : m.source.Added s₁.store d := ⟨owns.owned, hs.grows.has owns.known⟩
  have placed : t₁.store.documents.get? (m.place child) = some (m.item .document x) :=
    h.get?_place (fun old => new (owns.base.has old)) hx
  have sets := Matches.of_agrees (mergeChangeSets_agrees known x.inheritance path fun i hi =>
    (parts.changeSets i hi).of_grows owns.base) h (.refl _)
  have grows := grows_mergeChangeSets (d := d) x.inheritance path x.changeSets s₁
  have merged := mergeChangeSets_advances owns (.of_extends owns.base hs) x.inheritance path
    x.changeSets fun i hi => (parts.changeSets i hi).1
  have nested := nestContainer_matches sets.relates (known.mono grows)
    ((parts.preconditions.mono grows).of_grows owns.base) fun doc hd => by
      -- the container of the including document was there before the file was compiled
      obtain ⟨doc₀, hd₀, own⟩ := owns.document
      obtain ⟨doc', hd', gains⟩ := merged.document doc₀ hd₀
      obtain rfl : doc' = doc := Option.some.inj (hd'.symm.trans hd)
      rw [gains.preconditions]
      exact Nat.lt_of_lt_of_le own.preconditions.2 (Nat.le_of_not_lt parts.preconditions.1)
  rw [merge_eq hx, merge_eq placed]
  have kept := grows.trans (grows_nestContainer (d := d) x.preconditions _)
  exact .of_agrees (addRemovals_agrees (known.mono kept) x.removals) nested.relates (.refl _)

/-! ## Included files -/

theorem excuse_agrees (path : String) (required : Bool) (failure : Failure) :
    Agrees (m.At c) (excuse path required failure) (excuse path required failure) := by
  cases failure with
  | resource error => exact .ite (.throw _) (.ite (.throw _) (warn_agrees _))
  | _ => exact .throw _

/-- A file is brought in alike if it is compiled alike. -/
theorem bringIn_matches (owns : Owns m.source d s) {r : Request}
    {compile compile' : SessionM DocumentId} (compiles : Compiles r compile)
    (alike : m.Matches m.place (compile s) (compile' t)) (path : String) (i : Inclusion) :
    m.Matches id (bringIn d path i compile s) (bringIn (m.place d) path i compile' t) := by
  obtain ⟨same, related⟩ := alike
  rcases hs : compile s with ⟨failure | child, s₁⟩
  all_goals
    rcases ht : compile' t with ⟨failure' | child', t₁⟩
    all_goals
      rw [hs, ht] at same related
      cases same
  · rw [bringIn_of_error hs, bringIn_of_error ht]
    exact .of_agrees (excuse_agrees path i.required failure) related (.refl _)
  · obtain ⟨new, x, hx, -⟩ := compiles.document hs
    rw [bringIn_of_ok hs, bringIn_of_ok ht]
    exact merge_matches owns (compiles.keeps.of_run hs) related hx new _

/-- A file is included alike if whatever is accepted is compiled alike. -/
theorem includeFile_matches (owns : Owns m.source d s) (h : m.Relates s t)
    (sound : compiler.IsSound) {relativeTo : Option String} {path : String} {i : Inclusion}
    (alike : ∀ path' parser s₁,
      accept e relativeTo path i.skipsUnknown s = (.ok (some (path', parser)), s₁) →
      m.CompilesAlike e compiler compiler' parser (i.request d path') s₁) :
    m.Matches id (includeFile e compiler d relativeTo path i s)
      (includeFile e compiler' (m.place d) relativeTo path i t) := by
  obtain ⟨same, related⟩ := accept_agrees (c := s.store) e relativeTo path i.skipsUnknown ⟨h, .refl _⟩
  unfold includeFile
  rw [Step.run_bind, Step.run_bind]
  rcases hs : accept e relativeTo path i.skipsUnknown s with ⟨failure | accepted, s₁⟩
  all_goals
    rcases ht : accept e relativeTo path i.skipsUnknown t with ⟨failure' | accepted', t₁⟩
    all_goals
      rw [hs, ht] at same related
      cases same
  · exact ⟨rfl, related.relates⟩
  · rcases accepted with _ | ⟨path', parser⟩
    · exact ⟨rfl, related.relates⟩
    · obtain ⟨-, -, -, -, rfl⟩ := of_accept hs
      have compiled := alike path' parser s₁ hs t₁ related.relates
      rw [request_inclusion owns.owned] at compiled
      exact bringIn_matches owns (compiles_compileWith sound parser _) compiled path' i

theorem include_matches (owns : Owns m.source d s) (h : m.Relates s t) (sound : compiler.IsSound)
    {a : Attributes}
    (alike : ∀ relativeTo path i s₁ path' parser s₂,
      readInclude d a s = (.ok (relativeTo, path, i), s₁) →
      accept e relativeTo path i.skipsUnknown s₁ = (.ok (some (path', parser)), s₂) →
      m.CompilesAlike e compiler compiler' parser (i.request d path') s₂) :
    m.Matches id («include» e compiler d a s) («include» e compiler' (m.place d) a t) := by
  refine .bind (.of_agrees (readInclude_agrees ⟨owns.owned, owns.known⟩ a) h (.refl _)) ?_
  rintro ⟨relativeTo, path, i⟩ s₁ t₁ reads h₁
  obtain rfl : s = s₁ := (keeps_readInclude d a).of_run (R := (· = ·)) reads
  exact includeFile_matches owns h₁ sound fun path' parser s₂ => alike _ _ _ _ path' parser s₂ reads

/-- Files are included alike, one after the other. -/
theorem includeFiles_matches (owns : Owns m.source d s) (h : m.Relates s t)
    (sound : compiler.IsSound) {i : Inclusion} {paths : List String}
    (alike : ∀ before path after s₁ path' parser s₂, paths = before ++ path :: after →
      includeFiles e compiler d i before s = (.ok (), s₁) →
      accept e none path i.skipsUnknown s₁ = (.ok (some (path', parser)), s₂) →
      m.CompilesAlike e compiler compiler' parser (i.request d path') s₂) :
    m.Matches id (includeFiles e compiler d i paths s)
      (includeFiles e compiler' (m.place d) i paths t) := by
  induction paths generalizing s t with
  | nil => exact ⟨rfl, h⟩
  | cons path rest ih =>
    refine .bind (includeFile_matches owns h sound fun path' parser s₂ =>
      alike [] path rest s path' parser s₂ rfl rfl) fun _ s' t' ran h' => ?_
    have works := (works_includeFile (b := m.source) (d := d) sound none path i).of_run ran
    refine ih (owns.works works) h' fun before path after s₁ path' parser s₂ split earlier => ?_
    refine alike (_ :: before) path after s₁ path' parser s₂ (congrArg (_ :: ·) split) ?_
    exact Step.bind_eq_ok.2 ⟨(), s', ran, earlier⟩

theorem includeAll_matches (owns : Owns m.source d s) (h : m.Relates s t) (sound : compiler.IsSound)
    {a : Attributes}
    (alike : ∀ before path after i s₁ s₂ path' parser s₃,
      readIncludeAll e d a s = (.ok (before ++ path :: after, i), s₁) →
      includeFiles e compiler d i before s₁ = (.ok (), s₂) →
      accept e none path i.skipsUnknown s₂ = (.ok (some (path', parser)), s₃) →
      m.CompilesAlike e compiler compiler' parser (i.request d path') s₃) :
    m.Matches id (includeAll e compiler d a s) (includeAll e compiler' (m.place d) a t) := by
  refine .bind (.of_agrees (readIncludeAll_agrees ⟨owns.owned, owns.known⟩ e a) h (.refl _)) ?_
  rintro ⟨paths, i⟩ s₁ t₁ reads h₁
  have read : s.Extends s₁ := (keeps_readIncludeAll e a).of_run reads
  have owns₁ := owns.works (AllowsGrowth.of_extends read)
  refine includeFiles_matches owns₁ h₁ sound fun before path after s₂ path' parser s₃ split => ?_
  subst split
  exact alike before path after i s₁ s₂ path' parser s₃ reads

end SessionM
end Migration
