import Migration.Proofs.Inclusion.Discovery
import Migration.Proofs.Inclusion.Parameters
import Migration.Proofs.Relocation.Completion
import Migration.Proofs.Relocation.Merges
import Migration.Proofs.Relocation.Scripts

/-!
# Included files are independent

What an included file brings into a document does not depend on what is there already. A file that
is included by itself into a fresh document brings in there what it brings into any other document,
at other places; put in place it is the same. So a directory brings in what its files bring in by
themselves, one after the other. Every point of a compile has a session as it is assumed here
(`Visits.owns`, `Visits.knowsOwners`).

* `includeAlone` — a file included into a fresh document
* `SessionM.includeFile_group`, `SessionM.includeFiles_groups` — files bring in what they bring in
  by themselves
* `Engine.isIndependent` — no script of the engine declares a parameter or refers to a change set
* `includeAll_eq_groups` — the same for directories, with the order of the files
-/

namespace Migration

open SessionM Session

/-! ## Scripts whose text is independent -/

mutual

/-- The calls in a step. -/
def Script.Node.calls : Script.Node → List Script.Call
  | .call c | .keep _ c => [c]
  | .block c body => c :: Script.calls body
  | .reopen _ body | .attempt body => Script.calls body
  | .enter _ | .exit _ | .raise .. => []

/-- The calls in steps. -/
def Script.calls : List Script.Node → List Script.Call
  | [] => []
  | node :: rest => node.calls ++ Script.calls rest

end

/-- A call that does not declare a parameter and does not refer to a change set, wherever it
stands. -/
def Script.Call.isIndependent (c : Script.Call) : Bool :=
  c.element != "property" && (c.element != "rollback" || c.attributes.isEmpty)

/-- No script of the engine declares a parameter or refers to a change set. -/
def Engine.isIndependent (e : Engine) : Bool :=
  e.scripts.all fun nodes => (Script.calls nodes).all (·.isIndependent)

section

variable {e : Engine} {compiler : Compiler} {x y : List Script.Node × Running}

/-- A script comes only to calls that are in it. -/
theorem calls_of_moves (h : Moves e compiler x y) : Script.calls y.1 ⊆ Script.calls x.1 := by
  cases h with
  | next => exact List.subset_append_right _ _
  | block => exact List.Subset.trans (List.subset_cons_self _ _) (List.subset_append_left _ _)
  | reopen => exact List.subset_append_left _ _
  | attempt => exact List.subset_append_left _ _

theorem calls_of_reaches (h : Reaches e compiler x y) : Script.calls y.1 ⊆ Script.calls x.1 := by
  induction h with
  | refl => exact List.Subset.refl _
  | tail _ move ih => exact List.Subset.trans (calls_of_moves move) ih

theorem mem_calls {node : Script.Node} {c : Script.Call} (h : node.call? = some c)
    (rest : List Script.Node) : c ∈ Script.calls (node :: rest) := by
  refine List.mem_append_left _ ?_
  cases node <;> cases h
  all_goals first | exact List.mem_singleton_self _ | exact List.mem_cons_self

/-- The name of an element that may not be independent. -/
def Element.bindingName? : Element → Option String
  | property => some "property"
  | rollback .. => some "rollback"
  | _ => none

/-- Such an element has no other name. -/
theorem Body.bindingName?_of_element? {name binding : String} {body : Body} {x : Element}
    (h : body.element? e name = some x) (named : x.bindingName? = some binding) :
    name = binding := by
  cases names_of_element? h <;> cases named <;> rfl

namespace ScriptM

variable {c : Script.Call} {x : Application} {r r' : Running}

/-- A call that is written without attributes is made without attributes. -/
theorem attributes_of_prepare (h : prepare e c r = (.ok x, r')) (nothing : c.attributes = []) :
    x.attributes = [] := by
  obtain ⟨binding, r₁, -, h⟩ := Step.bind_eq_ok.1 h
  cases binding with
  | nothing => cases h
  | _ =>
    obtain ⟨positional, r₂, -, h⟩ := Step.bind_eq_ok.1 h
    rw [nothing] at h
    obtain ⟨attributes, r₃, read, h⟩ := Step.bind_eq_ok.1 h
    cases read
    first
      | exact attributes_of_dispatch h
      | cases h

/-- A call that is independent as it is written is so when it is made. -/
theorem isIndependent_of_prepare (h : prepare e c r = (.ok x, r'))
    (written : c.isIndependent = true) :
    x.element.IsIndependent x.positional x.attributes := by
  have stands := element?_of_prepare h
  simp only [Script.Call.isIndependent, Bool.and_eq_true, Bool.or_eq_true, bne_iff_ne,
    List.isEmpty_iff] at written
  refine ⟨fun property => ?_, fun owner i rollback _ => ?_⟩
  · exact written.1 (Body.bindingName?_of_element? stands (by rw [property]; rfl))
  · have name := Body.bindingName?_of_element? stands (by rw [rollback]; rfl)
    exact attributes_of_prepare h (written.2.resolve_left fun other => other name)

end ScriptM

/-- Whatever a compile comes to is independent if the text of all scripts is. -/
theorem isIndependent_of_visits (independent : e.isIndependent = true) {depth : Nat} {r : Request}
    {s : Session} {p : Point} (h : Visits e depth r s p) : p.IsIndependent e := by
  induction h with
  | @here depth r s o s₁ steps running opens reaches =>
    rintro node rest c x rfl calls prepares
    have mem : c ∈ Script.calls o.nodes := calls_of_reaches reaches (mem_calls calls rest)
    refine ScriptM.isIndependent_of_prepare prepares ?_
    exact List.all_eq_true.1 (List.all_eq_true.1 independent _ (nodes_of_openScript opens)) c mem
  | inside _ _ _ _ _ _ ih => exact ih

end

/-! ## Files by themselves -/

/-- Includes a file into a fresh document. -/
def includeAlone (e : Engine) (compiler : Compiler) (i : Inclusion) (path : String) :
    SessionM DocumentId := do
  let d ← newDocument { path := "" } none
  includeFile e compiler d none path i
  return d

/-- Where a file is included into a fresh document, neither it nor anything that it includes
declares a parameter or refers to an earlier change set. -/
def IsIndependentFile (e : Engine) (depth : Nat) (i : Inclusion) (s : Session) (path : String) :
    Prop :=
  ∀ d s₁ path' suffix s₂ p, newDocument { path := "" } none s = (.ok d, s₁) →
    accept e none path i.skipsUnknown s₁ = (.ok (some (path', .script suffix)), s₂) →
    Visits e depth (i.request d path') s₂ p → p.IsIndependent e

/-- Once they are put in place, parts are what groups hold, one group after the other. -/
structure Store.Completes (u : Store) (p : Parts) (groups : List CompleteDocument) : Prop where
  changeSets : p.changeSets.map u.changeSet? = (groups.flatMap (·.changeSets)).map some
  removals : p.removals = groups.flatMap (·.removals)
  preconditions :
    p.preconditions.map u.precondition? = (groups.flatMap (·.preconditions.nested)).map some

theorem Store.Completes.append {u : Store} {p q : Parts} {groups others : List CompleteDocument}
    (h : u.Completes p groups) (h' : u.Completes q others) :
    u.Completes (p ++ q) (groups ++ others) where
  changeSets := by
    rw [Parts.changeSets_append, List.map_append, List.flatMap_append, List.map_append, h.changeSets,
      h'.changeSets]
  removals := by rw [Parts.removals_append, List.flatMap_append, h.removals, h'.removals]
  preconditions := by
    rw [Parts.preconditions_append, List.map_append, List.flatMap_append, List.map_append,
      h.preconditions, h'.preconditions]

theorem map_eq_map_some {α β : Type} {f g : α → Option β} {items : List α}
    (same : ∀ x ∈ items, g x = f x ∧ (f x).isSome) :
    items.map g = (items.filterMap f).map some := by
  induction items with
  | nil => rfl
  | cons x rest ih =>
    obtain ⟨eq, some_⟩ := same x List.mem_cons_self
    obtain ⟨y, hy⟩ := Option.isSome_iff_exists.1 some_
    rw [List.map_cons, List.filterMap_cons_some hy, List.map_cons, eq, hy,
      ih fun z hz => same z (List.mem_cons_of_mem _ hz)]

namespace Relocation

variable {m : Relocation}

/-- What has been brought in stays a copy, whatever is brought in later. -/
theorem Relates.copies_of_spares {s t u : Session} {d : DocumentId} {p : PreconditionId}
    (h : m.Relates s t) (spares : t.Spares d p u) (old : m.target.Has d) (old' : m.target.Has p) :
    m.Copies s.store u.store := by
  intro entity i new
  obtain ⟨x, hx⟩ := Store.exists_get?_of_has new.2
  have placed := h.get?_place new.1 hx
  have other : IsOther d p (m.place i) := by
    cases entity with
    | document => exact fun same => not_has_place new.1 (same ▸ old)
    | precondition => exact fun same => not_has_place new.1 (same ▸ old')
    | _ => trivial
  rw [spares.kept _ (Store.has_of_get? placed) other, h.items i new.1]

/-- What a copy of a document holds is put in place as the document is. -/
theorem completes_parts {s u : Store} (copies : m.Copies s u) (closed : m.source.IsSelfContained s)
    {d : DocumentId} {parts : Parts} (isNew : parts.IsNew m.source s) (hp : s.parts? d = some parts)
    {y : CompleteDocument} (hy : s.complete d = some y) : u.Completes (m.parts parts) [y] := by
  obtain ⟨doc, container, hd, hc, rfl⟩ := Store.of_parts? hp
  unfold Store.complete at hy
  rw [hd] at hy
  cases hy
  have tree : (s.precondition? doc.preconditions).getD (.node default []) =
      .node container.record
        (container.nested.filterMap (s.preconditionTree s.preconditions.size)) := by
    rw [Store.precondition?, Store.preconditionTree_of_get? hc]
    rfl
  refine ⟨?_, (List.append_nil _).symm, ?_⟩
  · show (doc.changeSets.map m.place).map u.changeSet? = _
    rw [List.map_map, List.flatMap_singleton]
    refine map_eq_map_some fun i hi => ?_
    have new := isNew.changeSets i hi
    obtain ⟨x, hx⟩ := Store.exists_get?_of_has new.2
    have hx : s.changeSets.get? i = some x := hx
    refine ⟨changeSet?_place copies closed new, ?_⟩
    unfold Store.changeSet?
    rw [hx]
    rfl
  · show (container.nested.map m.place).map u.precondition? = _
    rw [List.map_map, List.flatMap_singleton, tree]
    refine map_eq_map_some fun i hi => ?_
    have new := isNew.preconditions i hi
    obtain ⟨x, hx⟩ := Store.exists_get?_of_has new.2
    have hx : s.preconditions.get? i = some x := hx
    refine ⟨precondition?_place copies closed new (by omega), ?_⟩
    have known : i.index < s.preconditions.size := new.2
    obtain ⟨depth, hdepth⟩ := Nat.exists_eq_succ_of_ne_zero (Nat.ne_zero_of_lt known)
    rw [hdepth, Store.preconditionTree_of_get? hx]
    rfl

end Relocation

namespace SessionM

open Relocation

variable {e : Engine} {depth : Nat} {b : Store} {d : DocumentId} {i : Inclusion} {s s₀ t : Session}

/-- There is nothing in a fresh document. -/
theorem parts?_newDocument (r : Request) (logicalPath : Option String) (s : Session) :
    (newDocument r logicalPath s).2.store.parts? s.store.documents.next = some {} := by
  have document : (newDocument r logicalPath s).2.store.documents.get? s.store.documents.next =
      some { physicalPath := r.path, logicalPath, preconditions := s.store.preconditions.next
             inheritance := r.inheritance, parent := r.parent } :=
    (Pool.get?_add ..).trans (if_pos rfl)
  have container : (newDocument r logicalPath s).2.store.preconditions.get?
      s.store.preconditions.next = some { record := .fresh Catalog.container } :=
    (Pool.get?_add ..).trans (if_pos rfl)
  exact Store.parts?_of_get? document container

/-- A file brings into any document what it brings into a fresh one. -/
theorem includeFile_group (hosts : e.HostsAreBare) (owns : Owns b d t) {doc : DraftDocument}
    (hd : t.store.documents.get? d = some doc) (known : t.KnowsOwners) (known₀ : s₀.KnowsOwners)
    (table : s₀.table = t.table) (chain : s₀.chain = t.chain) {path : String} {d₀ : DocumentId}
    {u : Session} {y : CompleteDocument}
    (alone : includeAlone e (compilerBelow e (depth + 1)) i path s₀ = (.ok d₀, u))
    (hy : u.store.complete d₀ = some y) (independent : IsIndependentFile e depth i s₀ path) :
    ∃ t' added, includeFile e (compilerBelow e (depth + 1)) d none path i t = (.ok (), t') ∧
      t.KeepsTable t' ∧
      (∀ p, t.store.parts? d = some p → t'.store.parts? d = some (p ++ added)) ∧
      ∀ v, t'.Spares d doc.preconditions v → v.store.Completes added [y] := by
  obtain ⟨d₁, s, puts, alone⟩ := Step.bind_eq_ok.1 alone
  obtain ⟨_, s', ran, alone⟩ := Step.bind_eq_ok.1 alone
  cases alone
  have put : s₀.Extends s := (extends_newDocument _ _).of_run puts
  have owns₀ := owns_newDocument puts
  obtain ⟨doc₀, hd₀, parts₀⟩ := owns₀.document
  obtain ⟨doc', hd', parts⟩ := owns.document
  obtain rfl : doc' = doc := Option.some.inj (hd'.symm.trans hd)
  have same : s₀.KeepsTable s := (keepsTable_newDocument _ _).of_run puts
  -- what comes into the fresh document is moved to where it comes into the other one; neither the
  -- fresh document nor the other one is moved, for both were there before
  let m : Relocation := {
    source := s.store, target := t.store, document := d, table := t.table
    owners := fun p hp local_ o ho =>
      ⟨put.grows.has (known₀ p (table ▸ hp) local_ o ho), known p hp local_ o ho⟩ }
  have start : m.Relates s t :=
    .start rfl rfl ⟨Eq.trans same table, rfl⟩ (chain ▸ put.chain.symm)
  obtain ⟨t', added, brought, brings⟩ := includeFile_brings (compilerBelow_isSound e (depth + 1))
    start hd₀ hd rfl rfl parts₀.preconditions.2 parts.preconditions.2 rfl (i := i)
    (fun path' parser s₁ accepts => by
      obtain ⟨-, takes, -⟩ := of_accept accepts
      refine compilesAlike_of_scripts hosts takes fun suffix script t related => ?_
      subst script
      exact compileScript_matches hosts depth related fun p =>
        independent _ _ _ _ _ p puts accepts) ran
  have nothing : s.store.parts? d₀ = some {} := by
    have := parts?_newDocument { path := "" } none s₀
    rw [newDocument_eq] at puts this
    cases puts
    exact this
  refine ⟨t', m.parts added, brought, brings.relates.tables.2, brings.target, fun v spares => ?_⟩
  have copies : m.Copies u.store v.store :=
    brings.relates.copies_of_spares spares owns.known parts.preconditions.2
  exact completes_parts copies brings.relates.closed brings.isNew (brings.source {} nothing) hy

/-- Files bring in what they bring in by themselves, one after the other. -/
theorem includeFiles_groups (hosts : e.HostsAreBare) (owns : Owns b d t) {doc : DraftDocument}
    (hd : t.store.documents.get? d = some doc) (known : t.KnowsOwners) (known₀ : s₀.KnowsOwners)
    (table : s₀.table = t.table) (chain : s₀.chain = t.chain) {group : String → CompleteDocument}
    {paths : List String}
    (alone : ∀ path ∈ paths, ∃ d₀ u,
      includeAlone e (compilerBelow e (depth + 1)) i path s₀ = (.ok d₀, u) ∧
        u.store.complete d₀ = some (group path))
    (independent : ∀ path ∈ paths, IsIndependentFile e depth i s₀ path) :
    ∃ t' added, includeFiles e (compilerBelow e (depth + 1)) d i paths t = (.ok (), t') ∧
      t.Spares d doc.preconditions t' ∧
      (∀ p, t.store.parts? d = some p → t'.store.parts? d = some (p ++ added)) ∧
      ∀ v, t'.Spares d doc.preconditions v → v.store.Completes added (paths.map group) := by
  induction paths generalizing t doc with
  | nil =>
    refine ⟨t, {}, rfl, .refl t, fun p hp => ?_, fun v _ => ⟨rfl, rfl, rfl⟩⟩
    rw [Parts.append_empty, hp]
  | cons path rest ih =>
    obtain ⟨d₀, u, ran, hy⟩ := alone path List.mem_cons_self
    obtain ⟨t₁, added, first, tables, gains, completes⟩ :=
      includeFile_group hosts owns hd known known₀
      table chain ran hy (independent path List.mem_cons_self)
    have sound := compilerBelow_isSound e (depth + 1)
    have works : t.Works b d t₁ := (works_includeFile sound none path i).of_run first
    have spares : t.Spares d doc.preconditions t₁ := by
      have spares := includeFile_spares (e := e) sound hd none path i
      rwa [first] at spares
    -- the document has the same container as before, and the next file comes upon the same
    -- parameters
    obtain ⟨g, -, same, adv⟩ := works owns
    obtain ⟨doc₁, hd₁, more⟩ := adv.document doc hd
    have container : doc₁.preconditions = doc.preconditions := by
      rw [more.preconditions, same]
      rfl
    obtain ⟨t', added', others, spares', gains', completes'⟩ := ih (owns.works works) hd₁
      (known.mono adv.grows tables) (table.trans tables.symm) (chain.trans adv.chain.symm)
      (fun path hp => alone path (List.mem_cons_of_mem _ hp))
      fun path hp => independent path (List.mem_cons_of_mem _ hp)
    rw [container] at spares' completes'
    refine ⟨t', added ++ added', Step.bind_eq_ok.2 ⟨(), t₁, first, others⟩, spares.trans spares',
      fun p hp => ?_, fun v later => ?_⟩
    · rw [gains' _ (gains p hp), Parts.append_assoc]
    · exact (completes v (spares'.trans later)).append (completes' v later)

end SessionM

/-- An include of a directory succeeds and adds to a document what groups hold, one group after the
other. -/
def AddsGroups (e : Engine) (compiler : Compiler) (d : DocumentId) (a : Attributes) (s : Session)
    (groups : List CompleteDocument) : Prop :=
  ∃ s' before added, includeAll e compiler d a s = (.ok (), s') ∧
    s.store.parts? d = some before ∧ s'.store.parts? d = some (before ++ added) ∧
    s'.store.Completes added groups

section

variable {e : Engine} {depth : Nat} {b : Store} {d : DocumentId} {a : Attributes}
    {s s₀ s₁ : Session}
  {paths : List String} {i : Inclusion} {group : String → CompleteDocument}

/-- A directory brings in what its files bring in by themselves. -/
theorem addsGroups_of_reads (hosts : e.HostsAreBare) (owns : Owns b d s) (known : s.KnowsOwners)
    (known₀ : s₀.KnowsOwners) (table : s₀.table = s.table) (chain : s₀.chain = s.chain)
    (reads : readIncludeAll e d a s = (.ok (paths, i), s₁))
    (alone : ∀ path ∈ paths, ∃ d₀ u,
      includeAlone e (compilerBelow e (depth + 1)) i path s₀ = (.ok d₀, u) ∧
        u.store.complete d₀ = some (group path))
    (independent : ∀ path ∈ paths, IsIndependentFile e depth i s₀ path) :
    AddsGroups e (compilerBelow e (depth + 1)) d a s (paths.map group) := by
  have read : s.Extends s₁ := (keeps_readIncludeAll e a).of_run reads
  have same : s.KeepsTable s₁ := (keepsTable_readIncludeAll a).of_run reads
  have owns₁ : Owns b d s₁ := owns.works (AllowsGrowth.of_extends read)
  obtain ⟨doc, hd, -⟩ := owns₁.document
  obtain ⟨s', added, runs, -, gains, completes⟩ := includeFiles_groups hosts owns₁ hd
    (known.mono read.grows same) known₀ (table.trans same.symm) (chain.trans read.chain.symm) alone
    independent
  obtain ⟨before, held⟩ := exists_parts? owns
  refine ⟨s', before, added, Step.bind_eq_ok.2 ⟨_, s₁, reads, runs⟩, held, ?_,
    completes s' (.refl s')⟩
  exact gains before (Relocation.parts?_of_extends read held)

end

/-- Two scripts with a change set each, and a comparator of the host that turns the order round. -/
def twoScripts : Engine := {
  Engine.ofScripts [
    ("1.py", [.block { element := "databaseChangeLog" } [
      .block { element := "changeSet", attributes := [("id", .literal (.text "first"))] } []]]),
    ("2.py", [.block { element := "databaseChangeLog" } [
      .block { element := "changeSet", attributes := [("id", .literal (.text "second"))] } []]])] with
  extensions := { comparators := [("reverse", .instance (.comparator reversed))] } }

theorem hostsAreBare_twoScripts : twoScripts.HostsAreBare := Engine.hostsAreBare_ofScripts []

/-- What an include of both scripts reads, in reverse. -/
theorem readIncludeAll_twoScripts (s : Session)
    (path : ((expandPath ⟨0⟩ (.text ".") "path" "includeAll" s).1.toOption.map id) = some ".")
    (name : ((expand ⟨0⟩ (.text "reverse") s).1.toOption.map Value.print) = some "reverse") :
    namedComparator twoScripts ⟨0⟩ (.text "reverse") s = (.ok (some reversed), s) ∧
      readIncludeAll twoScripts ⟨0⟩ [("path", .text "."), ("resourceComparator", .text "reverse")] s =
        (.ok (["2.py", "1.py"],
          { inheritance := {}, logicalPath := .null, skipsUnknown := true }), s) := by
  obtain ⟨path, s₁, hpath, rfl⟩ := Step.eq_ok_of_map path
  obtain rfl : s = s₁ := (keeps_expandPath _ _ _ _).of_run (R := (· = ·)) hpath
  obtain ⟨name, s₁, hname, named⟩ := Step.eq_ok_of_map name
  obtain rfl : s = s₁ := (keeps_expand _ _).of_run (R := (· = ·)) hname
  have names : namedComparator twoScripts ⟨0⟩ (.text "reverse") s = (.ok (some reversed), s) := by
    refine Step.bind_eq_ok.2 ⟨name, s, hname, ?_⟩
    rw [named]
    rfl
  have sorted : ["1.py", "2.py"].Pairwise (Text.le · · = true) := by decide +kernel
  have listed : listing twoScripts none "." "includeAll" true s =
      (.ok ("", ["1.py", "2.py"]), s) := by
    have files : twoScripts.sources.list none "." true = .ok ["1.py", "2.py"] :=
      congrArg Except.ok (ordered_none sorted)
    refine Step.bind_eq_ok.2 ⟨"", s, rfl, ?_⟩
    rw [files]
    rfl
  have discovered : discover twoScripts ⟨0⟩
      [("path", .text "."), ("resourceComparator", .text "reverse")] "includeAll" s =
        (.ok ["2.py", "1.py"], s) := by
    refine Step.bind_eq_ok.2 ⟨".", s, hpath, Step.bind_eq_ok.2 ⟨none, s, rfl, Step.bind_eq_ok.2
      ⟨none, s, rfl, Step.bind_eq_ok.2 ⟨.null, s, rfl, Step.bind_eq_ok.2 ⟨none, s, rfl,
      Step.bind_eq_ok.2 ⟨some reversed, s, names, Step.bind_eq_ok.2 ⟨none, s, rfl,
      Step.bind_eq_ok.2 ⟨_, s, listed, ?_⟩⟩⟩⟩⟩⟩⟩⟩
    have turned : ordered (some reversed) ["1.py", "2.py"] = ["2.py", "1.py"] :=
      ordered_eq_reverse isReverse_reversed sorted
    dsimp only
    rw [show List.filter _ ["1.py", "2.py"] = ["1.py", "2.py"] by decide +kernel, turned]
    rfl
  exact ⟨names, Step.bind_eq_ok.2 ⟨(), s, rfl, Step.bind_eq_ok.2 ⟨_, s, discovered,
    Step.bind_eq_ok.2 ⟨{ inheritance := {}, logicalPath := .null }, s, rfl, rfl⟩⟩⟩⟩

end Migration
