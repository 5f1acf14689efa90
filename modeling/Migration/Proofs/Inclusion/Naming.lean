import Mathlib.Data.List.Forall2
import Migration.Proofs.Attribute.Aspects
import Migration.Proofs.Inclusion.Statements
import Migration.Proofs.Text

/-!
# What change sets for files are called

The change set for a file of statements is called after the file: its name without the extension,
between two texts. These texts are what two attributes come to, so they have been expanded; but the
whole is expanded once more when the change set is made from it, and so is what comes from the name
of the file.

* `Path.IsBase`, `Path.IsStem`, `Path.IsNamed` — the name of a file, with its extension or without
  it
* `ChangeSet.IsCalled` — a change set has the identifier that a text comes to
* `Session.Gains` — files have become the last change sets of a document
* `SessionM.gains_includeStatementFiles` — files become change sets one after the other
* `includeAllSql_identifiers` — the identifiers of the change sets for the files of a directory
-/

namespace Migration

/-! ## Names of files -/

namespace Path

/-- What stands after the last slash of a path. -/
inductive IsBase : List Char → List Char → Prop
  | alone {base} (bare : '/' ∉ base) : IsBase base base
  | inside {directory base} (bare : '/' ∉ base) : IsBase (directory ++ '/' :: base) base

/-- A name without its extension, which starts at the last point, unless nothing but points stands
before that. -/
inductive IsStem : List Char → List Char → Prop
  | cut {stem extension} (last : '.' ∉ extension) (named : ∃ c ∈ stem, c ≠ '.') :
      IsStem (stem ++ '.' :: extension) stem
  | whole {name} (bare : ∀ before after, name = before ++ '.' :: after → '.' ∉ after →
      ∀ c ∈ before, c = '.') : IsStem name name

theorem baseName_of_isBase {path : String} {base : List Char} (h : IsBase path.toList base) :
    baseName path = String.ofList base := by
  have backwards : baseName path =
      String.ofList (path.toList.reverse.span (· != '/')).1.reverse := by
    rw [List.span_eq_takeWhile_dropWhile]
    rfl
  rw [backwards]
  generalize path.toList = cs at h
  cases h with
  | alone bare => rw [Text.span_of_not_mem (by simpa using bare), List.reverse_reverse]
  | inside bare => rw [Text.span_reverse bare, List.reverse_reverse]

theorem isBase_baseName (path : String) : IsBase path.toList (baseName path).toList := by
  obtain ⟨base, is⟩ : ∃ base, IsBase path.toList base := by
    by_cases inside : '/' ∈ path.toList
    · obtain ⟨directory, base, whole, bare⟩ := Text.exists_last_cut inside
      exact ⟨base, whole ▸ .inside bare⟩
    · exact ⟨_, .alone inside⟩
  rw [baseName_of_isBase is, String.toList_ofList]
  exact is

theorem stem_of_isStem {name : String} {stem : List Char} (h : IsStem name.toList stem) :
    Path.stem name = String.ofList stem := by
  unfold Path.stem
  generalize whole : name.toList = cs at h
  cases h with
  | cut last named =>
    rw [Text.span_reverse last]
    show (if stem.reverse.all (· == '.') then name else String.ofList stem.reverse.reverse) = _
    rw [if_neg (by simpa using named), List.reverse_reverse]
  | whole bare =>
    by_cases pointed : '.' ∈ stem
    · obtain ⟨before, after, rfl, last⟩ := Text.exists_last_cut pointed
      rw [Text.span_reverse last]
      show (if before.reverse.all (· == '.') then name else String.ofList before.reverse.reverse) = _
      rw [if_pos (by simpa using bare before after rfl last), ← whole, String.ofList_toList]
    · rw [Text.span_of_not_mem (by simpa using pointed)]
      simp

theorem isStem_stem (name : String) : IsStem name.toList (Path.stem name).toList := by
  obtain ⟨stem, is⟩ : ∃ stem, IsStem name.toList stem := by
    by_cases named : ∃ before after, name.toList = before ++ '.' :: after ∧ '.' ∉ after ∧
        ∃ c ∈ before, c ≠ '.'
    · obtain ⟨before, after, whole, last, named⟩ := named
      exact ⟨before, whole ▸ .cut last named⟩
    · push Not at named
      exact ⟨_, .whole named⟩
  rw [stem_of_isStem is, String.toList_ofList]
  exact is

/-- The name by which a file is called: with its extension if that is kept, and without it if
not. -/
def IsNamed (keeps : Bool) (path name : String) : Prop :=
  ∃ base stem, IsBase path.toList base ∧ IsStem base stem ∧
    name.toList = if keeps then base else stem

theorem isNamed_iff {keeps : Bool} {path name : String} :
    IsNamed keeps path name ↔ name = if keeps then baseName path else stem (baseName path) := by
  constructor
  · rintro ⟨base, stem, isBase, isStem, called⟩
    have base_eq := baseName_of_isBase isBase
    have stem_eq : Path.stem (baseName path) = String.ofList stem := by
      refine stem_of_isStem ?_
      rwa [base_eq, String.toList_ofList]
    rw [stem_eq, base_eq, ← String.toList_inj, called]
    cases keeps <;> simp
  · rintro rfl
    exact ⟨_, _, isBase_baseName path, isStem_stem _, apply_ite String.toList ..⟩

end Path

/-! ## Identifiers -/

/-- A change set is called what a text comes to in a document. -/
def ChangeSet.IsCalled (cs : DraftChangeSet) (t : Table) (d : DocumentId) (text : String) : Prop :=
  ∃ id, t.expand text (some d) = .ok id ∧ cs.id = some id

namespace ChangeSet.IsCalled

variable {cs cs' : DraftChangeSet} {t : Table} {d : DocumentId} {text text' : String}

/-- It is called by the text itself just if there is nothing in the text to expand. -/
theorem id_eq_iff (h : cs.IsCalled t d text) :
    cs.id = some text ↔ t.expand text (some d) = .ok text := by
  obtain ⟨id, expands, named⟩ := h
  rw [expands, named, Option.some_inj, Except.ok.injEq]

/-- Change sets that are called by texts with nothing to expand are told apart by the texts. -/
theorem text_eq (h : cs.IsCalled t d text) (h' : cs'.IsCalled t d text')
    (fixed : t.expand text (some d) = .ok text) (fixed' : t.expand text' (some d) = .ok text')
    (same : cs.id = cs'.id) : text = text' := by
  rw [h.id_eq_iff.2 fixed, h'.id_eq_iff.2 fixed'] at same
  exact Option.some.inj same

end ChangeSet.IsCalled

/-- Files have become change sets at the end of a document, in order, each called what is meant for
it; what was there has stayed as it was. -/
structure Session.Gains (s s' : Session) (d : DocumentId) (text : String → String)
    (files : List String) : Prop where
  table : s'.table = s.table
  kept : ∀ i cs, s.store.changeSets.get? i = some cs → s'.store.changeSets.get? i = some cs
  gained : ∃ new : List ChangeSetId,
    s'.store.documents.get? d = (s.store.documents.get? d).map (fun doc =>
      { doc with changeSets := doc.changeSets ++ new }) ∧
    List.Forall₂ (fun file i => ∃ cs, s'.store.changeSets.get? i = some cs ∧
      cs.IsCalled s.table d (text file)) files new

namespace Session.Gains

variable {s s' s'' : Session} {d : DocumentId} {text : String → String} {files files' : List String}

theorem nil (s : Session) (d : DocumentId) (text : String → String) : s.Gains s d text [] where
  table := rfl
  kept := fun _ _ h => h
  gained := ⟨[], by cases s.store.documents.get? d <;> simp, .nil⟩

theorem append (h : s.Gains s' d text files) (h' : s'.Gains s'' d text files') :
    s.Gains s'' d text (files ++ files') where
  table := h'.table.trans h.table
  kept := fun i cs here => h'.kept i cs (h.kept i cs here)
  gained := by
    obtain ⟨new, documents, calls⟩ := h.gained
    obtain ⟨new', documents', calls'⟩ := h'.gained
    refine ⟨new ++ new', ?_, List.rel_append ?_ ?_⟩
    · rw [documents', documents, Option.map_map]
      refine congrArg (Option.map · _) (funext fun doc => ?_)
      exact congrArg (fun changeSets => { doc with changeSets }) (List.append_assoc ..)
    · exact calls.imp fun file i ⟨cs, here, called⟩ => ⟨cs, h'.kept i cs here, called⟩
    · rw [h.table] at calls'
      exact calls'

end Session.Gains

namespace SessionM

variable {d : DocumentId} {a : Attributes} {s s₁ : Session} {text path : String}
    {cs : DraftChangeSet}

/-- The change set for a file is called what the text comes to that is meant for it. -/
theorem isCalled_of_newChangeSet
    (makes : newChangeSet d (statementsAttributes a text) s = (.ok cs, s₁)) :
    cs.IsCalled s.table d text := by
  obtain ⟨value, rfl, holds⟩ := says_of_newChangeSet makes
  obtain ⟨v, expands, read⟩ := holds .id
  rw [statementsAttributes, Attributes.get_cons_self] at expands
  replace expands : ofFilter (Value.text <$> s.table.expand text (some d)) s = (.ok v, s) := expands
  cases h : s.table.expand text (some d) with
  | error malformed =>
    rw [h] at expands
    cases expands
  | ok id =>
    rw [h] at expands
    cases expands
    exact ⟨id, h, (Option.some.inj read).symm⟩

/-- A file becomes the last change set of a document, or nothing is done. -/
theorem gains_includeStatements (d : DocumentId) (a : Attributes) (text : String → String)
    (path : String) (s : Session) :
    (∃ failure, includeStatements d a (text path) path s = (.error failure, s)) ∨
      ∃ s', includeStatements d a (text path) path s = (.ok (), s') ∧ s.Gains s' d text [path] := by
  obtain ⟨failure, fails⟩ | ⟨cs, record, makes, done⟩ :=
    includeStatements_cases d a (text path) path s
  · exact .inl ⟨failure, fails⟩
  have put : ∀ i, (s.withStatements d cs record).store.changeSets.get? i =
      if i = s.store.changeSets.next then
        some { cs with changes := cs.changes ++ [s.store.changes.next] }
      else s.store.changeSets.get? i :=
    Pool.get?_add _ _
  have called : ChangeSet.IsCalled
      { cs with changes := cs.changes ++ [s.store.changes.next] } s.table d
      (text path) := show cs.IsCalled _ _ _ from isCalled_of_newChangeSet makes
  refine .inr ⟨_, done, rfl, fun i old here => ?_,
    [s.store.changeSets.next], ?_, .cons ⟨_, ?_, called⟩ .nil⟩
  · have known : i ≠ s.store.changeSets.next := by
      rintro rfl
      exact s.store.not_has_next .changeSet (Store.has_of_get? here)
    rw [put, if_neg known, here]
  · exact (Pool.get?_modify _ d d _).trans (if_pos rfl)
  · rw [put, if_pos rfl]

/-- Files become change sets one after the other, up to the first one for which none can be made. -/
theorem gains_includeStatementFiles (d : DocumentId) (a : Attributes) (text : String → String)
    (paths : List String) (s : Session) :
    ∃ done, done <+: paths ∧ s.Gains (includeStatementFiles d a text paths s).2 d text done ∧
      ((includeStatementFiles d a text paths s).1 = .ok () → done = paths) ∧
      ∀ failure, (includeStatementFiles d a text paths s).1 = .error failure →
        ∃ path, done ++ [path] <+: paths ∧
          includeStatements d a (text path) path (includeStatementFiles d a text paths s).2 =
            (.error failure, (includeStatementFiles d a text paths s).2) := by
  induction paths generalizing s with
  | nil =>
    have does : includeStatementFiles d a text [] s = (.ok (), s) := rfl
    rw [does]
    refine ⟨[], List.prefix_rfl, .nil s d text, fun _ => rfl, ?_⟩
    rintro _ ⟨⟩
  | cons path rest ih =>
    rw [includeStatementFiles]
    obtain ⟨failure, fails⟩ | ⟨s', adds, gains⟩ := gains_includeStatements d a text path s
    · rw [Step.run_bind_of_error fails]
      refine ⟨[], List.nil_prefix, .nil s d text, fun ok => ?_, ?_⟩
      · cases ok
      · rintro _ ⟨⟩
        exact ⟨path, ⟨rest, rfl⟩, fails⟩
    · rw [Step.run_bind_of_ok adds]
      obtain ⟨done, before, gains', all, stops⟩ := ih s'
      refine ⟨path :: done, List.prefix_cons_inj path |>.2 before, gains.append gains',
        fun ok => by rw [all ok], fun failure h => ?_⟩
      obtain ⟨next, within, fails⟩ := stops failure h
      exact ⟨next, List.prefix_cons_inj path |>.2 within, fails⟩

/-! ## The element -/

section

variable {e : Engine} {paths : List String} {before after : Value}
  (valid : a.validate documentOwner "includeAllSql" includeAllSqlAttributes = .ok ())
  (discovers : discover e d (a.only discoveryAttributes) "includeAllSql" s = (.ok paths, s₁))
  (starts : expand d (a.get "idPrefix") s = (.ok before, s))
  (ends : expand d (a.get "idSuffix") s = (.ok after, s))

include valid discovers

theorem includeAllSql_of_discover_nil (none_ : paths = []) :
    includeAllSql e d a s = (.ok (), s₁) := by
  subst none_
  have checks := ofCheck_of_ok valid s
  unfold includeAllSql readIncludeAllSql
  rw [Step.run_bind_of_ok (Step.bind_eq_ok.2 ⟨(), _, checks, Step.bind_eq_ok.2
    ⟨[], _, discovers, rfl⟩⟩)]
  rfl

include starts ends

/-- The element makes a change set for each file, by a text in which the name of the file stands
between two others. -/
theorem includeAllSql_of_discover (some_ : paths ≠ []) :
    includeAllSql e d a s = includeStatementFiles d a
      (sqlChangeSetId · (if before.isTruthy then before.print else "")
        (if after.isTruthy then after.print else "") (a.flag "idKeepsExtension" false)) paths s := by
  have checks := ofCheck_of_ok valid s
  have starts : textOrEmpty d (a.get "idPrefix") s = _ := Step.run_bind_of_ok starts _
  have ends : textOrEmpty d (a.get "idSuffix") s = _ := Step.run_bind_of_ok ends _
  have going : ¬paths.isEmpty = true := fun empty => some_ (List.isEmpty_iff.1 empty)
  rw [(of_discover discovers).2.2 some_] at discovers
  unfold includeAllSql readIncludeAllSql
  rw [Step.run_bind_of_ok (Step.bind_eq_ok.2 ⟨(), _, checks, Step.bind_eq_ok.2
    ⟨paths, _, discovers, (congrFun (if_neg going) s).trans (Step.bind_eq_ok.2 ⟨_, _, starts,
      Step.bind_eq_ok.2 ⟨_, _, ends, rfl⟩⟩)⟩⟩)]

theorem gains_includeAllSql :
    let text := (sqlChangeSetId · (if before.isTruthy then before.print else "")
      (if after.isTruthy then after.print else "") (a.flag "idKeepsExtension" false))
    let whole := includeAllSql e d a s
    ∃ done, done <+: paths ∧ s.Gains whole.2 d text done ∧ (whole.1 = .ok () → done = paths) ∧
      ∀ failure, whole.1 = .error failure → ∃ path, done ++ [path] <+: paths ∧
        includeStatements d a (text path) path whole.2 = (.error failure, whole.2) := by
  intro text whole
  by_cases some_ : paths = []
  · obtain ⟨-, ⟨warnings, rfl⟩, -⟩ := of_discover discovers
    have does : whole = (.ok (), { s with warnings }) :=
      includeAllSql_of_discover_nil valid discovers some_
    rw [does]
    refine ⟨[], List.nil_prefix, ⟨rfl, fun _ _ h => h, (Session.Gains.nil s d text).gained⟩,
      fun _ => some_.symm, ?_⟩
    rintro _ ⟨⟩
  · have does : whole = includeStatementFiles d a text paths s :=
      includeAllSql_of_discover valid discovers starts ends some_
    rw [does]
    exact gains_includeStatementFiles d a text paths s

end

/-- The identifiers of the change sets for the files of a directory. Two texts are the ones of the
prefix and of the suffix, each expanded once, or empty. The files become the last change sets of the
document, in order, up to the first one for which none can be made, and then the element fails as
that does. Each is called what its text comes to when it is expanded once more: the name of the
file, as it stands, between the two texts. The change sets are called by the texts themselves just
if there is nothing to expand in any of them; and change sets with such texts are called alike just
if their files have the same name. -/
theorem includeAllSql_identifiers {e : Engine} {d : DocumentId} {a : Attributes} {s s₁ : Session}
    {paths : List String} {before after : Value} {doc : DraftDocument}
    (valid : a.validate documentOwner "includeAllSql" includeAllSqlAttributes = .ok ())
    (discovers : discover e d (a.only discoveryAttributes) "includeAllSql" s = (.ok paths, s₁))
    (starts : expand d (a.get "idPrefix") s = (.ok before, s))
    (ends : expand d (a.get "idSuffix") s = (.ok after, s))
    (here : s.store.documents.get? d = some doc) :
    let called := Path.IsNamed (a.flag "idKeepsExtension" false)
    let text := fun name => (if before.isTruthy then before.print else "") ++ name ++
      if after.isTruthy then after.print else ""
    let whole := includeAllSql e d a s
    (∃ (done : List String) (new : List ChangeSetId), done <+: paths ∧
      (whole.1 = .ok () → done = paths) ∧
      (∀ failure, whole.1 = .error failure → ∃ path name, done ++ [path] <+: paths ∧
        called path name ∧
        includeStatements d a (text name) path whole.2 = (.error failure, whole.2)) ∧
      whole.2.store.documents.get? d = some { doc with changeSets := doc.changeSets ++ new } ∧
      List.Forall₂ (fun path i => ∃ name cs, called path name ∧
        whole.2.store.changeSets.get? i = some cs ∧ cs.IsCalled s.table d (text name)) done new ∧
      (List.Forall₂ (fun path i => ∃ name cs, called path name ∧
          whole.2.store.changeSets.get? i = some cs ∧ cs.id = some (text name)) done new ↔
        ∀ path ∈ done, ∀ name, called path name →
          s.table.expand (text name) (some d) = .ok (text name))) ∧
    ∀ name name' cs cs', ChangeSet.IsCalled cs s.table d (text name) →
      ChangeSet.IsCalled cs' s.table d (text name') →
      s.table.expand (text name) (some d) = .ok (text name) →
      s.table.expand (text name') (some d) = .ok (text name') →
        (cs.id = cs'.id ↔ name = name') := by
  intro called text whole
  let nameOf := fun path : String => if a.flag "idKeepsExtension" false then Path.baseName path
    else Path.stem (Path.baseName path)
  have named : ∀ path name, called path name ↔ name = nameOf path :=
    fun path name => Path.isNamed_iff
  refine ⟨?_, fun name name' cs cs' h h' fixed fixed' => ⟨fun same => ?_, ?_⟩⟩
  · obtain ⟨done, within, gains, all, stops⟩ := gains_includeAllSql valid discovers starts ends
    obtain ⟨new, documents, calls⟩ := gains.gained
    rw [here] at documents
    refine ⟨done, new, within, all, fun failure h => ?_, documents, ?_, fun law => ?_,
      fun fixed => ?_⟩
    · obtain ⟨path, before, fails⟩ := stops failure h
      exact ⟨path, nameOf path, before, (named _ _).2 rfl, fails⟩
    · exact calls.imp fun path i ⟨cs, put, h⟩ => ⟨nameOf path, cs, (named _ _).2 rfl, put, h⟩
    · -- a change set is called by its text just if the text expands to itself
      have each : List.Forall₂ (fun path _ => s.table.expand (text (nameOf path)) (some d) =
          .ok (text (nameOf path)) ∧ True) done new := by
        refine calls.mp (fun path i => ?_) law
        rintro ⟨cs, put, h⟩ ⟨name, cs', is, put', id⟩
        obtain rfl := (named _ _).1 is
        obtain rfl := Option.some.inj (put.symm.trans put')
        exact ⟨h.id_eq_iff.1 id, trivial⟩
      intro path mem name is
      obtain rfl := (named _ _).1 is
      exact ((List.forall₂_and_left _ _).1 each).1 path mem
    · have each := (List.forall₂_and_left _ _).2
        ⟨fun path mem => fixed path mem (nameOf path) ((named _ _).2 rfl), calls⟩
      exact each.imp fun path i ⟨fixed, cs, put, h⟩ =>
        ⟨nameOf path, cs, (named _ _).2 rfl, put, h.id_eq_iff.2 fixed⟩
  · have same := congrArg String.toList (h.text_eq h' fixed fixed' same)
    simp only [text, String.toList_append] at same
    exact String.toList_inj.1 (List.append_cancel_left (List.append_cancel_right same))
  · rintro rfl
    rw [h.id_eq_iff.2 fixed, h'.id_eq_iff.2 fixed']

end SessionM

/-- Two files of statements, one of which has a name with a placeholder. -/
def dollarFile : Engine where
  __ := Engine.ofScripts []
  sources := { root := "/", entries := [
    (["$\x7bv\x7d.sql"], .file (.bytes [])), (["x.sql"], .file (.bytes []))] }

theorem discover_dollarFile {a : Attributes} (path : a.get "path" = .text ".")
    (unset : ∀ name ∈ SessionM.discoveryAttributes, name ≠ "path" → name ∉ a.keys) (d : DocumentId)
    (s : Session) :
    SessionM.discover dollarFile d (a.only SessionM.discoveryAttributes) "includeAllSql" s =
      (.ok ["$\x7bv\x7d.sql", "x.sql"], s) := by
  have sorted : ["$\x7bv\x7d.sql", "x.sql"].Pairwise (Text.le · · = true) := by decide +kernel
  have unset : ∀ name ∈ SessionM.discoveryAttributes, name ≠ "path" →
      (a.only SessionM.discoveryAttributes).get name = .null := by
    intro name mem ne
    rw [Attributes.get_only mem, Attributes.get_of_not_mem (unset name mem ne)]
  have names : SessionM.expandPath d ((a.only SessionM.discoveryAttributes).get "path") "path"
      "includeAllSql" s = (.ok ".", s) := by
    rw [Attributes.get_only (by decide), path]
    exact SessionM.expandPath_of_isClean (by decide +kernel) (by decide) _ _ s
  exact SessionM.discover_all names unset rfl (congrArg Except.ok (ordered_none sorted)) sorted
    (by decide) (by decide +kernel)

/-- A placeholder without a value stays in the identifier, so the two files are told apart. -/
theorem includeAllSql_identifiers_unset :
    let a : Attributes := [("path", .text "."), ("idPrefix", .text "v-")]
    let s : Session := (SessionM.newDocument { path := "a.py" } none
      { table := .ofRun none none none }).2
    let whole := SessionM.includeAllSql dollarFile ⟨0⟩ a s
    ∃ doc new, whole.2.store.documents.get? ⟨0⟩ = some doc ∧ doc.changeSets = new ∧
      List.Forall₂ (fun path i => ∃ name cs, Path.IsNamed false path name ∧
        whole.2.store.changeSets.get? i = some cs ∧ cs.id = some ("v-" ++ name ++ ""))
        ["$\x7bv\x7d.sql", "x.sql"] new := by
  intro a s whole
  have prefixed : SessionM.expand ⟨0⟩ (.text "v-") s = (.ok (.text "v-"), s) :=
    SessionM.expand_of_isPlain (Value.isPlain_text.2 (by decide)) _ s
  have discovers := discover_dollarFile (a := a) rfl (by decide) ⟨0⟩ s
  have valid : a.validate documentOwner "includeAllSql" SessionM.includeAllSqlAttributes = .ok () :=
    Attributes.validate_of_keys (by decide) (by decide)
  have suffix : SessionM.expand ⟨0⟩ (a.get "idSuffix") s = (.ok .null, s) := rfl
  have does : whole = _ :=
    SessionM.includeAllSql_of_discover valid discovers prefixed suffix (by decide)
  have runs : whole.1.toBool = true := (congrArg (·.1.toBool) does).trans (by decide +kernel)
  obtain ⟨⟨done, new, -, all, -, here, -, law⟩, -⟩ :=
    SessionM.includeAllSql_identifiers valid discovers prefixed suffix rfl
  have ok : whole.1 = .ok () := by
    cases h : whole.1 with
    | error failure =>
      rw [h] at runs
      cases runs
    | ok => rfl
  obtain rfl := all ok
  refine ⟨_, new, here, rfl, law.2 fun path mem name is => ?_⟩
  rw [Path.isNamed_iff.1 is]
  have fixed : ∀ path ∈ ["$\x7bv\x7d.sql", "x.sql"], s.table.expand
      ("v-" ++ Path.stem (Path.baseName path) ++ "") (some ⟨0⟩) =
        .ok ("v-" ++ Path.stem (Path.baseName path) ++ "") := by
    decide +kernel
  have start : (if (Value.text "v-").isTruthy then (Value.text "v-").print else "") = "v-" := rfl
  have ending : (if Value.null.isTruthy then Value.null.print else "") = "" := rfl
  have drops : a.flag "idKeepsExtension" false = false := rfl
  simpa only [start, ending, drops, Bool.false_eq_true, if_false] using fixed path mem

/-- A placeholder in the name of a file is replaced, so that two files whose names differ get the
same identifier. -/
theorem not_identifiers_dollarFile :
    let s : Session := (SessionM.newDocument { path := "a.py" } none
      { table := (Table.ofRun none none none).set (.ofText "v" "x") }).2
    let whole := SessionM.includeAllSql dollarFile ⟨0⟩ [("path", .text ".")] s
    ((whole.2.store.complete ⟨0⟩).map fun doc => doc.changeSets.map (·.id)) =
        some [some "x", some "x"] ∧
      Path.stem (Path.baseName "$\x7bv\x7d.sql") = "$\x7bv\x7d" ∧
      Path.stem (Path.baseName "x.sql") = "x" := by
  intro s whole
  have does : whole = _ := SessionM.includeAllSql_of_discover
    (Attributes.validate_of_keys (by decide) (by decide))
    (discover_dollarFile rfl (by decide) ⟨0⟩ s) rfl rfl (by decide)
  have ids := congrArg (fun whole => (whole.2.store.complete ⟨0⟩).map fun doc =>
    doc.changeSets.map (·.id)) does
  exact ⟨ids.trans (by decide +kernel), by decide +kernel, by decide +kernel⟩

end Migration
