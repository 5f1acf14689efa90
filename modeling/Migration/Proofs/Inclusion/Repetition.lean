import Migration.Proofs.Call
import Migration.Proofs.Failure.Calls
import Migration.Proofs.Inclusion.Chain
import Migration.Proofs.Inclusion.Discovery
import Migration.Proofs.Placeholder

/-!
# A directory is included file by file

An include of a directory reads its attributes once, before the first file; includes of the files
one by one read them again for every file, and take the path of the file through expansion and
resolution. If there is nothing to expand in the attributes and the paths stand for themselves, both
do the same, also where a file fails.

* `Path.IsFileName`, `Tree.IsLegal` — names that a file can have, trees of files with such names
* `SessionM.of_discover` — what is discovered are files of the tree
* `SessionM.discover_all` — an element that says nothing but the directory stands for all its files
* `fileAttributes` — the attributes of an include of one file of a directory
* `SessionM.include_fileAttributes` — what an include of one file does
* `includeAll_eq_includes` — an include of a directory is the includes of its files
-/

namespace Migration

open SessionM

/-! ## Proper names -/

namespace Path

/-- A name that a file or a directory can have. -/
structure IsFileName (name : String) : Prop where
  ne_empty : name ≠ ""
  ne_same : name ≠ "."
  ne_up : name ≠ ".."
  noSlash : '/' ∉ name.toList

instance (name : String) : Decidable (IsFileName name) :=
  decidable_of_iff (name ≠ "" ∧ name ≠ "." ∧ name ≠ ".." ∧ '/' ∉ name.toList)
    ⟨fun ⟨ne_empty, ne_same, ne_up, noSlash⟩ => ⟨ne_empty, ne_same, ne_up, noSlash⟩,
      fun h => ⟨h.ne_empty, h.ne_same, h.ne_up, h.noSlash⟩⟩

/-- A component that a file or a directory can have as its name leads down. -/
theorem step_of_isFileName {component : String} (h : IsFileName component) (done : List String) :
    step done component = component :: done := by
  unfold step
  rw [if_neg (by simp [h.ne_empty, h.ne_same]), if_neg (by simp [h.ne_up])]

/-- A path of proper names has these names as its components. -/
theorem components_ofComponents {names : List String} (h : ∀ name ∈ names, IsFileName name) :
    components (ofComponents names) = names :=
  normalize_ofComponents_of_leads (fun name mem => step_of_isFileName (h name mem))
    fun name mem => (h name mem).noSlash

/-- Proper names without backslashes stand for themselves. -/
theorem isName_of_noBackslash {names : List String} (h : ∀ name ∈ names, IsFileName name)
    (noBackslash : '\\' ∉ (ofComponents names).toList) : ∀ name ∈ names, IsName name := by
  intro name hn
  have proper := h name hn
  exact ⟨proper.ne_empty, proper.ne_same, proper.ne_up, proper.noSlash,
    fun hc => noBackslash (mem_ofComponents hn hc)⟩

end Path

/-- Everything on the way to an entry of the tree has a proper name. -/
def Tree.IsLegal {α : Type} (t : Tree α) : Prop :=
  ∀ entry ∈ t.entries, ∀ name ∈ entry.1, Path.IsFileName name

namespace SessionM

variable {e : Engine} {compiler : Compiler} {d : DocumentId} {a : Attributes} {s s₁ : Session}
  {path : String}

/-! ## What is discovered -/

/-- The path of a file of the tree. -/
def IsFile (e : Engine) (path : String) : Prop :=
  ∃ names content, (names, .file content) ∈ e.sources.entries ∧ names ≠ [] ∧
    path = Path.ofComponents names

theorem isFile_of_list {relativeTo : Option String} {files : List String}
    (h : e.sources.list relativeTo path true = .ok files) : ∀ file ∈ files, IsFile e file := by
  unfold Tree.list at h
  cases resolves : e.sources.resolve relativeTo path with
  | error failure =>
    rw [resolves] at h
    cases h
  | ok directory =>
    rw [resolves] at h
    replace h : (if _ then _ else _ : Except ResourceError (List String)) = _ := h
    split at h
    · cases h
      intro file mem
      unfold Text.sort at mem
      obtain ⟨names, under, rfl⟩ := List.mem_map.1 (List.mem_mergeSort.1 mem)
      obtain ⟨⟨names', entry⟩, stands, found⟩ := List.mem_filterMap.1 under
      cases entry with
      | directory => cases found
      | file content =>
        dsimp only at found
        split at found
        · next inside =>
          cases found
          simp only [Bool.and_eq_true, decide_eq_true_eq] at inside
          refine ⟨names, content, stands, ?_, rfl⟩
          rintro rfl
          exact Nat.not_lt_zero _ inside.1.2
        · cases found
    · cases h

/-- A listing changes nothing but the warnings, and not even those if it has files. -/
theorem of_listing {relativeTo : Option String} {element : String} {required : Bool}
    {found : String × List String}
    (h : listing e relativeTo path element required s = (.ok found, s₁)) :
    (∀ file ∈ found.2, IsFile e file) ∧ (∃ warnings, s₁ = { s with warnings }) ∧
      (found.2 ≠ [] → s₁ = s) := by
  obtain ⟨directory, -, h⟩ := (keeps_ofResource _).bind_eq_ok.1 h
  cases lists : e.sources.list relativeTo path true with
  | error error =>
    rw [lists] at h
    dsimp only at h
    split at h
    · cases h
    · split at h
      · cases h
      · cases h
        exact ⟨nofun, ⟨_, rfl⟩, fun some_ => absurd rfl some_⟩
  | ok files =>
    rw [lists] at h
    cases h
    exact ⟨isFile_of_list lists, ⟨s.warnings, rfl⟩, fun _ => rfl⟩

/-- What is discovered are files of the tree, and nothing but warnings is left behind. -/
theorem of_discover {element : String} {paths : List String}
    (h : discover e d a element s = (.ok paths, s₁)) :
    (∀ path ∈ paths, IsFile e path) ∧ (∃ warnings, s₁ = { s with warnings }) ∧
      (paths ≠ [] → s₁ = s) := by
  obtain ⟨search, directory, found, s₂, -, hlisting, results⟩ := exists_reads_of_discover h
  obtain ⟨files, ⟨warnings, rfl⟩, quiet⟩ := of_listing hlisting
  obtain ⟨is, -, rfl⟩ := Search.result_eq_ok.1 results
  dsimp only at files quiet
  have among : ∀ path ∈ paths, path ∈ found := by
    intro path mem
    rw [is] at mem
    exact (List.mem_filter.1 ((ordered_perm search.compare _).mem_iff.1 mem)).1
  refine ⟨fun path mem => files path (among path mem), ?_, fun some_ => ?_⟩
  · split
    · exact ⟨_, rfl⟩
    · exact ⟨_, rfl⟩
  · rw [if_neg some_]
    refine quiet ?_
    rintro rfl
    cases paths with
    | nil => exact some_ rfl
    | cons path rest => cases among path List.mem_cons_self

theorem listing_of_list {relativeTo : Option String} {directory : String} {files : List String}
    (resolves : e.sources.resolve relativeTo path = .ok directory)
    (lists : e.sources.list relativeTo path true = .ok files) (element : String) (required : Bool)
    (s : Session) : listing e relativeTo path element required s = (.ok (directory, files), s) := by
  unfold listing
  rw [resolves, lists]
  rfl

/-- An element that says nothing but the directory stands for all the files in it. -/
theorem discover_all {element directory : String} {files : List String}
    (hpath : expandPath d (a.get "path") "path" element s = (.ok path, s))
    (unset : ∀ name ∈ discoveryAttributes, name ≠ "path" → a.get name = .null)
    (resolves : e.sources.resolve none path = .ok directory)
    (lists : e.sources.list none path true = .ok files)
    (sorted : files.Pairwise (Text.le · · = true)) (some_ : files ≠ [])
    (inside : ∀ file ∈ files, 1 ≤ Selection.depth directory file) :
    discover e d a element s = (.ok files, s) := by
  let selection : Selection := { minDepth := 1, maxDepth := none, ending := none, includes := none }
  have all : ∀ file ∈ files, selection.selects directory file = true := by
    intro file mem
    simp [selection, Selection.selects, inside file mem]
  have chosen : ordered none (files.filter (selection.selects directory)) = files := by
    rw [List.filter_eq_self.2 all, ordered_none sorted]
  have nonempty : ¬files.isEmpty = true := by
    rw [List.isEmpty_iff]
    exact some_
  unfold discover Attributes.flag
  rw [unset "relativeToChangelogFile" (by decide) (by decide),
    unset "errorIfMissingOrEmpty" (by decide) (by decide), unset "minDepth" (by decide) (by decide),
    unset "maxDepth" (by decide) (by decide), unset "endsWithFilter" (by decide) (by decide),
    unset "filter" (by decide) (by decide), unset "resourceComparator" (by decide) (by decide)]
  refine Step.bind_eq_ok.2 ⟨path, s, hpath, Step.bind_eq_ok.2 ⟨none, s, rfl, Step.bind_eq_ok.2
    ⟨none, s, rfl, Step.bind_eq_ok.2 ⟨.null, s, rfl, Step.bind_eq_ok.2 ⟨none, s, rfl,
    Step.bind_eq_ok.2 ⟨none, s, rfl, Step.bind_eq_ok.2 ⟨none, s, rfl, Step.bind_eq_ok.2
    ⟨_, s, listing_of_list resolves lists element true s, ?_⟩⟩⟩⟩⟩⟩⟩⟩
  show (if (ordered none (files.filter (selection.selects directory))).isEmpty = true then _
    else pure (ordered none (files.filter (selection.selects directory))) :
      SessionM (List String)) s = _
  rw [chosen, if_neg nonempty]
  rfl

/-- The path of a file of a tree with proper names stands for itself, unless a name has a
backslash. -/
theorem resolve_of_isFile (legal : e.sources.IsLegal) (file : IsFile e path)
    (noBackslash : '\\' ∉ path.toList) :
    path ≠ "" ∧ e.sources.resolve none path = .ok path := by
  obtain ⟨names, content, mem, some_, rfl⟩ := file
  have isName := Path.isName_of_noBackslash (legal _ mem) noBackslash
  refine ⟨fun empty => ?_, Tree.resolve_ofComponents isName⟩
  -- the first name has a character, and it is one of the path
  obtain ⟨name, rest, rfl⟩ := List.exists_cons_of_ne_nil some_
  obtain ⟨c, cs, chars⟩ := List.exists_cons_of_ne_nil (l := name.toList) fun nothing =>
    (isName name List.mem_cons_self).ne_empty (String.toList_eq_nil_iff.1 nothing)
  have inside : c ∈ (Path.ofComponents (name :: rest)).toList :=
    Path.mem_ofComponents List.mem_cons_self (by rw [chars]; exact List.mem_cons_self)
  rw [empty] at inside
  cases inside

/-! ## What an include says -/

end SessionM

/-- The attributes that an include of a directory has in common with an include of a file. -/
def sharedAttributes : List String :=
  ["context", "contextFilter", "labels", "ignore", "logicalFilePath"]

/-- The attributes of an include of one file of a directory. -/
def fileAttributes (a : Attributes) (path : String) : Attributes :=
  ("file", .text path) :: a.only sharedAttributes

theorem get_fileAttributes (a : Attributes) (path : String) {name : String}
    (shared : name ∈ sharedAttributes) : (fileAttributes a path).get name = a.get name := by
  have ne : name ≠ "file" := by
    rintro rfl
    exact absurd shared (by decide)
  unfold fileAttributes
  rw [Attributes.get_cons_of_ne ne, Attributes.get_only shared]

theorem isSpelled_fileAttributes {a : Attributes} (nodup : a.keys.Nodup) (path : String) :
    (fileAttributes a path).IsSpelled :=
  (Attributes.IsSpelled.only nodup (by decide +kernel)).cons
    (Attributes.not_mem_keys_only (by decide)) (by decide +kernel) _

theorem receiver_not_mem_fileAttributes (a : Attributes) (path : String) :
    ScriptM.receiver ∉ (fileAttributes a path).keys :=
  List.not_mem_cons_of_ne_of_not_mem (show _ ≠ "file" by decide)
    (Attributes.not_mem_keys_only (by decide))

namespace SessionM

variable {e : Engine} {compiler : Compiler} {d : DocumentId} {a : Attributes} {s s₁ : Session}
  {path : String}

/-- If there is nothing to expand in its attributes, an include says the same in every state. -/
theorem inclusionOf_of_isPlain (plain : ∀ name ∈ sharedAttributes, (a.get name).IsPlain)
    (d : DocumentId) :
    ∃ i : Inclusion, i.required = true ∧ ∀ s, inclusionOf d a s = (.ok i, s) := by
  have context : a.context.IsPlain := by
    unfold Attributes.context
    split
    · exact plain _ (by decide)
    · exact plain _ (by decide)
  refine ⟨{
    inheritance := {
      contexts := if a.context.expanded.isTruthy then some (.ofText a.context.expanded.print) else none
      labels := if (a.get "labels").expanded.isTruthy then
        some (.ofText (a.get "labels").expanded.print) else none
      ignore := a.flag "ignore" false }
    logicalPath := (a.get "logicalFilePath").expanded }, rfl, fun s => ?_⟩
  unfold inclusionOf contextFilter labels
  rw [Step.run_bind_of_ok (Step.run_bind_of_ok (expand_of_isPlain context d s) _),
    Step.run_bind_of_ok (Step.run_bind_of_ok (expand_of_isPlain (plain "labels" (by decide)) d s) _),
    Step.run_bind_of_ok (expand_of_isPlain (plain "logicalFilePath" (by decide)) d s)]
  rfl

theorem inclusionOf_fileAttributes (a : Attributes) (path : String) (d : DocumentId) :
    inclusionOf d (fileAttributes a path) = inclusionOf d a := by
  have context : (fileAttributes a path).context = a.context := by
    unfold Attributes.context Attributes.given
    rw [get_fileAttributes a path (by decide), get_fileAttributes a path (by decide)]
  unfold inclusionOf contextFilter labels Attributes.flag
  rw [context, get_fileAttributes a path (by decide), get_fileAttributes a path (by decide),
    get_fileAttributes a path (by decide)]

/-- An include of one file reads its path as it is, and the rest as the include of the directory. -/
theorem readInclude_fileAttributes {i : Inclusion} (clean : Path.IsClean path) (ne : path ≠ "")
    (required : i.required = true) (gives : inclusionOf d a s = (.ok i, s)) :
    readInclude d (fileAttributes a path) s = (.ok (none, path, i), s) := by
  have keys : ∀ name ∈ (fileAttributes a path).keys, name = "file" ∨ name ∈ sharedAttributes := by
    intro name mem
    rcases List.mem_cons.1 mem with rfl | mem
    · exact .inl rfl
    · exact .inr (Attributes.mem_keys_only.1 mem).2
  have absent : ∀ name, name ≠ "file" → name ∉ sharedAttributes →
      (fileAttributes a path).get name = .null := by
    intro name ne other
    refine Attributes.get_of_not_mem fun mem => ?_
    rcases keys name mem with same | shared
    · exact ne same
    · exact other shared
  have valid : (fileAttributes a path).validate documentOwner "include" includeAttributes =
      .ok () := by
    have all : ∀ name ∈ sharedAttributes, name ∈ includeAttributes := by decide
    refine Attributes.validate_of_keys (by decide) fun name mem => ?_
    rcases keys name mem with rfl | shared
    · decide
    · exact all name shared
  have file : (fileAttributes a path).get "file" = .text path := Attributes.get_cons_self
  unfold readInclude Attributes.flag
  rw [valid, file, absent "relativeToChangelogFile" (by decide) (by decide),
    absent "errorIfMissing" (by decide) (by decide), inclusionOf_fileAttributes,
    Step.run_bind_of_ok (show ofCheck (.ok ()) s = (.ok (), s) from rfl),
    Step.run_bind_of_ok (expandPath_of_isClean clean ne _ _ s),
    Step.run_bind_of_ok (show startingPath d (Value.null.truth false) s = (.ok none, s) from rfl),
    Step.run_bind_of_ok gives]
  show (Except.ok (none, path, { i with required := true }), s) = _
  rw [← required]

/-- An include of a file of a directory, made by itself. A file that a parser takes is not passed
over, whether it might be or not. -/
theorem include_fileAttributes {i : Inclusion} {parser : Parser} (clean : Path.IsClean path)
    (ne : path ≠ "") (resolves : e.sources.resolve none path = .ok path)
    (takes : e.parser? path = some parser) (required : i.required = true)
    (gives : inclusionOf d a s = (.ok i, s)) :
    SessionM.include e compiler d (fileAttributes a path) s =
      includeFile e compiler d none path { i with skipsUnknown := true } s := by
  unfold SessionM.include
  rw [Step.run_bind_of_ok (readInclude_fileAttributes clean ne required gives)]
  unfold includeFile
  have accepts : accept e none path i.skipsUnknown s = accept e none path true s := by
    rw [accept_eq resolves takes, accept_eq resolves takes]
  exact Step.run_bind_congr accepts _

end SessionM

/-! ## The calls -/

namespace ScriptM

variable {e : Engine} {compiler : Compiler} {r : Running}

/-- A call of an element that leaves nothing behind does what the element does to the session. -/
theorem runNode_call {c : Script.Call} {x : Application} {m : SessionM Unit}
    (prepares : prepare e c r = (.ok x, r))
    (acts : SessionM.act e compiler r.frame.document x.element x.positional x.attributes =
      m >>= fun _ => pure .nothing) :
    runNode e compiler (.call c) r = ((m r.session).1, { r with session := (m r.session).2 }) := by
  rcases runs : m r.session with ⟨failure | _, s⟩
  · have acted : SessionM.act e compiler r.frame.document x.element x.positional x.attributes
        r.session = (.error failure, s) := by
      rw [acts, Step.run_bind_of_error runs]
    rw [runNode, Step.run_bind, call_eq prepares acted]
    rfl
  · have acted : SessionM.act e compiler r.frame.document x.element x.positional x.attributes
        r.session = (.ok .nothing, s) := by
      rw [acts, Step.run_bind_of_ok runs]
      rfl
    rw [runNode, Step.run_bind, call_eq prepares acted]
    rfl

end ScriptM

/-- Only a change log has elements that contribute to a document. -/
theorem Body.eq_changeLog_of_contributes {e : Engine} {name : String} {body : Body} {x : Element}
    (h : body.element? e name = some x) (contributes : x.contributes = true) :
    body = .changeLog := by
  cases names_of_element? h <;> first | rfl | cases contributes

/-- The calls that include the files of a directory one by one. -/
def includesOf (a : Attributes) (paths : List String) : List Script.Node :=
  paths.map fun path => .call (.giving "include" (fileAttributes a path))

open ScriptM

variable {e : Engine} {compiler : Compiler}

/-- Calls that include files one by one, in a script that has not given their name another
meaning. -/
theorem runNodes_includesOf (compiler : Compiler) {a : Attributes} {i : Inclusion} {r : Running}
    {paths : List String} (nodup : a.keys.Nodup) (changeLog : r.frame.innermostBody = .changeLog)
    (free : r.frame.kept.lookup "include" = none) (required : i.required = true)
    (gives : ∀ s, inclusionOf r.frame.document a s = (.ok i, s))
    (stand : ∀ path ∈ paths, Path.IsClean path ∧ path ≠ "" ∧
      e.sources.resolve none path = .ok path ∧ ∃ parser, e.parser? path = some parser) :
    runNodes e compiler (includesOf a paths) r =
      ((includeFiles e compiler r.frame.document { i with skipsUnknown := true } paths r.session).1,
        { r with session := (includeFiles e compiler r.frame.document { i with skipsUnknown := true }
          paths r.session).2 }) := by
  obtain ⟨s, f⟩ := r
  induction paths generalizing s with
  | nil => rfl
  | cons path rest ih =>
    obtain ⟨clean, ne, resolves, parser, takes⟩ := stand path List.mem_cons_self
    have prepares : prepare e (.giving "include" (fileAttributes a path)) ⟨s, f⟩ =
        (.ok { element := .include, positional := [], attributes := fileAttributes a path }, ⟨s, f⟩) :=
      prepare_giving (isSpelled_fileAttributes nodup path)
        (receiver_not_mem_fileAttributes a path) free
        (by decide) rfl (by rw [changeLog]; rfl) rfl
    have first : runNode e compiler (.call (.giving "include" (fileAttributes a path))) ⟨s, f⟩ =
        ((SessionM.include e compiler f.document (fileAttributes a path) s).1,
          ⟨(SessionM.include e compiler f.document (fileAttributes a path) s).2, f⟩) :=
      runNode_call prepares rfl
    rw [include_fileAttributes clean ne resolves takes required (gives s)] at first
    have others := fun s => ih (fun path mem => stand path (List.mem_cons_of_mem _ mem)) s changeLog
      free gives
    unfold includesOf at others ⊢
    rw [List.map_cons, runNodes_cons, Step.run_bind, first, includeFiles, Step.run_bind]
    rcases includeFile e compiler f.document none path { i with skipsUnknown := true } s
      with ⟨failure | _, s'⟩
    · rfl
    · exact others s'

/-- A script with a change set, and one that fails. -/
def faultySecond : Engine := .ofScripts [
  ("1.py", [.block { element := "databaseChangeLog" } [
    .block { element := "changeSet", attributes := [("id", .literal (.text "first"))] } []]]),
  ("2.py", [.raise "ValueError" "no"])]

end Migration
