import Mathlib.Data.List.Nodup
import Migration.Proofs.Inclusion.Repetition

/-!
# What a scan of a directory finds

An element that names a directory asks for files by where they lie, how their paths end and what a
filter of the host says of them. It finds those and no others, each once, in the order asked for.

* `Tree.IsRegular` — trees as file systems have them
* `Scan`, `Scan.IsReadFrom` — what an element asks for
* `Scan.Selects`, `Scan.Lists` — what it stands for
* `SessionM.discover_eq` — how a discovery ends on a directory that there is
* `SessionM.discover_lists` — every discovery is the exact answer to a scan
-/

namespace Migration

/-! ## Files under a directory -/

namespace Tree

variable {α : Type} {t : Tree α}

/-- A tree as a file system has it: at most one thing stands at a place, and names lead there. -/
structure IsRegular (t : Tree α) : Prop where
  unique : (t.entries.map Prod.fst).Nodup
  names : ∀ entry ∈ t.entries, ∀ name ∈ entry.1, Path.IsName name

theorem mem_filesUnder {directory names : List String} :
    names ∈ t.filesUnder directory true ↔ ∃ below content, below ≠ [] ∧ names = directory ++ below ∧
      (names, Entry.file content) ∈ t.entries := by
  unfold filesUnder
  rw [List.mem_filterMap]
  constructor
  · rintro ⟨⟨names', entry⟩, mem, found⟩
    cases entry with
    | directory => cases found
    | file content =>
      dsimp only at found
      split at found
      · next inside =>
        cases found
        simp only [Bool.and_eq_true, decide_eq_true_eq, List.isPrefixOf_iff_prefix] at inside
        obtain ⟨⟨⟨below, rfl⟩, longer⟩, -⟩ := inside
        refine ⟨below, content, ?_, rfl, mem⟩
        rintro rfl
        rw [List.append_nil] at longer
        exact Nat.lt_irrefl _ longer
      · cases found
  · rintro ⟨below, content, some_, rfl, mem⟩
    refine ⟨_, mem, if_pos ?_⟩
    have := List.length_pos_of_ne_nil some_
    simp [this]

theorem filesUnder_sublist (t : Tree α) (directory : List String) (recursive : Bool) :
    (t.filesUnder directory recursive).Sublist (t.entries.map Prod.fst) := by
  unfold filesUnder
  induction t.entries with
  | nil => exact .slnil
  | cons entry rest ih =>
    obtain ⟨names, entry⟩ := entry
    rw [List.filterMap_cons, List.map_cons]
    cases entry with
    | directory => exact ih.cons _
    | file content =>
      dsimp only
      split
      · exact ih.cons _
      · next found =>
        split at found
        · cases found
          exact ih.cons_cons _
        · cases found

/-- The files under a directory that there is, by the names that lead there. -/
theorem list_of_resolve {relativeTo : Option String} {path : String} {directory : List String}
    (names : ∀ name ∈ directory, Path.IsName name)
    (resolves : t.resolve relativeTo path = .ok (Path.ofComponents directory))
    (stands : t.isDirectory directory = true) (recursive : Bool) :
    t.list relativeTo path recursive =
      .ok (Text.sort ((t.filesUnder directory recursive).map Path.ofComponents)) := by
  have back : Path.components (Path.ofComponents directory) = directory :=
    Path.normalize_ofComponents names
  unfold list
  rw [resolves]
  simp only [bind, Except.bind, back, stands, if_true]
  rfl

/-- No two files at places of their own have the same path. -/
theorem IsLegal.nodup_paths (legal : t.IsLegal) (unique : (t.entries.map Prod.fst).Nodup)
    (directory : List String) : ((t.filesUnder directory true).map Path.ofComponents).Nodup := by
  refine List.Nodup.map_on ?_ (unique.sublist (t.filesUnder_sublist directory true))
  have back : ∀ names ∈ t.filesUnder directory true,
      Path.components (Path.ofComponents names) = names := by
    intro names mem
    obtain ⟨below, content, -, -, stands⟩ := mem_filesUnder.1 mem
    exact Path.components_ofComponents (legal _ stands)
  intro names mem names' mem' same
  rw [← back names mem, same, back names' mem']

theorem IsRegular.isLegal (regular : t.IsRegular) : t.IsLegal := fun entry mem name hn =>
  have is := regular.names entry mem name hn
  ⟨is.ne_empty, is.ne_same, is.ne_up, is.noSlash⟩

/-- No two files of a regular tree have the same path. -/
theorem IsRegular.nodup_paths (regular : t.IsRegular) (directory : List String) :
    ((t.filesUnder directory true).map Path.ofComponents).Nodup :=
  regular.isLegal.nodup_paths regular.unique directory

end Tree

/-! ## Scans -/

/-- What is asked for under a directory with a path. -/
structure Scan extends Search where
  /-- The names that lead to the directory. -/
  directory : List String
  names : ∀ name ∈ directory, Path.IsName name

namespace Scan

variable {e : Engine} {d : DocumentId} {a : Attributes} {element : String} {s : Session} {scan : Scan}
  {t : Sources} {paths : List String}

/-- The scan is what the attributes of an element ask for. -/
structure IsReadFrom (scan : Scan) (e : Engine) (d : DocumentId) (a : Attributes) (element : String)
    (s : Session) : Prop extends scan.toSearch.IsReadFrom e d a element s where
  directory : e.sources.resolve scan.relativeTo scan.path = .ok (Path.ofComponents scan.directory)

/-- A file that the scan asks for. It lies below the directory by a number of components within the
bounds, its path ends as asked for in either case of letters, and the filter accepts it. -/
def Selects (scan : Scan) (t : Sources) (path : String) : Prop :=
  ∃ below content, below ≠ [] ∧ (scan.directory ++ below, .file content) ∈ t.entries ∧
    path = Path.ofComponents (scan.directory ++ below) ∧
    scan.leastDepth ≤ below.length ∧ (∀ depth ∈ scan.maxDepth, below.length ≤ depth) ∧
    (scan.ending.isTruthy = true →
      (Text.lower scan.ending.print).toList <:+ (Text.lower path).toList) ∧
    ∀ includes ∈ scan.includes, includes path = true

/-- The answer to a scan: every file asked for, once, in code point order of the whole paths or else
in the order of a comparator, with ties in code point order. -/
structure Lists (scan : Scan) (t : Sources) (paths : List String) : Prop where
  nodup : paths.Nodup
  mem_iff : ∀ path, path ∈ paths ↔ scan.Selects t path
  ascending : scan.compare = none → paths.Pairwise fun x y => Text.le x y = true ∧ x ≠ y
  compared : ∀ compare ∈ scan.compare, IsTotalPreorder compare → paths.Pairwise fun x y =>
    compare x y < 0 ∨ compare x y = 0 ∧ Text.le x y = true ∧ x ≠ y

/-- The files that are found under the directory. -/
def found (scan : Scan) (t : Sources) : List String :=
  (Text.sort ((t.filesUnder scan.directory true).map Path.ofComponents)).filter
    (scan.selection.selects (Path.ofComponents scan.directory))

/-- The files that are found, in order. -/
def answer (scan : Scan) (t : Sources) : List String := ordered scan.compare (scan.found t)

theorem depth_below (scan : Scan) {below : List String}
    (names : ∀ name ∈ scan.directory ++ below, Path.IsName name) :
    Selection.depth (Path.ofComponents scan.directory)
      (Path.ofComponents (scan.directory ++ below)) =
      below.length := by
  unfold Selection.depth Path.components
  rw [Path.normalize_ofComponents names, Path.normalize_ofComponents scan.names, List.length_append]
  omega

/-- A file below the directory is selected if its depth, its ending and the filter say so. -/
theorem selects_iff (scan : Scan) {below : List String}
    (names : ∀ name ∈ scan.directory ++ below, Path.IsName name) :
    scan.selection.selects (Path.ofComponents scan.directory)
        (Path.ofComponents (scan.directory ++ below)) = true ↔
      scan.leastDepth ≤ below.length ∧ (∀ depth ∈ scan.maxDepth, below.length ≤ depth) ∧
      (scan.ending.isTruthy = true → (Text.lower scan.ending.print).toList <:+
        (Text.lower (Path.ofComponents (scan.directory ++ below))).toList) ∧
      ∀ includes ∈ scan.includes, includes (Path.ofComponents (scan.directory ++ below)) = true := by
  unfold Selection.selects
  rw [scan.depth_below names]
  simp only [Search.selection, Bool.and_eq_true, and_assoc]
  refine and_congr decide_eq_true_iff (and_congr ?_ (and_congr ?_ ?_))
  · cases scan.maxDepth <;> simp
  · cases scan.ending.isTruthy <;> simp [Text.endsWith]
  · cases scan.includes <;> simp

theorem mem_found (regular : t.IsRegular) (path : String) :
    path ∈ scan.found t ↔ scan.Selects t path := by
  unfold found Text.sort
  rw [List.mem_filter, List.mem_mergeSort, List.mem_map]
  constructor
  · rintro ⟨⟨names, mem, rfl⟩, selected⟩
    obtain ⟨below, content, some_, rfl, stands⟩ := Tree.mem_filesUnder.1 mem
    exact ⟨below, content, some_, stands, rfl, (scan.selects_iff (regular.names _ stands)).1 selected⟩
  · rintro ⟨below, content, some_, stands, rfl, selected⟩
    exact ⟨⟨_, Tree.mem_filesUnder.2 ⟨below, content, some_, rfl, stands⟩, rfl⟩,
      (scan.selects_iff (regular.names _ stands)).2 selected⟩

theorem pairwise_found (scan : Scan) (t : Sources) : (scan.found t).Pairwise (Text.le · · = true) :=
  (Text.pairwise_sort _).filter _

theorem nodup_found (regular : t.IsRegular) : (scan.found t).Nodup :=
  ((List.mergeSort_perm _ _).nodup_iff.2 (regular.nodup_paths scan.directory)).filter _

/-- What a scan finds answers it. -/
theorem lists_answer (regular : t.IsRegular) : scan.Lists t (scan.answer t) where
  nodup := (ordered_perm _ _).nodup_iff.2 (nodup_found regular)
  mem_iff path := (ordered_perm _ _).mem_iff.trans (mem_found regular path)
  ascending none_ := by
    rw [answer, none_, ordered_none (scan.pairwise_found t)]
    exact (scan.pairwise_found t).and (nodup_found regular)
  compared compare named total := by
    have pairwise : (scan.answer t).Pairwise (Precedes scan.compare) := pairwise_ordered
      (fun c hc => Option.mem_unique named hc ▸ total) (scan.pairwise_found t)
    refine (pairwise.and ((ordered_perm _ _).nodup_iff.2 (nodup_found regular))).imp ?_
    rintro x y ⟨precedes, ne⟩
    rw [Option.mem_def.1 named] at precedes
    exact precedes.imp_right fun ⟨tie, le⟩ => ⟨tie, le, ne⟩

end Scan

/-! ## Discoveries -/

namespace SessionM

variable {e : Engine} {d : DocumentId} {a : Attributes} {element : String} {s s₁ : Session}
  {scan : Scan} {paths : List String}

/-- A discovery on a directory that there is gives the answer to the scan. It fails only if that is
empty and files are required, and warns if it is empty. -/
theorem discover_eq (reads : scan.IsReadFrom e d a element s)
    (stands : e.sources.isDirectory scan.directory = true) :
    discover e d a element s =
      if scan.answer e.sources ≠ [] then (.ok (scan.answer e.sources), s)
      else if scan.required then
        (.error (.resource
          (.emptyScan documentOwner element scan.path (Path.ofComponents scan.directory))), s)
      else (.ok [], { s with warnings := s.warnings ++ [.nothingFound element scan.path] }) := by
  have lists := Tree.list_of_resolve scan.names reads.directory stands true
  exact discover_of_reads reads.toIsReadFrom
    (listing_of_list reads.directory lists element scan.required s)

/-- A discovery that gives files has read a scan. -/
theorem exists_isReadFrom (h : discover e d a element s = (.ok paths, s₁)) :
    ∃ scan : Scan, scan.IsReadFrom e d a element s := by
  obtain ⟨search, _, _, _, reads, hlisting, -⟩ := exists_reads_of_discover h
  obtain ⟨directory, s₃, hdirectory, -⟩ := Step.bind_eq_ok.1 hlisting
  have resolves : e.sources.resolve search.relativeTo search.path = .ok directory := by
    cases hr : e.sources.resolve search.relativeTo search.path with
    | error failure =>
      rw [hr] at hdirectory
      cases hdirectory
    | ok directory' =>
      rw [hr] at hdirectory
      cases hdirectory
      rfl
  obtain ⟨names, isName, rfl⟩ := Tree.names_of_resolve resolves
  exact ⟨⟨search, names, isName⟩, reads, resolves⟩

/-- Every discovery of files answers a scan, if the directory is there, and every scan of a
directory that is there gets an answer; only an empty one is refused where files are required. A
comparator that turns the code point order round gives the files that are discovered without it in
reverse. -/
theorem discover_lists (regular : e.sources.IsRegular) (d : DocumentId) (a : Attributes)
    (element : String) (s : Session) :
    (∀ paths s₁, discover e d a element s = (.ok paths, s₁) →
      ∃ scan : Scan, scan.IsReadFrom e d a element s ∧
        (e.sources.isDirectory scan.directory = true → scan.Lists e.sources paths) ∧
        ∀ compare ∈ scan.compare, IsReverse compare →
          discover e d (a.without "resourceComparator") element s = (.ok paths.reverse, s₁)) ∧
    ∀ scan : Scan, scan.IsReadFrom e d a element s → e.sources.isDirectory scan.directory = true →
      ∃ paths, scan.Lists e.sources paths ∧
        (discover e d a element s).1 =
          if paths = [] ∧ scan.required = true then
            .error (.resource
              (.emptyScan documentOwner element scan.path (Path.ofComponents scan.directory)))
          else .ok paths := by
  have answers : ∀ scan : Scan, scan.IsReadFrom e d a element s →
      e.sources.isDirectory scan.directory = true → (discover e d a element s).1 =
        if scan.answer e.sources = [] ∧ scan.required = true then
          .error (.resource
            (.emptyScan documentOwner element scan.path (Path.ofComponents scan.directory)))
        else .ok (scan.answer e.sources) := by
    intro scan reads stands
    rw [discover_eq reads stands]
    cases scan.answer e.sources with
    | nil => cases scan.required <;> rfl
    | cons path rest => rfl
  refine ⟨fun paths s₁ h => ?_, fun scan reads stands =>
    ⟨scan.answer e.sources, Scan.lists_answer regular, answers scan reads stands⟩⟩
  obtain ⟨scan, reads⟩ := exists_isReadFrom h
  refine ⟨scan, reads, fun stands => ?_, fun compare named reverse => ?_⟩
  · have found := answers scan reads stands
    rw [h] at found
    split at found
    · cases found
    · cases found
      exact Scan.lists_answer regular
  · obtain ⟨compare', files, named', sorted, rfl, discovered⟩ := discover_ok h
    obtain rfl : scan.compare = compare' := by
      have both := reads.compare.symm.trans named'
      exact Except.ok.inj (Prod.mk.inj both).1
    rw [Option.mem_def.1 named, ordered_eq_reverse reverse sorted, List.reverse_reverse]
    exact discovered

end SessionM

/-- Files beside and below a directory whose name others start with, and a comparator. -/
def nestedFiles : Engine where
  __ := Engine.ofScripts []
  sources := {
    root := "/"
    entries := [["1.sql"], ["2.txt"], ["sub", "3.SQL"], ["sub", "deep", "4.sql"], ["sub2.sql"]].map
      fun names => (names, .file (.bytes [])) }
  extensions := { comparators := [("reverse", .instance (.comparator reversed))] }

/-- The files of a directory stand among the ones beside it, here in reverse; the one that lies too
deep and the one that ends otherwise are left out. -/
theorem discover_lists_nestedFiles :
    let a : Attributes := [("path", .text "/"), ("maxDepth", .text "2"),
      ("endsWithFilter", .text ".sql"), ("resourceComparator", .text "reverse")]
    let s : Session := { table := .ofRun none none none }
    nestedFiles.sources.IsRegular ∧ ∃ scan : Scan,
      scan.IsReadFrom nestedFiles ⟨0⟩ a "includeAll" s ∧
      nestedFiles.sources.isDirectory scan.directory = true ∧
      scan.Lists nestedFiles.sources ["sub2.sql", "sub/3.SQL", "1.sql"] ∧
      (SessionM.discover nestedFiles ⟨0⟩ a "includeAll" s).1 =
        .ok ["sub2.sql", "sub/3.SQL", "1.sql"] := by
  intro a s
  have regular : nestedFiles.sources.IsRegular := ⟨by decide +kernel, by decide +kernel⟩
  let scan : Scan := {
    path := "/", relativeTo := none, directory := [], names := nofun, minDepth := none
    maxDepth := some 2, ending := .text ".sql", includes := none, compare := some reversed
    required := true }
  have plain : ∀ text ∈ ["2", ".sql", "reverse"], (Value.text text).IsPlain := by
    have noDollar : ∀ text ∈ ["2", ".sql", "reverse"], '$' ∉ text.toList := by decide +kernel
    exact fun text mem => Value.isPlain_text.2 (Text.isPlain_of_noDollar (noDollar text mem))
  have reads : scan.IsReadFrom nestedFiles ⟨0⟩ a "includeAll" s := {
    path := SessionM.expandPath_of_isClean (by decide +kernel) (by decide) _ _ s
    relativeTo := rfl
    directory := Tree.resolve_eq_ok.2 ⟨by decide +kernel, by decide +kernel⟩
    minDepth := rfl
    maxDepth :=
      Step.bind_eq_ok.2 ⟨_, s, SessionM.expand_of_isPlain (plain "2" (by decide)) _ s, rfl⟩
    ending := SessionM.expand_of_isPlain (plain ".sql" (by decide)) _ s
    includes := rfl
    compare :=
      Step.bind_eq_ok.2 ⟨_, s, SessionM.expand_of_isPlain (plain "reverse" (by decide)) _ s, rfl⟩
    required := rfl }
  have sorted : ["1.sql", "2.txt", "sub/3.SQL", "sub/deep/4.sql", "sub2.sql"].Pairwise
      (Text.le · · = true) := by
    decide +kernel
  have found : scan.found nestedFiles.sources = ["1.sql", "sub/3.SQL", "sub2.sql"] := by
    show (Text.sort ["1.sql", "2.txt", "sub/3.SQL", "sub/deep/4.sql", "sub2.sql"]).filter _ = _
    rw [Text.sort, List.mergeSort_of_pairwise sorted]
    decide +kernel
  have answer : scan.answer nestedFiles.sources = ["sub2.sql", "sub/3.SQL", "1.sql"] := by
    unfold Scan.answer
    rw [found]
    exact ordered_eq_reverse isReverse_reversed (by decide +kernel)
  have discovered : (SessionM.discover nestedFiles ⟨0⟩ a "includeAll" s).1 =
      .ok ["sub2.sql", "sub/3.SQL", "1.sql"] := by
    rw [SessionM.discover_eq reads rfl, answer]
    rfl
  obtain ⟨paths, lists, gives⟩ := (SessionM.discover_lists regular ⟨0⟩ a "includeAll" s).2
    scan reads rfl
  rw [discovered] at gives
  by_cases refused : paths = [] ∧ scan.required = true
  · rw [if_pos refused] at gives
    cases gives
  · rw [if_neg refused] at gives
    obtain rfl := Except.ok.inj gives
    exact ⟨regular, scan, reads, rfl, lists, discovered⟩

end Migration
