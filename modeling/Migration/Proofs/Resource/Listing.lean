import Migration.Proofs.Failure.Tolerance
import Migration.Proofs.Inclusion.Scan
import Migration.Proofs.Resource.Insertion

/-!
# What is listed can be opened

A listing takes the names of files from the tree, while a path is resolved and opened by rewriting
its text. They agree on every name without backslashes: a listed path stands for itself and leads to
the file that it was listed for, so an include of a directory never reports a file of it as missing.
A backslash counts as a slash where a path is resolved, so the path of a file with a backslash in
its name leads elsewhere.

* `Tree.Opens` — a path leads to a file
* `Tree.of_list` — a listing has every file below its directory, once
* `Tree.opens_iff` — which paths lead to their own files
* `Failure.IsReliable` — what a failure says about a file, an include included
* `Engine.agrees_of_list` — listings, paths and includes agree on names without backslashes
-/

namespace Migration

namespace Tree

variable {α : Type} {t : Tree α} {names : List String} {content : α} {relativeTo : Option String}
  {path : String} {files : List String}

/-- Opening a path gives the file to which the names lead. -/
def Opens (t : Tree α) (path : String) (names : List String) (content : α) : Prop :=
  ∃ found, t.resolve none path = .ok found ∧ Path.components found = names ∧
    t.read none path = .ok content

/-- Nothing that is resolved has backslashes. -/
theorem noBackslash_of_resolve {found : String} (h : t.resolve relativeTo path = .ok found) :
    '\\' ∉ found.toList := by
  obtain ⟨names, isName, rfl⟩ := names_of_resolve h
  exact Path.noBackslash_ofComponents isName

/-- A path of proper names stands for itself unless there is a backslash in it. -/
theorem resolve_eq_self_iff (proper : ∀ name ∈ names, Path.IsFileName name) :
    t.resolve none (Path.ofComponents names) = .ok (Path.ofComponents names) ↔
      '\\' ∉ (Path.ofComponents names).toList :=
  ⟨noBackslash_of_resolve, fun noBackslash =>
    resolve_ofComponents (Path.isName_of_noBackslash proper noBackslash)⟩

theorem file?_of_mem (unique : (t.entries.map Prod.fst).Nodup)
    (stands : (names, Entry.file content) ∈ t.entries) : t.file? names = some content := by
  unfold file?
  rw [(lookup_eq_some_of_nodup unique).2 stands]

/-- The path of a file leads to the file unless there is a backslash in it. -/
theorem opens_iff (legal : t.IsLegal) (unique : (t.entries.map Prod.fst).Nodup)
    (stands : (names, Entry.file content) ∈ t.entries) :
    t.Opens (Path.ofComponents names) names content ↔ '\\' ∉ (Path.ofComponents names).toList := by
  constructor
  · rintro ⟨found, resolves, leads, -⟩
    obtain ⟨names', isName, rfl⟩ := names_of_resolve resolves
    obtain rfl : names' = names := (Path.normalize_ofComponents isName).symm.trans leads
    exact Path.noBackslash_ofComponents isName
  · intro noBackslash
    have resolves := (resolve_eq_self_iff (t := t) (legal _ stands)).2 noBackslash
    have back := Path.components_ofComponents (legal _ stands)
    refine ⟨_, resolves, back, ?_⟩
    rw [read_of_resolve t resolves, back, file?_of_mem unique stands]

/-- A listing has every file below its directory, once. -/
theorem of_list (legal : t.IsLegal) (unique : (t.entries.map Prod.fst).Nodup)
    (lists : t.list relativeTo path true = .ok files) :
    ∃ directory, t.resolve relativeTo path = .ok (Path.ofComponents directory) ∧ files.Nodup ∧
      ∀ file, file ∈ files ↔ ∃ below content, below ≠ [] ∧
        file = Path.ofComponents (directory ++ below) ∧
        (directory ++ below, Entry.file content) ∈ t.entries := by
  cases resolves : t.resolve relativeTo path with
  | error failure =>
    unfold list at lists
    rw [resolves] at lists
    cases lists
  | ok found =>
    obtain ⟨directory, isName, rfl⟩ := names_of_resolve resolves
    cases stands : t.isDirectory directory with
    | false =>
      unfold list at lists
      have back : Path.components (Path.ofComponents directory) = directory :=
        Path.normalize_ofComponents isName
      rw [resolves] at lists
      simp only [bind, Except.bind, back, stands] at lists
      cases lists
    | true =>
      obtain rfl := Except.ok.inj ((list_of_resolve isName resolves stands true).symm.trans lists)
      refine ⟨directory, rfl, ?_, fun file => ?_⟩
      · exact (List.mergeSort_perm _ _).nodup_iff.2 (legal.nodup_paths unique directory)
      · unfold Text.sort
        rw [List.mem_mergeSort, List.mem_map]
        constructor
        · rintro ⟨names, under, rfl⟩
          obtain ⟨below, content, some_, rfl, mem⟩ := mem_filesUnder.1 under
          exact ⟨below, content, some_, rfl, mem⟩
        · rintro ⟨below, content, some_, rfl, mem⟩
          exact ⟨_, mem_filesUnder.2 ⟨below, content, some_, rfl, mem⟩, rfl⟩

end Tree

/-! ## Files that are reported missing -/

/-- A failure to find a file, also one of an include, names a path at which there is no file. -/
def Failure.IsReliable (e : Engine) : Failure → Prop
  | resource error => (error.family = .notFound ∨ ∃ owner, error = .noInclude owner error.path) →
    ¬e.sources.HasFile error.path
  | _ => True

instance (e : Engine) : Failure.IgnoresOthers (Failure.IsReliable e) where
  other failure no := by
    cases failure with
    | resource error => exact absurd rfl (no.1 error)
    | _ => trivial

instance (e : Engine) : Failure.CoversFiles e (Failure.IsReliable e) where
  noAccess error outside := by
    rintro (missing | ⟨owner, same⟩)
    · cases outside.symm.trans missing
    · rw [same] at outside
      cases outside
  notFound _ _ absent _ := absent
  noScan _ _ _ _ := by rintro (missing | ⟨owner, same⟩) <;> contradiction
  emptyScan _ _ _ _ := by rintro (missing | ⟨owner, same⟩) <;> contradiction
  noInclude _ missing reliable _ := reliable (.inl missing)

section

variable {e : Engine} (legal : e.sources.IsLegal) (unique : (e.sources.entries.map Prod.fst).Nodup)
  (hosts : e.HostsFail (Failure.IsReliable e))
include legal unique hosts

/-- A file of the tree is reported missing only if there is a backslash in its path. -/
theorem SessionM.backslash_of_missing {file : String} (isFile : IsFile e file) {depth : Nat}
    {d : DocumentId} {i : Inclusion} {s s₁ : Session} {owner found : String}
    (reports : includeFile e (compilerBelow e depth) d none file i s =
      (.error (.resource (.noInclude owner found)), s₁))
    (resolves : e.sources.resolve none file = .ok found) : '\\' ∈ file.toList := by
  by_contra noBackslash
  obtain ⟨names, content, stands, -, rfl⟩ := isFile
  have itself := (Tree.resolve_eq_self_iff (t := e.sources) (legal _ stands)).2 noBackslash
  obtain rfl := Except.ok.inj (itself.symm.trans resolves)
  obtain ⟨_, -, -, reads⟩ := (Tree.opens_iff legal unique stands).2 noBackslash
  have raises : e.RaisesWith (Failure.IsReliable e) :=
    fun x _ => Failure.of_exits (fun _ _ => trivial) x
  have reliable := fails_includeFile (P := Failure.IsReliable e) hosts
    (fails_compilerBelow hosts raises depth) none _ i s _ s₁ reports
  exact reliable (.inr ⟨owner, rfl⟩) ⟨content, reads⟩

/-- Listings, paths and includes agree on the names that have no backslashes.

A listing gives every file below its directory once. The path of a file stands for itself, and leads
to that very file, if and only if there is no backslash in it. So a file that an element for a whole
directory discovers can be reported missing, under the path that its own path stands for, only if
there is a backslash in its path. -/
theorem Engine.agrees_of_list :
    (∀ relativeTo path files, e.sources.list relativeTo path true = .ok files →
      ∃ directory, e.sources.resolve relativeTo path = .ok (Path.ofComponents directory) ∧
        files.Nodup ∧
        ∀ file, file ∈ files ↔ ∃ below content, below ≠ [] ∧
          file = Path.ofComponents (directory ++ below) ∧
          (directory ++ below, Tree.Entry.file content) ∈ e.sources.entries) ∧
    (∀ names content, (names, Tree.Entry.file content) ∈ e.sources.entries →
      let file := Path.ofComponents names
      (e.sources.resolve none file = .ok file ↔ '\\' ∉ file.toList) ∧
      (e.sources.Opens file names content ↔ '\\' ∉ file.toList)) ∧
    ∀ d a element s files s₁, SessionM.discover e d a element s = (.ok files, s₁) → ∀ file ∈ files,
      ∀ depth d' i s₂ owner found s₃, e.sources.resolve none file = .ok found →
        SessionM.includeFile e (compilerBelow e depth) d' none file i s₂ =
          (.error (.resource (.noInclude owner found)), s₃) → '\\' ∈ file.toList := by
  refine ⟨fun _ _ _ lists => Tree.of_list legal unique lists, fun names content stands => ?_, ?_⟩
  · exact ⟨Tree.resolve_eq_self_iff (legal _ stands), Tree.opens_iff legal unique stands⟩
  · intro d a element s files s₁ discovers file mem depth d' i s₂ owner found s₃ resolves reports
    obtain ⟨isFile, -⟩ := SessionM.of_discover discovers
    exact SessionM.backslash_of_missing legal unique hosts (isFile file mem) reports resolves

end

/-- Two scripts in a directory, one with a backslash in its name. -/
def backslashNamed : Engine where
  __ := Engine.ofScripts []
  sources := {
    root := "/"
    entries := [["db", "a.py"], ["db", "a\\b.py"]].map fun names => (names, .file (.script [])) }

theorem isLegal_backslashNamed : backslashNamed.sources.IsLegal := by
  unfold Tree.IsLegal
  decide +kernel

theorem list_backslashNamed :
    backslashNamed.sources.list none "/db/" true = .ok ["db/a.py", "db/a\\b.py"] := by
  have sorted : ["db/a.py", "db/a\\b.py"].Pairwise (Text.le · · = true) := by decide +kernel
  exact congrArg Except.ok (ordered_none sorted)

/-- Both files are listed, but only one of them is found under the path that is listed for it. -/
theorem agrees_of_list_backslashNamed :
    let t := backslashNamed.sources
    t.IsLegal ∧ (t.entries.map Prod.fst).Nodup ∧
      backslashNamed.HostsFail (Failure.IsReliable backslashNamed) ∧
      (∃ files, t.list none "/db/" true = .ok files ∧ files.Nodup) ∧
      t.resolve none "db/a.py" = .ok "db/a.py" ∧ t.Opens "db/a.py" ["db", "a.py"] (.script []) ∧
      ¬t.Opens "db/a\\b.py" ["db", "a\\b.py"] (.script []) := by
  intro t
  have unique : (t.entries.map Prod.fst).Nodup := by decide +kernel
  have hosts : backslashNamed.HostsFail (Failure.IsReliable backslashNamed) :=
    (Engine.compilesScripts_ofScripts []).hostsFail
  obtain ⟨listing, leads, -⟩ := Engine.agrees_of_list isLegal_backslashNamed unique hosts
  obtain ⟨directory, -, nodup, -⟩ := listing none "/db/" _ list_backslashNamed
  have plain := leads ["db", "a.py"] (.script []) List.mem_cons_self
  have backslash := leads ["db", "a\\b.py"] (.script []) (List.mem_cons_of_mem _ List.mem_cons_self)
  have path : Path.ofComponents ["db", "a.py"] = "db/a.py" := by decide +kernel
  have path' : Path.ofComponents ["db", "a\\b.py"] = "db/a\\b.py" := by decide +kernel
  simp only [path] at plain
  simp only [path'] at backslash
  refine ⟨isLegal_backslashNamed, unique, hosts, ⟨_, list_backslashNamed, nodup⟩, ?_, ?_, ?_⟩
  · exact plain.1.2 (by decide +kernel)
  · exact plain.2.2 (by decide +kernel)
  · exact fun opens => backslash.2.1 opens (by decide +kernel)

/-- The other one is discovered, too, but its path does not stand for itself, cannot be opened, and
is reported missing when it is included. -/
theorem not_opens_backslashNamed :
    let e := backslashNamed
    let s : Session := { table := .ofRun none none none }
    let i : SessionM.Inclusion := { inheritance := {}, logicalPath := .null, skipsUnknown := true }
    e.sources.IsLegal ∧ e.sources.list none "/db/" true = .ok ["db/a.py", "db/a\\b.py"] ∧
      e.sources.resolve none "db/a\\b.py" = .ok "db/a/b.py" ∧
      e.sources.read none "db/a\\b.py" = .error (.noFile "db/a/b.py") ∧
      SessionM.discover e ⟨0⟩ [("path", .text "/db/")] "includeAll" s =
        (.ok ["db/a.py", "db/a\\b.py"], s) ∧
      SessionM.includeFile e (compilerBelow e 1) ⟨0⟩ none "db/a\\b.py" i s =
        (.error (.resource (.noInclude documentOwner "db/a/b.py")), s) := by
  intro e s i
  have resolves : e.sources.resolve none "db/a\\b.py" = .ok "db/a/b.py" :=
    Tree.resolve_eq_ok.2 ⟨by decide +kernel, by decide +kernel⟩
  have nothing : e.sources.file? (Path.components "db/a/b.py") = none := by
    have components : Path.components "db/a/b.py" = ["db", "a", "b.py"] := by decide +kernel
    have missing : e.sources.entries.lookup ["db", "a", "b.py"] = none :=
      List.lookup_eq_none_iff.2 (by decide +kernel)
    unfold Tree.file?
    rw [components, missing]
  have reads : e.sources.read none "db/a\\b.py" = .error (.noFile "db/a/b.py") := by
    rw [Tree.read_of_resolve _ resolves, nothing]
  have absent : ¬e.sources.HasFile "db/a/b.py" := by
    rintro ⟨content, found⟩
    rw [Tree.read_of_resolve _ (Tree.resolve_of_resolve resolves), nothing] at found
    cases found
  refine ⟨isLegal_backslashNamed, list_backslashNamed, resolves, reads, ?_, ?_⟩
  · have unset : ∀ name ∈ SessionM.discoveryAttributes, name ≠ "path" →
        Attributes.get [("path", .text "/db/")] name = .null :=
      fun name _ ne => Attributes.get_of_not_mem fun given => ne (List.mem_singleton.1 given)
    have directory : e.sources.resolve none "/db/" = .ok "db" :=
      Tree.resolve_eq_ok.2 ⟨by decide +kernel, by decide +kernel⟩
    exact SessionM.discover_all (SessionM.expandPath_of_isClean (by decide +kernel) (by decide) _ _ s)
      unset directory list_backslashNamed (by decide +kernel) (by decide) (by decide +kernel)
  · have takes : e.parser? "db/a/b.py" = some (.script ".py") :=
      @Engine.parser?_ofScripts [] _ (by decide +kernel)
    have accepts := SessionM.accept_eq resolves takes i.skipsUnknown s
    rw [if_neg (by decide), if_neg (by decide)] at accepts
    have run : SessionM.compileScript e 0 (i.request ⟨0⟩ "db/a/b.py") s =
        (.error (.resource (.noFile "db/a/b.py")), s) :=
      SessionM.compileScript_of_no_file resolves absent rfl s
    have passes : (Failure.resource (.noFile "db/a/b.py")).passing "db/a/b.py" i.required =
        some (.resource (.noInclude documentOwner "db/a/b.py")) := by
      simp [Failure.passing, ResourceError.family, ResourceError.path, i]
    exact SessionM.includeFile_error accepts run passes

end Migration
