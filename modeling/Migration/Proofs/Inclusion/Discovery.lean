import Mathlib.Data.List.Basic
import Migration.Proofs.Step

/-!
# The order of discovered files

The files that an element with a directory stands for are listed in code point order, and a
comparator of the host sorts them again. The sort is stable, so paths that the comparator does not
tell apart stay in code point order; a comparator that turns that order round gives the files in
reverse.

* `IsTotalPreorder`, `IsReverse` — what a comparator may be
* `Precedes` — the order of a comparator, with ties in code point order
* `pairwise_ordered`, `ordered_eq_reverse` — the order in which files come
* `Search`, `SessionM.discover_of_reads` — what an element asks for, and what comes of it
* `SessionM.discover_ok` — the same files are discovered without a comparator
-/

namespace Migration

/-! ## Code point order -/

namespace Text

theorem charsLe_refl (a : List Char) : charsLe a a = true := by
  induction a with
  | nil => rfl
  | cons c rest ih => simp [charsLe, ih]

theorem charsLe_total (a b : List Char) : charsLe a b = true ∨ charsLe b a = true := by
  induction a generalizing b with
  | nil => exact .inl rfl
  | cons c rest ih =>
    cases b with
    | nil => exact .inr rfl
    | cons d others =>
      simp only [charsLe, Bool.or_eq_true, Bool.and_eq_true, decide_eq_true_eq, beq_iff_eq]
      rcases Nat.lt_trichotomy c.toNat d.toNat with lt | eq | gt
      · exact .inl (.inl lt)
      · have same := Char.toNat_inj.1 eq
        exact (ih others).imp (fun h => .inr ⟨same, h⟩) fun h => .inr ⟨same.symm, h⟩
      · exact .inr (.inl gt)

theorem charsLe_antisymm {a b : List Char} (h : charsLe a b = true) (h' : charsLe b a = true) :
    a = b := by
  induction a generalizing b with
  | nil =>
    cases b with
    | nil => rfl
    | cons => cases h'
  | cons c rest ih =>
    cases b with
    | nil => cases h
    | cons d others =>
      simp only [charsLe, Bool.or_eq_true, Bool.and_eq_true, decide_eq_true_eq, beq_iff_eq] at h h'
      obtain lt | ⟨rfl, first⟩ := h
      · obtain gt | ⟨rfl, -⟩ := h' <;> omega
      · obtain gt | ⟨-, second⟩ := h'
        · omega
        · rw [ih first second]

theorem charsLe_trans {a b c : List Char} (h : charsLe a b = true) (h' : charsLe b c = true) :
    charsLe a c = true := by
  induction a generalizing b c with
  | nil => rfl
  | cons x rest ih =>
    cases b with
    | nil => cases h
    | cons y others =>
      cases c with
      | nil => cases h'
      | cons z more =>
        simp only [charsLe, Bool.or_eq_true, Bool.and_eq_true, decide_eq_true_eq, beq_iff_eq] at h h' ⊢
        obtain lt | ⟨rfl, first⟩ := h
        · obtain lt' | ⟨rfl, -⟩ := h'
          · exact .inl (Nat.lt_trans lt lt')
          · exact .inl lt
        · obtain lt' | ⟨rfl, second⟩ := h'
          · exact .inl lt'
          · exact .inr ⟨rfl, ih first second⟩

theorem le_refl (a : String) : le a a = true := charsLe_refl _

theorem le_total (a b : String) : le a b = true ∨ le b a = true := charsLe_total _ _

theorem le_trans (a b c : String) : le a b = true → le b c = true → le a c = true := charsLe_trans

theorem le_antisymm {a b : String} (h : le a b = true) (h' : le b a = true) : a = b :=
  String.toList_inj.1 (charsLe_antisymm h h')

theorem not_le {a b : String} : ¬le a b = true ↔ le b a = true ∧ a ≠ b := by
  constructor
  · intro h
    refine ⟨(le_total a b).resolve_left h, fun same => h ?_⟩
    rw [same]
    exact le_refl b
  · exact fun ⟨back, ne⟩ h => ne (le_antisymm h back)

/-- Sorted texts stand in code point order. -/
theorem pairwise_sort (texts : List String) : (sort texts).Pairwise (le · · = true) :=
  List.pairwise_mergeSort le_trans (fun a b => (Bool.or_eq_true _ _).symm ▸ le_total a b) texts

end Text

/-! ## Comparators -/

/-- A comparator that tells of any two paths which one stands first, if it tells them apart. -/
structure IsTotalPreorder (compare : String → String → Int) : Prop where
  flip : ∀ x y, compare x y < 0 ↔ 0 < compare y x
  trans : ∀ x y z, compare x y ≤ 0 → compare y z ≤ 0 → compare x z ≤ 0

/-- A comparator that turns the code point order round. -/
def IsReverse (compare : String → String → Int) : Prop :=
  ∀ x y, compare x y < 0 ↔ Text.le y x = true ∧ x ≠ y

/-- The comparator that turns the code point order round. -/
def reversed (x y : String) : Int := if Text.le x y then (if x = y then 0 else 1) else -1

theorem isReverse_reversed : IsReverse reversed := by
  intro x y
  rw [← Text.not_le]
  unfold reversed
  split
  · split <;> simp_all
  · simp_all

theorem reversed_le_zero (x y : String) : reversed x y ≤ 0 ↔ Text.le y x = true := by
  unfold reversed
  by_cases le : Text.le x y = true
  · rw [if_pos le]
    by_cases same : x = y
    · rw [if_pos same, same]
      exact ⟨fun _ => Text.le_refl y, fun _ => Int.le_refl 0⟩
    · rw [if_neg same]
      exact ⟨fun h => by omega, fun back => absurd (Text.le_antisymm le back) same⟩
  · rw [if_neg le]
    exact ⟨fun _ => (Text.le_total x y).resolve_left le, fun _ => by omega⟩

theorem isTotalPreorder_reversed : IsTotalPreorder reversed where
  flip x y := by
    rw [isReverse_reversed, ← Text.not_le, ← reversed_le_zero y x, Int.not_le]
  trans x y z h h' := by
    rw [reversed_le_zero] at h h' ⊢
    exact Text.le_trans z y x h' h

/-- One path stands before another one: the comparator says so, or it does not tell them apart and
the code points say so. -/
def Precedes (compare : Option (String → String → Int)) (x y : String) : Prop :=
  match compare with
  | some compare => compare x y < 0 ∨ compare x y = 0 ∧ Text.le x y = true
  | none => Text.le x y = true

/-- No file comes in or is lost. -/
theorem ordered_perm (compare : Option (String → String → Int)) (paths : List String) :
    (ordered compare paths).Perm paths := by
  cases compare with
  | none => exact List.mergeSort_perm _ _
  | some compare => exact List.mergeSort_perm _ _

theorem ordered_none {paths : List String} (sorted : paths.Pairwise (Text.le · · = true)) :
    ordered none paths = paths :=
  List.mergeSort_of_pairwise sorted

/-- Paths in code point order come to stand as the comparator says, with ties in code point
order. -/
theorem pairwise_ordered {compare : Option (String → String → Int)}
    (total : ∀ c ∈ compare, IsTotalPreorder c) {paths : List String}
    (sorted : paths.Pairwise (Text.le · · = true)) :
    (ordered compare paths).Pairwise (Precedes compare) := by
  cases compare with
  | none => exact Text.pairwise_sort paths
  | some compare =>
    obtain ⟨flip, trans⟩ := total compare rfl
    let before : String → String → Bool := fun x y => !(compare y x < 0)
    have before_iff : ∀ x y, before x y = true ↔ compare x y ≤ 0 := fun x y => by
      have := flip y x
      simp only [before, Bool.not_eq_true', decide_eq_false_iff_not]
      omega
    have before_trans : ∀ x y z, before x y = true → before y z = true → before x z = true := by
      simp only [before_iff]
      exact trans
    have before_total : ∀ x y, (before x y || before y x) = true := fun x y => by
      have := flip y x
      simp only [Bool.or_eq_true, before_iff]
      omega
    -- a stable sort is a sort of the paths together with where they stand
    have stable := List.pairwise_mergeSort (List.zipIdxLE_trans before_trans)
      (List.zipIdxLE_total before_total) paths.zipIdx
    show (paths.mergeSort before).Pairwise _
    rw [← List.mergeSort_zipIdx, List.pairwise_map]
    refine stable.imp_of_mem fun {p q} hp hq h => ?_
    have hp := List.mem_zipIdx_iff_getElem?.1 (List.mem_mergeSort.1 hp)
    have hq := List.mem_zipIdx_iff_getElem?.1 (List.mem_mergeSort.1 hq)
    unfold List.zipIdxLE at h
    split at h
    case isFalse => cases h
    case isTrue first =>
      rw [before_iff] at first
      rcases Int.lt_or_eq_of_le first with lt | tie
      · exact .inl lt
      · refine .inr ⟨tie, ?_⟩
        have back : before q.1 p.1 = true := by
          have := flip q.1 p.1
          have := flip p.1 q.1
          rw [before_iff]
          omega
        rw [if_pos back, decide_eq_true_eq] at h
        obtain ⟨hi, hp⟩ := List.getElem?_eq_some_iff.1 hp
        obtain ⟨hj, hq⟩ := List.getElem?_eq_some_iff.1 hq
        rcases Nat.lt_or_eq_of_le h with lt | same
        · have := List.pairwise_iff_getElem.1 sorted _ _ hi hj lt
          rwa [hp, hq] at this
        · have : p.1 = q.1 := by
            rw [← hp, ← hq]
            congr
          rw [this]
          exact Text.le_refl _

/-- A comparator that turns the code point order round gives the paths in reverse. -/
theorem ordered_eq_reverse {compare : String → String → Int} (reverse : IsReverse compare)
    {paths : List String} (sorted : paths.Pairwise (Text.le · · = true)) :
    ordered (some compare) paths = paths.reverse := by
  have turned : (fun x y => !decide (compare y x < 0)) = fun x y => Text.le y x := by
    funext x y
    rw [Bool.eq_iff_iff, Bool.not_eq_true', decide_eq_false_iff_not, reverse, ← Text.not_le, not_not]
  show paths.mergeSort (fun x y => !decide (compare y x < 0)) = paths.reverse
  rw [turned]
  have total : ∀ x y, (Text.le y x || Text.le x y) = true := fun x y =>
    (Bool.or_eq_true _ _).symm ▸ Text.le_total y x
  exact List.Perm.eq_of_pairwise (fun x y _ _ h h' => Text.le_antisymm h' h)
    (List.pairwise_mergeSort (fun x y z h h' => Text.le_trans z y x h' h) total paths)
    (List.pairwise_reverse.2 sorted)
    ((List.mergeSort_perm _ _).trans (List.reverse_perm paths).symm)

/-! ## Discovery -/

namespace Attributes

/-- The attributes but for those of one name. -/
def without (a : Attributes) (name : String) : Attributes := a.filter (·.1 != name)

theorem get_without (a : Attributes) {name other : String} (ne : name ≠ other) :
    (a.without other).get name = a.get name := by
  have lookup : (a.without other).lookup name = a.lookup name := by
    unfold without
    induction a with
    | nil => rfl
    | cons entry rest ih =>
      obtain ⟨key, v⟩ := entry
      by_cases drop : key = other
      · have miss : (name == key) = false := by
          rw [beq_eq_false_iff_ne, drop]
          exact ne
        rw [List.filter_cons_of_neg (by simp [drop]), ih, List.lookup_cons, miss]
      · rw [List.filter_cons_of_pos (by simp [drop]), List.lookup_cons, List.lookup_cons, ih]
  unfold get
  rw [lookup]

theorem flag_without (a : Attributes) {name other : String} (ne : name ≠ other) (default : Bool) :
    (a.without other).flag name default = a.flag name default := by
  unfold flag
  rw [get_without a ne]

theorem context_without (a : Attributes) {other : String} (ne : "contextFilter" ≠ other)
    (ne' : "context" ≠ other) : (a.without other).context = a.context := by
  unfold context given
  rw [get_without a ne, get_without a ne']

theorem get_without_self (a : Attributes) (name : String) : (a.without name).get name = .null := by
  have lookup : (a.without name).lookup name = none := by
    rw [List.lookup_eq_none_iff]
    intro entry mem
    obtain ⟨-, kept⟩ := List.mem_filter.1 mem
    exact bne_comm.trans kept
  unfold get
  rw [lookup]
  rfl

/-- Attributes are those of an element if none of them has been removed from it and it has all of
them. -/
theorem validate_eq_ok {a : Attributes} {owner element : String} {allowed : List String} :
    a.validate owner element allowed = .ok () ↔
      (∀ entry ∈ removed, entry.1 = element → a.has entry.2.1 = false) ∧
        a.unsupported? allowed = none := by
  unfold validate
  constructor
  · intro h
    split at h
    · cases h
    · next present =>
      split at h
      · cases h
      · next supported =>
        refine ⟨fun entry mem same => ?_, supported⟩
        have absent := List.find?_eq_none.1 present entry mem
        simpa [same] using absent
  · rintro ⟨absent, supported⟩
    split
    · next found =>
      have mem := List.mem_of_find?_eq_some found
      have holds := List.find?_some found
      simp only [Bool.and_eq_true, beq_iff_eq] at holds
      rw [absent _ mem holds.1] at holds
      cases holds.2
    · rw [supported]
      rfl

/-- Attributes that an element has remain so when some of them are left out. -/
theorem validate_without {a : Attributes} {owner element name : String} {allowed : List String}
    (h : a.validate owner element allowed = .ok ()) :
    (a.without name).validate owner element allowed = .ok () := by
  obtain ⟨absent, supported⟩ := validate_eq_ok.1 h
  refine validate_eq_ok.2 ⟨fun entry mem same => ?_, ?_⟩
  · have none_ := absent entry mem same
    unfold has at none_ ⊢
    rw [List.any_eq_false] at none_ ⊢
    exact fun given mem => none_ given (List.mem_filter.1 mem).1
  · unfold unsupported? at supported ⊢
    rw [Option.map_eq_none_iff, List.find?_eq_none] at supported ⊢
    exact fun entry mem => supported entry (List.mem_filter.1 mem).1

end Attributes

theorem Tree.pairwise_list {α : Type} {t : Tree α} {relativeTo : Option String} {path : String}
    {recursive : Bool} {files : List String} (h : t.list relativeTo path recursive = .ok files) :
    files.Pairwise (Text.le · · = true) := by
  unfold list at h
  cases hr : t.resolve relativeTo path with
  | error failure =>
    rw [hr] at h
    cases h
  | ok directory =>
    rw [hr] at h
    replace h : (if _ then _ else _ : Except ResourceError (List String)) = _ := h
    split at h
    · cases h
      exact Text.pairwise_sort _
    · cases h

namespace SessionM

variable {e : Engine} {d : DocumentId} {a : Attributes} {s s₁ : Session}

/-- The files under a directory come in code point order. -/
theorem pairwise_listing {relativeTo : Option String} {path element : String} {required : Bool}
    {found : String × List String}
    (h : listing e relativeTo path element required s = (.ok found, s₁)) :
    found.2.Pairwise (Text.le · · = true) := by
  obtain ⟨directory, s₂, -, h⟩ := Step.bind_eq_ok.1 h
  cases hl : e.sources.list relativeTo path true with
  | error error =>
    rw [hl] at h
    dsimp only at h
    split at h
    · cases h
    · split at h
      · cases h
      · cases h
        exact .nil
  | ok files =>
    rw [hl] at h
    cases h
    exact Tree.pairwise_list hl

end SessionM

/-! ### What is read of an element -/

/-- What an element that names a directory asks for. -/
structure Search where
  /-- The path as it is written, after expansion. -/
  path : String
  relativeTo : Option String
  minDepth : Option Int
  maxDepth : Option Int
  ending : Value
  includes : Option (String → Bool)
  compare : Option (String → String → Int)
  /-- Whether it is an error to find nothing. -/
  required : Bool

namespace Search

/-- The search is what the attributes of an element ask for. -/
structure IsReadFrom (search : Search) (e : Engine) (d : DocumentId) (a : Attributes)
    (element : String) (s : Session) : Prop where
  path : SessionM.expandPath d (a.get "path") "path" element s = (.ok search.path, s)
  relativeTo : SessionM.startingPath d (a.flag "relativeToChangelogFile" false) s =
    (.ok search.relativeTo, s)
  minDepth : SessionM.expandDepth d (a.get "minDepth") "minDepth" element s =
    (.ok search.minDepth, s)
  maxDepth : SessionM.expandDepth d (a.get "maxDepth") "maxDepth" element s =
    (.ok search.maxDepth, s)
  ending : SessionM.expand d (a.get "endsWithFilter") s = (.ok search.ending, s)
  includes : SessionM.namedFilter e d (a.get "filter") s = (.ok search.includes, s)
  compare : SessionM.namedComparator e d (a.get "resourceComparator") s = (.ok search.compare, s)
  required : a.flag "errorIfMissingOrEmpty" true = search.required

/-- The least depth: that of the files right inside the directory, unless another one is asked
for. -/
def leastDepth (search : Search) : Int :=
  match search.minDepth with
  | some n => if n = 0 then 1 else n
  | none => 1

/-- What is asked of a file. -/
def selection (search : Search) : Selection where
  minDepth := search.leastDepth
  maxDepth := search.maxDepth
  ending := if search.ending.isTruthy then some search.ending.print else none
  includes := search.includes

/-- The files that are asked for among those in a directory, in order. -/
def among (search : Search) (directory : String) (files : List String) : List String :=
  ordered search.compare (files.filter (search.selection.selects directory))

/-- What comes of the files in a directory: a failure if none is asked for and some are required,
and a warning if none is. -/
def result (search : Search) (element directory : String) (files : List String) (s : Session) :
    Except Failure (List String) × Session :=
  let paths := search.among directory files
  if paths ≠ [] then (.ok paths, s)
  else if search.required then
    (.error (.resource (.emptyScan documentOwner element search.path directory)), s)
  else (.ok [], { s with warnings := s.warnings ++ [.nothingFound element search.path] })

variable {search : Search} {element directory : String} {files paths : List String} {s s₁ : Session}

theorem result_eq_ok : search.result element directory files s = (.ok paths, s₁) ↔
    paths = search.among directory files ∧ (paths = [] → search.required = false) ∧
      s₁ = if paths = [] then
        { s with warnings := s.warnings ++ [.nothingFound element search.path] }
      else s := by
  unfold result
  by_cases empty : search.among directory files = []
  · rw [if_neg (not_not.2 empty)]
    cases required : search.required with
    | true =>
      refine ⟨nofun, ?_⟩
      rintro ⟨rfl, allowed, -⟩
      cases allowed empty
    | false =>
      constructor
      · intro h
        cases h
        exact ⟨empty.symm, fun _ => rfl, (if_pos rfl).symm⟩
      · rintro ⟨rfl, -, rfl⟩
        rw [if_pos empty, empty]
        rfl
  · rw [if_pos empty]
    constructor
    · intro h
      cases h
      exact ⟨rfl, fun none_ => absurd none_ empty, (if_neg empty).symm⟩
    · rintro ⟨rfl, -, rfl⟩
      rw [if_neg empty]

end Search

namespace SessionM

variable {e : Engine} {d : DocumentId} {a : Attributes} {element : String} {s s₁ s₂ : Session}
  {search : Search} {directory : String} {files paths : List String}

/-- A discovery looks for what it reads. -/
theorem discover_of_reads (reads : search.IsReadFrom e d a element s)
    (lists : listing e search.relativeTo search.path element search.required s =
      (.ok (directory, files), s₂)) :
    discover e d a element s = search.result element directory files s₂ := by
  -- all that is left to do once the files have been put in order
  have ends : ∀ paths : List String, (do
      if paths.isEmpty then
        if search.required then
          throw (.resource (.emptyScan documentOwner element search.path directory))
        else warn (.nothingFound element search.path)
      return paths : SessionM (List String)) s₂ =
        if paths ≠ [] then (.ok paths, s₂)
        else if search.required then
          (.error (.resource (.emptyScan documentOwner element search.path directory)), s₂)
        else (.ok [], { s₂ with warnings := s₂.warnings ++ [.nothingFound element search.path] }) := by
    intro paths
    cases paths with
    | nil => cases search.required <;> rfl
    | cons path rest => rfl
  unfold discover
  rw [reads.required, Step.run_bind_of_ok reads.path, Step.run_bind_of_ok reads.minDepth,
    Step.run_bind_of_ok reads.maxDepth, Step.run_bind_of_ok reads.ending,
    Step.run_bind_of_ok reads.includes, Step.run_bind_of_ok reads.compare,
    Step.run_bind_of_ok reads.relativeTo, Step.run_bind_of_ok lists]
  exact ends (search.among directory files)

/-- A discovery that gives files has read what it looks for. -/
theorem exists_reads_of_discover (h : discover e d a element s = (.ok paths, s₁)) :
    ∃ (search : Search) (directory : String) (files : List String) (s₂ : Session),
      search.IsReadFrom e d a element s ∧
      listing e search.relativeTo search.path element search.required s =
        (.ok (directory, files), s₂) ∧
      search.result element directory files s₂ = (.ok paths, s₁) := by
  have whole := h
  obtain ⟨path, hpath, h⟩ := (keeps_expandPath d _ _ _).bind_eq_ok.1 h
  obtain ⟨minDepth, hmin, h⟩ := (keeps_expandDepth d _ _ _).bind_eq_ok.1 h
  obtain ⟨maxDepth, hmax, h⟩ := (keeps_expandDepth d _ _ _).bind_eq_ok.1 h
  obtain ⟨ending, hending, h⟩ := (keeps_expand d _).bind_eq_ok.1 h
  obtain ⟨includes, hincludes, h⟩ := (keeps_namedFilter e d _).bind_eq_ok.1 h
  obtain ⟨compare, hcompare, h⟩ := (keeps_namedComparator e d _).bind_eq_ok.1 h
  obtain ⟨relativeTo, hrelative, h⟩ := (keeps_startingPath d _).bind_eq_ok.1 h
  obtain ⟨⟨directory, files⟩, s₂, hlisting, -⟩ := Step.bind_eq_ok.1 h
  let search : Search := ⟨path, relativeTo, minDepth, maxDepth, ending, includes, compare,
    a.flag "errorIfMissingOrEmpty" true⟩
  have found : search.IsReadFrom e d a element s :=
    ⟨hpath, hrelative, hmin, hmax, hending, hincludes, hcompare, rfl⟩
  exact ⟨search, directory, files, s₂, found, hlisting,
    (discover_of_reads found hlisting).symm.trans whole⟩

/-! ### With a comparator and without -/

/-- What is discovered are files in code point order, sorted by the comparator that is named;
without it the same files are discovered as they are. -/
theorem discover_ok {element : String} {paths : List String}
    (h : discover e d a element s = (.ok paths, s₁)) :
    ∃ compare files, namedComparator e d (a.get "resourceComparator") s = (.ok compare, s) ∧
      files.Pairwise (Text.le · · = true) ∧ paths = ordered compare files ∧
      discover e d (a.without "resourceComparator") element s = (.ok files, s₁) := by
  obtain ⟨search, directory, found, s₂, reads, hlisting, results⟩ := exists_reads_of_discover h
  obtain ⟨is, allowed, rfl⟩ := Search.result_eq_ok.1 results
  have sorted : (found.filter (search.selection.selects directory)).Pairwise (Text.le · · = true) :=
    (pairwise_listing hlisting).filter _
  refine ⟨search.compare, _, reads.compare, sorted, is, ?_⟩
  -- the same is read but for the comparator, and without one the files stay as they are
  have reads' : ({ search with compare := none } : Search).IsReadFrom e d
      (a.without "resourceComparator") element s := by
    refine ⟨?_, ?_, ?_, ?_, ?_, ?_, ?_, ?_⟩
    · rw [Attributes.get_without a (by decide)]
      exact reads.path
    · rw [Attributes.flag_without a (by decide)]
      exact reads.relativeTo
    · rw [Attributes.get_without a (by decide)]
      exact reads.minDepth
    · rw [Attributes.get_without a (by decide)]
      exact reads.maxDepth
    · rw [Attributes.get_without a (by decide)]
      exact reads.ending
    · rw [Attributes.get_without a (by decide)]
      exact reads.includes
    · rw [Attributes.get_without_self]
      rfl
    · rw [Attributes.flag_without a (by decide)]
      exact reads.required
  rw [discover_of_reads reads' hlisting, Search.result_eq_ok]
  have same : found.filter (search.selection.selects directory) = [] ↔ paths = [] := by
    rw [is, ← List.isEmpty_iff, ← List.isEmpty_iff]
    exact Bool.eq_iff_iff.1 (ordered_perm _ _).isEmpty_eq.symm
  exact ⟨(ordered_none sorted).symm,
    fun none_ => allowed (same.1 none_), if_congr same.symm rfl rfl⟩

theorem inclusionOf_without :
    inclusionOf d (a.without "resourceComparator") = inclusionOf d a := by
  unfold inclusionOf contextFilter labels
  rw [Attributes.context_without a (by decide) (by decide), Attributes.get_without a (by decide),
    Attributes.get_without a (by decide), Attributes.flag_without a (by decide)]

/-- So it is for the files that an include of a directory names. -/
theorem readIncludeAll_ok {paths : List String} {i : Inclusion}
    (h : readIncludeAll e d a s = (.ok (paths, i), s₁)) :
    ∃ compare files, namedComparator e d (a.get "resourceComparator") s = (.ok compare, s) ∧
      files.Pairwise (Text.le · · = true) ∧ paths = ordered compare files ∧
      readIncludeAll e d (a.without "resourceComparator") s = (.ok (files, i), s₁) := by
  obtain ⟨_, hvalid, h⟩ := (keeps_ofCheck _).bind_eq_ok.1 h
  obtain ⟨paths', s₂, hpaths, h⟩ := Step.bind_eq_ok.1 h
  obtain ⟨inclusion, s₃, hinclusion, h⟩ := Step.bind_eq_ok.1 h
  cases h
  obtain ⟨compare, files, named, sorted, same, discovered⟩ := discover_ok hpaths
  refine ⟨compare, files, named, sorted, same, ?_⟩
  unfold readIncludeAll
  have valid : (a.without "resourceComparator").validate documentOwner "includeAll"
      includeAllAttributes = .ok () := by
    cases hv : a.validate documentOwner "includeAll" includeAllAttributes with
    | ok => exact Attributes.validate_without hv
    | error failure =>
      rw [hv] at hvalid
      cases hvalid
  rw [valid, inclusionOf_without]
  exact Step.bind_eq_ok.2 ⟨(), s, rfl, Step.bind_eq_ok.2 ⟨files, s₂, discovered,
    Step.bind_eq_ok.2 ⟨inclusion, s₁, hinclusion, rfl⟩⟩⟩

end SessionM
end Migration
