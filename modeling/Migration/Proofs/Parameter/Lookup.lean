import Mathlib.Data.List.Basic
import Migration.Parameter.Table

/-!
# Looking up parameters

A look-up goes back through the writes of a table. It passes by the writes of other names and those
that do not apply, and stops at the first write of the name that applies or has a malformed filter,
so nothing that was written before it matters.

* `Table.Decides` — what the last write of a name that is not passed by makes of a look-up
* `Table.find?_eq_iff` — every look-up is decided that way
-/

namespace Migration.Table

/-- A write that a look-up of a name passes by: it is one of another name, or it does not apply. -/
def Passes (t : Table) (name : String) (document : Option DocumentId) (p : Parameter) : Prop :=
  p.key = name → t.applies p document = .ok false

/-- What a look-up of a name gives for writes, the last one first: the last one that applies, or
what is wrong with the filters of the last one that is not passed by. -/
inductive Decides (t : Table) (name : String) (document : Option DocumentId) :
    List Parameter → Except Filter.Malformed (Option Parameter) → Prop
  | write (later) {p earlier} (named : p.key = name) (applies : t.applies p document = .ok true)
      (passed : ∀ q ∈ later, t.Passes name document q) :
      Decides t name document (later ++ p :: earlier) (.ok (some p))
  | malformed (later) {p earlier m} (named : p.key = name) (fails : t.applies p document = .error m)
      (passed : ∀ q ∈ later, t.Passes name document q) :
      Decides t name document (later ++ p :: earlier) (.error m)
  | nothing {writes} (passed : ∀ q ∈ writes, t.Passes name document q) :
      Decides t name document writes (.ok none)

variable {t : Table} {name : String} {document : Option DocumentId} {p : Parameter}
  {writes : List Parameter} {result : Except Filter.Malformed (Option Parameter)}

/-- A write that is passed by decides nothing. -/
theorem Decides.cons (passes : t.Passes name document p)
    (h : t.Decides name document writes result) : t.Decides name document (p :: writes) result := by
  have all : ∀ {later : List Parameter}, (∀ q ∈ later, t.Passes name document q) →
      ∀ q ∈ p :: later, t.Passes name document q := by
    intro later passed q mem
    rcases List.mem_cons.1 mem with rfl | mem
    · exact passes
    · exact passed q mem
  cases h with
  | write later named applies passed => exact .write (p :: _) named applies (all passed)
  | malformed later named fails passed => exact .malformed (p :: _) named fails (all passed)
  | nothing passed => exact .nothing (all passed)

theorem search_cons_of_passes (passes : t.Passes name document p) (writes : List Parameter) :
    t.search name document (p :: writes) = t.search name document writes := by
  rw [search]
  by_cases named : p.key = name
  · rw [if_pos (beq_iff_eq.2 named), passes named]
    rfl
  · rw [if_neg (by simpa using named)]

theorem search_cons_of_key (named : p.key = name) (writes : List Parameter) :
    t.search name document (p :: writes) = t.applies p document >>= fun applies =>
      if applies then pure (some p) else t.search name document writes := by
  rw [search, if_pos (beq_iff_eq.2 named)]

/-- However many writes are passed by, what was written before them decides. -/
theorem search_append_of_passes {later : List Parameter}
    (passed : ∀ q ∈ later, t.Passes name document q) (rest : List Parameter) :
    t.search name document (later ++ rest) = t.search name document rest := by
  induction later with
  | nil => rfl
  | cons q later ih =>
    rw [List.cons_append, search_cons_of_passes (passed q List.mem_cons_self)]
    exact ih fun q mem => passed q (List.mem_cons_of_mem _ mem)

/-- The write that decides a look-up is found, however many are passed by on the way. -/
theorem search_of_decides (h : t.Decides name document writes result) :
    t.search name document writes = result := by
  cases h with
  | write later named applies passed =>
    rw [search_append_of_passes passed, search_cons_of_key named, applies]
    rfl
  | malformed later named fails passed =>
    rw [search_append_of_passes passed, search_cons_of_key named, fails]
    rfl
  | nothing passed =>
    have all := search_append_of_passes passed []
    rwa [List.append_nil] at all

theorem decides_search (t : Table) (name : String) (document : Option DocumentId)
    (writes : List Parameter) :
    t.Decides name document writes (t.search name document writes) := by
  induction writes with
  | nil => exact .nothing fun q mem => by cases mem
  | cons p rest ih =>
    by_cases passes : t.Passes name document p
    · rw [search_cons_of_passes passes]
      exact ih.cons passes
    · have named : p.key = name := Classical.byContradiction fun other =>
        passes fun named => absurd named other
      rw [search_cons_of_key named]
      rcases applies : t.applies p document with m | ⟨_ | _⟩
      · exact .malformed [] named applies nofun
      · exact absurd (fun _ => applies) passes
      · exact .write [] named applies nofun

/-- A look-up gives what the writes of the table decide. -/
theorem find?_eq_iff : t.find? name document = result ↔
    t.Decides name document t.parameters result := by
  constructor
  · rintro rfl
    exact decides_search t name document t.parameters
  · exact search_of_decides

end Migration.Table
