import Migration.Proofs.Text
import Migration.Resource.Tree

/-!
# Resolved paths

A path that has been resolved is written in names, each a step down from the root. Resolving it once
more changes nothing.

* `Path.IsName` — a component that leads down
* `Tree.resolve_ofComponents` — a path of names stands for itself
* `Tree.resolve_of_resolve` — resolving a resolved path
-/

namespace Migration

namespace Path

/-- A component that leads down: not empty, without slashes, and not one of the two that have a
meaning of their own. -/
structure IsName (component : String) : Prop where
  ne_empty : component ≠ ""
  ne_same : component ≠ "."
  ne_up : component ≠ ".."
  noSlash : '/' ∉ component.toList
  noBackslash : '\\' ∉ component.toList

instance (component : String) : Decidable (IsName component) :=
  decidable_of_iff
    (component ≠ "" ∧ component ≠ "." ∧ component ≠ ".." ∧ '/' ∉ component.toList ∧
      '\\' ∉ component.toList)
    ⟨fun ⟨ne_empty, ne_same, ne_up, noSlash, noBackslash⟩ =>
        ⟨ne_empty, ne_same, ne_up, noSlash, noBackslash⟩,
      fun h => ⟨h.ne_empty, h.ne_same, h.ne_up, h.noSlash, h.noBackslash⟩⟩

/-- A normal path, backwards: names after steps up. -/
def IsNormal (done : List String) : Prop :=
  ∃ names ups, done = names ++ List.replicate ups ".." ∧ ∀ name ∈ names, IsName name

theorem isNormal_nil : IsNormal [] := ⟨[], 0, rfl, by simp⟩

theorem isNormal_step {done : List String} (h : IsNormal done) {component : String}
    (noSlash : '/' ∉ component.toList) (noBackslash : '\\' ∉ component.toList) :
    IsNormal (step done component) := by
  obtain ⟨names, ups, rfl, hn⟩ := h
  unfold step
  split
  · exact ⟨names, ups, rfl, hn⟩
  · rename_i skip
    simp only [Bool.or_eq_true, beq_iff_eq, not_or] at skip
    split
    · cases names with
      | nil =>
        cases ups with
        | zero => exact ⟨[], 1, rfl, by simp⟩
        | succ ups => exact ⟨[], ups + 2, rfl, by simp⟩
      | cons name names =>
        have ne : (name == "..") = false := by simpa using (hn name (by simp)).ne_up
        simp only [List.cons_append, ne]
        exact ⟨names, ups, rfl, fun n h => hn n (List.mem_cons_of_mem _ h)⟩
    · rename_i up
      refine ⟨component :: names, ups, rfl, fun n h => ?_⟩
      rcases List.mem_cons.1 h with rfl | h
      · exact ⟨skip.1, skip.2, by simpa using up, noSlash, noBackslash⟩
      · exact hn n h

theorem step_of_isName {component : String} (h : IsName component) (done : List String) :
    step done component = component :: done := by
  unfold step
  rw [if_neg (by simp [h.ne_empty, h.ne_same]), if_neg (by simp [h.ne_up])]

/-- Components that each lead down are kept. -/
theorem foldl_step_of_leads {names : List String}
    (leads : ∀ name ∈ names, ∀ done, step done name = name :: done) (done : List String) :
    names.foldl step done = names.reverse ++ done := by
  induction names generalizing done with
  | nil => rfl
  | cons name rest ih =>
    rw [List.foldl_cons, leads name List.mem_cons_self,
      ih fun n hn => leads n (List.mem_cons_of_mem _ hn)]
    simp

theorem isNormal_foldl {components done : List String} (hd : IsNormal done)
    (h : ∀ c ∈ components, '/' ∉ c.toList ∧ '\\' ∉ c.toList) :
    IsNormal (components.foldl step done) := by
  induction components generalizing done with
  | nil => exact hd
  | cons c rest ih =>
    have hc := h c List.mem_cons_self
    exact ih (isNormal_step hd hc.1 hc.2) fun c' hc' => h c' (List.mem_cons_of_mem _ hc')

/-! ## Characters of paths -/

theorem noBackslash_slashed (cs : List Char) : '\\' ∉ slashed cs := by
  intro h
  obtain ⟨c, -, hc⟩ := List.mem_map.1 h
  split at hc
  · cases hc
  · rename_i ne
    exact ne (by simp [hc])

/-- A path without backslashes is written with slashes only. -/
theorem slashed_of_noBackslash {cs : List Char} (h : '\\' ∉ cs) : slashed cs = cs := by
  refine (List.map_congr_left fun c hc => if_neg ?_).trans (List.map_id _)
  rintro eq
  exact h (by rwa [← beq_iff_eq.1 eq])

theorem noBackslash_relative (cs : List Char) : '\\' ∉ relative cs := fun h =>
  noBackslash_slashed cs ((List.dropWhile_sublist _).subset h)

theorem noBackslash_parent {cs : List Char} (h : '\\' ∉ cs) : '\\' ∉ parent cs := by
  intro hp
  unfold parent at hp
  have hp := (List.dropWhile_sublist _).subset (List.mem_reverse.1 hp)
  exact h (List.mem_reverse.1 ((List.dropWhile_sublist _).subset hp))

theorem noBackslash_joined {base path : List Char} (hb : '\\' ∉ base) (hp : '\\' ∉ path) :
    '\\' ∉ joined base path := by
  unfold joined
  split
  · exact hp
  · split <;> simp [hb, hp]

/-- Normal paths of characters without backslashes. -/
theorem isNormal_normalize {cs : List Char} (h : '\\' ∉ cs) : IsNormal (normalize cs).reverse := by
  unfold normalize
  rw [List.reverse_reverse, Text.splitOn_eq]
  refine isNormal_foldl isNormal_nil fun c hc => ?_
  obtain ⟨part, hp, rfl⟩ := List.mem_map.1 hc
  have chars := Text.mem_splitOn hp
  simp only [String.toList_ofList]
  exact ⟨chars.1, fun hb => h (chars.2 _ hb)⟩

/-- A normal path that does not lead up first is all names. -/
theorem isName_of_isNormal {components : List String} (h : IsNormal components.reverse)
    (inside : components.head? ≠ some "..") : ∀ c ∈ components, IsName c := by
  obtain ⟨names, ups, hr, hn⟩ := h
  have eq : components = List.replicate ups ".." ++ names.reverse := by
    rw [← List.reverse_reverse components, hr, List.reverse_append, List.reverse_replicate]
  cases ups with
  | zero =>
    intro c hc
    rw [eq] at hc
    exact hn c (by simpa using hc)
  | succ ups =>
    rw [eq] at inside
    exact absurd rfl inside

theorem toList_ofComponents (components : List String) :
    (ofComponents components).toList = ['/'].intercalate (components.map String.toList) := by
  unfold ofComponents Text.join
  rw [String.toList_intercalate]
  rfl

/-- A path has all characters of its components. -/
theorem mem_ofComponents {names : List String} {name : String} (mem : name ∈ names) {c : Char}
    (hc : c ∈ name.toList) : c ∈ (ofComponents names).toList := by
  rw [toList_ofComponents]
  induction names with
  | nil => cases mem
  | cons first rest ih =>
    cases rest with
    | nil =>
      obtain rfl := List.mem_singleton.1 mem
      simpa using hc
    | cons next rest =>
      rw [List.map_cons, List.map_cons, List.intercalate_cons_cons]
      rcases List.mem_cons.1 mem with rfl | mem
      · exact List.mem_append_left _ (List.mem_append_left _ hc)
      · exact List.mem_append_right _ (ih mem)

theorem noBackslash_ofComponents {names : List String} (h : ∀ name ∈ names, IsName name) :
    '\\' ∉ (ofComponents names).toList := by
  rw [toList_ofComponents]
  induction names with
  | nil => simp
  | cons name rest ih =>
    have first := (h name List.mem_cons_self).noBackslash
    have others := ih fun n hn => h n (List.mem_cons_of_mem _ hn)
    cases rest with
    | nil => simpa using first
    | cons next rest =>
      rw [List.map_cons, List.map_cons, List.intercalate_cons_cons]
      simp only [List.mem_append, List.mem_singleton, not_or]
      exact ⟨⟨first, by decide⟩, others⟩

/-- A path of names is written with slashes only, and with none at the start. -/
theorem relative_ofComponents {names : List String} (h : ∀ name ∈ names, IsName name) :
    relative (ofComponents names).toList = (ofComponents names).toList := by
  unfold relative
  rw [slashed_of_noBackslash (noBackslash_ofComponents h), toList_ofComponents]
  cases names with
  | nil => rfl
  | cons name rest =>
    have hn := h name List.mem_cons_self
    cases hc : name.toList with
    | nil => exact absurd (String.toList_eq_nil_iff.1 hc) hn.ne_empty
    | cons c cs =>
      have ne : (c == '/') = false := by
        have := hn.noSlash
        rw [hc] at this
        simp only [List.mem_cons, not_or] at this
        simpa using Ne.symm this.1
      cases rest with
      | nil => simp [hc, ne]
      | cons next rest => simp [hc, ne, List.intercalate_cons_cons]

theorem normalize_ofComponents_of_leads {names : List String}
    (leads : ∀ name ∈ names, ∀ done, step done name = name :: done)
    (noSlash : ∀ name ∈ names, '/' ∉ name.toList) :
    normalize (ofComponents names).toList = names := by
  unfold normalize
  rw [toList_ofComponents, Text.splitOn_eq]
  cases names with
  | nil => rfl
  | cons name rest =>
    have parts : ∀ part ∈ (name :: rest).map String.toList, '/' ∉ part := by
      intro part hp
      obtain ⟨n, hn, rfl⟩ := List.mem_map.1 hp
      exact noSlash n hn
    rw [List.splitOn_intercalate '/' parts (by simp)]
    simp only [List.map_map, Function.comp_def, String.ofList_toList, List.map_id']
    rw [foldl_step_of_leads leads, List.append_nil, List.reverse_reverse]

theorem normalize_ofComponents {names : List String} (h : ∀ name ∈ names, IsName name) :
    normalize (ofComponents names).toList = names :=
  normalize_ofComponents_of_leads (fun name mem => step_of_isName (h name mem))
    fun name mem => (h name mem).noSlash

end Path

namespace Tree

variable {α : Type} {t : Tree α}

theorem resolve_eq_ok {relativeTo : Option String} {path resolved : String} :
    t.resolve relativeTo path = .ok resolved ↔
      (Path.normalize (fromRoot relativeTo path)).head? ≠ some ".." ∧
        resolved = Path.ofComponents (Path.normalize (fromRoot relativeTo path)) := by
  unfold resolve
  by_cases h : (Path.normalize (fromRoot relativeTo path)).head? = some ".."
  · simp only [h, beq_self_eq_true, if_true, ne_eq, not_true, false_and, iff_false]
    exact fun eq => by cases eq
  · simp only [beq_iff_eq, ne_eq, h, not_false_eq_true, true_and]
    exact ⟨fun eq => (Except.ok.inj eq).symm, fun eq => congrArg Except.ok eq.symm⟩

theorem noBackslash_fromRoot (relativeTo : Option String) (path : String) :
    '\\' ∉ fromRoot relativeTo path := by
  unfold fromRoot
  dsimp only
  split
  · exact Path.noBackslash_relative _
  · exact Path.noBackslash_joined (Path.noBackslash_parent (Path.noBackslash_relative _))
      (Path.noBackslash_relative _)

/-- A path of names stands for itself. -/
theorem resolve_ofComponents {names : List String} (h : ∀ name ∈ names, Path.IsName name) :
    t.resolve none (Path.ofComponents names) = .ok (Path.ofComponents names) := by
  have written : fromRoot none (Path.ofComponents names) = (Path.ofComponents names).toList :=
    Path.relative_ofComponents h
  rw [resolve_eq_ok, written, Path.normalize_ofComponents h]
  refine ⟨fun hh => ?_, rfl⟩
  exact (h ".." (List.mem_of_mem_head? hh)).ne_up rfl

/-- What a path resolves to is a path of names. -/
theorem names_of_resolve {relativeTo : Option String} {path resolved : String}
    (h : t.resolve relativeTo path = .ok resolved) :
    ∃ names, (∀ name ∈ names, Path.IsName name) ∧ resolved = Path.ofComponents names := by
  obtain ⟨inside, rfl⟩ := resolve_eq_ok.1 h
  exact ⟨_, Path.isName_of_isNormal
    (Path.isNormal_normalize (noBackslash_fromRoot relativeTo path)) inside, rfl⟩

/-- Resolving a path that has been resolved changes nothing. -/
theorem resolve_of_resolve {relativeTo : Option String} {path resolved : String}
    (h : t.resolve relativeTo path = .ok resolved) : t.resolve none resolved = .ok resolved := by
  obtain ⟨names, hn, rfl⟩ := names_of_resolve h
  exact resolve_ofComponents hn

/-- A file that is read stands in the tree. -/
theorem mem_of_read {relativeTo : Option String} {path : String} {content : α}
    (h : t.read relativeTo path = .ok content) :
    ∃ components, (components, Entry.file content) ∈ t.entries := by
  unfold read at h
  cases resolves : t.resolve relativeTo path with
  | error failure =>
    rw [resolves] at h
    cases h
  | ok found =>
    rw [resolves] at h
    cases hf : t.file? (Path.components found) with
    | none =>
      simp only [hf, bind, Except.bind] at h
      cases h
    | some content' =>
      simp only [hf, bind, Except.bind] at h
      cases h
      unfold file? at hf
      split at hf
      · rename_i entry looks
        cases hf
        obtain ⟨before, after, entries, -⟩ := List.lookup_eq_some_iff.1 looks
        exact ⟨_, entries ▸ List.mem_append_right _ List.mem_cons_self⟩
      · cases hf

end Tree
end Migration
