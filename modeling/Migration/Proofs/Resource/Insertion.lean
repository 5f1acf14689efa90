import Migration.Proofs.Path

/-!
# Trees with one more entry

An entry that is put into a tree is found at its path and nowhere else. What is in it does not
matter to lists of files, and to the reading of other files.

* `Tree.lookup_insert`, `Tree.file?_insert` — what is found after an insertion
* `Tree.list_insert` — directories are listed alike, whatever is in a file
* `Tree.read_insert` — so are files read, but for that one
-/

namespace Migration

namespace Tree

variable {α : Type} (t : Tree α) (path : String)

theorem filesUnder_insert (x y : α) (directory : List String) (recursive : Bool) :
    (t.insert path (.file x)).filesUnder directory recursive =
      (t.insert path (.file y)).filesUnder directory recursive := by
  unfold filesUnder insert
  simp only [List.filterMap_append]
  rfl

theorem isDirectory_insert (x y : α) (components : List String) :
    (t.insert path (.file x)).isDirectory components =
      (t.insert path (.file y)).isDirectory components := by
  unfold isDirectory insert
  simp only [List.any_append]
  rfl

/-- The files under a directory are the same, whatever is in them. -/
theorem list_insert (x y : α) (relativeTo : Option String) (directory : String) (recursive : Bool) :
    (t.insert path (.file x)).list relativeTo directory recursive =
      (t.insert path (.file y)).list relativeTo directory recursive := by
  unfold list
  simp only [isDirectory_insert t path x y, filesUnder_insert t path x y]
  rfl

/-- An entry that is put in is found at its path, and the others are found at theirs. -/
theorem lookup_insert (entry : Entry α) (components : List String) :
    (t.insert path entry).entries.lookup components =
      if components = Path.components path then some entry else t.entries.lookup components := by
  unfold insert
  rw [List.lookup_append]
  split
  · next same =>
    have nothing : (t.entries.filter (·.1 != Path.components path)).lookup components = none :=
      List.lookup_eq_none_iff.2 fun p hp => by
        have other := bne_iff_ne.1 (List.mem_filter.1 hp).2
        exact bne_iff_ne.2 fun eq => other (eq.symm.trans same)
    rw [nothing, Option.none_or, List.lookup_cons, beq_iff_eq.2 same]
  · next other =>
    rw [List.lookup_cons, beq_eq_false_iff_ne.2 other, List.lookup_nil, Option.or_none]
    induction t.entries with
    | nil => rfl
    | cons first rest ih =>
      obtain ⟨k, x⟩ := first
      by_cases hk : k = Path.components path
      · rw [List.filter_cons_of_neg (by simp [hk]), ih, List.lookup_cons,
          beq_eq_false_iff_ne.2 fun eq => other (eq.trans hk)]
      · rw [List.filter_cons_of_pos (by simp [hk]), List.lookup_cons, List.lookup_cons, ih]

theorem file?_insert (x : α) : (t.insert path (.file x)).file? (Path.components path) = some x := by
  unfold file?
  rw [lookup_insert, if_pos rfl]

theorem file?_insert_of_ne (entry : Entry α) {components : List String}
    (other : components ≠ Path.components path) :
    (t.insert path entry).file? components = t.file? components := by
  unfold file?
  rw [lookup_insert, if_neg other]

/-- Two paths that have been resolved name the same file only if they are the same. -/
theorem components_injective {relativeTo relativeTo' : Option String} {p q found found' : String}
    (hp : t.resolve relativeTo p = .ok found) (hq : t.resolve relativeTo' q = .ok found')
    (same : Path.components found = Path.components found') : found = found' := by
  obtain ⟨names, hn, rfl⟩ := names_of_resolve hp
  obtain ⟨names', hn', rfl⟩ := names_of_resolve hq
  have same : names = names' :=
    (Path.normalize_ofComponents hn).symm.trans (same.trans (Path.normalize_ofComponents hn'))
  rw [same]

theorem read_of_resolve {relativeTo : Option String} {p found : String}
    (h : t.resolve relativeTo p = .ok found) : t.read relativeTo p =
      match t.file? (Path.components found) with
      | some content => .ok content
      | none => .error (.noFile found) := by
  unfold read
  rw [h]
  rfl

/-- Every other file is read as it was. -/
theorem read_insert_of_ne (entry : Entry α) {p : String} (hp : t.resolve none p = .ok p)
    (hpath : t.resolve none path = .ok path) (other : p ≠ path) :
    (t.insert path entry).read none p = t.read none p := by
  rw [read_of_resolve t hp, read_of_resolve (t.insert path entry) hp,
    file?_insert_of_ne t path entry fun same => other (components_injective t hp hpath same)]

/-- What is read is the same, but for the file at one path. -/
theorem read_insert (x y : α) (relativeTo : Option String) (p : String) :
    (t.insert path (.file x)).read relativeTo p = (t.insert path (.file y)).read relativeTo p ∨
      (t.insert path (.file x)).read relativeTo p = .ok x ∧
        (t.insert path (.file y)).read relativeTo p = .ok y := by
  cases resolves : t.resolve relativeTo p with
  | error failure =>
    refine .inl ?_
    unfold read
    rw [show (t.insert path (.file x)).resolve relativeTo p = _ from resolves,
      show (t.insert path (.file y)).resolve relativeTo p = _ from resolves]
    rfl
  | ok found =>
    have reads : ∀ z, (t.insert path (.file z)).read relativeTo p = _ := fun z =>
      read_of_resolve _ resolves
    rw [reads x, reads y]
    by_cases same : Path.components found = Path.components path
    · rw [same, file?_insert, file?_insert]
      exact .inr ⟨rfl, rfl⟩
    · rw [file?_insert_of_ne t path _ same, file?_insert_of_ne t path _ same]
      exact .inl rfl

end Tree
end Migration
