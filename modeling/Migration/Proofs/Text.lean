import Mathlib.Data.List.TakeDrop
import Mathlib.Data.List.TakeWhile
import Migration.Text.Split

/-!
# Pieces of texts

The stretches between the separators of a text, and a text without the white space around it.

* `Text.splitOn_eq`, `Text.mem_splitOn` — the stretches between separators
* `Text.span_append`, `Text.span_of_not_mem` — a text up to the first of its separators
* `Text.exists_last_cut`, `Text.span_reverse` — a text after the last of its separators
* `Text.trimChars_of_ends`, `Text.starts_trimChars`, `Text.ends_trimChars` — a text that has been
  trimmed
* `Text.trimStart_append`, `Text.trimEnd_append` — white space at the ends of a text
-/

namespace Migration.Text

/-- The stretches between separators are those of the library. -/
theorem splitOn_eq (separator : Char) (cs : List Char) :
    splitOn separator cs = cs.splitOn separator := by
  induction cs with
  | nil => rfl
  | cons c rest ih =>
    rw [splitOn, List.splitOn_cons_eq_if_modifyHead, ih]
    split
    · rfl
    · cases h : rest.splitOn separator with
      | nil => exact absurd h (List.splitOn_ne_nil _ _)
      | cons part parts => rfl

/-- The stretches between separators have none, and nothing that the whole does not have. -/
theorem mem_splitOn {α : Type} [DecidableEq α] {separator : α} {cs part : List α}
    (h : part ∈ cs.splitOn separator) : separator ∉ part ∧ ∀ c ∈ part, c ∈ cs := by
  induction cs generalizing part with
  | nil =>
    obtain rfl := List.mem_singleton.1 h
    simp
  | cons c rest ih =>
    rw [List.splitOn_cons_eq_if_modifyHead] at h
    split at h
    · rcases List.mem_cons.1 h with rfl | h
      · simp
      · exact ⟨(ih h).1, fun x hx => List.mem_cons_of_mem _ ((ih h).2 x hx)⟩
    · rename_i ne
      cases hs : rest.splitOn separator with
      | nil => exact absurd hs (List.splitOn_ne_nil _ _)
      | cons first parts =>
        rw [hs] at h ih
        rcases List.mem_cons.1 h with rfl | h
        · have first := ih List.mem_cons_self
          have ne : separator ≠ c := fun eq => ne (by simp [← eq])
          exact ⟨by simp [ne, first.1], by simp only [List.mem_cons]; grind⟩
        · have part := ih (List.mem_cons_of_mem _ h)
          exact ⟨part.1, fun x hx => List.mem_cons_of_mem _ (part.2 x hx)⟩

/-- One stretch more, with a separator before it. -/
theorem intercalate_concat {α : Type} (separator : α) (first : List α) (parts : List (List α))
    (last : List α) : [separator].intercalate (first :: parts ++ [last]) =
      [separator].intercalate (first :: parts) ++ separator :: last := by
  induction parts generalizing first with
  | nil => simp [List.intercalate_cons_cons]
  | cons next parts ih =>
    have more := ih next
    rw [List.cons_append] at more
    rw [List.cons_append, List.cons_append, List.intercalate_cons_cons, List.intercalate_cons_cons,
      more, List.append_assoc (first ++ [separator])]

/-- A text goes up to the first of its separators. -/
theorem span_append {separator : Char} {cs : List Char} (absent : separator ∉ cs)
    (rest : List Char) :
    (cs ++ separator :: rest).span (· != separator) = (cs, separator :: rest) := by
  have others : ∀ c ∈ cs, (c != separator) = true := fun c mem =>
    bne_iff_ne.2 fun same => absent (same ▸ mem)
  rw [List.span_eq_takeWhile_dropWhile, List.takeWhile_append_of_pos others,
    List.dropWhile_append_of_pos others]
  simp

/-- A text without separators goes up to its end. -/
theorem span_of_not_mem {separator : Char} {cs : List Char} (absent : separator ∉ cs) :
    cs.span (· != separator) = (cs, []) := by
  have others : ∀ c ∈ cs, (c != separator) = true := fun c mem =>
    bne_iff_ne.2 fun same => absent (same ▸ mem)
  rw [List.span_eq_takeWhile_dropWhile, List.takeWhile_eq_self_iff.2 others,
    List.dropWhile_eq_nil_iff.2 others]

/-- A text with a separator is cut in two at the last one. -/
theorem exists_last_cut {separator : Char} {cs : List Char} (mem : separator ∈ cs) :
    ∃ before after, cs = before ++ separator :: after ∧ separator ∉ after := by
  obtain ⟨after, before, split, last⟩ := List.eq_append_cons_of_mem (List.mem_reverse.2 mem)
  refine ⟨before.reverse, after.reverse, ?_, by simpa using last⟩
  rw [← List.reverse_reverse cs, split]
  simp

/-- A text that is read backwards goes up to the last of its separators. -/
theorem span_reverse {separator : Char} {after : List Char} (last : separator ∉ after)
    (before : List Char) :
    (before ++ separator :: after).reverse.span (· != separator) =
      (after.reverse, separator :: before.reverse) := by
  have backwards : (before ++ separator :: after).reverse =
      after.reverse ++ separator :: before.reverse := by
    simp
  rw [backwards, span_append (by simpa using last)]

/-- A statement about the characters of a list is decided by going through the list. -/
theorem forall_mem_of_all {p : Char → Prop} [DecidablePred p] {cs : List Char}
    (all : cs.all (fun c => decide (p c)) = true) : ∀ c ∈ cs, p c := by
  simpa using all

theorem trimStart_of_starts {cs : List Char} (starts : ∀ c ∈ cs.head?, isBlank c = false) :
    trimStart cs = cs := by
  cases cs with
  | nil => rfl
  | cons c rest => exact List.dropWhile_cons_of_neg (by simp [starts c rfl])

theorem trimEnd_of_ends {cs : List Char} (ends : ∀ c ∈ cs.getLast?, isBlank c = false) :
    trimEnd cs = cs := by
  have backwards : cs.reverse.dropWhile isBlank = cs.reverse :=
    trimStart_of_starts fun c last => ends c (by rwa [← List.head?_reverse])
  rw [trimEnd, backwards, List.reverse_reverse]

/-- A text that has no white space at its ends stays as it is. -/
theorem trimChars_of_ends {cs : List Char} (starts : ∀ c ∈ cs.head?, isBlank c = false)
    (ends : ∀ c ∈ cs.getLast?, isBlank c = false) : trimChars cs = cs := by
  rw [trimChars, trimStart_of_starts starts, trimEnd_of_ends ends]

theorem trimStart_append {gap : List Char} (blank : ∀ c ∈ gap, isBlank c = true) (cs : List Char) :
    trimStart (gap ++ cs) = trimStart cs :=
  List.dropWhile_append_of_pos blank

theorem trimEnd_append {gap : List Char} (blank : ∀ c ∈ gap, isBlank c = true) (cs : List Char) :
    trimEnd (cs ++ gap) = trimEnd cs := by
  rw [trimEnd, List.reverse_append,
    List.dropWhile_append_of_pos fun c mem => blank c (List.mem_reverse.1 mem), ← trimEnd]

theorem trimEnd_of_forall {cs : List Char} (blank : ∀ c ∈ cs, isBlank c = true) : trimEnd cs = [] :=
  trimEnd_append blank []

theorem trimChars_of_blank {cs : List Char} (blank : ∀ c ∈ cs, isBlank c = true) :
    trimChars cs = [] := by
  rw [trimChars, trimStart, List.dropWhile_eq_nil_iff.2 blank]
  rfl

/-- What comes before the last character that is no white space stays as it is. -/
theorem trimEnd_append_cons {c : Char} (ends : isBlank c = false) (cs ds : List Char) :
    trimEnd (cs ++ c :: ds) = cs ++ c :: trimEnd ds := by
  rw [trimEnd, List.reverse_append, List.reverse_cons, List.append_assoc, List.dropWhile_append]
  split
  · next white =>
    rw [trimEnd, List.isEmpty_iff.1 white, List.singleton_append,
      List.dropWhile_cons_of_neg (by simp [ends])]
    simp
  · simp [trimEnd]

/-- A text without any white space stays as it is. -/
theorem trimChars_of_forall {cs : List Char} (none : ∀ c ∈ cs, isBlank c = false) :
    trimChars cs = cs :=
  trimChars_of_ends (fun c first => none c (List.mem_of_mem_head? first))
    fun c last => none c (List.mem_of_getLast? last)

theorem mem_of_mem_trimChars {cs : List Char} {c : Char} (mem : c ∈ trimChars cs) : c ∈ cs := by
  rw [trimChars, trimEnd, List.mem_reverse] at mem
  have inside := (List.dropWhile_sublist isBlank).subset mem
  exact (List.dropWhile_sublist isBlank).subset (List.mem_reverse.1 inside)

theorem ends_trimEnd (cs : List Char) : ∀ c ∈ (trimEnd cs).getLast?, isBlank c = false := by
  intro c last
  rw [trimEnd, List.getLast?_reverse] at last
  have ends := List.head?_dropWhile_not isBlank cs.reverse
  rwa [Option.mem_def.1 last] at ends

theorem ends_trimChars (cs : List Char) : ∀ c ∈ (trimChars cs).getLast?, isBlank c = false :=
  ends_trimEnd (trimStart cs)

theorem starts_trimChars (cs : List Char) : ∀ c ∈ (trimChars cs).head?, isBlank c = false := by
  intro c first
  obtain ⟨more, whole⟩ : trimChars cs <+: trimStart cs := by
    rw [trimChars, trimEnd, ← List.reverse_suffix, List.reverse_reverse]
    exact List.dropWhile_suffix _
  have starts := List.head?_dropWhile_not isBlank cs
  rwa [show cs.dropWhile isBlank = trimStart cs from rfl, ← whole, List.head?_append,
    Option.mem_def.1 first] at starts

end Migration.Text
