import Mathlib.Algebra.Group.Nat.Defs
import Migration.Proofs.Text
import Migration.Text.Digit

/-!
# Numerals are read back

A numeral is written with ASCII digits, the most significant first. Reading it digit by digit gives
the number again, with zeros in front or without them.

* `Text.ofDigits_digits` — the digits of a number write it
* `Text.mapM_map_digitChar` — digits that are written as characters are read again
* `Text.mapM_asciiDigit?_paddedNumeral`, `Text.length_paddedNumeral` — a numeral with zeros in front
* `Text.forall_mem_numeral` — a numeral has digits only
-/

namespace Migration.Text

/-! ## The digits of a number -/

theorem digits_ne_nil (n : Nat) : digits n ≠ [] := by
  unfold digits
  split <;> simp

theorem lt_ten_of_mem_digits (n : Nat) : ∀ d ∈ digits n, d < 10 := by
  induction n using digits.induct with
  | case1 n small => simp [digits, small]
  | case2 n large ih =>
    intro d mem
    rw [digits, if_neg large, List.mem_append, List.mem_singleton] at mem
    rcases mem with mem | rfl
    · exact ih d mem
    · omega

/-- One more digit at the end. -/
theorem ofDigits_snoc (ds : List Nat) (d : Nat) : ofDigits (ds ++ [d]) = 10 * ofDigits ds + d := by
  simp [ofDigits]

/-- The digits of a number write it. -/
@[simp] theorem ofDigits_digits (n : Nat) : ofDigits (digits n) = n := by
  induction n using digits.induct with
  | case1 n small => simp [digits, small, ofDigits]
  | case2 n large ih =>
    rw [digits, if_neg large, ofDigits_snoc, ih]
    omega

/-- Zeros in front do not count. -/
@[simp] theorem ofDigits_replicate_zero_append (count : Nat) (ds : List Nat) :
    ofDigits (List.replicate count 0 ++ ds) = ofDigits ds := by
  induction count with
  | zero => rfl
  | succ count ih => simpa [List.replicate_succ, ofDigits] using ih

theorem length_digits_le {n width : Nat} (positive : 0 < width) (small : n < 10 ^ width) :
    (digits n).length ≤ width := by
  induction n using digits.induct generalizing width with
  | case1 n one =>
    rw [digits, if_pos one]
    exact positive
  | case2 n large ih =>
    obtain ⟨width, rfl⟩ := Nat.exists_eq_succ_of_ne_zero positive.ne'
    rw [Nat.succ_eq_add_one, Nat.pow_succ] at small
    have nonzero : width ≠ 0 := by
      rintro rfl
      omega
    have rest := ih (Nat.pos_of_ne_zero nonzero) (by omega)
    rw [digits, if_neg large, List.length_append]
    simpa using rest

/-! ## Digits as characters -/

theorem digitValue?_digitChar {d : Nat} (small : d < 10) : digitValue? (digitChar d) = some d := by
  have all : ∀ d ∈ List.range 10, digitValue? (digitChar d) = some d := by decide
  exact all d (List.mem_range.2 small)

theorem asciiDigit?_digitChar {d : Nat} (small : d < 10) : asciiDigit? (digitChar d) = some d := by
  have all : ∀ d ∈ List.range 10, asciiDigit? (digitChar d) = some d := by decide
  exact all d (List.mem_range.2 small)

/-- Characters that are written for digits are read as these digits. -/
theorem mapM_map_digitChar {read : Char → Option Nat} {ds : List Nat}
    (reads : ∀ {d}, d < 10 → read (digitChar d) = some d) (small : ∀ d ∈ ds, d < 10) :
    (ds.map digitChar).mapM read = some ds := by
  induction ds with
  | nil => rfl
  | cons d ds ih =>
    simp [reads (small d List.mem_cons_self), ih fun d mem => small d (List.mem_cons_of_mem _ mem)]

theorem length_numeral (n : Nat) : (numeral n).length = (digits n).length := List.length_map ..

theorem numeral_ne_nil (n : Nat) : numeral n ≠ [] := by
  simpa [numeral] using digits_ne_nil n

/-- A numeral starts with a digit. -/
theorem exists_numeral_eq_cons (n : Nat) : ∃ d < 10, ∃ rest, numeral n = digitChar d :: rest := by
  obtain ⟨d, ds, written⟩ := List.exists_cons_of_ne_nil (digits_ne_nil n)
  refine ⟨d, lt_ten_of_mem_digits n d (by simp [written]), ds.map digitChar, ?_⟩
  rw [numeral, written, List.map_cons]

/-- A numeral with zeros in front is the characters of the digits with zeros in front. -/
theorem replicate_zero_append_numeral (count n : Nat) :
    List.replicate count '0' ++ numeral n =
      (List.replicate count 0 ++ digits n).map digitChar := by
  rw [List.map_append, List.map_replicate]
  rfl

/-- Zeros in front do not change the number that is read. -/
theorem mapM_asciiDigit?_zeros (count n : Nat) :
    (List.replicate count '0' ++ numeral n).mapM asciiDigit? =
      some (List.replicate count 0 ++ digits n) := by
  rw [replicate_zero_append_numeral]
  apply mapM_map_digitChar asciiDigit?_digitChar
  intro d mem
  rcases List.mem_append.1 mem with mem | mem
  · simp [List.eq_of_mem_replicate mem]
  · exact lt_ten_of_mem_digits n d mem

/-- What the ten ASCII digits have in common all characters of a numeral have, and zeros in front of
it. -/
theorem forall_mem_zeros_numeral {p : Char → Prop} (all : ∀ d ∈ List.range 10, p (digitChar d))
    (count n : Nat) : ∀ c ∈ List.replicate count '0' ++ numeral n, p c := by
  intro c mem
  rcases List.mem_append.1 mem with mem | mem
  · rw [List.eq_of_mem_replicate mem]
    exact all 0 (by simp)
  · obtain ⟨d, digit, rfl⟩ := List.mem_map.1 mem
    exact all d (List.mem_range.2 (lt_ten_of_mem_digits n d digit))

theorem forall_mem_numeral {p : Char → Prop} (all : ∀ d ∈ List.range 10, p (digitChar d)) (n : Nat) :
    ∀ c ∈ numeral n, p c := by
  simpa using forall_mem_zeros_numeral all 0 n

/-! ## Numerals of a width -/

theorem forall_mem_paddedNumeral {p : Char → Prop} (all : ∀ d ∈ List.range 10, p (digitChar d))
    (width n : Nat) : ∀ c ∈ paddedNumeral width n, p c :=
  forall_mem_zeros_numeral all _ n

/-- A number that is small enough has a numeral of just the width. -/
theorem length_paddedNumeral {width n : Nat} (positive : 0 < width) (small : n < 10 ^ width) :
    (paddedNumeral width n).length = width := by
  have fits := length_digits_le positive small
  simp only [paddedNumeral, List.length_append, List.length_replicate, length_numeral]
  omega

/-- A numeral of a width is read digit by digit, and its digits write the number. -/
theorem mapM_asciiDigit?_paddedNumeral (width n : Nat) :
    ∃ ds, (paddedNumeral width n).mapM asciiDigit? = some ds ∧ ofDigits ds = n :=
  ⟨_, mapM_asciiDigit?_zeros _ n, by simp⟩

end Migration.Text
