import Migration.Number.Integer
import Migration.Proofs.Number.Numeral

/-!
# Integers are read back

The canonical numeral of an integer is read as the integer, as long as it has no more digits than a
numeral may have.

* `Integer.parse?_print` — the round trip
-/

namespace Migration.Integer

open Text

/-- Digits after a digit are read one by one. -/
theorem digitsAfter?_map_digitChar {ds : List Nat} (small : ∀ d ∈ ds, d < 10) :
    digitsAfter? (ds.map digitChar) = some ds := by
  induction ds with
  | nil => rfl
  | cons d ds ih =>
    have lt := small d List.mem_cons_self
    have noUnderscore : ∀ d ∈ List.range 10, digitChar d ≠ '_' := by decide
    have here := noUnderscore d (List.mem_range.2 lt)
    rw [List.map_cons, digitsAfter?.eq_3 _ _ fun _ _ same _ => here same,
      ih fun d mem => small d (List.mem_cons_of_mem _ mem), digitValue?_digitChar lt]
    rfl

/-- The digits of a numeral are those of the number. -/
theorem digits?_numeral (n : Nat) : digits? (numeral n) = some (digits n) := by
  have small := lt_ten_of_mem_digits n
  rw [numeral]
  cases written : digits n with
  | nil => exact absurd written (digits_ne_nil n)
  | cons d ds =>
    rw [written] at small
    rw [List.map_cons, digits?, digitValue?_digitChar (small d List.mem_cons_self),
      digitsAfter?_map_digitChar fun d mem => small d (List.mem_cons_of_mem _ mem)]
    rfl

theorem magnitude?_numeral {n : Nat} (short : (digits n).length ≤ maxDigits) :
    magnitude? (numeral n) = some n := by
  simp [magnitude?, digits?_numeral, short]

/-- The canonical numeral of an integer is read as the integer. -/
theorem parse?_print {n : Int} (short : (digits n.natAbs).length ≤ maxDigits) :
    parse? (print n) = some n := by
  have notBlank : ∀ c ∈ printChars n, isBlank c = false := by
    have digit := forall_mem_numeral (p := fun c => isBlank c = false) (by decide) n.natAbs
    unfold printChars
    split
    · exact List.forall_mem_cons.2 ⟨by decide, digit⟩
    · exact digit
  rw [parse?, print, String.toList_ofList, parseChars?, trimChars_of_forall notBlank, printChars]
  have magnitude := magnitude?_numeral short
  by_cases negative : n < 0
  · have value : -(n.natAbs : Int) = n := by omega
    generalize n.natAbs = size at *
    simp [negative, magnitude, value]
  · have unsigned := forall_mem_numeral (p := fun c => c ≠ '-' ∧ c ≠ '+') (by decide) n.natAbs
    rw [if_neg negative]
    split
    · rename_i rest signed
      exact absurd rfl (unsigned '-' (by simp [signed])).1
    · rename_i rest signed
      exact absurd rfl (unsigned '+' (by simp [signed])).2
    · have value : (n.natAbs : Int) = n := by omega
      simp [magnitude, value]

end Migration.Integer
