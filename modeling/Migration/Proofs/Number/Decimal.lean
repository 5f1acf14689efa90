import Mathlib.Data.Option.Basic
import Migration.Number.Decimal
import Migration.Proofs.Number.Numeral

/-!
# Decimals are read back

The text of a decimal is read as the same decimal: its sign, all digits of its coefficient and its
exponent, whether it is written in plain or in scientific notation, and a special value with its
payload. The exponents have to be within the bounds.

* `Decimal.IsBounded` — the decimals that a text can write
* `Decimal.span_pointed` — a coefficient with a point is cut into its digits again
* `Decimal.number?_finiteChars` — a coefficient with its exponent
* `Decimal.parse?_print` — the round trip
* `Decimal.exists_parse?_iff` — the decimals that are read are the bounded ones
-/

namespace Migration.Decimal

open Text

/-- The bounds on exponents admit the number. -/
def IsBounded : Decimal → Prop
  | finite _ coefficient exponent => fits coefficient exponent = true
  | infinite _ | nan .. => True

/-! ## Numerals -/

/-- A numeral with zeros in front is read as the number. -/
theorem asciiNumber?_zeros (count n : Nat) :
    asciiNumber? (List.replicate count '0' ++ numeral n) = some n := by
  rw [asciiNumber?, mapM_asciiDigit?_zeros]
  simp

theorem asciiNumber?_numeral (n : Nat) : asciiNumber? (numeral n) = some n := by
  simpa using asciiNumber?_zeros 0 n

/-- The exponent that is written is read. -/
theorem exponent?_signed (e : Int) :
    exponent? ((if e < 0 then '-' else '+') :: numeral e.natAbs) = some e := by
  obtain ⟨size, same⟩ : ∃ size, e.natAbs = size := ⟨_, rfl⟩
  have read := asciiNumber?_numeral size
  rw [same]
  cases written : numeral size with
  | nil => exact absurd written (numeral_ne_nil _)
  | cons c rest =>
    rw [written] at read
    by_cases negative : e < 0
    · have value : -(size : Int) = e := by omega
      simp [negative, exponent?, read, value]
    · have value : (size : Int) = e := by omega
      simp [negative, exponent?, read, value]

/-! ## The point -/

theorem mem_pointed {ds : List Char} {places : Int} {c : Char} (mem : c ∈ pointed ds places) :
    c ∈ ds ∨ c = '0' ∨ c = '.' := by
  unfold pointed at mem
  split at mem
  · simp only [List.mem_append, List.mem_cons, List.mem_replicate] at mem
    grind
  · split at mem
    · simp only [List.mem_append, List.mem_replicate] at mem
      grind
    · simp only [List.mem_append, List.mem_cons] at mem
      rcases mem with mem | same | mem
      · exact .inl (List.mem_of_mem_take mem)
      · exact .inr (.inr same)
      · exact .inl (List.mem_of_mem_drop mem)

/-- What the ten ASCII digits and the point have in common all characters of a coefficient have. -/
theorem forall_mem_pointed {p : Char → Prop} (all : ∀ d ∈ List.range 10, p (digitChar d))
    (point : p '.') (n : Nat) (places : Int) : ∀ c ∈ pointed (numeral n) places, p c := by
  intro c mem
  rcases mem_pointed mem with mem | rfl | rfl
  · exact forall_mem_numeral all n c mem
  · exact all 0 (by simp)
  · exact point

/-- Digits with a point among them are cut at the point into the same digits, perhaps with zeros in
front; as many of them stand behind the point as are not before it. -/
theorem span_pointed {ds : List Char} {places : Int} (absent : '.' ∉ ds)
    (within : places ≤ ds.length) :
    ∃ whole fraction count, (pointed ds places).span (· != '.') = (whole, fraction) ∧
      whole ++ fraction.drop 1 = List.replicate count '0' ++ ds ∧
      ((fraction.drop 1).length : Int) = ds.length - places := by
  unfold pointed
  by_cases small : places ≤ 0
  · rw [if_pos small]
    have absent : '.' ∉ ['0'] := by decide
    refine ⟨_, _, places.natAbs + 1, span_append absent _, by simp [List.replicate_succ], ?_⟩
    show (((List.replicate places.natAbs '0' ++ ds).length : Nat) : Int) = ds.length - places
    rw [List.length_append, List.length_replicate]
    omega
  · rw [if_neg small]
    by_cases whole : ds.length ≤ places.toNat
    · have none : places.toNat - ds.length = 0 := by omega
      rw [if_pos whole, none]
      refine ⟨ds, [], 0, by simpa using span_of_not_mem absent, by simp, ?_⟩
      simp
      omega
    · rw [if_neg whole]
      have absent : '.' ∉ ds.take places.toNat := fun mem => absent (List.mem_of_mem_take mem)
      refine ⟨_, _, 0, span_append absent _, by simp, ?_⟩
      simp
      omega

/-! ## Coefficient and exponent -/

/-- A number is read from its digits, wherever the point stands among them, and its exponent. -/
theorem number?_pointed {n : Nat} {places shift : Int} {tail : List Char} (negative : Bool)
    (within : places ≤ (numeral n).length)
    (cut : (pointed (numeral n) places ++ tail).span (· != 'e') = (pointed (numeral n) places, tail))
    (scale : (if tail.isEmpty then some 0 else exponent? (tail.drop 1)) = some shift)
    (bounded : fits n (shift - ((numeral n).length - places)) = true) :
    number? negative (pointed (numeral n) places ++ tail) =
      some (finite negative n (shift - ((numeral n).length - places))) := by
  have digit := forall_mem_numeral (p := (· ≠ '.')) (by decide) n
  have absent : '.' ∉ numeral n := fun mem => digit '.' mem rfl
  obtain ⟨whole, fraction, count, point, ds, length⟩ := span_pointed absent within
  have nonempty : ¬(count = 0 ∧ numeral n = []) := fun empty => numeral_ne_nil n empty.2
  rw [number?, cut]
  simp only [point, ds, asciiNumber?_zeros, length]
  split at scale
  · rename_i whole
    obtain rfl := Option.some.inj scale
    simp only [guard, whole, bounded, Option.pure_def, Option.bind_eq_bind, Option.bind_some,
      ↓reduceIte]
    simp [nonempty]
  · rename_i scientific
    rw [List.drop_one] at scale
    simp [guard, nonempty, scientific, scale, bounded]

/-- Characters without capital letters stay as they are in lower case. -/
theorem map_toLower_of_forall {cs : List Char} (small : ∀ c ∈ cs, c.toLower = c) :
    cs.map Char.toLower = cs :=
  (List.map_congr_left small).trans (List.map_id cs)

theorem map_toLower_numeral (n : Nat) : (numeral n).map Char.toLower = numeral n :=
  map_toLower_of_forall (forall_mem_numeral (by decide) n)

theorem map_toLower_pointed (n : Nat) (places : Int) :
    (pointed (numeral n) places).map Char.toLower = pointed (numeral n) places :=
  map_toLower_of_forall (forall_mem_pointed (by decide) (by decide) n places)

theorem map_toLower_exponentChars (e : Int) :
    (exponentChars e).map Char.toLower =
      'e' :: (if e < 0 then '-' else '+') :: numeral e.natAbs := by
  rw [exponentChars, List.map_cons, List.map_cons, map_toLower_numeral]
  split <;> rfl

/-- A coefficient with its exponent, in either notation, is read as itself. -/
theorem number?_finiteChars {n : Nat} {e : Int} (negative : Bool) (bounded : fits n e = true) :
    number? negative ((finiteChars n e).map Char.toLower) = some (finite negative n e) := by
  have letter := forall_mem_pointed (p := (· ≠ 'e')) (by decide) (by decide) n
  have absent : ∀ places, 'e' ∉ pointed (numeral n) places := fun places mem =>
    letter places 'e' mem rfl
  simp only [finiteChars]
  split
  · rename_i plain
    obtain ⟨small, -⟩ : e ≤ 0 ∧ -6 < ((numeral n).length : Int) + e := by simpa using plain
    have exponent : 0 - (((numeral n).length : Int) - ((numeral n).length + e)) = e := by omega
    have cut : (pointed (numeral n) ((numeral n).length + e) ++ []).span (· != 'e') =
        (pointed (numeral n) ((numeral n).length + e), []) := by
      rw [List.append_nil]
      exact span_of_not_mem (absent _)
    have read := number?_pointed negative (by omega) cut rfl (by rwa [exponent])
    rwa [exponent, List.append_nil, ← map_toLower_pointed] at read
  · have digit : 0 < (numeral n).length := List.length_pos_iff.2 (numeral_ne_nil n)
    have exponent : ((numeral n).length + e - 1) - (((numeral n).length : Int) - 1) = e := by omega
    have read := number?_pointed negative (by omega : (1 : Int) ≤ (numeral n).length)
      (span_append (absent 1) _) (exponent?_signed ((numeral n).length + e - 1)) (by rwa [exponent])
    rwa [exponent, ← map_toLower_pointed, ← map_toLower_exponentChars, ← List.map_append] at read

/-- A coefficient starts with a digit, wherever its point stands. -/
theorem exists_pointed_eq_cons (n : Nat) (places : Int) :
    ∃ d < 10, ∃ rest, pointed (numeral n) places = digitChar d :: rest := by
  obtain ⟨d, small, rest, written⟩ := exists_numeral_eq_cons n
  unfold pointed
  split
  · exact ⟨0, by decide, _, rfl⟩
  · rename_i positive
    rw [written]
    split
    · exact ⟨d, small, _, rfl⟩
    · obtain ⟨k, places⟩ : ∃ k, places.toNat = k + 1 := ⟨places.toNat - 1, by omega⟩
      rw [places]
      exact ⟨d, small, _, rfl⟩

theorem exists_finiteChars_eq_cons (n : Nat) (e : Int) :
    ∃ d < 10, ∃ rest, finiteChars n e = digitChar d :: rest := by
  simp only [finiteChars]
  split
  · exact exists_pointed_eq_cons n _
  · obtain ⟨d, small, rest, written⟩ := exists_pointed_eq_cons n 1
    exact ⟨d, small, _, by rw [written, List.cons_append]⟩

/-! ## Special values and signs -/

/-- What starts with a digit is no special value. -/
theorem unsigned?_digit {d : Nat} (small : d < 10) (negative : Bool) (rest : List Char) :
    unsigned? negative (digitChar d :: rest) = number? negative (digitChar d :: rest) := by
  have other : ∀ d ∈ List.range 10, digitChar d ≠ 'i' ∧ digitChar d ≠ 'n' ∧ digitChar d ≠ 's' := by
    decide
  obtain ⟨i, n, s⟩ := other d (List.mem_range.2 small)
  simp [unsigned?, i, n, s]

/-- The digits of a payload, none for zero, write it. -/
theorem asciiNumber?_payload (payload : Nat) :
    asciiNumber? (if payload = 0 then [] else numeral payload) = some payload := by
  split
  · rename_i zero
    rw [zero]
    rfl
  · exact asciiNumber?_numeral payload

theorem map_toLower_payload (payload : Nat) :
    (if payload = 0 then [] else numeral payload).map Char.toLower =
      if payload = 0 then [] else numeral payload := by
  split
  · rfl
  · exact map_toLower_numeral payload

/-- A character that is read as it is: ASCII, not blank and no underscore. -/
def IsPlain (c : Char) : Prop := c.toNat < 0x80 ∧ c ≠ '_' ∧ isBlank c = false

instance : DecidablePred IsPlain := fun c =>
  inferInstanceAs (Decidable (c.toNat < 0x80 ∧ c ≠ '_' ∧ isBlank c = false))

/-- Plain characters are read in lower case. -/
theorem plainChars?_of_forall {cs : List Char} (plain : ∀ c ∈ cs, IsPlain c) :
    plainChars? cs = some (cs.map Char.toLower) := by
  rw [plainChars?, trimChars_of_forall fun c mem => (plain c mem).2.2,
    List.filter_eq_self.2 fun c mem => by simpa using (plain c mem).2.1]
  induction cs with
  | nil => rfl
  | cons c cs ih =>
    have ascii := (plain c List.mem_cons_self).1
    simp [ascii, ih fun c mem => plain c (List.mem_cons_of_mem _ mem)]

theorem isPlain_of_mem_signChars (negative : Bool) : ∀ c ∈ signChars negative, IsPlain c := by
  cases negative <;> exact forall_mem_of_all (by decide)

theorem isPlain_of_mem_numeral (n : Nat) : ∀ c ∈ numeral n, IsPlain c :=
  forall_mem_numeral (by decide) n

theorem isPlain_of_mem_payload (payload : Nat) :
    ∀ c ∈ if payload = 0 then [] else numeral payload, IsPlain c := by
  split
  · simp
  · exact isPlain_of_mem_numeral payload

/-- The sign in front of a number is read, and then the rest. -/
theorem parseChars?_signChars {cs : List Char} (negative : Bool) (plain : ∀ c ∈ cs, IsPlain c)
    (unsigned : ∀ c ∈ (cs.map Char.toLower).head?, c ≠ '-' ∧ c ≠ '+') :
    parseChars? (signChars negative ++ cs) = unsigned? negative (cs.map Char.toLower) := by
  have signed : ∀ c ∈ signChars negative ++ cs, IsPlain c :=
    List.forall_mem_append.2 ⟨isPlain_of_mem_signChars negative, plain⟩
  rw [parseChars?, plainChars?_of_forall signed, List.map_append]
  cases negative with
  | true => rfl
  | false =>
    have unsigns : (signChars false).map Char.toLower = [] := rfl
    rw [unsigns, List.nil_append]
    generalize cs.map Char.toLower = rest at unsigned
    simp only [Option.bind_eq_bind, Option.bind_some]
    split
    · exact absurd rfl (unsigned '-' rfl).1
    · exact absurd rfl (unsigned '+' rfl).2
    · rfl

theorem isPlain_of_mem_finiteChars (n : Nat) (e : Int) : ∀ c ∈ finiteChars n e, IsPlain c := by
  have coefficient := forall_mem_pointed (p := IsPlain) (by decide) (by decide) n
  have exponent : ∀ e, ∀ c ∈ exponentChars e, IsPlain c := by
    intro e
    have digits := isPlain_of_mem_numeral e.natAbs
    unfold exponentChars
    split <;> exact List.forall_mem_cons.2 ⟨by decide, List.forall_mem_cons.2 ⟨by decide, digits⟩⟩
  simp only [finiteChars]
  split
  · exact coefficient _
  · exact List.forall_mem_append.2 ⟨coefficient 1, exponent _⟩

/-- A value that is not a number is read with the payload that its digits write. -/
theorem parseChars?_nan {digits : List Char} {payload : Nat} (negative signaling : Bool)
    (plain : ∀ c ∈ digits, IsPlain c) (lower : digits.map Char.toLower = digits)
    (read : asciiNumber? digits = some payload) :
    parseChars? (signChars negative ++
      ((if signaling then ['s'] else []) ++ ("NaN".toList ++ digits))) =
      some (nan negative signaling payload) := by
  have name : ∀ c ∈ "NaN".toList ++ digits, IsPlain c :=
    List.forall_mem_append.2 ⟨forall_mem_of_all (by decide), plain⟩
  have noSign : ∀ c ∈ ['s', 'n'], c ≠ '-' ∧ c ≠ '+' := forall_mem_of_all (by decide)
  cases signaling with
  | true =>
    rw [parseChars?_signChars negative (List.forall_mem_append.2 ⟨forall_mem_of_all (by decide), name⟩)
      fun c first => noSign c (by simp at first; simp [← first])]
    simp [lower, unsigned?, read]
  | false =>
    rw [parseChars?_signChars negative (List.forall_mem_append.2 ⟨forall_mem_of_all (by decide), name⟩)
      fun c first => noSign c (by simp at first; simp [← first])]
    simp [lower, unsigned?, read]

/-- The text of a decimal is read as the decimal. -/
theorem parse?_print {d : Decimal} (bounded : d.IsBounded) : parse? d.print = some d := by
  rw [parse?, print, String.toList_ofList]
  cases d with
  | finite negative n e =>
    obtain ⟨d, small, rest, written⟩ := exists_finiteChars_eq_cons n e
    have unsigned : ∀ d ∈ List.range 10, (digitChar d).toLower = digitChar d ∧
      digitChar d ≠ '-' ∧ digitChar d ≠ '+' := by decide
    obtain ⟨lower, unsigned⟩ := unsigned d (List.mem_range.2 small)
    have read := number?_finiteChars negative bounded
    rw [printChars, parseChars?_signChars negative (isPlain_of_mem_finiteChars n e)
      (by simpa [written, lower] using unsigned)]
    rw [written, List.map_cons, lower] at read ⊢
    rwa [unsigned?_digit small]
  | infinite negative =>
    have infinity : ∀ c ∈ ("Infinity".toList.map Char.toLower).head?, c ≠ '-' ∧ c ≠ '+' := by
      simp
    rw [printChars, parseChars?_signChars negative (forall_mem_of_all (by decide)) infinity]
    rfl
  | nan negative signaling payload =>
    rw [printChars, List.append_assoc, List.append_assoc]
    exact parseChars?_nan negative signaling (isPlain_of_mem_payload payload)
      (map_toLower_payload payload) (asciiNumber?_payload payload)

/-! ## What is read is bounded -/

/-- A number that has passed the check of its exponent is bounded. -/
theorem isBounded_of_guard {negative : Bool} {n : Nat} {places : Int} {shift? : Option Int}
    {d : Decimal}
    (read : (shift?.bind fun shift => Option.bind (guard (fits n (shift - places) = true)) fun _ =>
      some (finite negative n (shift - places))) = some d) :
    d.IsBounded := by
  obtain ⟨shift, -, read⟩ := Option.bind_eq_some_iff.1 read
  obtain ⟨_, bounded, read⟩ := Option.bind_eq_some_iff.1 read
  obtain rfl := Option.some.inj read
  rw [guard] at bounded
  split at bounded
  · assumption
  · cases bounded

theorem isBounded_of_number? {negative : Bool} {cs : List Char} {d : Decimal}
    (read : number? negative cs = some d) : d.IsBounded := by
  simp only [number?, Option.bind_eq_bind, Option.bind_eq_some_iff] at read
  obtain ⟨_, _, n, _, read⟩ := read
  split at read <;> exact isBounded_of_guard read

theorem isBounded_of_unsigned? {negative : Bool} {cs : List Char} {d : Decimal}
    (read : unsigned? negative cs = some d) : d.IsBounded := by
  unfold unsigned? at read
  split at read
  · obtain rfl := Option.some.inj read
    trivial
  · split at read
    · obtain ⟨payload, -, rfl⟩ := Option.map_eq_some_iff.1 read
      trivial
    · obtain ⟨payload, -, rfl⟩ := Option.map_eq_some_iff.1 read
      trivial
    · exact isBounded_of_number? read

/-- The decimals that are read are the bounded ones. -/
theorem exists_parse?_iff {d : Decimal} : (∃ s, parse? s = some d) ↔ d.IsBounded := by
  constructor
  · rintro ⟨s, read⟩
    obtain ⟨cs, -, read⟩ := Option.bind_eq_some_iff.1 read
    split at read <;> exact isBounded_of_unsigned? read
  · intro bounded
    exact ⟨_, parse?_print bounded⟩

end Migration.Decimal
