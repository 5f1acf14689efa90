import Mathlib.Data.Option.Basic
import Migration.Proofs.Number.Numeral
import Migration.Time.Iso
import Migration.Time.Printer

/-!
# Times of day are read back

The text of a time of day is read as the same time: its parts, the fraction of its second to the
microsecond, and its offset, which may have seconds and a fraction of its own. No timestamp can be
read from it.

* `TimeOfDay.IsReadable` — the times of day that a text can write
* `Clock.parseChars?_printChars`, `Offset.ofClock?_clock` — the parts
* `TimeOfDay.parse?_print` — the round trip
* `TimeOfDay.isReadable_of_parse?` — what has been read can be read back
* `Timestamp.parse?_timeOfDay` — a time of day is no timestamp
-/

namespace Migration

open Text

/-! ## Parts of a time -/

/-- Two digits write a number below a hundred. -/
theorem exists_twoDigits {n : Nat} (small : n < 100) :
    ∃ a b, paddedNumeral 2 n = [a, b] ∧ twoDigits? a b = some n := by
  have length : (paddedNumeral 2 n).length = 2 := length_paddedNumeral (by decide) small
  obtain ⟨ds, read, value⟩ := mapM_asciiDigit?_paddedNumeral 2 n
  obtain ⟨a, b, written⟩ : ∃ a b, paddedNumeral 2 n = [a, b] := by
    match paddedNumeral 2 n, length with
    | [a, b], _ => exact ⟨a, b, rfl⟩
  refine ⟨a, b, written, ?_⟩
  rw [written] at read
  simp only [List.mapM_cons, List.mapM_nil, Option.bind_eq_bind, Option.bind_eq_some_iff,
    Option.pure_def, Option.some.injEq] at read
  obtain ⟨x, first, _, ⟨y, second, _, rfl, rfl⟩, rfl⟩ := read
  have number : 10 * x + y = n := by simpa [ofDigits] using value
  simp [twoDigits?, first, second, number]

/-- Six digits are the microseconds of a fraction. -/
theorem fraction?_paddedNumeral {n : Nat} (small : n < 1000000) :
    Clock.fraction? (paddedNumeral 6 n) = some (n, false) := by
  have length : (paddedNumeral 6 n).length = 6 := length_paddedNumeral (by decide) small
  obtain ⟨ds, read, value⟩ := mapM_asciiDigit?_paddedNumeral 6 n
  rw [Clock.fraction?]
  simp [List.take_of_length_le, List.drop_eq_nil_of_le, length, read, value]

namespace Clock

/-- The last part of a time has been read. -/
theorem parts?_end {a b : Char} {n : Nat} (digits : twoDigits? a b = some n) (parts : List Nat)
    (colons : Bool) : parts? parts colons [a, b] = some ((n :: parts).reverse, 0, false) := by
  simp [parts?, digits]

/-- A colon between two parts. -/
theorem parts?_colon {a b : Char} {n : Nat} (digits : twoDigits? a b = some n) {parts : List Nat}
    (few : parts.length < 2) {more : List Char} (nonempty : more ≠ []) :
    parts? parts true (a :: b :: ':' :: more) = parts? (n :: parts) true more := by
  cases more with
  | nil => exact absurd rfl nonempty
  | cons c more =>
    have notLast : parts.length ≠ 2 := by omega
    rw [parts?, digits]
    simp [notLast]

/-- A fraction after the last part. -/
theorem parts?_fraction {a b : Char} {n : Nat} (digits : twoDigits? a b = some n) (parts : List Nat)
    {micro : Nat} (small : micro < 1000000) :
    parts? parts true (a :: b :: '.' :: paddedNumeral 6 micro) =
      some ((n :: parts).reverse, micro, false) := by
  have fraction := fraction?_paddedNumeral small
  have length : (paddedNumeral 6 micro).length = 6 := length_paddedNumeral (by decide) small
  match paddedNumeral 6 micro, length, fraction with
  | c :: more, _, fraction =>
    rw [parts?, digits]
    simp [fraction]

/-- The last part of a time with the fraction that follows it. -/
theorem parts?_fractionChars {a b : Char} {n : Nat} (digits : twoDigits? a b = some n)
    (parts : List Nat) {micro : Nat} (small : micro < 1000000) :
    parts? parts true (a :: b :: fractionChars micro) =
      some ((n :: parts).reverse, micro, false) := by
  unfold fractionChars
  split
  · rename_i none
    rw [none]
    exact parts?_end digits parts true
  · exact parts?_fraction digits parts small

/-- Hours, minutes and perhaps seconds are read as the parts of a clock. -/
theorem parseChars?_parts {c : Clock} (hour : c.hour < 100) (minute : c.minute < 100)
    (second : c.second < 100) (micro : c.microsecond < 1000000) {end? : List Char}
    (ends : end? = ':' :: paddedNumeral 2 c.second ++ fractionChars c.microsecond ∨
      (end? = [] ∧ c.second = 0 ∧ c.microsecond = 0)) :
    parseChars? (paddedNumeral 2 c.hour ++ ':' :: paddedNumeral 2 c.minute ++ end?) =
      some (c, false) := by
  obtain ⟨h, h', hours, hourDigits⟩ := exists_twoDigits hour
  obtain ⟨m, m', minutes, minuteDigits⟩ := exists_twoDigits minute
  obtain ⟨s, s', seconds, secondDigits⟩ := exists_twoDigits second
  rw [hours, minutes]
  rcases ends with rfl | ⟨rfl, noSecond, noMicro⟩
  · have read : parts? [] true (h :: h' :: ':' :: m :: m' :: ':' :: s :: s' ::
        fractionChars c.microsecond) = some ([c.hour, c.minute, c.second], c.microsecond, false) := by
      rw [parts?_colon hourDigits (by decide) (by simp), parts?_colon minuteDigits (by simp) (by simp),
        parts?_fractionChars secondDigits _ micro]
      rfl
    simp [parseChars?, seconds, read]
  · have read : parts? [] true [h, h', ':', m, m'] = some ([c.hour, c.minute], 0, false) := by
      rw [parts?_colon hourDigits (by decide) (by simp), parts?_end minuteDigits]
      rfl
    obtain ⟨hour, minute, second, micro⟩ := c
    simp only at noSecond noMicro
    subst noSecond noMicro
    simp [parseChars?, read]

/-- The text of a time of day is read as its parts. -/
theorem parseChars?_printChars {c : Clock} (valid : c.isValid = true) :
    parseChars? c.printChars = some (c, false) := by
  simp only [isValid, Bool.and_eq_true, decide_eq_true_eq] at valid
  obtain ⟨⟨⟨hour, minute⟩, second⟩, micro⟩ := valid
  have read := parseChars?_parts (by omega) (by omega) (by omega) micro (.inl rfl)
  simpa [printChars] using read

end Clock

/-! ## Offsets -/

namespace Offset

/-- The distance as the parts of a clock. -/
def clock (o : Offset) : Clock :=
  let total := o.microseconds.natAbs
  ⟨total / 1000000 / 3600, total / 1000000 / 60 % 60, total / 1000000 % 60, total % 1000000⟩

/-- An offset that a text can write: less than a day, and either nothing or at least a second. -/
def IsReadable (o : Offset) : Prop :=
  o.isValid = true ∧ (o.microseconds = 0 ∨ 1000000 ≤ o.microseconds.natAbs)

theorem natAbs_lt_of_isValid {o : Offset} (valid : o.isValid = true) :
    o.microseconds.natAbs < 86400000000 := by
  simpa [isValid] using valid

/-- What stands behind the sign of an offset. -/
def zoneChars (o : Offset) : List Char :=
  paddedNumeral 2 o.clock.hour ++ ':' :: paddedNumeral 2 o.clock.minute ++
    if o.clock.second = 0 && o.clock.microsecond = 0 then []
    else ':' :: paddedNumeral 2 o.clock.second ++ fractionChars o.clock.microsecond

theorem printChars_eq (o : Offset) :
    o.printChars = (if o.microseconds < 0 then '-' else '+') :: o.zoneChars := rfl

/-- The parts of an offset are read. -/
theorem parseChars?_zoneChars {o : Offset} (valid : o.isValid = true) :
    Clock.parseChars? o.zoneChars = some (o.clock, false) := by
  have day := natAbs_lt_of_isValid valid
  apply Clock.parseChars?_parts
  · simp only [clock]
    omega
  · simp only [clock]
    omega
  · simp only [clock]
    omega
  · simp only [clock]
    omega
  · split
    · rename_i none
      exact .inr ⟨rfl, by simpa using none⟩
    · exact .inl rfl

/-- The parts of an offset make the offset again. -/
theorem ofClock?_clock {o : Offset} (readable : o.IsReadable) :
    ofClock? (decide (o.microseconds < 0)) o.clock = some o := by
  obtain ⟨valid, size⟩ := readable
  have seconds : o.clock.hour * 3600 + o.clock.minute * 60 + o.clock.second =
      o.microseconds.natAbs / 1000000 := by
    simp only [clock]
    omega
  have total : ((o.microseconds.natAbs / 1000000 : Nat) : Int) * 1000000 + o.clock.microsecond =
      o.microseconds.natAbs := by
    simp only [clock]
    omega
  have same : (⟨if decide (o.microseconds < 0) then -o.microseconds.natAbs
      else o.microseconds.natAbs⟩ : Offset) = o := by
    obtain ⟨microseconds⟩ := o
    simp only [decide_eq_true_eq, mk.injEq]
    split <;> omega
  rw [ofClock?, seconds]
  simp only [total, same, valid, if_true]
  split
  · obtain ⟨microseconds⟩ := o
    simp only [zero, Option.some.injEq, mk.injEq] at *
    omega
  · rfl

theorem isReadable_zero : IsReadable zero := ⟨by decide, .inl rfl⟩

/-- What has been read can be read back: it has whole seconds or is nothing. -/
theorem isReadable_of_ofClock? {negative : Bool} {c : Clock} {o : Offset}
    (read : ofClock? negative c = some o) : o.IsReadable := by
  simp only [ofClock?] at read
  split at read
  · obtain rfl := Option.some.inj read
    exact isReadable_zero
  · rename_i nonzero
    rw [Option.ite_none_right_eq_some, Option.some.injEq] at read
    obtain ⟨valid, rfl⟩ := read
    refine ⟨valid, .inr ?_⟩
    simp only
    split <;> omega

end Offset

/-! ## Times of day -/

namespace TimeOfDay

/-- A time of day that a text can write: it exists, and its offset can be written. -/
def IsReadable (t : TimeOfDay) : Prop :=
  t.clock.isValid = true ∧ ∀ o ∈ t.offset, o.IsReadable

/-- What the characters of times have in common: the digits, the colon and the point. -/
theorem forall_mem_fractionChars {p : Char → Prop} (all : ∀ d ∈ List.range 10, p (digitChar d))
    (point : p '.') (microsecond : Nat) : ∀ c ∈ fractionChars microsecond, p c := by
  unfold fractionChars
  split
  · simp
  · exact List.forall_mem_cons.2 ⟨point, forall_mem_paddedNumeral all _ _⟩

theorem forall_mem_clock {p : Char → Prop} (all : ∀ d ∈ List.range 10, p (digitChar d))
    (colon : p ':') (point : p '.') (c : Clock) : ∀ x ∈ c.printChars, p x := by
  have digits := forall_mem_paddedNumeral all
  have fraction := forall_mem_fractionChars all point c.microsecond
  simp only [Clock.printChars, List.forall_mem_append, List.forall_mem_cons]
  exact ⟨⟨⟨digits _ _, colon, digits _ _⟩, colon, digits _ _⟩, fraction⟩

theorem forall_mem_zone {p : Char → Prop} (all : ∀ d ∈ List.range 10, p (digitChar d))
    (colon : p ':') (point : p '.') (o : Offset) : ∀ x ∈ o.zoneChars, p x := by
  have digits := forall_mem_paddedNumeral all
  have fraction := forall_mem_fractionChars all point o.clock.microsecond
  simp only [Offset.zoneChars, List.forall_mem_append, List.forall_mem_cons]
  refine ⟨⟨digits _ _, colon, digits _ _⟩, ?_⟩
  split
  · simp
  · exact List.forall_mem_append.2 ⟨List.forall_mem_cons.2 ⟨colon, digits _ _⟩, fraction⟩

/-- What the digits, the colon, the point and the signs have in common all characters of a time of
day have. -/
theorem forall_mem_printChars {p : Char → Prop} (all : ∀ d ∈ List.range 10, p (digitChar d))
    (others : ∀ c ∈ [':', '.', '+', '-'], p c) (t : TimeOfDay) : ∀ c ∈ t.printChars, p c := by
  have colon := others ':' (by simp)
  have point := others '.' (by simp)
  refine List.forall_mem_append.2 ⟨forall_mem_clock all colon point t.clock, ?_⟩
  cases t.offset with
  | none => simp [offsetChars]
  | some o =>
    have zone := forall_mem_zone all colon point o
    rw [offsetChars, Offset.printChars_eq]
    split
    · exact List.forall_mem_cons.2 ⟨others '-' (by simp), zone⟩
    · exact List.forall_mem_cons.2 ⟨others '+' (by simp), zone⟩

/-- The characters of a time of day are read as the time. -/
theorem ofChars?_printChars {t : TimeOfDay} (readable : t.IsReadable) :
    ofChars? t.printChars = some t := by
  obtain ⟨clock, offset⟩ := t
  obtain ⟨valid, offsets⟩ := readable
  have clockChars : ∀ x ∈ clock.printChars, (x != '+' && x != '-' && x != 'Z') = true :=
    forall_mem_clock (by decide) (by decide) (by decide) clock
  have read := Clock.parseChars?_printChars valid
  simp only [ofChars?, printChars, List.span_eq_takeWhile_dropWhile,
    List.takeWhile_append_of_pos clockChars, List.dropWhile_append_of_pos clockChars]
  cases offset with
  | none => simp [offsetChars, read, valid, guard]
  | some o =>
    have readable : o.IsReadable := offsets o rfl
    have zone := Offset.parseChars?_zoneChars readable.1
    have same := Offset.ofClock?_clock readable
    rw [offsetChars, Offset.printChars_eq]
    by_cases negative : o.microseconds < 0
    · rw [decide_eq_true negative] at same
      simp [negative, read, valid, guard, zone, same]
    · rw [decide_eq_false negative] at same
      simp [negative, read, valid, guard, zone, same]

/-- The text of a time of day is read as the time. -/
theorem parse?_print {t : TimeOfDay} (readable : t.IsReadable) : parse? t.print = some t := by
  rw [parse?, print, String.toList_ofList]
  have letter := forall_mem_printChars (p := (· ≠ 'T')) (by decide) (forall_mem_of_all (by decide)) t
  split
  · rename_i rest written
    exact absurd rfl (letter 'T' (by simp [written]))
  · exact ofChars?_printChars readable

/-- What has been read can be read back. -/
theorem isReadable_of_ofChars? {cs : List Char} {t : TimeOfDay} (read : ofChars? cs = some t) :
    t.IsReadable := by
  simp only [ofChars?, Option.bind_eq_bind, Option.bind_eq_some_iff] at read
  obtain ⟨⟨clock, leftover⟩, -, _, valid, read⟩ := read
  have valid : clock.isValid = true := by
    by_contra invalid
    rw [guard, if_neg invalid] at valid
    cases valid
  split at read
  · split at read
    · cases read
    · obtain rfl := Option.some.inj read
      exact ⟨valid, by simp⟩
  · split at read
    · obtain rfl := Option.some.inj read
      exact ⟨valid, by simp [Offset.isReadable_zero]⟩
    · cases read
  · obtain ⟨⟨zone, more⟩, -, read⟩ := Option.bind_eq_some_iff.1 read
    split at read
    · cases read
    · obtain ⟨o, offset, read⟩ := Option.bind_eq_some_iff.1 read
      obtain rfl := Option.some.inj read
      exact ⟨valid, by simpa using Offset.isReadable_of_ofClock? offset⟩

theorem isReadable_of_parse? {s : String} {t : TimeOfDay} (read : parse? s = some t) :
    t.IsReadable := by
  unfold parse? at read
  split at read <;> exact isReadable_of_ofChars? read

end TimeOfDay

/-- No timestamp can be read from the text of a time of day: a colon stands where the year is. -/
theorem Timestamp.parse?_timeOfDay {t : TimeOfDay} (valid : t.clock.isValid = true) :
    Timestamp.parse? t.print = none := by
  simp only [Clock.isValid, Bool.and_eq_true, decide_eq_true_eq] at valid
  obtain ⟨⟨⟨hour, minute⟩, second⟩, -⟩ := valid
  obtain ⟨h, h', hours, -⟩ := exists_twoDigits (by omega : t.clock.hour < 100)
  obtain ⟨m, m', minutes, -⟩ := exists_twoDigits (by omega : t.clock.minute < 100)
  obtain ⟨s, s', seconds, -⟩ := exists_twoDigits (by omega : t.clock.second < 100)
  obtain ⟨rest, written⟩ : ∃ rest,
      t.printChars = [h, h', ':', m, m', ':', s, s'] ++ rest := by
    rw [TimeOfDay.printChars, Clock.printChars, hours, minutes, seconds]
    exact ⟨_, rfl⟩
  obtain ⟨hyphen, week⟩ := forall_mem_paddedNumeral (p := fun c => c ≠ '-' ∧ c ≠ 'W') (by decide) 2
    t.clock.minute m' (by simp [minutes])
  have places : datePlaces t.printChars = 8 := by
    simp [datePlaces, written, hyphen, week]
  have year : fourDigits? h h' ':' m = none := by
    have colon : asciiDigit? ':' = none := rfl
    simp [fourDigits?, twoDigits?, colon]
  have noDate : Date.parseChars? (t.printChars.take 8) = none := by
    simp [written, Date.parseChars?, year]
  rw [parse?, TimeOfDay.print, String.toList_ofList]
  simp only [places, noDate]
  rfl

end Migration
