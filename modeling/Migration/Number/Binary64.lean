import Migration.Number.Decimal

/-!
# Floating point numbers

Double precision numbers, exactly: a finite one is `mantissa * 2 ^ exponent`. All arithmetic is done
in natural numbers.

* `Binary64.ofRatio` — the number nearest to a quotient, an even mantissa winning a tie
* `Binary64.parse?` — the number nearest to a numeral
* `Binary64.shortest` — the fewest decimal digits that read back
* `Binary64.print` — those digits, positional from `0.0001` up to below `10 ^ 16`
-/

namespace Migration

/-- A double precision number. A finite one has a mantissa below `2 ^ 53` and an exponent from
`-1074` to `971`; the mantissa is at least `2 ^ 52` unless the exponent is the least one. -/
inductive Binary64 where
  | finite (negative : Bool) (mantissa : Nat) (exponent : Int)
  | infinite (negative : Bool)
  | nan
  deriving DecidableEq, Repr, Inhabited

namespace Binary64

open Text

/-- Whether the number is zero, of either sign. -/
def isZero : Binary64 → Bool
  | finite _ 0 _ => true
  | _ => false

/-! ## Rounding -/

/-- A quotient rounded to the nearest integer; of two equally near ones, the even one. -/
def roundedQuotient (num den : Nat) : Nat :=
  let q := num / den
  let r := num % den
  if 2 * r < den then q else if den < 2 * r then q + 1 else if q % 2 = 0 then q else q + 1

/-- A quotient scaled by a power of a base, as a pair of numerator and denominator. -/
def scaled (base num den : Nat) (e : Int) : Nat × Nat :=
  if e ≤ 0 then (num * Nat.pow base e.natAbs, den) else (num, den * Nat.pow base e.toNat)

/-- The number nearest to `num / den`, where `den` is positive. -/
def ofRatio (negative : Bool) (num den : Nat) : Binary64 :=
  if num = 0 then finite negative 0 (-1074)
  else
    let guess : Int := (Nat.log2 num : Int) - Nat.log2 den - 52
    let (n, d) := scaled 2 num den guess
    let e := max (if n / d < Nat.pow 2 52 then guess - 1 else guess) (-1074)
    let (n, d) := scaled 2 num den e
    let m := roundedQuotient n d
    let (m, e) := if m = Nat.pow 2 53 then (Nat.pow 2 52, e + 1) else (m, e)
    if 971 < e then infinite negative else finite negative m e

/-- The numerator and denominator of a magnitude. -/
def ratio (mantissa : Nat) (exponent : Int) : Nat × Nat :=
  if exponent < 0 then (mantissa, Nat.pow 2 exponent.natAbs)
  else (mantissa * Nat.pow 2 exponent.toNat, 1)

/-! ## Reading -/

/-- The number nearest to a decimal number. Exponents far outside the range are cut, which no
result can show. -/
def ofDecimal : Decimal → Binary64
  | .finite negative coefficient exponent =>
    let size : Int := (digits coefficient).length
    if 400 < exponent + size then
      if coefficient = 0 then finite negative 0 (-1074) else infinite negative
    else if exponent + size < -400 then finite negative 0 (-1074)
    else
      let (n, d) := scaled 10 coefficient 1 (-exponent)
      ofRatio negative n d
  | .infinite negative => infinite negative
  | .nan .. => nan

/-- The number nearest to the one that a text writes. -/
def parse? (s : String) : Option Binary64 := (Decimal.parse? s).map ofDecimal

/-! ## Printing -/

/-- The place of the first digit: the greatest `p` with `10 ^ p ≤ num / den`, searched downwards
from a bound. -/
def leadingPlace (num den : Nat) : (steps : Nat) → (from_ : Int) → Int
  | 0, p => p
  | steps + 1, p =>
    let (n, d) := scaled 10 num den p
    if d ≤ n then p else leadingPlace num den steps (p - 1)

/-- Whether a decimal reads back as the number: it lies between the midpoints to its neighbours,
on one of them only if the mantissa is even. The decimal is `q` units of `10 ^ place`. -/
def readsBack (mantissa : Nat) (exponent : Int) (q : Nat) (place : Int) : Bool :=
  -- Everything is compared in quarters of the number's last bit.
  let low := if mantissa = Nat.pow 2 52 && -1074 < exponent then 4 * mantissa - 1 else 4 * mantissa - 2
  let high := 4 * mantissa + 2
  let (n, d) := scaled 10 q 1 (-place)
  let (n, d) := scaled 2 n d (exponent - 2)
  if mantissa % 2 = 0 then low * d ≤ n && n ≤ high * d else low * d < n && n < high * d

/-- The decimal with the unit `10 ^ place` nearest to the number, among those that read back. -/
def onGrid? (mantissa : Nat) (exponent : Int) (place : Int) : Option Nat :=
  let (num, den) := ratio mantissa exponent
  let (n, d) := scaled 10 num den place
  let q := n / d
  let below := readsBack mantissa exponent q place
  let above := readsBack mantissa exponent (q + 1) place
  if below && above then some (roundedQuotient n d)
  else if below then some q
  else if above then some (q + 1)
  else none

/-- The first grid, from coarse to fine, with a decimal that reads back. -/
def firstGrid (mantissa : Nat) (exponent : Int) : (grids : Nat) → (place : Int) → Nat × Int
  | 0, place => (0, place)
  | grids + 1, place =>
    match onGrid? mantissa exponent place with
    | some q => (q, place)
    | none => firstGrid mantissa exponent grids (place - 1)

/-- The fewest digits that read back, and the place of the last one. -/
def shortest (mantissa : Nat) (exponent : Int) : Nat × Int :=
  let (num, den) := ratio mantissa exponent
  let guess : Int := ((Nat.log2 num : Int) - Nat.log2 den + 1) * 30103 / 100000 + 1
  firstGrid mantissa exponent 18 (leadingPlace num den 4 guess)

/-- Digits without the zeros they end with, and how many those were. -/
def dropZeros (ds : List Char) : List Char × Nat :=
  let kept := (ds.reverse.dropWhile (· == '0')).reverse
  (kept, ds.length - kept.length)

/-- The digits of a positive number, the point `places` digits from their left end. -/
def layout (ds : List Char) (places : Int) : List Char :=
  if -4 < places && places ≤ 16 then
    let cs := Decimal.pointed ds places
    if cs.contains '.' then cs else cs ++ ['.', '0']
  else
    let e := places - 1
    Decimal.pointed ds 1 ++ 'e' :: (if e < 0 then '-' else '+') :: paddedNumeral 2 e.natAbs

/-- The text of a number. -/
def print : Binary64 → String
  | finite negative 0 _ => if negative then "-0.0" else "0.0"
  | finite negative mantissa exponent =>
    let (q, place) := shortest mantissa exponent
    let (ds, zeros) := dropZeros (numeral q)
    String.ofList (Decimal.signChars negative ++ layout ds (ds.length + zeros + place))
  | infinite negative => if negative then "-inf" else "inf"
  | nan => "nan"

end Binary64
end Migration
