import Migration.Number.Binary64

/-!
# Floating point numbers with a given number of digits

A number is rounded to a count of decimals or of digits; of two equally near decimals the one with
an even last digit is taken.

* `Binary64.fixedChars` — so many decimals
* `Binary64.scientificChars` — one digit before the point, so many after it, and an exponent
* `Binary64.generalChars` — so many digits, positional or with an exponent, whichever is shorter

All of them write a magnitude `mantissa * 2 ^ exponent`. The flag `full` keeps a point that nothing
follows, and the zeros at the end of the general form.
-/

namespace Migration.Binary64

open Text

/-- A point with the decimals behind it; no point before nothing unless the form is full. -/
def decimals (full : Bool) (ds : List Char) : List Char :=
  if ds.isEmpty && !full then [] else '.' :: ds

/-- The number with so many decimals. -/
def fixedChars (full : Bool) (places mantissa : Nat) (exponent : Int) : List Char :=
  let (num, den) := ratio mantissa exponent
  let (n, d) := scaled 10 num den (-places)
  let ds := paddedNumeral (places + 1) (roundedQuotient n d)
  ds.take (ds.length - places) ++ decimals full (ds.drop (ds.length - places))

/-- The number rounded to so many digits, at least one, and the place of the first of them. -/
def significant (count mantissa : Nat) (exponent : Int) : List Char × Int :=
  if mantissa = 0 then (List.replicate count '0', 0)
  else
    let (num, den) := ratio mantissa exponent
    let guess : Int := ((Nat.log2 num : Int) - Nat.log2 den + 1) * 30103 / 100000 + 1
    let place := leadingPlace num den 4 guess
    let (n, d) := scaled 10 num den (place - (count - 1 : Nat))
    let q := roundedQuotient n d
    if q = Nat.pow 10 count then (numeral (Nat.pow 10 (count - 1)), place + 1)
    else (numeral q, place)

/-- An exponent with its sign and at least two digits. -/
def exponentChars (e : Int) : List Char :=
  'e' :: (if e < 0 then '-' else '+') :: paddedNumeral 2 e.natAbs

/-- Digits with the point behind the first one, and the exponent. -/
def withExponent (full : Bool) (ds : List Char) (place : Int) : List Char :=
  ds.take 1 ++ decimals full (ds.drop 1) ++ exponentChars place

/-- The number with one digit before the point and so many after it. -/
def scientificChars (full : Bool) (places mantissa : Nat) (exponent : Int) : List Char :=
  let (ds, place) := significant (places + 1) mantissa exponent
  withExponent full ds place

/-- The number with so many digits: with an exponent if it is below a ten-thousandth or has more
digits before the point than are written. -/
def generalChars (full : Bool) (count mantissa : Nat) (exponent : Int) : List Char :=
  let count := max 1 count
  let (ds, place) := significant count mantissa exponent
  let zeros := if full then 0 else (dropZeros (ds.drop 1)).2
  if -4 ≤ place && place < count then
    let whole := if place < 0 then ['0'] else ds.take (place.toNat + 1)
    let fraction := if place < 0 then List.replicate (place.natAbs - 1) '0' ++ ds
      else ds.drop (place.toNat + 1)
    whole ++ decimals full (if full then fraction else (dropZeros fraction).1)
  else withExponent full (ds.take (ds.length - zeros)) place

end Migration.Binary64
