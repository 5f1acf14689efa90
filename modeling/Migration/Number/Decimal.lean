import Migration.Number.Integer
import Migration.Text.Split

/-!
# Decimal numbers

Arbitrary precision decimals with a sign, a coefficient and an exponent, in which `1.50` and `1.5`
are different numbers, together with infinities and "not a number" values that may carry a payload.

* `Decimal.parse?` — reading the scientific syntax; underscores and surrounding white space do not
  count, digits of any script do
* `Decimal.print` — plain notation as long as the exponent is not positive and the number is at
  least a millionth, scientific notation otherwise

Exponents are bounded: `maxExponent` and `minExponent` bound what can be read.
-/

namespace Migration

/-- A decimal number: `coefficient * 10 ^ exponent`, or one of the special values. -/
inductive Decimal where
  | finite (negative : Bool) (coefficient : Nat) (exponent : Int)
  | infinite (negative : Bool)
  | nan (negative signaling : Bool) (payload : Nat)
  deriving DecidableEq, Repr, Inhabited

namespace Decimal

open Text

/-- The greatest exponent of a number written with one digit before the point. -/
def maxExponent : Int := 999999999999999999

/-- The least exponent of a coefficient. -/
def minExponent : Int := -1999999999999999997

/-- Whether the number counts as zero. -/
def isZero : Decimal → Bool
  | finite _ 0 _ => true
  | _ => false

/-! ## Printing -/

/-- The sign in front of a number. -/
def signChars (negative : Bool) : List Char := if negative then ['-'] else []

/-- The digits of a coefficient with the decimal point `places` digits from their left end. -/
def pointed (ds : List Char) (places : Int) : List Char :=
  if places ≤ 0 then '0' :: '.' :: List.replicate places.natAbs '0' ++ ds
  else if ds.length ≤ places.toNat then ds ++ List.replicate (places.toNat - ds.length) '0'
  else ds.take places.toNat ++ '.' :: ds.drop places.toNat

/-- The exponent part: the letter, a sign in any case, and the digits. -/
def exponentChars (e : Int) : List Char :=
  'E' :: (if e < 0 then '-' else '+') :: numeral e.natAbs

/-- A coefficient with its exponent. -/
def finiteChars (coefficient : Nat) (exponent : Int) : List Char :=
  let ds := numeral coefficient
  let places := ds.length + exponent
  if exponent ≤ 0 && -6 < places then pointed ds places
  else pointed ds 1 ++ exponentChars (places - 1)

/-- The characters of a number. -/
def printChars : Decimal → List Char
  | finite negative coefficient exponent =>
    signChars negative ++ finiteChars coefficient exponent
  | infinite negative => signChars negative ++ "Infinity".toList
  | nan negative signaling payload =>
    signChars negative ++ (if signaling then ['s'] else []) ++ "NaN".toList ++
      (if payload = 0 then [] else numeral payload)

/-- The text of a number. -/
def print (d : Decimal) : String := String.ofList d.printChars

/-! ## Reading -/

/-- The characters of a numeral in ASCII: white space at the ends and underscores are dropped,
digits of other scripts become ASCII digits, and nothing else beyond ASCII may occur. -/
def plainChars? (cs : List Char) : Option (List Char) :=
  ((trimChars cs).filter (· != '_')).mapM fun c =>
    if c.toNat < 0x80 then some c.toLower else (digitValue? c).map digitChar

/-- The number that ASCII digits write; there may be none, which writes zero. -/
def asciiNumber? (cs : List Char) : Option Nat := (cs.mapM asciiDigit?).map ofDigits

/-- The exponent after the letter: an optional sign and at least one digit. -/
def exponent? : List Char → Option Int
  | '-' :: c :: rest => (asciiNumber? (c :: rest)).map fun n => -(n : Int)
  | '+' :: c :: rest => (asciiNumber? (c :: rest)).map fun n => (n : Int)
  | '-' :: [] | '+' :: [] | [] => none
  | cs => (asciiNumber? cs).map fun n => (n : Int)

/-- Whether the bounds on exponents admit a coefficient with an exponent. -/
def fits (coefficient : Nat) (exponent : Int) : Bool :=
  minExponent ≤ exponent &&
    if coefficient = 0 then exponent ≤ maxExponent
    else exponent + ((digits coefficient).length - 1 : Nat) ≤ maxExponent

/-- A number without its sign that is not special: digits with at most one point among them, and
perhaps an exponent. -/
def number? (negative : Bool) (cs : List Char) : Option Decimal := do
  let (mantissa, tail) := cs.span (· != 'e')
  let (whole, fraction) := mantissa.span (· != '.')
  let fraction := fraction.drop 1
  guard (!(whole ++ fraction).isEmpty)
  let coefficient ← asciiNumber? (whole ++ fraction)
  let shift ← if tail.isEmpty then some 0 else exponent? (tail.drop 1)
  let exponent := shift - fraction.length
  guard (fits coefficient exponent)
  return finite negative coefficient exponent

/-- A number without its sign, in lower case ASCII. -/
def unsigned? (negative : Bool) (cs : List Char) : Option Decimal :=
  if cs == "inf".toList || cs == "infinity".toList then some (infinite negative)
  else match cs with
    | 'n' :: 'a' :: 'n' :: rest => (asciiNumber? rest).map (nan negative false)
    | 's' :: 'n' :: 'a' :: 'n' :: rest => (asciiNumber? rest).map (nan negative true)
    | _ => number? negative cs

/-- The number that the characters write. -/
def parseChars? (cs : List Char) : Option Decimal := do
  match ← plainChars? cs with
  | '-' :: rest => unsigned? true rest
  | '+' :: rest => unsigned? false rest
  | rest => unsigned? false rest

/-- The number that a text writes. -/
def parse? (s : String) : Option Decimal := parseChars? s.toList

end Decimal
end Migration
