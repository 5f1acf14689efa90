import Migration.Text.Blank
import Migration.Text.Digit

/-!
# Integers as text

Reading and printing integers in decimal. An integer may be written with a sign, with the digits of
any script, with leading zeros and with single underscores between its digits. A numeral of more
than 4300 digits is refused.

* `Integer.parse?` — reading; white space around the numeral is skipped
* `Integer.print` — the canonical numeral
-/

namespace Migration.Integer

open Text

/-- The most digits that a numeral may have. -/
def maxDigits : Nat := 4300

/-- What may follow a digit: more digits, each after at most one underscore. -/
def digitsAfter? : List Char → Option (List Nat)
  | [] => some []
  | '_' :: c :: rest => do
    let d ← digitValue? c
    let ds ← digitsAfter? rest
    return d :: ds
  | c :: rest => do
    let d ← digitValue? c
    let ds ← digitsAfter? rest
    return d :: ds

/-- The digits of a numeral without a sign; there is at least one. -/
def digits? : List Char → Option (List Nat)
  | [] => none
  | c :: rest => do
    let d ← digitValue? c
    let ds ← digitsAfter? rest
    return d :: ds

/-- The number that a numeral without a sign writes. -/
def magnitude? (cs : List Char) : Option Nat := do
  let ds ← digits? cs
  if ds.length ≤ maxDigits then some (ofDigits ds) else none

/-- The integer that the characters write. -/
def parseChars? (cs : List Char) : Option Int :=
  match trimChars cs with
  | '-' :: rest => (magnitude? rest).map fun n => -(n : Int)
  | '+' :: rest => (magnitude? rest).map fun n => (n : Int)
  | rest => (magnitude? rest).map fun n => (n : Int)

/-- The integer that a text writes. -/
def parse? (s : String) : Option Int := parseChars? s.toList

/-- The characters of the canonical numeral: a minus sign before a negative one, no leading
zeros. -/
def printChars (n : Int) : List Char :=
  if n < 0 then '-' :: numeral n.natAbs else numeral n.natAbs

/-- The canonical numeral. Every integer has one here. The language of scripts refuses to write one
of more than `maxDigits` digits; such an integer comes from no text, and a script can only write it
in another base than ten. -/
def print (n : Int) : String := String.ofList (printChars n)

end Migration.Integer
