import Migration.Text.Case.Table

/-!
# Lower case

The full lower case mapping of Unicode 14.0. Words of filter expressions, database names, file
suffixes and truth values are compared by it.

A capital sigma becomes the final form where a word ends; a capital I with a dot becomes two
characters. Everything else maps character by character.
-/

namespace Migration.Text

open Case

/-- Whether a code point lies in one of the ranges. -/
def inRanges (ranges : List (Nat × Nat)) (n : Nat) : Bool :=
  ranges.any fun r => r.1 ≤ n && n ≤ r.2

/-- The lower case of a character that has a single one. -/
def lowerChar (c : Char) : Char :=
  if c.toNat < 0x80 then c.toLower
  else match runs.find? (·.covers c.toNat) with
    | some run => Char.ofNat (c.toNat + run.shift).toNat
    | none => c

/-- Whether a capital sigma between the two stretches of text ends a word: the nearest character
before it that is not ignorable is cased, and the nearest one after it is not. The text before is
given backwards. -/
def sigmaIsFinal (before after : List Char) : Bool :=
  let isIgnorable := fun c : Char => inRanges ignorable c.toNat
  (match before.dropWhile isIgnorable with
    | c :: _ => inRanges cased c.toNat
    | [] => false) &&
  (match after.dropWhile isIgnorable with
    | c :: _ => !inRanges cased c.toNat
    | [] => true)

/-- The lower case of a text that follows `before` (given backwards). -/
def lowerAfter (before : List Char) : List Char → List Char
  | [] => []
  | c :: rest =>
    let tail := lowerAfter (c :: before) rest
    if c == 'Σ' then (if sigmaIsFinal before rest then 'ς' else 'σ') :: tail
    else if c == 'İ' then 'i' :: '\u0307' :: tail
    else lowerChar c :: tail

/-- The lower case of the characters of a text. -/
def lowerChars (cs : List Char) : List Char := lowerAfter [] cs

/-- The lower case of a text. -/
def lower (s : String) : String := String.ofList (lowerChars s.toList)

end Migration.Text
