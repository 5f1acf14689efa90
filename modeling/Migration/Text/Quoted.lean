import Migration.Text.Digit
import Migration.Text.Printable

/-!
# Quoted texts

How a text is written where it stands for itself: as an item of a list, as a key, in an error
message. It is put between single quotes, or between double quotes when it holds a single quote and
no double one. The quote, the backslash and characters that cannot be printed are escaped.
-/

namespace Migration.Text

/-- One character between the quotes `quote`. -/
def quotedChar (quote c : Char) : List Char :=
  if c == quote || c == '\\' then ['\\', c]
  else if c == '\t' then ['\\', 't']
  else if c == '\n' then ['\\', 'n']
  else if c == '\r' then ['\\', 'r']
  else if isPrintable c then [c]
  else
    let n := c.toNat
    if n ≤ 0xFF then '\\' :: 'x' :: hexNumeral 2 n
    else if n ≤ 0xFFFF then '\\' :: 'u' :: hexNumeral 4 n
    else '\\' :: 'U' :: hexNumeral 8 n

/-- The quote that surrounds a text. -/
def quoteFor (cs : List Char) : Char := if cs.contains '\'' && !cs.contains '"' then '"' else '\''

/-- A text in quotes. -/
def quoted (s : String) : String :=
  let cs := s.toList
  let quote := quoteFor cs
  String.ofList (quote :: cs.flatMap (quotedChar quote) ++ [quote])

end Migration.Text
