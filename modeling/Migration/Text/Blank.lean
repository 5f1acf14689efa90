/-!
# White space

Which characters count as white space, and cutting them off the ends of a text. One class serves
everywhere: attribute values, filter expressions, properties files and numbers.

* `isBlank` — the class
* `trimChars`, `trim` — a text without the white space around it
-/

namespace Migration.Text

/-- The white space characters: the ASCII controls 9–13 and 28–31, the space, and the Unicode
spaces and line separators. -/
def isBlank (c : Char) : Bool :=
  let n := c.toNat
  (9 ≤ n && n ≤ 13) || (0x1C ≤ n && n ≤ 0x20) || n == 0x85 || n == 0xA0 || n == 0x1680 ||
    (0x2000 ≤ n && n ≤ 0x200A) || n == 0x2028 || n == 0x2029 || n == 0x202F || n == 0x205F ||
    n == 0x3000

/-- The characters without the white space they start with. -/
def trimStart (cs : List Char) : List Char := cs.dropWhile isBlank

/-- The characters without the white space they end with. -/
def trimEnd (cs : List Char) : List Char := (cs.reverse.dropWhile isBlank).reverse

/-- The characters without the white space at either end. -/
def trimChars (cs : List Char) : List Char := trimEnd (trimStart cs)

/-- A text without the white space at either end. -/
def trim (s : String) : String := String.ofList (trimChars s.toList)

/-- A text without the white space it ends with. -/
def trimRight (s : String) : String := String.ofList (trimEnd s.toList)

end Migration.Text
