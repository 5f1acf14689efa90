import Migration.Text.Blank

/-!
# Lists written in one text

A list attribute is one text with commas: `"h2, postgresql"`. White space around the items and
empty items do not count.
-/

namespace Migration.Text

/-- The stretches between the separators; one more than there are separators. -/
def splitOn (separator : Char) : List Char → List (List Char)
  | [] => [[]]
  | c :: rest =>
    if c == separator then [] :: splitOn separator rest
    else match splitOn separator rest with
      | [] => [[c]]
      | part :: parts => (c :: part) :: parts

/-- The texts with separators between them. -/
def join (separator : String) (parts : List String) : String := String.intercalate separator parts

/-- The items of a list written with commas. -/
def commaList (s : String) : List String :=
  ((splitOn ',' s.toList).map fun part => String.ofList (trimChars part)).filter (!·.isEmpty)

/-- Whether the text starts with the other one. -/
def startsWith (s start : String) : Bool := start.toList.isPrefixOf s.toList

/-- Whether the text ends with the other one. -/
def endsWith (s suffix : String) : Bool := suffix.toList.isSuffixOf s.toList

end Migration.Text
