import Migration.Json.Basic
import Migration.Text.Split

/-!
# Writing JSON

* `Json.print` — in one line, with blanks after commas and colons
* `Json.printIndented` — one item a line, two blanks deeper on each level

Control characters, quotes and backslashes in texts are always escaped, so a value never spreads
over several lines by itself. Characters beyond ASCII are escaped if the `charset` says so.
-/

namespace Migration.Json

open Text

/-- Which characters are written as they are. -/
inductive Charset where
  | ascii
  | unicode
  deriving DecidableEq, Repr

/-- A code unit as an escape. -/
def unitEscape (n : Nat) : List Char := '\\' :: 'u' :: hexNumeral 4 n

/-- A character inside a string. -/
def charInString (charset : Charset) (c : Char) : List Char :=
  if c == '"' then ['\\', '"']
  else if c == '\\' then ['\\', '\\']
  else if c == '\n' then ['\\', 'n']
  else if c == '\r' then ['\\', 'r']
  else if c == '\t' then ['\\', 't']
  else if c.toNat == 0x0C then ['\\', 'f']
  else if c.toNat == 0x08 then ['\\', 'b']
  else
    let n := c.toNat
    if n < 0x20 then unitEscape n
    else if n < 0x7F || charset == .unicode then [c]
    else if n < 0x10000 then unitEscape n
    else unitEscape (0xD800 + (n - 0x10000) / 0x400) ++ unitEscape (0xDC00 + (n - 0x10000) % 0x400)

/-- A string with its quotes. -/
def stringChars (charset : Charset) (s : String) : List Char :=
  '"' :: s.toList.flatMap (charInString charset) ++ ['"']

/-- Stretches of characters with a separator between them. -/
def separated (separator : List Char) : List (List Char) → List Char
  | [] => []
  | [part] => part
  | part :: rest => part ++ separator ++ separated separator rest

/-- A value that has no items. -/
def scalarChars (charset : Charset) : Json → List Char
  | null => "null".toList
  | bool true => "true".toList
  | bool false => "false".toList
  | number n => n.printChars
  | string s => stringChars charset s
  | array _ => ['[', ']']
  | object _ => ['{', '}']

mutual

/-- A value in one line. -/
def chars (charset : Charset) : Json → List Char
  | array items => '[' :: separated [',', ' '] (itemsChars charset items) ++ [']']
  | object members => '{' :: separated [',', ' '] (membersChars charset members) ++ ['}']
  | j => scalarChars charset j

/-- The items of an array. -/
def itemsChars (charset : Charset) : List Json → List (List Char)
  | [] => []
  | j :: rest => chars charset j :: itemsChars charset rest

/-- The members of an object. -/
def membersChars (charset : Charset) : List (String × Json) → List (List Char)
  | [] => []
  | m :: rest => memberChars charset m :: membersChars charset rest

/-- A member of an object. -/
def memberChars (charset : Charset) : String × Json → List Char
  | (name, j) => stringChars charset name ++ ':' :: ' ' :: chars charset j

end

/-- A value in one line. -/
def print (charset : Charset) (j : Json) : String := String.ofList (chars charset j)

/-- The start of a line at a level. -/
def newLine (level : Nat) : List Char := '\n' :: List.replicate (2 * level) ' '

mutual

/-- A value with its items on lines of their own, one level deeper. -/
def indentedChars (charset : Charset) (level : Nat) : Json → List Char
  | array (j :: rest) =>
    '[' :: newLine (level + 1) ++
      separated (',' :: newLine (level + 1)) (indentedItems charset (level + 1) (j :: rest)) ++
      newLine level ++ [']']
  | object (m :: rest) =>
    '{' :: newLine (level + 1) ++
      separated (',' :: newLine (level + 1)) (indentedMembers charset (level + 1) (m :: rest)) ++
      newLine level ++ ['}']
  | j => scalarChars charset j

/-- The items of an array at a level. -/
def indentedItems (charset : Charset) (level : Nat) : List Json → List (List Char)
  | [] => []
  | j :: rest => indentedChars charset level j :: indentedItems charset level rest

/-- The members of an object at a level. -/
def indentedMembers (charset : Charset) (level : Nat) : List (String × Json) → List (List Char)
  | [] => []
  | m :: rest => indentedMember charset level m :: indentedMembers charset level rest

/-- A member of an object at a level. -/
def indentedMember (charset : Charset) (level : Nat) : String × Json → List Char
  | (name, j) => stringChars charset name ++ ':' :: ' ' :: indentedChars charset level j

end

/-- A value over several lines. -/
def printIndented (charset : Charset) (j : Json) : String :=
  String.ofList (indentedChars charset 0 j)

end Migration.Json
