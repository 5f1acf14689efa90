import Migration.Text.Blank
import Migration.Text.Case

/-!
# Tokens of filter expressions

A filter expression is cut into parentheses, commas, exclamation marks and words; white space
separates and is otherwise skipped. Every text has tokens.

* `Token.ofChars` — the tokens of a text
* `Token.text` — the text of a token
* `Token.isAnd`, `Token.isOr`, `Token.isNot` — the operators, in any letter case
-/

namespace Migration.Filter

open Text

/-- A token of a filter expression. -/
inductive Token where
  | opening
  | closing
  | comma
  | bang
  | word (s : String)
  deriving DecidableEq, Repr, Inhabited

namespace Token

/-- The token that a single character makes up by itself. -/
def symbol? (c : Char) : Option Token :=
  if c == '(' then some opening
  else if c == ')' then some closing
  else if c == ',' then some comma
  else if c == '!' then some bang
  else none

/-- The text of a token. -/
def text : Token → String
  | opening => "("
  | closing => ")"
  | comma => ","
  | bang => "!"
  | word s => s

/-- Whether a character can stand in a word. -/
def isWordChar (c : Char) : Bool := !isBlank c && (symbol? c).isNone

/-- The tokens of a text; a word is as long as possible. -/
def ofChars : List Char → List Token
  | [] => []
  | c :: rest =>
    if isBlank c then ofChars rest
    else match symbol? c with
      | some t => t :: ofChars rest
      | none => word (String.ofList (c :: rest.takeWhile isWordChar)) ::
          ofChars (rest.dropWhile isWordChar)
termination_by cs => cs.length
decreasing_by
  · simp
  · simp
  · simpa [Nat.lt_succ_iff] using (List.dropWhile_sublist isWordChar).length_le

/-- Whether the token is the word, in any letter case. -/
def spells (t : Token) (s : String) : Bool :=
  match t with
  | word w => lower w == s
  | _ => false

/-- Whether the token negates what follows. -/
def isNot (t : Token) : Bool := t == bang || t.spells "not"

/-- Whether the token asks for both sides. -/
def isAnd (t : Token) : Bool := t.spells "and"

/-- Whether the token asks for one of its sides. -/
def isOr (t : Token) : Bool := t == comma || t.spells "or"

end Token
end Migration.Filter
