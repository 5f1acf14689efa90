/-!
# Placeholders

A text may hold placeholders for parameters: `${name}`. Between the braces stands anything but
braces, and at least one character.

* `Segment.ofChars` — a text cut into its characters and its placeholders
* `Segment.chars` — the text of a segment
-/

namespace Migration

/-- A stretch of a text: a character that stands for itself, or a placeholder. -/
inductive Segment where
  | literal (c : Char)
  | placeholder (inside : List Char)
  deriving DecidableEq, Repr

namespace Segment

/-- Whether a character can stand between the braces. -/
def isInside (c : Char) : Bool := c != '{' && c != '}'

/-- A text cut into characters and placeholders, from left to right. -/
def ofChars : List Char → List Segment
  | [] => []
  | '$' :: '{' :: rest =>
    match _h : rest.dropWhile isInside with
    | '}' :: after =>
      if (rest.takeWhile isInside).isEmpty then literal '$' :: ofChars ('{' :: rest)
      else placeholder (rest.takeWhile isInside) :: ofChars after
    | _ => literal '$' :: ofChars ('{' :: rest)
  | c :: rest => literal c :: ofChars rest
termination_by cs => cs.length
decreasing_by
  all_goals try simp
  have := (List.dropWhile_sublist isInside (l := rest)).length_le
  rw [_h] at this
  simp at this
  omega

/-- The text of a segment. -/
def chars : Segment → List Char
  | literal c => [c]
  | placeholder inside => '$' :: '{' :: inside ++ ['}']

end Segment
end Migration
