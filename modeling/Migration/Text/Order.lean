/-!
# Code point order

Texts are sorted by their code points, position by position; a text comes before its
continuations.
-/

namespace Migration.Text

/-- Whether the first text stands before the second one or equals it. -/
def charsLe : List Char → List Char → Bool
  | [], _ => true
  | _ :: _, [] => false
  | a :: as, b :: bs => a.toNat < b.toNat || (a == b && charsLe as bs)

/-- Whether the first text stands before the second one or equals it. -/
def le (a b : String) : Bool := charsLe a.toList b.toList

/-- Texts in code point order. -/
def sort (texts : List String) : List String := texts.mergeSort le

/-- The set of the texts: in code point order, each once. -/
def sortedSet (texts : List String) : List String := (sort texts).eraseDups

end Migration.Text
