import Migration.Filter.Token

/-!
# Filter expressions

Boolean expressions over words: `test and !prod`, `(qa or dev), nightly`. Negation binds tightest,
then `and`; `or` and the comma are the same. Words are compared without regard to letter case.

* `Expr.parse` — the expression that a text writes
* `Expr.holds` — its value for the words that are given
* `evaluate` — both in one step
-/

namespace Migration.Filter

open Text

/-- A filter expression. -/
inductive Expr where
  | word (w : String)
  | not (e : Expr)
  | and (left right : Expr)
  | or (left right : Expr)
  deriving DecidableEq, Repr, Inhabited

/-- What is wrong with a text that is no filter expression. -/
inductive Problem where
  | unexpected (token : String)
  | endOfText
  | unbalanced
  deriving DecidableEq, Repr

/-- A text that is no filter expression, and why. -/
structure Malformed where
  expression : String
  problem : Problem
  deriving DecidableEq, Repr

/-- The message about a malformed expression. -/
def Malformed.message : Malformed → String
  | ⟨expression, .unexpected token⟩ => s!"Unexpected '{token}' in filter expression '{expression}'."
  | ⟨expression, .endOfText⟩ => s!"Unexpected end of filter expression '{expression}'."
  | ⟨expression, .unbalanced⟩ => s!"Unbalanced parentheses in filter expression '{expression}'."

namespace Expr

/-- An expression and the tokens after it, of which there are fewer than `n`. -/
abbrev Front (n : Nat) := Expr × { rest : List Token // rest.length < n }

mutual

/-- Alternatives: conjunctions with `or` or commas between them. -/
def alternatives (ts : List Token) : Except Problem (Front ts.length) := do
  let (e, ⟨rest, _⟩) ← conjunction ts
  let (e, ⟨rest, _⟩) ← moreAlternatives e rest
  return (e, ⟨rest, by omega⟩)
termination_by (ts.length, 3)

/-- What may follow the alternatives read so far. -/
def moreAlternatives (e : Expr) (ts : List Token) : Except Problem (Front (ts.length + 1)) :=
  match ts with
  | [] => return (e, ⟨[], by simp⟩)
  | t :: rest =>
    if t.isOr then do
      let (right, ⟨rest, _⟩) ← conjunction rest
      let (e, ⟨rest, _⟩) ← moreAlternatives (.or e right) rest
      return (e, ⟨rest, by simp; omega⟩)
    else return (e, ⟨t :: rest, by simp⟩)
termination_by (ts.length, 0)

/-- A conjunction: negations, words and groups with `and` between them. -/
def conjunction (ts : List Token) : Except Problem (Front ts.length) := do
  let (e, ⟨rest, _⟩) ← operand ts
  let (e, ⟨rest, _⟩) ← moreOperands e rest
  return (e, ⟨rest, by omega⟩)
termination_by (ts.length, 2)

/-- What may follow the operands read so far. -/
def moreOperands (e : Expr) (ts : List Token) : Except Problem (Front (ts.length + 1)) :=
  match ts with
  | [] => return (e, ⟨[], by simp⟩)
  | t :: rest =>
    if t.isAnd then do
      let (right, ⟨rest, _⟩) ← operand rest
      let (e, ⟨rest, _⟩) ← moreOperands (.and e right) rest
      return (e, ⟨rest, by simp; omega⟩)
    else return (e, ⟨t :: rest, by simp⟩)
termination_by (ts.length, 0)

/-- A negation, a word or a group in parentheses. -/
def operand (ts : List Token) : Except Problem (Front ts.length) :=
  match ts with
  | [] => throw .endOfText
  | t :: rest =>
    if t.isNot then do
      let (e, ⟨rest, _⟩) ← operand rest
      return (.not e, ⟨rest, by simp; omega⟩)
    else match t with
      | .opening => do
        let (e, ⟨rest, shorter⟩) ← alternatives rest
        match rest, shorter with
        | [], _ => throw .endOfText
        | .closing :: rest, shorter => return (e, ⟨rest, by simp at *; omega⟩)
        | _ :: _, _ => throw .unbalanced
      | .word w => return (.word w, ⟨rest, by simp⟩)
      | t => throw (.unexpected t.text)
termination_by (ts.length, 1)

end

/-- The expression that tokens write. -/
def ofTokens (ts : List Token) : Except Problem Expr := do
  let (e, ⟨rest, _⟩) ← alternatives ts
  match rest with
  | [] => return e
  | t :: _ => throw (.unexpected t.text)

/-- The expression that a text writes. -/
def parse (s : String) : Except Malformed Expr :=
  (ofTokens (Token.ofChars s.toList)).mapError fun problem => ⟨s, problem⟩

/-- The value of an expression in which a word is true if it is one of the words, which are in
lower case. -/
def holds (words : List String) : Expr → Bool
  | word w => words.contains (lower w)
  | not e => !e.holds words
  | and l r => l.holds words && r.holds words
  | or l r => l.holds words || r.holds words

end Expr

/-- The value of the expression that a text writes, for the words that are given. -/
def evaluate (s : String) (words : List String) : Except Malformed Bool := do
  return (← Expr.parse s).holds (words.map lower)

end Migration.Filter
