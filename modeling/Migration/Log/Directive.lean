import Migration.Text.Digit

/-!
# Templates of log messages

A template is text with directives: a percent sign, perhaps a key in parentheses, flags, a width, a
precision, and a letter that says how a value is written. Two percent signs stand for one.

* `Piece.ofChars` — the pieces of a template
-/

namespace Migration.Log

open Text

/-- Which value a directive writes. -/
inductive Key where
  /-- The next one. -/
  | next
  /-- The one with a name. -/
  | named (name : String)
  /-- Parentheses that are not closed. -/
  | unclosed
  deriving DecidableEq, Repr

/-- A width or a precision. -/
inductive Size where
  | none
  | given (n : Nat)
  /-- The next value. -/
  | next
  deriving DecidableEq, Repr

/-- A place in a template where a value is written. -/
structure Directive where
  key : Key
  flags : List Char
  width : Size
  precision : Size
  /-- The letter that says how the value is written; none if the template ends before it. -/
  letter : Option Char
  /-- Where the letter stands in the template. -/
  position : Nat
  deriving DecidableEq, Repr

/-- Whether a directive has a flag. -/
def Directive.has (d : Directive) (flag : Char) : Bool := d.flags.contains flag

/-! ## Parts of a directive -/

/-- What stands before the parenthesis that closes `depth` open ones, and what stands after it. -/
def closing? : (depth : Nat) → List Char → Option (List Char × List Char)
  | _, [] => none
  | depth, ')' :: rest =>
    match depth with
    | 0 | 1 => some ([], rest)
    | depth + 1 => (closing? depth rest).map fun (inside, after) => (')' :: inside, after)
  | depth, c :: rest =>
    (closing? (if c == '(' then depth + 1 else depth) rest).map fun (inside, after) =>
      (c :: inside, after)

/-- The key in front of a directive, and the rest. -/
def takeKey : List Char → Key × List Char
  | '(' :: rest =>
    match closing? 1 rest with
    | some (inside, after) => (.named (String.ofList inside), after)
    | none => (.unclosed, [])
  | cs => (.next, cs)

/-- Whether a character is a flag. -/
def isFlag (c : Char) : Bool := c == '-' || c == '+' || c == ' ' || c == '#' || c == '0'

/-- Whether a character is an ASCII digit. -/
def isDigit (c : Char) : Bool := (asciiDigit? c).isSome

/-- The number that ASCII digits write, `empty` if there are none, and the rest. -/
def takeNumber (empty : Size) (cs : List Char) : Size × List Char :=
  let ds := cs.takeWhile isDigit
  (if ds.isEmpty then empty else .given (ofDigits (ds.filterMap asciiDigit?)), cs.dropWhile isDigit)

/-- A width, and the rest. -/
def takeWidth : List Char → Size × List Char
  | '*' :: rest => (.next, rest)
  | cs => takeNumber .none cs

/-- A precision after a point, and the rest. -/
def takePrecision : List Char → Size × List Char
  | '.' :: '*' :: rest => (.next, rest)
  | '.' :: rest => takeNumber (.given 0) rest
  | cs => (.none, cs)

/-- The text without the letter for the size of a number, which means nothing. -/
def dropLength : List Char → List Char
  | 'h' :: rest | 'l' :: rest | 'L' :: rest => rest
  | cs => cs

/-- The directive behind a percent sign, and the rest. The template has `size` characters. -/
def takeDirective (size : Nat) (cs : List Char) : Directive × List Char :=
  let (key, cs) := takeKey cs
  let flags := cs.takeWhile isFlag
  let (width, cs) := takeWidth (cs.dropWhile isFlag)
  let (precision, cs) := takePrecision cs
  let cs := dropLength cs
  ({ key, flags, width, precision, letter := cs.head?, position := size - cs.length }, cs.tail)

/-! ## What is left is shorter -/

theorem closing?_length_le {cs inside after : List Char} :
    {depth : Nat} → closing? depth cs = some (inside, after) → after.length ≤ cs.length := by
  induction cs generalizing inside with
  | nil => intro depth h; simp [closing?] at h
  | cons c rest ih =>
    intro depth h
    unfold closing? at h
    split at h
    · contradiction
    · rename_i same
      cases same
      split at h
      · simp at h; simp [h.2]
      · simp at h; simp [h.2]
      · simp at h
        obtain ⟨inside, found, -⟩ := h
        exact Nat.le_succ_of_le (ih found)
    · rename_i same
      cases same
      simp at h
      obtain ⟨inside, found, -⟩ := h
      exact Nat.le_succ_of_le (ih found)

theorem takeKey_length_le (cs : List Char) : (takeKey cs).2.length ≤ cs.length := by
  unfold takeKey
  split
  · split
    · exact Nat.le_succ_of_le (closing?_length_le (by assumption))
    · simp
  · simp

theorem dropWhile_length_le (p : Char → Bool) (cs : List Char) :
    (cs.dropWhile p).length ≤ cs.length := (List.dropWhile_sublist p).length_le

theorem takeWidth_length_le (cs : List Char) : (takeWidth cs).2.length ≤ cs.length := by
  unfold takeWidth
  split
  · simp
  · exact dropWhile_length_le isDigit cs

theorem takePrecision_length_le (cs : List Char) : (takePrecision cs).2.length ≤ cs.length := by
  unfold takePrecision
  split
  · simp; omega
  · exact Nat.le_succ_of_le (dropWhile_length_le isDigit _)
  · simp

theorem dropLength_length_le (cs : List Char) : (dropLength cs).length ≤ cs.length := by
  unfold dropLength
  split <;> simp

theorem takeDirective_length_le (size : Nat) (cs : List Char) :
    (takeDirective size cs).2.length ≤ cs.length := by
  have key := takeKey_length_le cs
  have flags := dropWhile_length_le isFlag (takeKey cs).2
  have width := takeWidth_length_le ((takeKey cs).2.dropWhile isFlag)
  have precision := takePrecision_length_le (takeWidth ((takeKey cs).2.dropWhile isFlag)).2
  have length := dropLength_length_le
    (takePrecision (takeWidth ((takeKey cs).2.dropWhile isFlag)).2).2
  simp only [takeDirective, List.length_tail]
  omega

/-! ## Pieces -/

/-- A piece of a template. -/
inductive Piece where
  | literal (c : Char)
  | directive (d : Directive)
  deriving DecidableEq, Repr

namespace Piece

/-- The pieces of the rest of a template that has `size` characters. -/
def ofRest (size : Nat) : List Char → List Piece
  | [] => []
  | '%' :: '%' :: rest => literal '%' :: ofRest size rest
  | '%' :: rest =>
    let next := takeDirective size rest
    directive next.1 :: ofRest size next.2
  | c :: rest => literal c :: ofRest size rest
termination_by cs => cs.length
decreasing_by
  · simp only [List.length_cons]
    omega
  · have := takeDirective_length_le size rest
    simp
    omega
  · simp

/-- The pieces of a template. -/
def ofChars (cs : List Char) : List Piece := ofRest cs.length cs

end Piece
end Migration.Log
