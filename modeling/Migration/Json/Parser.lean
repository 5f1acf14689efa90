import Migration.Json.Basic

/-!
# Reading JSON

* `Json.parse?` — the value that a text writes; nothing may follow it but white space

Each step returns what it has read together with the rest of the text, which is shorter, so reading
ends.
-/

namespace Migration.Json

open Text

/-- Whether a character may stand between the parts of a value. -/
def isSpace (c : Char) : Bool := c == ' ' || c == '\n' || c == '\r' || c == '\t'

/-- The text without the white space it starts with. -/
def skip (cs : List Char) : List Char := cs.dropWhile isSpace

theorem length_skip_le (cs : List Char) : (skip cs).length ≤ cs.length :=
  (List.dropWhile_sublist isSpace).length_le

/-! ## Strings -/

/-- The value of a hexadecimal digit. -/
def hexDigit? (c : Char) : Option Nat :=
  let n := c.toNat
  if 0x30 ≤ n && n ≤ 0x39 then some (n - 0x30)
  else if 0x61 ≤ n && n ≤ 0x66 then some (n - 0x61 + 10)
  else if 0x41 ≤ n && n ≤ 0x46 then some (n - 0x41 + 10)
  else none

/-- The code unit that four hexadecimal digits write. -/
def unit? (a b c d : Char) : Option Nat := do
  return (((← hexDigit? a) * 16 + (← hexDigit? b)) * 16 + (← hexDigit? c)) * 16 + (← hexDigit? d)

/-- What a character after a backslash stands for. -/
def escaped? (c : Char) : Option Nat :=
  if c == '"' || c == '\\' || c == '/' then some c.toNat
  else if c == 'n' then some 0x0A
  else if c == 'r' then some 0x0D
  else if c == 't' then some 0x09
  else if c == 'b' then some 0x08
  else if c == 'f' then some 0x0C
  else none

/-- The code points and code units up to the closing quote, and the rest. -/
def stringTail : List Char → Option (List Nat × List Char)
  | [] => none
  | '"' :: rest => some ([], rest)
  | '\\' :: 'u' :: a :: b :: c :: d :: rest => do
    let n ← unit? a b c d
    let (ns, rest) ← stringTail rest
    return (n :: ns, rest)
  | '\\' :: c :: rest => do
    let n ← escaped? c
    let (ns, rest) ← stringTail rest
    return (n :: ns, rest)
  | c :: rest =>
    if c.toNat < 0x20 || c == '\\' then none
    else do
      let (ns, rest) ← stringTail rest
      return (c.toNat :: ns, rest)

/-- The character with a code point; a lone half of a pair becomes the replacement character. -/
def charOf (n : Nat) : Char := if n.isValidChar then Char.ofNat n else '\uFFFD'

/-- Whether a code unit is the first half of a pair. -/
def isHigh (n : Nat) : Bool := 0xD800 ≤ n && n < 0xDC00

/-- Whether a code unit is the second half of a pair. -/
def isLow (n : Nat) : Bool := 0xDC00 ≤ n && n < 0xE000

/-- The characters that code points and pairs of code units write. -/
def paired : List Nat → List Char
  | [] => []
  | [n] => [charOf n]
  | n :: m :: rest =>
    if isHigh n && isLow m then
      charOf (0x10000 + (n - 0xD800) * 0x400 + (m - 0xDC00)) :: paired rest
    else charOf n :: paired (m :: rest)

theorem length_stringTail_le {cs rest : List Char} {ns : List Nat}
    (h : stringTail cs = some (ns, rest)) : rest.length < cs.length := by
  fun_induction stringTail cs generalizing ns rest with
  | case1 => simp at h
  | case2 => simp at h; simp [h.2]
  | case3 a b c d tail ih =>
    simp only [bind, Option.bind_eq_some_iff] at h
    obtain ⟨_, _, ⟨_, rest'⟩, h', h''⟩ := h
    simp at h''
    have := ih h'
    simp [← h''.2]; omega
  | case4 c tail _ ih =>
    simp only [bind, Option.bind_eq_some_iff] at h
    obtain ⟨_, _, ⟨_, rest'⟩, h', h''⟩ := h
    simp at h''
    have := ih h'
    simp [← h''.2]; omega
  | case5 => simp at h
  | case6 c tail _ _ _ _ ih =>
    simp only [bind, Option.bind_eq_some_iff] at h
    obtain ⟨⟨_, rest'⟩, h', h''⟩ := h
    simp at h''
    have := ih h'
    simp [← h''.2]; omega

/-- A value and the rest of a text of length `n`, which is shorter. -/
abbrev Front (α : Type) (n : Nat) := α × { rest : List Char // rest.length < n }

/-- A string after its opening quote. -/
def text? (cs : List Char) : Option (Front String cs.length) :=
  match h : stringTail cs with
  | some (ns, rest) => some (String.ofList (paired ns), ⟨rest, length_stringTail_le h⟩)
  | none => none

/-! ## Numbers and words -/

/-- Whether a character can stand in a number. -/
def isNumberChar (c : Char) : Bool :=
  (asciiDigit? c).isSome || c == '-' || c == '+' || c == '.' || c == 'e' || c == 'E'

/-- Whether the characters are digits, at least one. -/
def isDigits (cs : List Char) : Bool := !cs.isEmpty && cs.all fun c => (asciiDigit? c).isSome

/-- Whether the characters are an exponent after its letter. -/
def isExponent : List Char → Bool
  | '+' :: cs | '-' :: cs => isDigits cs
  | cs => isDigits cs

/-- Whether the characters write a number: no leading zeros, digits around a point. -/
def isNumber (cs : List Char) : Bool :=
  let cs := if cs.head? == some '-' then cs.drop 1 else cs
  let (mantissa, exponent) := cs.span fun c => c != 'e' && c != 'E'
  let (whole, fraction) := mantissa.span (· != '.')
  isDigits whole && (whole.length == 1 || whole.head? != some '0') &&
    (fraction.isEmpty || isDigits (fraction.drop 1)) &&
    (exponent.isEmpty || isExponent (exponent.drop 1))

/-- The value that a word without quotes writes. -/
def word? (cs : List Char) : Option Json :=
  if cs == "null".toList then some .null
  else if cs == "true".toList then some (.bool true)
  else if cs == "false".toList then some (.bool false)
  else if isNumber cs then (Decimal.parseChars? cs).map .number
  else none

/-- Whether a character can stand in a number or a word. -/
def isWordChar (c : Char) : Bool := isNumberChar c || c.isAlpha

/-! ## Values -/

/-- The name of a member with its colon, and the rest. -/
def memberName (cs : List Char) : Option (Front String cs.length) :=
  match cs with
  | '"' :: rest => do
    let (name, ⟨after, _⟩) ← text? rest
    have shorter := length_skip_le after
    match h : skip after with
    | ':' :: next =>
      have := length_skip_le next
      some (name, ⟨skip next, by simp [h] at shorter; simp; omega⟩)
    | _ => none
  | _ => none

mutual

/-- A value at the start of a text. -/
def value (cs : List Char) : Option (Front Json cs.length) :=
  match cs with
  | [] => none
  | '"' :: rest => do
    let (s, ⟨after, _⟩) ← text? rest
    return (.string s, ⟨after, by simp; omega⟩)
  | '[' :: rest =>
    have shorter := length_skip_le rest
    match h : skip rest with
    | ']' :: after => some (.array [], ⟨after, by simp [h] at shorter; simp; omega⟩)
    | first => do
      let (items, ⟨after, _⟩) ← items first
      return (.array items, ⟨after, by simp [h] at shorter; simp; omega⟩)
  | '{' :: rest =>
    have shorter := length_skip_le rest
    match h : skip rest with
    | '}' :: after => some (.object [], ⟨after, by simp [h] at shorter; simp; omega⟩)
    | first => do
      let (members, ⟨after, _⟩) ← members first
      return (.object members, ⟨after, by simp [h] at shorter; simp; omega⟩)
  | c :: rest => do
    let j ← word? (c :: rest.takeWhile isWordChar)
    return (j, ⟨rest.dropWhile isWordChar, by
      have := (List.dropWhile_sublist isWordChar (l := rest)).length_le; simp; omega⟩)
termination_by (cs.length, 0)
decreasing_by
  all_goals
    simp [h] at shorter
    simp [Prod.lex_def]
    omega

/-- The items of an array, up to its end. -/
def items (cs : List Char) : Option (Front (List Json) cs.length) := do
  let (j, ⟨rest, _⟩) ← value cs
  have shorter := length_skip_le rest
  match h : skip rest with
  | ']' :: after => some ([j], ⟨after, by simp [h] at shorter; omega⟩)
  | ',' :: next => do
    have shorter' := length_skip_le next
    let (more, ⟨after, _⟩) ← items (skip next)
    return (j :: more, ⟨after, by simp [h] at shorter; omega⟩)
  | _ => none
termination_by (cs.length, 1)
decreasing_by
  · simp [Prod.lex_def]
  · simp [h] at shorter
    simp [Prod.lex_def]
    omega

/-- The members of an object, up to its end. -/
def members (cs : List Char) : Option (Front (List (String × Json)) cs.length) := do
  let (name, ⟨start, _⟩) ← memberName cs
  let (j, ⟨rest, _⟩) ← value start
  have shorter := length_skip_le rest
  match h : skip rest with
  | '}' :: after => some ([(name, j)], ⟨after, by simp [h] at shorter; omega⟩)
  | ',' :: next => do
    have shorter' := length_skip_le next
    let (more, ⟨after, _⟩) ← members (skip next)
    return ((name, j) :: more, ⟨after, by simp [h] at shorter; omega⟩)
  | _ => none
termination_by (cs.length, 1)
decreasing_by
  · simp [Prod.lex_def]; omega
  · simp [h] at shorter
    simp [Prod.lex_def]
    omega

end

/-- The value that a text writes. -/
def parse? (s : String) : Option Json := do
  let (j, ⟨rest, _⟩) ← value (skip s.toList)
  if (skip rest).isEmpty then some j else none

end Migration.Json
