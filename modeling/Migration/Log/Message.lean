import Migration.Log.Directive
import Migration.Number.Places
import Migration.Value.Printer

/-!
# Log messages

A message is a template filled with values: texts as they are or in quotes, integers in decimal,
octal or hexadecimal, numbers with a given number of digits, and single characters.

* `Log.message` — the message, or why the values do not fit the template
-/

namespace Migration.Log

open Text

/-- What a size measures. -/
inductive Dimension where
  | width
  | precision
  deriving DecidableEq, Repr

/-- The least size that is refused. -/
def Dimension.limit : Dimension → Nat
  | width => Nat.pow 2 63
  | precision => Nat.pow 2 31

/-- Why values do not fit a template. -/
inductive Fault where
  | tooFew
  | tooMany
  | needsMap
  | missingKey (name : String)
  | unclosedKey
  | sizeNotInteger
  /-- A size in the template that is too big. -/
  | sizeTooBig (dimension : Dimension)
  /-- A value that is too big for a size. -/
  | sizeValueTooBig (dimension : Dimension)
  | unfinished
  | unknownLetter (c : Char) (position : Nat)
  /-- A value of this type where a directive writes a number. -/
  | notReal (letter : Char) (type : String)
  /-- A value of this type where a directive writes an integer. -/
  | notInteger (letter : Char) (type : String)
  /-- A value of this type where a number with a point is written. -/
  | notNumber (type : String)
  /-- A special number, by its name, that has no integer part. -/
  | notFinite (name : String)
  /-- A value that is not a number, by its name, and so has no integer part. -/
  | notANumber (name : String)
  | signalingNumber
  | tooLarge
  | notCharacter
  | noCharacter
  deriving DecidableEq, Repr

/-- What is wrong between values and a template. -/
def Fault.message : Fault → String
  | tooFew => "not enough arguments for format string"
  | tooMany => "not all arguments converted during string formatting"
  | needsMap => "format requires a mapping"
  | missingKey name => name
  | unclosedKey => "incomplete format key"
  | sizeNotInteger => "* wants int"
  | sizeTooBig .width => "width too big"
  | sizeTooBig .precision => "precision too big"
  | sizeValueTooBig .width => "Python int too large to convert to C ssize_t"
  | sizeValueTooBig .precision => "Python int too large to convert to C int"
  | unfinished => "incomplete format"
  | unknownLetter c position =>
    let shown := if 31 ≤ c.toNat && c.toNat ≤ 126 then c else '?'
    let code := String.ofList (Nat.toDigits 16 c.toNat)
    s!"unsupported format character '{shown}' (0x{code}) at index {Integer.print position}"
  | notReal letter type => s!"%{letter} format: a real number is required, not {type}"
  | notInteger letter type => s!"%{letter} format: an integer is required, not {type}"
  | notNumber type => s!"must be real number, not {type}"
  | notFinite name | notANumber name => s!"cannot convert {name} to integer"
  | signalingNumber => "cannot convert signaling NaN to float"
  | tooLarge => "int too large to convert to float"
  | notCharacter => "%c requires int or char"
  | noCharacter => "%c arg not in range(0x110000)"

/-! ## Values at hand -/

/-- The values that are left, and the map that names refer to. -/
structure Supply where
  names : Option (List (Value × Value))
  left : List Value

namespace Supply

/-- The values that a message is given: a single map that is not empty is a map of names. -/
def ofValues : List Value → Supply
  | [.map (entry :: entries)] => ⟨some (entry :: entries), [.map (entry :: entries)]⟩
  | values => ⟨none, values⟩

/-- The next value, and what is left after it. -/
def take (s : Supply) : Except Fault (Value × Supply) :=
  match s.left with
  | [] => throw .tooFew
  | v :: rest => return (v, { s with left := rest })

/-- The values at hand for a directive: with a name, its value alone. -/
def select (s : Supply) (key : Key) : Except Fault Supply :=
  match key, s.names with
  | .next, _ => return s
  | _, none => throw .needsMap
  | .unclosed, some _ => throw .unclosedKey
  | .named name, some entries =>
    match entries.find? fun (k, _) => k.asText? == some name with
    | some (_, v) => return { s with left := [v] }
    | none => throw (.missingKey name)

/-- The size that a directive asks for, if it asks for one. -/
def size (s : Supply) (dimension : Dimension) : Size → Except Fault (Option Int × Supply)
  | .none => return (none, s)
  | .given n =>
    if n < dimension.limit then return (some n, s) else throw (.sizeTooBig dimension)
  | .next => do
    let (v, s) ← s.take
    match v with
    | .int n =>
      if -(dimension.limit : Int) ≤ n && n < dimension.limit then return (some n, s)
      else throw (.sizeValueTooBig dimension)
    | .bool b => return (some (if b then 1 else 0), s)
    | _ => throw .sizeNotInteger

end Supply

/-! ## Layout -/

/-- A directive with its sizes. -/
structure Layout where
  directive : Directive
  width : Option Int
  precision : Option Int

namespace Layout

/-- Whether the blanks go behind the value. -/
def isLeft (l : Layout) : Bool := l.directive.has '-' || (l.width.getD 0) < 0

/-- Writes a value in the width: a text is padded with blanks, a number on request with zeros
behind its sign and its marker. -/
def pad (l : Layout) (zeros : Bool) (sign marker body : List Char) : List Char :=
  let fill := (l.width.getD 0).natAbs - (sign.length + marker.length + body.length)
  if l.isLeft then sign ++ marker ++ body ++ List.replicate fill ' '
  else if zeros && l.directive.has '0' then sign ++ marker ++ List.replicate fill '0' ++ body
  else List.replicate fill ' ' ++ sign ++ marker ++ body

/-- The sign of a number: a plus sign or a blank on request. -/
def sign (l : Layout) (negative : Bool) : List Char :=
  if negative then ['-']
  else if l.directive.has '+' then ['+']
  else if l.directive.has ' ' then [' ']
  else []

/-- A text, cut to the precision. -/
def ofText (l : Layout) (cs : List Char) : List Char :=
  l.pad false [] [] (match l.precision with
    | some n => cs.take n.toNat
    | none => cs)

/-- A number with a sign. -/
def ofNumber (l : Layout) (negative : Bool) (marker body : List Char) : List Char :=
  l.pad true (l.sign negative) marker body

end Layout

/-! ## Directives -/

/-- A value as it stands for itself, in ASCII. -/
def asciiQuoted (v : Value) : List Char :=
  v.quoted.toList.flatMap fun c =>
    let n := c.toNat
    if n < 0x80 then [c]
    else if n ≤ 0xFF then '\\' :: 'x' :: hexNumeral 2 n
    else if n ≤ 0xFFFF then '\\' :: 'u' :: hexNumeral 4 n
    else '\\' :: 'U' :: hexNumeral 8 n

/-- The integer part of a decimal number; a tiny exponent leaves nothing. -/
def decimalInteger (negative : Bool) (coefficient : Nat) (exponent : Int) : Int :=
  let size : Int := (digits coefficient).length
  let n : Int :=
    if exponent + size ≤ 0 then 0
    else
      let (num, den) := Binary64.scaled 10 coefficient 1 (-exponent)
      (num / den : Nat)
  if negative then -n else n

/-- The integer that a directive writes: only a directive for decimal digits cuts a fraction off. -/
def integerOf (letter : Char) (v : Value) : Except Fault Int :=
  let cuts := letter == 'd' || letter == 'i' || letter == 'u'
  match v with
  | .int n => return n
  | .bool b => return if b then 1 else 0
  | .float (.finite negative mantissa exponent) =>
    if cuts then
      let (num, den) := Binary64.ratio mantissa exponent
      let n : Int := (num / den : Nat)
      return if negative then -n else n
    else throw (.notInteger letter v.typeName)
  | .float (.infinite _) =>
    throw (if cuts then .notFinite "float infinity" else .notInteger letter v.typeName)
  | .float .nan => throw (if cuts then .notANumber "float NaN" else .notInteger letter v.typeName)
  | .decimal (.finite negative coefficient exponent) =>
    if cuts then return decimalInteger negative coefficient exponent
    else throw (.notInteger letter v.typeName)
  | .decimal (.infinite _) =>
    throw (if cuts then .notFinite "Infinity" else .notInteger letter v.typeName)
  | .decimal (.nan ..) =>
    throw (if cuts then .notANumber "NaN" else .notInteger letter v.typeName)
  | v => throw (if cuts then .notReal letter v.typeName else .notInteger letter v.typeName)

/-- The digits of a number in the base of a letter. -/
def digitsFor (letter : Char) (n : Nat) : List Char :=
  if letter == 'o' then Nat.toDigits 8 n
  else if letter == 'x' then Nat.toDigits 16 n
  else if letter == 'X' then (Nat.toDigits 16 n).map Char.toUpper
  else numeral n

/-- An integer with at least as many digits as the precision, and on request the marker of its
base. -/
def integerChars (l : Layout) (letter : Char) (n : Int) : List Char :=
  let ds := digitsFor letter n.natAbs
  let ds := List.replicate ((l.precision.getD 0).toNat - ds.length) '0' ++ ds
  let hasMarker := l.directive.has '#' && (letter == 'o' || letter == 'x' || letter == 'X')
  l.ofNumber (n < 0) (if hasMarker then ['0', letter] else []) ds

/-- The floating point number that a directive writes. -/
def floatOf (v : Value) : Except Fault Binary64 :=
  match v with
  | .float x => return x
  | .bool b => return .ofRatio false (if b then 1 else 0) 1
  | .int n =>
    match Binary64.ofRatio (n < 0) n.natAbs 1 with
    | .infinite _ => throw .tooLarge
    | x => return x
  | .decimal (.nan _ true _) => throw .signalingNumber
  | .decimal d => return .ofDecimal d
  | v => throw (.notNumber v.typeName)

/-- A floating point number with so many digits, six unless there is a precision. -/
def floatChars (l : Layout) (letter : Char) (x : Binary64) : List Char :=
  let full := l.directive.has '#'
  let count := match l.precision with
    | some n => n.toNat
    | none => 6
  let kind := letter.toLower
  let cased := fun (cs : List Char) => if letter == kind then cs else cs.map Char.toUpper
  match x with
  | .nan => l.ofNumber false [] (cased "nan".toList)
  | .infinite negative => l.ofNumber negative [] (cased "inf".toList)
  | .finite negative mantissa exponent =>
    l.ofNumber negative [] (cased (
      if kind == 'f' then Binary64.fixedChars full count mantissa exponent
      else if kind == 'e' then Binary64.scientificChars full count mantissa exponent
      else Binary64.generalChars full count mantissa exponent))

/-- The character that a value gives. -/
def characterOf (v : Value) : Except Fault Char :=
  let ofCode := fun (n : Int) =>
    if 0 ≤ n && n < 0x110000 then .ok (Char.ofNat n.toNat) else .error .noCharacter
  match v with
  | .int n => ofCode n
  | .bool b => ofCode (if b then 1 else 0)
  | v => match v.asText?.map (·.toList) with
    | some [c] => return c
    | _ => throw .notCharacter

/-- A value as a letter asks for it. -/
def write (l : Layout) (letter : Char) (v : Value) : Except Fault (List Char) := do
  match letter with
  | 's' => return l.ofText v.print.toList
  | 'r' => return l.ofText v.quoted.toList
  | 'a' => return l.ofText (asciiQuoted v)
  | 'd' | 'i' | 'u' | 'o' | 'x' | 'X' => return integerChars l letter (← integerOf letter v)
  | 'e' | 'E' | 'f' | 'F' | 'g' | 'G' => return floatChars l letter (← floatOf v)
  | 'c' => return l.pad false [] [] [← characterOf v]
  | _ => throw (.unknownLetter letter l.directive.position)

/-- What a directive writes, and the values that are left. The name is looked up first, then the
sizes are taken, then the value. -/
def fill (s : Supply) (d : Directive) : Except Fault (List Char × Supply) := do
  let s ← s.select d.key
  let (width, s) ← s.size .width d.width
  let (precision, s) ← s.size .precision d.precision
  match d.letter with
  | none => throw .unfinished
  | some letter =>
    let (v, s) ← s.take
    let cs ← write { directive := d, width, precision } letter v
    if s.names.isSome && !s.left.isEmpty then throw .tooMany
    return (cs, s)

/-- The characters of the pieces, filled with values. No value may be left unless they have
names. -/
def fillAll (s : Supply) : List Piece → Except Fault (List Char)
  | [] => if s.names.isNone && !s.left.isEmpty then throw .tooMany else return []
  | .literal c :: rest => return c :: (← fillAll s rest)
  | .directive d :: rest => do
    let (cs, s) ← fill s d
    return cs ++ (← fillAll s rest)

/-- The message of a template filled with values; without values it is the template as it is. -/
def message (template : String) (values : List Value) : Except Fault String :=
  if values.isEmpty then return template
  else String.ofList <$> fillAll (.ofValues values) (Piece.ofChars template.toList)

end Migration.Log
