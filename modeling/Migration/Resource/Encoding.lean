import Migration.Mishap
import Migration.Text.Digit

/-!
# Encodings of files

Files are bytes. How they are read as text is said by the name of an encoding.

* `Encoding.ofName?` — the encoding with a name; spelling variants do not matter
* `Encoding.decode` — the text that bytes stand for, or the first error in them
-/

namespace Migration

open Text

/-- A way to read bytes as text. -/
inductive Encoding where
  | utf8
  /-- UTF-8 after an optional byte order mark. -/
  | utf8Marked
  | ascii
  | latin1
  deriving DecidableEq, Repr

namespace Encoding

/-- A name in the form in which names are compared: letters in lower case, and one underscore for
each run of other characters than letters, digits and points. -/
def plainName (s : String) : String :=
  let kept := fun c : Char => c.isAlphanum || c == '.'
  let cs := s.toList.map fun c => if kept c then c.toLower else ' '
  join "_" (((splitOn ' ' cs).filter (!·.isEmpty)).map String.ofList)

/-- The names of the encodings. -/
def names : List (Encoding × List String) := [
  (utf8, ["utf_8", "utf8", "u8", "utf", "utf8_ucs2", "utf8_ucs4", "cp65001"]),
  (utf8Marked, ["utf_8_sig", "utf8_sig"]),
  (ascii, ["ascii", "us_ascii", "us", "646", "ansi_x3.4_1968", "ansi_x3_4_1968", "ansi_x3.4_1986",
    "cp367", "csascii", "ibm367", "iso646_us", "iso_646.irv_1991", "iso_ir_6"]),
  (latin1, ["latin_1", "latin1", "latin", "l1", "iso8859_1", "iso_8859_1", "8859", "iso8859",
    "cp819", "csisolatin1", "ibm819", "iso_8859_1_1987", "iso_ir_100"])]

/-- The encoding with a name. -/
def ofName? (name : String) : Option Encoding :=
  (names.find? (·.2.contains (plainName name))).map (·.1)

/-- What is wrong with bytes: the encoding in which, the first wrong byte, where it stands, how many
bytes are concerned, and why. -/
structure Fault where
  encoding : String
  byte : UInt8
  position : Nat
  length : Nat
  reason : String

/-- The message about a fault. -/
def Fault.message (f : Fault) : String :=
  let what :=
    if f.length = 1 then
      "byte 0x" ++ String.ofList (hexNumeral 2 f.byte.toNat) ++ " in position " ++
        String.ofList (numeral f.position)
    else "bytes in position " ++ String.ofList (numeral f.position) ++ "-" ++
      String.ofList (numeral (f.position + f.length - 1))
  "'" ++ f.encoding ++ "' codec can't decode " ++ what ++ ": " ++ f.reason

/-! ## UTF-8 -/

/-- How many bytes follow a first byte, and the bounds of the second one. -/
def sequence? (first : Nat) : Option (Nat × Nat × Nat) :=
  if first < 0xC2 then none
  else if first < 0xE0 then some (1, 0x80, 0xBF)
  else if first == 0xE0 then some (2, 0xA0, 0xBF)
  else if first == 0xED then some (2, 0x80, 0x9F)
  else if first < 0xF0 then some (2, 0x80, 0xBF)
  else if first == 0xF0 then some (3, 0x90, 0xBF)
  else if first < 0xF4 then some (3, 0x80, 0xBF)
  else if first == 0xF4 then some (3, 0x80, 0x8F)
  else none

/-- The number of bytes after the first one that can stand there, up to `wanted` of them; the first
of these has bounds of its own. -/
def goodTail : (wanted low high : Nat) → List UInt8 → Nat
  | 0, _, _, _ => 0
  | _, _, _, [] => 0
  | wanted + 1, low, high, b :: rest =>
    if low ≤ b.toNat && b.toNat ≤ high then goodTail wanted 0x80 0xBF rest + 1 else 0

/-- The code point that a first byte and the bytes after it write. -/
def codePoint (first : Nat) (tail : List UInt8) : Nat :=
  let bits := match tail.length with
    | 1 => first % 0x20
    | 2 => first % 0x10
    | _ => first % 0x08
  tail.foldl (fun n b => n * 0x40 + b.toNat % 0x40) bits

/-- The characters that UTF-8 bytes stand for; `position` bytes come before them. -/
def decodeUtf8 (position : Nat) : List UInt8 → Except Fault (List Char)
  | [] => return []
  | b :: rest =>
    let fault := fun length reason => throw ⟨"utf-8", b, position, length, reason⟩
    if b.toNat < 0x80 then do
      return Char.ofNat b.toNat :: (← decodeUtf8 (position + 1) rest)
    else match sequence? b.toNat with
      | none => fault 1 "invalid start byte"
      | some (wanted, low, high) =>
        let good := goodTail wanted low high rest
        if good = wanted then do
          return Char.ofNat (codePoint b.toNat (rest.take wanted)) ::
            (← decodeUtf8 (position + 1 + wanted) (rest.drop wanted))
        else if good = rest.length then fault (good + 1) "unexpected end of data"
        else fault (good + 1) "invalid continuation byte"
termination_by bytes => bytes.length
decreasing_by
  · exact Nat.lt_succ_self _
  · rw [List.length_drop]
    exact Nat.lt_succ_of_le (Nat.sub_le _ _)

/-! ## Encodings of single bytes -/

/-- The characters that ASCII bytes stand for. -/
def decodeAscii (position : Nat) : List UInt8 → Except Fault (List Char)
  | [] => return []
  | b :: rest =>
    if b.toNat < 0x80 then do return Char.ofNat b.toNat :: (← decodeAscii (position + 1) rest)
    else throw ⟨"ascii", b, position, 1, "ordinal not in range(128)"⟩

/-- The bytes without the byte order mark they may start with. -/
def withoutMark : List UInt8 → List UInt8
  | 0xEF :: 0xBB :: 0xBF :: rest => rest
  | bytes => bytes

/-- The text that bytes stand for. -/
def decode (e : Encoding) (bytes : List UInt8) : Except Fault String :=
  String.ofList <$> match e with
    | utf8 => decodeUtf8 0 bytes
    | utf8Marked => decodeUtf8 0 (withoutMark bytes)
    | ascii => decodeAscii 0 bytes
    | latin1 => return bytes.map fun b => Char.ofNat b.toNat

end Encoding
end Migration
