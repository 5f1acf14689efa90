import Migration.Json.Parser
import Migration.Json.Printer
import Migration.Proofs.Number.Numeral

/-!
# Objects of texts

What stands between the quotes of a string spells a text, in more ways than one, and white space may
stand between the parts of an object. In whatever way an object of texts is written, reading it
gives the texts back. What the printer writes is one of these ways, and one without control
characters.

* `Json.Spells` — a text and what spells it between quotes
* `Json.IsObject` — an object of texts and what writes it
* `Json.parse?_of_isObject` — an object of texts is read back
* `Json.isObject_chars`, `Json.isPrintable_chars` — the printer writes the object, on one line
-/

namespace Migration.Json

open Text

/-! ## Ways to write -/

/-- The letters of escapes, with what they stand for. -/
def escapes : List (Char × Char) :=
  [('"', '"'), ('\\', '\\'), ('/', '/'), ('b', '\x08'), ('f', '\x0C'), ('n', '\n'), ('r', '\r'),
    ('t', '\t')]

/-- An escape that gives a code unit by its digits. -/
def IsUnit (cs : List Char) (n : Nat) : Prop :=
  ∃ a b c d, cs = ['\\', 'u', a, b, c, d] ∧ unit? a b c d = some n

/-- A text and what spells it between quotes. -/
inductive Spells : List Char → List Char → Prop
  | nil : Spells [] []
  | plain {c s cs} (printable : 0x20 ≤ c.toNat) (noQuote : c ≠ '"') (noEscape : c ≠ '\\')
      (rest : Spells s cs) : Spells (c :: s) (c :: cs)
  | escape {letter c s cs} (mem : (letter, c) ∈ escapes) (rest : Spells s cs) :
      Spells (c :: s) ('\\' :: letter :: cs)
  | unit {c s digits cs} (writes : IsUnit digits c.toNat) (rest : Spells s cs) :
      Spells (c :: s) (digits ++ cs)
  | pair {c s first second high low cs} (writes : IsUnit first high) (writes' : IsUnit second low)
      (isHigh : isHigh high = true) (isLow : isLow low = true)
      (code : c.toNat = 0x10000 + (high - 0xD800) * 0x400 + (low - 0xDC00)) (rest : Spells s cs) :
      Spells (c :: s) (first ++ (second ++ cs))

/-- White space between the parts of a value. -/
def IsGap (cs : List Char) : Prop := ∀ c ∈ cs, isSpace c = true

instance : DecidablePred IsGap := fun cs => List.decidableBAll _ cs

/-- A text in quotes. -/
def IsString (s : String) (cs : List Char) : Prop :=
  ∃ spelled, Spells s.toList spelled ∧ cs = '"' :: (spelled ++ ['"'])

/-- A member whose value is a text: its name and the text, with a colon between them. -/
def IsMember (member : String × String) (cs : List Char) : Prop :=
  ∃ name before after text, IsString member.1 name ∧ IsGap before ∧ IsGap after ∧
    IsString member.2 text ∧ cs = name ++ (before ++ ':' :: (after ++ text))

/-- Members with commas between them. -/
inductive IsMembers : List (String × String) → List Char → Prop
  | single {member cs after} (is : IsMember member cs) (gap : IsGap after) :
      IsMembers [member] (cs ++ after)
  | cons {member members cs before after rest} (is : IsMember member cs) (gap : IsGap before)
      (gap' : IsGap after) (more : IsMembers members rest) :
      IsMembers (member :: members) (cs ++ (before ++ ',' :: (after ++ rest)))

/-- An object of texts: its members in braces. -/
inductive IsObject : List (String × String) → List Char → Prop
  | empty {before} (gap : IsGap before) : IsObject [] ('{' :: (before ++ ['}']))
  | of {members before cs} (gap : IsGap before) (is : IsMembers members cs) :
      IsObject members ('{' :: (before ++ (cs ++ ['}'])))

/-- The object with these texts as members. -/
def ofTexts (members : List (String × String)) : Json :=
  object (members.map fun member => (member.1, string member.2))

/-! ## Reading a text -/

@[simp] theorem charOf_toNat (c : Char) : charOf c.toNat = c := by
  unfold charOf
  have valid : c.toNat.isValidChar := c.valid
  rw [if_pos valid, Char.ofNat_toNat]

/-- A code point is no half of a pair. -/
@[simp] theorem isHigh_toNat (c : Char) : isHigh c.toNat = false := by
  have valid : c.toNat < 0xD800 ∨ 0xDFFF < c.toNat ∧ c.toNat < 0x110000 := c.valid
  unfold isHigh
  simp only [Bool.and_eq_false_iff, decide_eq_false_iff_not]
  omega

/-- What is no first half of a pair stands for itself. -/
theorem paired_cons {n : Nat} (single : isHigh n = false) (ns : List Nat) :
    paired (n :: ns) = charOf n :: paired ns := by
  cases ns with
  | nil => rfl
  | cons m rest => rw [paired, single]; rfl

/-- A pair stands for one character. -/
theorem paired_pair {high low : Nat} (first : isHigh high = true) (second : isLow low = true)
    (ns : List Nat) : paired (high :: low :: ns) =
      charOf (0x10000 + (high - 0xD800) * 0x400 + (low - 0xDC00)) :: paired ns := by
  rw [paired, first, second]
  rfl

theorem stringTail_plain {c : Char} (printable : 0x20 ≤ c.toNat) (noQuote : c ≠ '"')
    (noEscape : c ≠ '\\') {cs rest : List Char} {ns : List Nat}
    (tail : stringTail cs = some (ns, rest)) :
    stringTail (c :: cs) = some (c.toNat :: ns, rest) := by
  have allowed : ¬(decide (c.toNat < 0x20) || c == '\\') = true := by simp [printable, noEscape]
  rw [stringTail, if_neg allowed, tail]
  · rfl
  · exact noQuote
  · exact fun _ _ _ _ _ is => absurd is noEscape
  · exact fun _ _ is => absurd is noEscape

theorem escaped?_of_mem : ∀ e ∈ escapes, e.1 ≠ 'u' ∧ escaped? e.1 = some e.2.toNat := by decide

theorem stringTail_escape {letter c : Char} (mem : (letter, c) ∈ escapes) {cs rest : List Char}
    {ns : List Nat} (tail : stringTail cs = some (ns, rest)) :
    stringTail ('\\' :: letter :: cs) = some (c.toNat :: ns, rest) := by
  obtain ⟨noUnit, value⟩ := escaped?_of_mem _ mem
  rw [stringTail, value, tail]
  · rfl
  · exact fun _ _ _ _ _ is => absurd is noUnit

theorem stringTail_unit {digits : List Char} {n : Nat} (writes : IsUnit digits n)
    {cs rest : List Char} {ns : List Nat} (tail : stringTail cs = some (ns, rest)) :
    stringTail (digits ++ cs) = some (n :: ns, rest) := by
  obtain ⟨a, b, c, d, rfl, value⟩ := writes
  show stringTail ('\\' :: 'u' :: a :: b :: c :: d :: cs) = _
  rw [stringTail, value, tail]
  rfl

/-- What spells a text is read as its code points and halves of pairs. -/
theorem Spells.exists_stringTail {s cs : List Char} (h : Spells s cs) (rest : List Char) :
    ∃ ns, stringTail (cs ++ '"' :: rest) = some (ns, rest) ∧ paired ns = s := by
  induction h with
  | nil => exact ⟨[], rfl, rfl⟩
  | plain printable noQuote noEscape _ ih =>
    obtain ⟨ns, tail, means⟩ := ih
    exact ⟨_, stringTail_plain printable noQuote noEscape tail, by simp [paired_cons, means]⟩
  | escape mem _ ih =>
    obtain ⟨ns, tail, means⟩ := ih
    exact ⟨_, stringTail_escape mem tail, by simp [paired_cons, means]⟩
  | unit writes _ ih =>
    obtain ⟨ns, tail, means⟩ := ih
    refine ⟨_, ?_, by rw [paired_cons (isHigh_toNat _), charOf_toNat, means]⟩
    rw [List.append_assoc]
    exact stringTail_unit writes tail
  | pair writes writes' isHigh isLow code _ ih =>
    obtain ⟨ns, tail, means⟩ := ih
    refine ⟨_, ?_, by rw [paired_pair isHigh isLow, ← code, charOf_toNat, means]⟩
    rw [List.append_assoc, List.append_assoc]
    exact stringTail_unit writes (stringTail_unit writes' tail)

/-! ## Reading an object -/

variable {s name : String} {cs gap rest : List Char} {member : String × String}
  {members : List (String × String)}

theorem text?_of_spells (h : Spells s.toList cs) (rest : List Char) :
    ∃ shorter, text? (cs ++ '"' :: rest) = some (s, ⟨rest, shorter⟩) := by
  obtain ⟨ns, tail, means⟩ := h.exists_stringTail rest
  unfold text?
  split
  · next ns' rest' read =>
    obtain ⟨rfl, rfl⟩ := Prod.mk.inj (Option.some.inj (tail.symm.trans read))
    refine ⟨length_stringTail_le tail, ?_⟩
    rw [means, String.ofList_toList]
  · next fails => rw [tail] at fails; cases fails

/-- White space is passed over up to the character after it. -/
theorem skip_append (h : IsGap gap) {c : Char} (solid : isSpace c = false) (rest : List Char) :
    skip (gap ++ c :: rest) = c :: rest := by
  unfold skip
  rw [List.dropWhile_append_of_pos h, List.dropWhile_cons_of_neg (by simp [solid])]

theorem value_of_isString (h : IsString s cs) (rest : List Char) :
    ∃ shorter, value (cs ++ rest) = some (string s, ⟨rest, shorter⟩) := by
  obtain ⟨spelled, spells, rfl⟩ := h
  obtain ⟨shorter, read⟩ := text?_of_spells spells rest
  rw [List.cons_append, List.append_assoc, List.singleton_append]
  refine ⟨Nat.lt_succ_of_lt shorter, ?_⟩
  rw [value, read]
  rfl

/-- Members start with a quote. -/
theorem IsMembers.starts (h : IsMembers members cs) : ∃ tail, cs = '"' :: tail := by
  obtain ⟨⟨_, _, _, _, ⟨_, _, rfl⟩, -, -, -, rfl⟩, -⟩ |
    ⟨⟨_, _, _, _, ⟨_, _, rfl⟩, -, -, -, rfl⟩, -, -, -⟩ := h <;> exact ⟨_, rfl⟩

theorem IsMembers.skip (h : IsMembers members cs) (gap' : IsGap gap) (rest : List Char) :
    skip (gap ++ (cs ++ rest)) = cs ++ rest := by
  obtain ⟨tail, rfl⟩ := h.starts
  exact skip_append gap' rfl _

/-- The name of a member is read up to its value, and its value up to its end. -/
theorem memberName_of_isMember (h : IsMember member cs) (rest : List Char) :
    ∃ start shorter shorter', memberName (cs ++ rest) = some (member.1, ⟨start, shorter⟩) ∧
      value start = some (string member.2, ⟨rest, shorter'⟩) := by
  obtain ⟨_, before, after, text, ⟨name, spells, rfl⟩, gap, gap', isText, rfl⟩ := h
  obtain ⟨shorter', valued⟩ := value_of_isString isText rest
  obtain ⟨spelled, -, quoted⟩ := isText
  have whole : '"' :: (name ++ ['"']) ++ (before ++ ':' :: (after ++ text)) ++ rest =
      '"' :: (name ++ '"' :: (before ++ ':' :: (after ++ (text ++ rest)))) := by simp
  have colon : skip (before ++ ':' :: (after ++ (text ++ rest))) =
      ':' :: (after ++ (text ++ rest)) :=
    skip_append gap rfl _
  have quote : skip (after ++ (text ++ rest)) = text ++ rest := by
    rw [quoted]
    exact skip_append gap' rfl _
  obtain ⟨shorter, read⟩ := text?_of_spells spells (before ++ ':' :: (after ++ (text ++ rest)))
  rw [whole]
  refine ⟨text ++ rest, by simp; omega, shorter', ?_, valued⟩
  rw [memberName, read]
  dsimp only [bind, Option.bind]
  split
  · next next found =>
    obtain rfl : after ++ (text ++ rest) = next := (List.cons.inj (colon.symm.trans found)).2
    exact congrArg (fun front => some (member.1, front)) (Subtype.ext quote)
  · next differs => exact absurd colon (differs _)

/-- The last member is read up to the closing brace. -/
theorem members_of_brace (is : IsMember member cs) {after : List Char}
    (brace : skip after = '}' :: rest) :
    ∃ shorter, Json.members (cs ++ after) =
      some ([(member.1, string member.2)], ⟨rest, shorter⟩) := by
  obtain ⟨start, shorter, shorter', named, valued⟩ := memberName_of_isMember is after
  have bound : (skip after).length ≤ after.length := length_skip_le after
  rw [brace, List.length_cons] at bound
  refine ⟨by omega, ?_⟩
  rw [Json.members, named]
  dsimp only [bind, Option.bind]
  rw [valued]
  dsimp only
  split
  · next next found =>
    obtain rfl : rest = next := (List.cons.inj (brace.symm.trans found)).2
    rfl
  · next found => cases brace.symm.trans found
  · next differs _ => exact absurd brace (differs _)

/-- A member before a comma is read, and then those after the comma. -/
theorem members_of_comma (is : IsMember member cs) {after next : List Char}
    (comma : skip after = ',' :: next) {others : List (String × Json)}
    (more : ∃ shorter, Json.members (skip next) = some (others, ⟨rest, shorter⟩)) :
    ∃ shorter, Json.members (cs ++ after) =
      some ((member.1, string member.2) :: others, ⟨rest, shorter⟩) := by
  obtain ⟨start, shorter, shorter', named, valued⟩ := memberName_of_isMember is after
  obtain ⟨shorter'', more⟩ := more
  have bound : (skip after).length ≤ after.length := length_skip_le after
  have bound' : (skip next).length ≤ next.length := length_skip_le next
  rw [comma, List.length_cons] at bound
  refine ⟨by omega, ?_⟩
  rw [Json.members, named]
  dsimp only [bind, Option.bind]
  rw [valued]
  dsimp only
  split
  · next found => cases comma.symm.trans found
  · next next' found =>
    obtain rfl : next = next' := (List.cons.inj (comma.symm.trans found)).2
    rw [more]
    rfl
  · next differs => exact absurd comma (differs _)

/-- Members are read up to the closing brace. -/
theorem members_of_isMembers (h : IsMembers members cs) (rest : List Char) :
    ∃ shorter, Json.members (cs ++ '}' :: rest) =
      some (members.map fun member => (member.1, string member.2), ⟨rest, shorter⟩) := by
  induction h with
  | single is gap =>
    rw [List.append_assoc]
    exact members_of_brace is (skip_append gap rfl rest)
  | @cons member members cs before after body is gap gap' more ih =>
    have whole : cs ++ (before ++ ',' :: (after ++ body)) ++ '}' :: rest =
        cs ++ (before ++ ',' :: (after ++ (body ++ '}' :: rest))) := by simp
    rw [whole]
    refine members_of_comma is (skip_append gap rfl _) ?_
    rw [more.skip gap']
    exact ih

/-- An object of texts is a value. -/
theorem value_of_isObject (h : IsObject members cs) :
    ∃ shorter, value cs = some (ofTexts members, ⟨[], shorter⟩) := by
  cases h with
  | @empty before gap =>
    have close : skip (before ++ ['}']) = ['}'] := skip_append gap rfl []
    refine ⟨by simp, ?_⟩
    rw [value]
    split
    · next next found =>
      obtain rfl : [] = next := (List.cons.inj (close.symm.trans found)).2
      rfl
    · next differs => exact absurd close (differs _)
  | @of members before body gap is =>
    obtain ⟨shorter, read⟩ := members_of_isMembers is []
    have first : ∃ shorter, Json.members (skip (before ++ (body ++ ['}']))) =
        some (members.map fun member => (member.1, string member.2), ⟨[], shorter⟩) := by
      rw [is.skip gap]
      exact ⟨shorter, read⟩
    obtain ⟨shorter', first⟩ := first
    refine ⟨by simp, ?_⟩
    rw [value]
    split
    · next next found =>
      obtain ⟨tail, rfl⟩ := is.starts
      cases (skip_append gap rfl _).symm.trans found
    · next differs =>
      rw [first]
      rfl

/-- Objects start with a brace. -/
theorem IsObject.skip (h : IsObject members cs) : skip cs = cs := by
  cases h <;> rfl

/-- An object of texts is read back, in whatever way it is written. -/
theorem parse?_of_isObject {line : String} (h : IsObject members line.toList) :
    parse? line = some (ofTexts members) := by
  have read : ∃ shorter, value (skip line.toList) = some (ofTexts members, ⟨[], shorter⟩) := by
    rw [h.skip]
    exact value_of_isObject h
  obtain ⟨shorter, read⟩ := read
  unfold parse?
  rw [read]
  rfl

/-! ## Writing an object -/

theorem hexDigit?_hexChar {d : Nat} (small : d < 16) : hexDigit? (hexChar d) = some d := by
  have all : ∀ d ∈ List.range 16, hexDigit? (hexChar d) = some d := by decide
  exact all d (List.mem_range.2 small)

/-- The escape of a code unit gives it by its digits. -/
theorem isUnit_unitEscape {n : Nat} (small : n < 0x10000) : IsUnit (unitEscape n) n := by
  have digit (k : Nat) : hexDigit? (hexChar (k % 16)) = some (k % 16) :=
    hexDigit?_hexChar (Nat.mod_lt _ (by decide))
  refine ⟨_, _, _, _, rfl, ?_⟩
  unfold unit?
  rw [digit, digit, digit, digit]
  refine congrArg some ?_
  omega

/-- The escapes and characters that are written for a character spell it. -/
theorem Spells.charInString {s cs : List Char} (charset : Charset) (c : Char) (rest : Spells s cs) :
    Spells (c :: s) (charInString charset c ++ cs) := by
  unfold Json.charInString
  have numbered (d : Char) (same : (c.toNat == d.toNat) = true) : c = d :=
    Char.toNat_inj.1 (beq_iff_eq.1 same)
  have letter {e d : Char} (mem : (e, d) ∈ escapes) (is : c = d) :
      Spells (c :: s) (['\\', e] ++ cs) := is ▸ .escape mem rest
  split
  · next is => exact letter (by decide) (beq_iff_eq.1 is)
  split
  · next is => exact letter (by decide) (beq_iff_eq.1 is)
  split
  · next is => exact letter (by decide) (beq_iff_eq.1 is)
  split
  · next is => exact letter (by decide) (beq_iff_eq.1 is)
  split
  · next is => exact letter (by decide) (beq_iff_eq.1 is)
  split
  · next is => exact letter (by decide) (numbered '\x0C' is)
  split
  · next is => exact letter (by decide) (numbered '\x08' is)
  next noQuote noEscape _ _ _ _ _ =>
    dsimp only
    split
    · next control => exact .unit (isUnit_unitEscape (by omega)) rest
    split
    · next printable _ =>
      exact .plain (by omega) (by simpa using noQuote) (by simpa using noEscape) rest
    split
    · next small => exact .unit (isUnit_unitEscape small) rest
    · next large =>
      have valid : c.toNat < 0xD800 ∨ 0xDFFF < c.toNat ∧ c.toNat < 0x110000 := c.valid
      rw [List.append_assoc]
      exact .pair (isUnit_unitEscape (by omega)) (isUnit_unitEscape (by omega))
        (by simp only [isHigh, Bool.and_eq_true, decide_eq_true_eq]; omega)
        (by simp only [isLow, Bool.and_eq_true, decide_eq_true_eq]; omega) (by omega) rest

/-- What is written for a text spells it. -/
theorem isString_stringChars (charset : Charset) (s : String) :
    IsString s (stringChars charset s) := by
  refine ⟨_, ?_, rfl⟩
  induction s.toList with
  | nil => exact .nil
  | cons c rest ih => exact ih.charInString charset c

@[simp] theorem chars_string (charset : Charset) (s : String) :
    chars charset (string s) = stringChars charset s := by
  rw [chars]
  · rfl
  all_goals exact nofun

theorem isGap_nil : IsGap [] := nofun

theorem isGap_blank : IsGap [' '] := by decide

theorem isMember_memberChars (charset : Charset) (member : String × String) :
    IsMember member (memberChars charset (member.1, string member.2)) := by
  refine ⟨_, [], [' '], _, isString_stringChars charset member.1, isGap_nil, isGap_blank,
    isString_stringChars charset member.2, ?_⟩
  rw [memberChars, chars_string]
  rfl

theorem isMembers_separated (charset : Charset) (member : String × String)
    (members : List (String × String)) : IsMembers (member :: members) (separated [',', ' ']
      (membersChars charset
        ((member :: members).map fun member => (member.1, string member.2)))) := by
  induction members generalizing member with
  | nil =>
    have alone := IsMembers.single (isMember_memberChars charset member) isGap_nil
    rwa [List.append_nil] at alone
  | cons next members ih =>
    have more := IsMembers.cons (isMember_memberChars charset member) isGap_nil
      isGap_blank (ih next)
    simp only [List.map_cons, membersChars, separated] at more ⊢
    rwa [List.append_assoc]

/-- What is written for an object of texts is one of its ways to be written. -/
theorem isObject_chars (charset : Charset) (members : List (String × String)) :
    IsObject members (chars charset (ofTexts members)) := by
  unfold ofTexts
  rw [chars]
  cases members with
  | nil => exact .empty isGap_nil
  | cons member members => exact .of isGap_nil (isMembers_separated charset member members)

/-! ## One line -/

/-- There are no control characters, and so no ends of lines. -/
def IsPrintable (cs : List Char) : Prop := ∀ c ∈ cs, 0x20 ≤ c.toNat

instance : DecidablePred IsPrintable := fun cs => List.decidableBAll _ cs

theorem IsPrintable.append {cs ds : List Char} (h : IsPrintable cs) (h' : IsPrintable ds) :
    IsPrintable (cs ++ ds) := List.forall_mem_append.2 ⟨h, h'⟩

theorem IsPrintable.cons {c : Char} {cs : List Char} (h : 0x20 ≤ c.toNat) (h' : IsPrintable cs) :
    IsPrintable (c :: cs) := List.forall_mem_cons.2 ⟨h, h'⟩

theorem isPrintable_of_hexDigit? {c : Char} {n : Nat} (h : hexDigit? c = some n) :
    0x20 ≤ c.toNat := by
  unfold hexDigit? at h
  by_contra control
  rw [if_neg (by simp; omega), if_neg (by simp; omega), if_neg (by simp; omega)] at h
  cases h

theorem IsUnit.isPrintable {n : Nat} (h : IsUnit cs n) : IsPrintable cs := by
  obtain ⟨a, b, c, d, rfl, value⟩ := h
  unfold unit? at value
  simp only [bind, Option.bind_eq_some_iff] at value
  obtain ⟨_, first, _, second, _, third, _, fourth, -⟩ := value
  have digits : IsPrintable [a, b, c, d] :=
    .cons (isPrintable_of_hexDigit? first) <| .cons (isPrintable_of_hexDigit? second) <|
      .cons (isPrintable_of_hexDigit? third) <| .cons (isPrintable_of_hexDigit? fourth) nofun
  exact (digits.cons (by decide)).cons (by decide)

/-- A text is spelled without control characters, even if it has some. -/
theorem Spells.isPrintable {s cs : List Char} (h : Spells s cs) : IsPrintable cs := by
  induction h with
  | nil => exact nofun
  | plain printable _ _ _ ih => exact ih.cons printable
  | escape mem _ ih =>
    have letters : ∀ e ∈ escapes, 0x20 ≤ e.1.toNat := by decide
    exact (ih.cons (letters _ mem)).cons (by decide)
  | unit writes _ ih => exact writes.isPrintable.append ih
  | pair writes writes' _ _ _ _ ih =>
    exact writes.isPrintable.append (writes'.isPrintable.append ih)

theorem isPrintable_stringChars (charset : Charset) (s : String) :
    IsPrintable (stringChars charset s) := by
  obtain ⟨spelled, spells, written⟩ := isString_stringChars charset s
  rw [written]
  exact (spells.isPrintable.append (by decide)).cons (by decide)

theorem isPrintable_memberChars (charset : Charset) (member : String × String) :
    IsPrintable (memberChars charset (member.1, string member.2)) := by
  rw [memberChars, chars_string]
  exact (isPrintable_stringChars charset member.1).append
    (((isPrintable_stringChars charset member.2).cons (by decide)).cons (by decide))

theorem isPrintable_separated {parts : List (List Char)} (h : ∀ part ∈ parts, IsPrintable part) :
    IsPrintable (separated [',', ' '] parts) := by
  fun_induction separated with
  | case1 => exact nofun
  | case2 part => exact h part List.mem_cons_self
  | case3 part rest _ ih =>
    obtain ⟨first, others⟩ := List.forall_mem_cons.1 h
    exact (first.append (by decide)).append (ih others)

/-- What is written for an object of texts stays on one line. -/
theorem isPrintable_chars (charset : Charset) (members : List (String × String)) :
    IsPrintable (chars charset (ofTexts members)) := by
  have parts :
      ∀ part ∈ membersChars charset (members.map fun member => (member.1, string member.2)),
      IsPrintable part := by
    induction members with
    | nil => exact nofun
    | cons member rest ih =>
      exact List.forall_mem_cons.2 ⟨isPrintable_memberChars charset member, ih⟩
  unfold ofTexts
  rw [chars]
  exact ((isPrintable_separated parts).cons (by decide)).append (by decide)

end Migration.Json
