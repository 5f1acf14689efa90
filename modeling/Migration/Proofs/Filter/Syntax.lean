import Migration.Filter.Expression
import Migration.Proofs.Filter.Spacing

/-!
# The syntax of filter expressions

How filter expressions may be written: negation binds tightest, then conjunction, then disjunction,
which is written as a word or as a comma; parentheses may stand around everything and must stand
where an operand binds less tightly than its operator. Whichever way an expression is written, its
text is read as an expression with the same value.

* `Expr.value` — the value of an expression, given which words are true
* `Expr.Writes`, `Expr.IsWrittenBy` — the tokens, and the texts, that write an expression
* `Expr.Phrases` — the same phrases over any class of words
* `Expr.Phrases.isRead` — what the reader makes of the tokens of an expression
* `evaluate_of_isWrittenBy` — the value of a text is the value of the expression that it writes
-/

namespace Migration.Filter

open Text

namespace Expr

/-! ## Values -/

/-- The value of an expression, given which words are true. -/
def value (truth : String → Bool) : Expr → Bool
  | word w => truth w
  | not e => !e.value truth
  | and l r => l.value truth && r.value truth
  | or l r => l.value truth || r.value truth

/-- A word is true for some words if one of them is the same in lower case. -/
def isAmong (words : List String) (w : String) : Bool := words.any fun v => lower v == lower w

theorem holds_map_lower (words : List String) (e : Expr) :
    e.holds (words.map lower) = e.value (isAmong words) := by
  induction e with
  | word w =>
    simp only [holds, value, isAmong]
    rw [Bool.eq_iff_iff]
    simp
  | not e ih => rw [holds, value, ih]
  | and l r ihl ihr => rw [holds, value, ihl, ihr]
  | or l r ihl ihr => rw [holds, value, ihl, ihr]

/-- Two expressions have the same value, whichever words are true. -/
def Same (e e' : Expr) : Prop := ∀ truth, e.value truth = e'.value truth

theorem Same.refl (e : Expr) : e.Same e := fun _ => rfl

/-- Conjunctions can be grouped either way. -/
theorem Same.and_assoc {l₁ l₂ m₁ m₂ r : Expr} (first : m₁.Same (.and l₁ l₂))
    (second : m₂.Same (.and m₁ r)) : m₂.Same (.and l₁ (.and l₂ r)) := by
  intro truth
  rw [second truth, value, first truth]
  simp only [value, Bool.and_assoc]

/-- Disjunctions can be grouped either way. -/
theorem Same.or_assoc {l₁ l₂ m₁ m₂ r : Expr} (first : m₁.Same (.or l₁ l₂))
    (second : m₂.Same (.or m₁ r)) : m₂.Same (.or l₁ (.or l₂ r)) := by
  intro truth
  rw [second truth, value, first truth]
  simp only [value, Bool.or_assoc]

/-! ## Writing -/

/-- A word that can stand in an expression: characters of words only, and none of the operators in
any letter case. -/
structure IsWord (w : String) : Prop where
  nonempty : w ≠ ""
  chars : ∀ c ∈ w.toList, Token.isWordChar c = true
  not_and : lower w ≠ "and"
  not_or : lower w ≠ "or"
  not_not : lower w ≠ "not"

instance (w : String) : Decidable (IsWord w) :=
  decidable_of_iff (w ≠ "" ∧ w.toList.all Token.isWordChar = true ∧ lower w ≠ "and" ∧
      lower w ≠ "or" ∧ lower w ≠ "not")
    ⟨fun ⟨nonempty, chars, not_and, not_or, not_not⟩ =>
      { nonempty, chars := List.all_eq_true.1 chars, not_and, not_or, not_not },
      fun h => ⟨h.nonempty, List.all_eq_true.2 h.chars, h.not_and, h.not_or, h.not_not⟩⟩

/-- How tightly a stretch of tokens holds together. -/
inductive Level where
  | alternatives
  | conjunction
  | operand

/-- The tokens that write an expression so that it holds together as tightly as a level says. -/
inductive Writes : Level → Expr → List Token → Prop
  | word {w} (isWord : IsWord w) : Writes .operand (.word w) [.word w]
  | not {t e ts} (isNot : t.isNot = true) (inner : Writes .operand e ts) :
      Writes .operand (.not e) (t :: ts)
  | group {e ts} (inner : Writes .alternatives e ts) :
      Writes .operand e (.opening :: ts ++ [.closing])
  | operand {e ts} (inner : Writes .operand e ts) : Writes .conjunction e ts
  | and {t l r ts us} (isAnd : t.isAnd = true) (left : Writes .conjunction l ts)
      (right : Writes .conjunction r us) : Writes .conjunction (.and l r) (ts ++ t :: us)
  | conjunction {e ts} (inner : Writes .conjunction e ts) : Writes .alternatives e ts
  | or {t l r ts us} (isOr : t.isOr = true) (left : Writes .alternatives l ts)
      (right : Writes .alternatives r us) : Writes .alternatives (.or l r) (ts ++ t :: us)

/-- A text writes an expression: its tokens do, in any spacing. -/
def IsWrittenBy (e : Expr) (s : String) : Prop :=
  ∃ ts, Writes .alternatives e ts ∧ Token.Spaced ts s.toList

/-- The same phrases over any class of words: the operators mean what they mean, and what stands for
an operand is in the class. -/
inductive Phrases (isWord : String → Prop) : Level → Expr → List Token → Prop
  | word {w} (word : isWord w) : Phrases isWord .operand (.word w) [.word w]
  | not {t e ts} (isNot : t.isNot = true) (inner : Phrases isWord .operand e ts) :
      Phrases isWord .operand (.not e) (t :: ts)
  | group {e ts} (inner : Phrases isWord .alternatives e ts) :
      Phrases isWord .operand e (.opening :: ts ++ [.closing])
  | operand {e ts} (inner : Phrases isWord .operand e ts) : Phrases isWord .conjunction e ts
  | and {t l r ts us} (isAnd : t.isAnd = true) (left : Phrases isWord .conjunction l ts)
      (right : Phrases isWord .conjunction r us) :
      Phrases isWord .conjunction (.and l r) (ts ++ t :: us)
  | conjunction {e ts} (inner : Phrases isWord .conjunction e ts) :
      Phrases isWord .alternatives e ts
  | or {t l r ts us} (isOr : t.isOr = true) (left : Phrases isWord .alternatives l ts)
      (right : Phrases isWord .alternatives r us) :
      Phrases isWord .alternatives (.or l r) (ts ++ t :: us)

/-- A word that does not negate what follows. The reader takes any of them where an operand is
due. -/
def IsOperand (w : String) : Prop := lower w ≠ "not"

theorem Writes.phrases {level : Level} {e : Expr} {ts : List Token} (h : Writes level e ts) :
    Phrases IsWord level e ts := by
  induction h with
  | word isWord => exact .word isWord
  | not isNot _ ih => exact .not isNot ih
  | group _ ih => exact .group ih
  | operand _ ih => exact .operand ih
  | and isAnd _ _ left right => exact .and isAnd left right
  | conjunction _ ih => exact .conjunction ih
  | or isOr _ _ left right => exact .or isOr left right

theorem Phrases.mono {isWord isWord' : String → Prop} (mono : ∀ w, isWord w → isWord' w)
    {level : Level} {e : Expr} {ts : List Token} (h : Phrases isWord level e ts) :
    Phrases isWord' level e ts := by
  induction h with
  | word word => exact .word (mono _ word)
  | not isNot _ ih => exact .not isNot ih
  | group _ ih => exact .group ih
  | operand _ ih => exact .operand ih
  | and isAnd _ _ left right => exact .and isAnd left right
  | conjunction _ ih => exact .conjunction ih
  | or isOr _ _ left right => exact .or isOr left right

/-! ## One step of the reader -/

/-- What the reader gives, without the bound on what is left. -/
def plain {n : Nat} (x : Except Problem (Front n)) : Except Problem (Expr × List Token) :=
  x.map fun (e, rest) => (e, rest.1)

theorem plain_alternatives (ts : List Token) :
    plain (alternatives ts) =
      plain (conjunction ts) >>= fun (e, rest) => plain (moreAlternatives e rest) := by
  rw [alternatives]
  rcases conjunction ts with _ | ⟨e, rest, _⟩
  · rfl
  · show plain (moreAlternatives e rest >>= _) = plain (moreAlternatives e rest)
    rcases moreAlternatives e rest with _ | _ <;> rfl

theorem plain_moreAlternatives_nil (e : Expr) : plain (moreAlternatives e []) = .ok (e, []) := by
  rw [moreAlternatives]
  rfl

theorem plain_moreAlternatives_of_isOr {t : Token} (isOr : t.isOr = true) (e : Expr)
    (ts : List Token) : plain (moreAlternatives e (t :: ts)) =
      plain (conjunction ts) >>= fun (r, rest) => plain (moreAlternatives (.or e r) rest) := by
  rw [moreAlternatives]
  simp only [isOr, if_true]
  rcases conjunction ts with _ | ⟨r, rest, _⟩
  · rfl
  · show plain (moreAlternatives (.or e r) rest >>= _) = plain (moreAlternatives (.or e r) rest)
    rcases moreAlternatives (.or e r) rest with _ | _ <;> rfl

theorem plain_moreAlternatives_of_not_isOr {t : Token} (isOr : t.isOr = false) (e : Expr)
    (ts : List Token) : plain (moreAlternatives e (t :: ts)) = .ok (e, t :: ts) := by
  rw [moreAlternatives]
  simp only [isOr]
  rfl

theorem plain_conjunction (ts : List Token) :
    plain (conjunction ts) =
      plain (operand ts) >>= fun (e, rest) => plain (moreOperands e rest) := by
  rw [conjunction]
  rcases operand ts with _ | ⟨e, rest, _⟩
  · rfl
  · show plain (moreOperands e rest >>= _) = plain (moreOperands e rest)
    rcases moreOperands e rest with _ | _ <;> rfl

/-- The operands end where no conjunction follows. -/
theorem plain_moreOperands_of_head {ts : List Token} (ends : ∀ t ∈ ts.head?, t.isAnd = false)
    (e : Expr) : plain (moreOperands e ts) = .ok (e, ts) := by
  rw [moreOperands.eq_def]
  cases ts with
  | nil => rfl
  | cons t rest =>
    simp only [ends t rfl]
    rfl

theorem plain_moreOperands_of_isAnd {t : Token} (isAnd : t.isAnd = true) (e : Expr)
    (ts : List Token) : plain (moreOperands e (t :: ts)) =
      plain (operand ts) >>= fun (r, rest) => plain (moreOperands (.and e r) rest) := by
  rw [moreOperands]
  simp only [isAnd, if_true]
  rcases operand ts with _ | ⟨r, rest, _⟩
  · rfl
  · show plain (moreOperands (.and e r) rest >>= _) = plain (moreOperands (.and e r) rest)
    rcases moreOperands (.and e r) rest with _ | _ <;> rfl

theorem plain_operand_of_isNot {t : Token} (isNot : t.isNot = true) (ts : List Token) :
    plain (operand (t :: ts)) = (plain (operand ts)).map fun (e, rest) => (.not e, rest) := by
  rw [operand.eq_def]
  simp only [isNot, if_true]
  rcases operand ts with _ | _ <;> rfl

theorem plain_operand_word {w : String} (isOperand : IsOperand w) (ts : List Token) :
    plain (operand (.word w :: ts)) = .ok (.word w, ts) := by
  have different : lower w ≠ "not" := isOperand
  have notNot : (Token.word w).isNot = false := by
    simp [Token.isNot, Token.spells, different]
  rw [operand]
  simp only [notNot]
  rfl

/-- A group ends with the parenthesis that its alternatives stop at. -/
theorem plain_operand_group {ts rest : List Token} {e : Expr}
    (inner : plain (alternatives ts) = .ok (e, .closing :: rest)) :
    plain (operand (.opening :: ts)) = .ok (e, rest) := by
  rw [operand]
  simp only [show Token.opening.isNot = false from rfl]
  rcases h : alternatives ts with _ | ⟨e', rest', shorter⟩ <;> rw [h] at inner
  · cases inner
  · cases inner
    rfl

/-! ## Reading what is written -/

/-- A comma or a word for a disjunction asks for no conjunction. -/
theorem isAnd_of_isOr {t : Token} (isOr : t.isOr = true) : t.isAnd = false := by
  cases t with
  | word w =>
    have spells : lower w = "or" := by simpa [Token.isOr, Token.spells] using isOr
    simp [Token.isAnd, Token.spells, spells]
  | _ => rfl

/-- What the reader makes of the tokens of an expression, whatever follows them: an expression with
the same value, with which it goes on, also after operands that it has read before. -/
def IsRead (e : Expr) (ts : List Token) : Level → Prop
  | .operand => ∀ rest, ∃ e', e'.Same e ∧ plain (Expr.operand (ts ++ rest)) = .ok (e', rest)
  | .conjunction =>
    (∀ rest, ∃ e', e'.Same e ∧
      plain (Expr.conjunction (ts ++ rest)) = plain (moreOperands e' rest)) ∧
    ∀ t done rest, t.isAnd = true → ∃ e', e'.Same (.and done e) ∧
      plain (moreOperands done (t :: (ts ++ rest))) = plain (moreOperands e' rest)
  | .alternatives =>
    (∀ rest, (∀ t ∈ rest.head?, t.isAnd = false) → ∃ e', e'.Same e ∧
      plain (Expr.alternatives (ts ++ rest)) = plain (moreAlternatives e' rest)) ∧
    ∀ t done rest, (∀ t ∈ rest.head?, t.isAnd = false) → t.isOr = true →
      ∃ e', e'.Same (.or done e) ∧
        plain (moreAlternatives done (t :: (ts ++ rest))) = plain (moreAlternatives e' rest)

variable {e l r : Expr} {t : Token} {ts us : List Token}

theorem isRead_word {w : String} (isOperand : IsOperand w) : IsRead (.word w) [.word w] .operand :=
  fun rest => ⟨.word w, .refl _, plain_operand_word isOperand rest⟩

theorem IsRead.not (isNot : t.isNot = true) (inner : IsRead e ts .operand) :
    IsRead (.not e) (t :: ts) .operand := by
  intro rest
  obtain ⟨e', same, reads⟩ := inner rest
  refine ⟨.not e', fun truth => by rw [value, value, same truth], ?_⟩
  rw [List.cons_append, plain_operand_of_isNot isNot, reads]
  rfl

theorem IsRead.group (inner : IsRead e ts .alternatives) :
    IsRead e (.opening :: ts ++ [.closing]) .operand := by
  intro rest
  have ends : ∀ t ∈ (Token.closing :: rest).head?, t.isAnd = false := by
    rintro _ ⟨⟩
    rfl
  obtain ⟨e', same, reads⟩ := inner.1 (.closing :: rest) ends
  refine ⟨e', same, ?_⟩
  rw [plain_moreAlternatives_of_not_isOr rfl] at reads
  rw [List.cons_append, List.cons_append, List.append_assoc]
  exact plain_operand_group reads

theorem IsRead.operand (inner : IsRead e ts .operand) : IsRead e ts .conjunction := by
  constructor
  · intro rest
    obtain ⟨e', same, reads⟩ := inner rest
    refine ⟨e', same, ?_⟩
    rw [plain_conjunction, reads]
    rfl
  · intro t done rest isAnd
    obtain ⟨e', same, reads⟩ := inner rest
    refine ⟨.and done e', fun truth => by rw [value, value, same truth], ?_⟩
    rw [plain_moreOperands_of_isAnd isAnd, reads]
    rfl

/-- The reader groups conjunctions to the left, however they are written. -/
theorem IsRead.and (isAnd : t.isAnd = true) (left : IsRead l ts .conjunction)
    (right : IsRead r us .conjunction) : IsRead (.and l r) (ts ++ t :: us) .conjunction := by
  constructor
  · intro rest
    obtain ⟨l', sameLeft, readsLeft⟩ := left.1 (t :: (us ++ rest))
    obtain ⟨e', same, reads⟩ := right.2 t l' rest isAnd
    refine ⟨e', fun truth => by rw [same truth, value, value, sameLeft truth], ?_⟩
    rw [List.append_assoc, List.cons_append, readsLeft, reads]
  · intro t' done rest isAnd'
    obtain ⟨l', sameLeft, readsLeft⟩ := left.2 t' done (t :: (us ++ rest)) isAnd'
    obtain ⟨e', same, reads⟩ := right.2 t l' rest isAnd
    refine ⟨e', sameLeft.and_assoc same, ?_⟩
    rw [List.append_assoc, List.cons_append, readsLeft, reads]

theorem IsRead.conjunction (inner : IsRead e ts .conjunction) : IsRead e ts .alternatives := by
  constructor
  · intro rest ends
    obtain ⟨e', same, reads⟩ := inner.1 rest
    refine ⟨e', same, ?_⟩
    rw [plain_alternatives, reads, plain_moreOperands_of_head ends]
    rfl
  · intro t done rest ends isOr
    obtain ⟨e', same, reads⟩ := inner.1 rest
    refine ⟨.or done e', fun truth => by rw [value, value, same truth], ?_⟩
    rw [plain_moreAlternatives_of_isOr isOr, reads, plain_moreOperands_of_head ends]
    rfl

/-- The reader groups disjunctions to the left, however they are written. -/
theorem IsRead.or (isOr : t.isOr = true) (left : IsRead l ts .alternatives)
    (right : IsRead r us .alternatives) : IsRead (.or l r) (ts ++ t :: us) .alternatives := by
  have endsLeft : ∀ rest, ∀ t' ∈ (t :: (us ++ rest)).head?, t'.isAnd = false := by
    rintro rest _ ⟨⟩
    exact isAnd_of_isOr isOr
  constructor
  · intro rest ends
    obtain ⟨l', sameLeft, readsLeft⟩ := left.1 (t :: (us ++ rest)) (endsLeft rest)
    obtain ⟨e', same, reads⟩ := right.2 t l' rest ends isOr
    refine ⟨e', fun truth => by rw [same truth, value, value, sameLeft truth], ?_⟩
    rw [List.append_assoc, List.cons_append, readsLeft, reads]
  · intro t' done rest ends isOr'
    obtain ⟨l', sameLeft, readsLeft⟩ := left.2 t' done (t :: (us ++ rest)) (endsLeft rest) isOr'
    obtain ⟨e', same, reads⟩ := right.2 t l' rest ends isOr
    refine ⟨e', sameLeft.or_assoc same, ?_⟩
    rw [List.append_assoc, List.cons_append, readsLeft, reads]

/-- Tokens that make up an expression are read as one with the same value. -/
theorem Phrases.isRead {level : Level} (h : Phrases IsOperand level e ts) : IsRead e ts level := by
  induction h with
  | word isOperand => exact isRead_word isOperand
  | not isNot _ ih => exact ih.not isNot
  | group _ ih => exact ih.group
  | operand _ ih => exact ih.operand
  | and isAnd _ _ left right => exact left.and isAnd right
  | conjunction _ ih => exact ih.conjunction
  | or isOr _ _ left right => exact left.or isOr right

/-- All tokens of an expression are read, and nothing is left. -/
theorem ofTokens_of_phrases (h : Phrases IsOperand .alternatives e ts) :
    ∃ e', e'.Same e ∧ ofTokens ts = .ok e' := by
  obtain ⟨e', same, reads⟩ := h.isRead.1 [] (by simp)
  rw [List.append_nil, plain_moreAlternatives_nil] at reads
  refine ⟨e', same, ?_⟩
  unfold ofTokens
  rcases ha : alternatives ts with _ | ⟨e'', rest, _⟩ <;> rw [ha] at reads
  · cases reads
  · cases reads
    rfl

theorem ofTokens_of_writes (h : Writes .alternatives e ts) :
    ∃ e', e'.Same e ∧ ofTokens ts = .ok e' :=
  ofTokens_of_phrases (h.phrases.mono fun _ isWord => isWord.not_not)

end Expr

/-- The value of a text is that of the expression which it writes, where a word is true if it is the
same in lower case as one of the words that are given. -/
theorem evaluate_of_isWrittenBy {e : Expr} {s : String} (written : e.IsWrittenBy s)
    (words : List String) : evaluate s words = .ok (e.value (Expr.isAmong words)) := by
  obtain ⟨ts, writes, spaced⟩ := written
  obtain ⟨e', same, reads⟩ := Expr.ofTokens_of_writes writes
  have parses : Expr.parse s = .ok e' := by
    unfold Expr.parse
    rw [Token.ofChars_of_spaced spaced, reads]
    rfl
  unfold evaluate
  rw [parses]
  show Except.ok (e'.holds (words.map lower)) = _
  rw [Expr.holds_map_lower, same]

/-- All operators in one text, in any letter case: the comma comes last, the parentheses are
needed. -/
theorem evaluate_of_isWrittenBy_mixed :
    (Expr.or (.word "prod")
      (.and (.word "Test") (.not (.or (.word "qa") (.not (.word "x")))))).IsWrittenBy
      "prod,Test AND !( qa Or NOT x)" ∧
    evaluate "prod,Test AND !( qa Or NOT x)" ["TEST", "X"] = .ok true := by
  have written : (Expr.or (.word "prod")
      (.and (.word "Test") (.not (.or (.word "qa") (.not (.word "x")))))).IsWrittenBy
      "prod,Test AND !( qa Or NOT x)" := by
    refine ⟨[.word "prod", .comma, .word "Test", .word "AND", .bang, .opening, .word "qa",
      .word "Or", .word "NOT", .word "x", .closing], ?_, Token.spaced_iff.2 (by decide +kernel)⟩
    have prod : Expr.Writes .alternatives (.word "prod") [.word "prod"] :=
      .conjunction (.operand (.word (by decide +kernel)))
    have test : Expr.Writes .conjunction (.word "Test") [.word "Test"] :=
      .operand (.word (by decide +kernel))
    have qa : Expr.Writes .alternatives (.word "qa") [.word "qa"] :=
      .conjunction (.operand (.word (by decide +kernel)))
    have x : Expr.Writes .alternatives (.not (.word "x")) [.word "NOT", .word "x"] :=
      .conjunction (.operand (.not (by decide +kernel) (.word (by decide +kernel))))
    have group := Expr.Writes.group (.or (t := .word "Or") (by decide +kernel) qa x)
    have both := Expr.Writes.and (t := .word "AND") (by decide +kernel) test
      (.operand (.not (t := .bang) rfl group))
    exact .or (t := .comma) rfl prod (.conjunction both)
  refine ⟨written, (evaluate_of_isWrittenBy written ["TEST", "X"]).trans ?_⟩
  exact congrArg Except.ok (by decide +kernel)

end Migration.Filter
