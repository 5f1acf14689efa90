import Mathlib.Data.List.Chain
import Migration.Proofs.Filter.Syntax

/-!
# Texts that are no filter expressions

What the reader takes for an expression is exactly what the grammar makes up when the words `and`
and `or` may also be operands; every other text is rejected, whichever words are true. So a text
that writes no expression is rejected unless an operator word stands where an operand is due, and
only there does the reader take one for an operand.

* `Expr.IsTakenFrom` — the texts that are taken for an expression
* `Token.Lacks` — a binary operator without an operand on one of its sides
* `Token.IsOrderly` — no operator word stands where an operand is due
* `rejects_iff` — which texts are rejected
* `not_rejects_operatorWord` — an operator word alone writes no expression, and is not rejected
-/

namespace Migration.Filter

open Text

/-- A text is rejected in the same way whichever words are given. -/
def Rejects (s : String) : Prop := ∃ problem, ∀ words, evaluate s words = .error problem

namespace Token

/-! ## Places of operands -/

/-- The binary operators: conjunction, and disjunction as a word or as a comma. -/
def IsBinary (t : Token) : Prop := t.isAnd = true ∨ t.isOr = true

/-- The binary operators that are words. -/
def IsOperatorWord (t : Token) : Prop := t.isAnd = true ∨ t.spells "or" = true

/-- A token after which an operand is due, if these are the binary operators. -/
def Asks (binary : Token → Prop) (t : Token) : Prop := binary t ∨ t = opening ∨ t.isNot = true

/-- Where an operand is due, at the start and after a token that asks for one, there stands none of
the unfit tokens. -/
structure Avoids (binary unfit : Token → Prop) (ts : List Token) : Prop where
  starts : ∀ t ∈ ts.head?, ¬unfit t
  follows : ts.IsChain fun t u => Asks binary t → ¬unfit u

/-- No operator word stands where an operand is due. -/
def IsOrderly (ts : List Token) : Prop := Avoids IsBinary IsOperatorWord ts

/-- A binary operator lacks one of its operands: it stands at the start or at the end, beside
another one, after an opening parenthesis or before a closing one. -/
inductive Lacks (binary : Token → Prop) : List Token → Prop
  | first {t ts} (isBinary : binary t) : Lacks binary (t :: ts)
  | last {t ts} (isBinary : binary t) : Lacks binary (ts ++ [t])
  | beside {t u ts us} (isBinary : binary t) (isBinary' : binary u) :
      Lacks binary (ts ++ t :: u :: us)
  | opened {t ts us} (isBinary : binary t) : Lacks binary (ts ++ .opening :: t :: us)
  | closed {t ts us} (isBinary : binary t) : Lacks binary (ts ++ t :: .closing :: us)

/-- Every operator has its operands: none stands at the end, and where an operand is due there is no
binary operator and no closing parenthesis. -/
structure IsComplete (binary : Token → Prop) (ts : List Token) : Prop
    extends Avoids binary (fun t => binary t ∨ t = .closing) ts where
  nonempty : ts ≠ []
  stops : ∀ t ∈ ts.getLast?, ¬Asks binary t

theorem IsComplete.not_lacks {binary : Token → Prop} {ts : List Token} (h : IsComplete binary ts) :
    ¬Lacks binary ts := by
  rintro (⟨isBinary⟩ | ⟨isBinary⟩ | ⟨isBinary, isBinary'⟩ | ⟨isBinary⟩ | ⟨isBinary⟩)
  · exact h.starts _ rfl (.inl isBinary)
  · exact h.stops _ (by simp) (.inl isBinary)
  · exact (List.isChain_append_cons_cons.1 h.follows).2.1 (.inl isBinary) (.inl isBinary')
  · exact (List.isChain_append_cons_cons.1 h.follows).2.1 (.inr (.inl rfl)) (.inl isBinary)
  · exact (List.isChain_append_cons_cons.1 h.follows).2.1 (.inl isBinary) (.inr rfl)

section Parts

variable {binary unfit : Token → Prop} {t : Token} {ts us : List Token}

/-- What comes first begins where an operand is due. -/
theorem Avoids.left (h : Avoids binary unfit (ts ++ us)) (nonempty : ts ≠ []) :
    Avoids binary unfit ts where
  starts := by
    intro t first
    exact h.starts t (by rw [List.head?_append_of_ne_nil ts nonempty]; exact first)
  follows := h.follows.left_of_append

/-- What comes after a token that asks for an operand begins where one is due. -/
theorem Avoids.tail (h : Avoids binary unfit (t :: us)) (asks : Asks binary t) :
    Avoids binary unfit us where
  starts := by
    intro u first
    exact (List.isChain_cons.1 h.follows).1 u first asks
  follows := h.follows.tail

theorem Avoids.right (h : Avoids binary unfit (ts ++ t :: us)) (asks : Asks binary t) :
    Avoids binary unfit us where
  starts := by
    intro u first
    exact (List.isChain_cons.1 h.follows.right_of_append).1 u first asks
  follows := h.follows.right_of_append.tail

theorem Avoids.mono {unfit' : Token → Prop} (h : Avoids binary unfit ts)
    (fits : ∀ t, unfit' t → unfit t) : Avoids binary unfit' ts where
  starts := fun t first is => h.starts t first (fits t is)
  follows := h.follows.imp fun _ u unfitting asks is => unfitting asks (fits u is)

theorem IsComplete.cons (fits : ¬(binary t ∨ t = .closing)) (h : IsComplete binary ts) :
    IsComplete binary (t :: ts) where
  starts := by
    rintro _ ⟨⟩
    exact fits
  follows := List.isChain_cons.2 ⟨fun u first _ => h.starts u first, h.follows⟩
  nonempty := List.cons_ne_nil t ts
  stops := by
    intro u last
    rw [List.getLast?_cons_of_ne_nil h.nonempty] at last
    exact h.stops u last

/-- Between two complete stretches any token may stand. -/
theorem IsComplete.join (left : IsComplete binary ts) (right : IsComplete binary us) :
    IsComplete binary (ts ++ t :: us) where
  starts := by
    intro u first
    rw [List.head?_append_of_ne_nil ts left.nonempty] at first
    exact left.starts u first
  follows := by
    refine left.follows.append ?_ fun u last v _ asks => absurd asks (left.stops u last)
    exact List.isChain_cons.2 ⟨fun u first _ => right.starts u first, right.follows⟩
  nonempty := by simp
  stops := by
    intro u last
    rw [List.getLast?_append_cons, List.getLast?_cons_of_ne_nil right.nonempty] at last
    exact right.stops u last

/-- Parentheses may stand around a complete stretch. -/
theorem IsComplete.group (h : IsComplete binary ts) (opens : ¬binary .opening)
    (closes : ¬binary .closing) : IsComplete binary (.opening :: ts ++ [.closing]) where
  starts := by
    rintro _ ⟨⟩
    rintro (isBinary | same)
    · exact opens isBinary
    · cases same
  follows := by
    rw [List.cons_append]
    refine List.isChain_cons.2 ⟨?_, ?_⟩
    · intro u first _
      rw [List.head?_append_of_ne_nil ts h.nonempty] at first
      exact h.starts u first
    · exact h.follows.append (.singleton _) fun u last v _ asks => absurd asks (h.stops u last)
  nonempty := by simp
  stops := by
    intro u last
    rw [List.getLast?_concat] at last
    cases last
    rintro (isBinary | ⟨⟨⟩⟩ | ⟨⟨⟩⟩)
    exact closes isBinary

end Parts

/-- The words among the tokens of a text are not empty and have characters of words only. -/
theorem chars_of_spaced {ts : List Token} {cs : List Char} (h : Spaced ts cs) {w : String}
    (mem : word w ∈ ts) : w ≠ "" ∧ ∀ c ∈ w.toList, isWordChar c = true := by
  induction h with
  | nil => cases mem
  | blank _ _ ih => exact ih mem
  | symbol symbol _ ih =>
    rcases List.mem_cons.1 mem with rfl | mem
    · unfold symbol? at symbol
      repeat' split at symbol
      all_goals cases symbol
    · exact ih mem
  | word nonempty chars _ _ ih =>
    rcases List.mem_cons.1 mem with same | mem
    · cases same
      exact ⟨nonempty, chars⟩
    · exact ih mem

end Token

namespace Expr

open Token

variable {level : Level} {isWord : String → Prop} {binary : Token → Prop} {e : Expr}
  {ts us rest : List Token}

/-! ## Phrases and the places of operands -/

theorem Phrases.nonempty (h : Phrases isWord level e ts) : ts ≠ [] := by
  induction h with
  | operand _ ih => exact ih
  | conjunction _ ih => exact ih
  | _ => simp

/-- Something is left out of what is left after a phrase. -/
theorem Phrases.shorter (h : Phrases isWord level e us) (split : ts = us ++ rest) :
    rest.length < ts.length := by
  have positive : 0 < us.length := List.length_pos_of_ne_nil h.nonempty
  rw [split, List.length_append]
  omega

/-- No operator negates and joins at once. -/
theorem not_isBinary_of_isNot {t : Token} (isNot : t.isNot = true) : ¬IsBinary t := by
  cases t with
  | word w =>
    have spells : lower w = "not" := by simpa [Token.isNot, Token.spells] using isNot
    simp [IsBinary, Token.isAnd, Token.isOr, Token.spells, spells]
  | bang => simp [IsBinary, Token.isAnd, Token.isOr, Token.spells]
  | _ => cases isNot

/-- In a phrase no operator lacks an operand, as far as it is none of the words. -/
theorem Phrases.isComplete (h : Phrases isWord level e ts)
    (isBinary : ∀ t, binary t → IsBinary t)
    (words : ∀ w, isWord w → ¬binary (.word w) ∧ lower w ≠ "not") : IsComplete binary ts := by
  have opens : ¬binary .opening := fun h => by rcases isBinary _ h with h | h <;> cases h
  have closes : ¬binary .closing := fun h => by rcases isBinary _ h with h | h <;> cases h
  induction h with
  | @word w word =>
    obtain ⟨notBinary, notNot⟩ := words w word
    refine ⟨⟨?_, .singleton _⟩, by simp, ?_⟩
    · rintro _ ⟨⟩
      simpa using notBinary
    · rintro _ ⟨⟩
      simpa [Asks, Token.isNot, Token.spells, notNot] using notBinary
  | @not t _ _ isNot _ ih =>
    refine ih.cons ?_
    rintro (h | rfl)
    · exact not_isBinary_of_isNot isNot (isBinary t h)
    · cases isNot
  | group _ ih => exact ih.group opens closes
  | operand _ ih => exact ih
  | and _ _ _ left right => exact left.join right
  | conjunction _ ih => exact ih
  | or _ _ _ left right => exact left.join right

/-- Where no operator word stands in the place of an operand, a phrase writes an expression. -/
theorem Phrases.writes (h : Phrases IsOperand level e ts) (orderly : IsOrderly ts)
    (chars : ∀ w, .word w ∈ ts → w ≠ "" ∧ ∀ c ∈ w.toList, isWordChar c = true) :
    Writes level e ts := by
  induction h with
  | @word w notNot =>
    obtain ⟨nonempty, chars⟩ := chars w List.mem_cons_self
    have fits := orderly.starts _ rfl
    rw [IsOperatorWord, not_or] at fits
    exact .word { nonempty, chars, not_not := notNot
                  not_and := by simpa [Token.isAnd, Token.spells] using fits.1
                  not_or := by simpa [Token.spells] using fits.2 }
  | @not t _ ts isNot _ ih =>
    refine .not isNot (ih (Avoids.tail orderly (.inr (.inr isNot))) ?_)
    exact fun w mem => chars w (List.mem_cons_of_mem _ mem)
  | group inner ih =>
    refine .group (ih ?_ fun w mem => chars w (by simp [mem]))
    have rest := Avoids.tail orderly (.inr (.inl rfl))
    exact rest.left inner.nonempty
  | operand _ ih => exact .operand (ih orderly chars)
  | and isAnd left _ ihl ihr =>
    refine .and isAnd (ihl (orderly.left left.nonempty) fun w mem => chars w (by simp [mem])) ?_
    exact ihr (orderly.right (.inl (.inl isAnd))) fun w mem => chars w (by simp [mem])
  | conjunction _ ih => exact .conjunction (ih orderly chars)
  | or isOr left _ ihl ihr =>
    refine .or isOr (ihl (orderly.left left.nonempty) fun w mem => chars w (by simp [mem])) ?_
    exact ihr (orderly.right (.inl (.inr isOr))) fun w mem => chars w (by simp [mem])

/-! ## What the reader takes -/

/-- One reading after another gives something if both do. -/
theorem plain_bind_ok {x : Except Problem (Expr × List Token)}
    {f : Expr × List Token → Except Problem (Expr × List Token)} {y : Expr × List Token}
    (h : x >>= f = .ok y) : ∃ e rest, x = .ok (e, rest) ∧ f (e, rest) = .ok y := by
  rcases x with _ | ⟨e, rest⟩
  · cases h
  · exact ⟨e, rest, rfl, h⟩

/-- What a group is made of, if one is read. -/
theorem plain_operand_opening_ok {ts rest : List Token} {e : Expr}
    (read : plain (operand (.opening :: ts)) = .ok (e, rest)) :
    plain (alternatives ts) = .ok (e, .closing :: rest) := by
  rw [operand] at read
  simp only [show Token.opening.isNot = false from rfl] at read
  rcases h : alternatives ts with _ | ⟨e', rest', shorter⟩ <;> rw [h] at read
  · cases read
  · rcases rest' with _ | ⟨t, rest'⟩
    · cases read
    · cases t <;> cases read
      rfl

mutual

theorem phrases_of_alternatives (e : Expr) (ts rest : List Token)
    (read : plain (alternatives ts) = .ok (e, rest)) :
    ∃ us, ts = us ++ rest ∧ Phrases IsOperand .alternatives e us := by
  rw [plain_alternatives] at read
  obtain ⟨e₁, rest₁, first, more⟩ := plain_bind_ok read
  obtain ⟨us, split, phrase⟩ := phrases_of_conjunction e₁ ts rest₁ first
  have shorter : rest₁.length < ts.length := phrase.shorter split
  obtain ⟨vs, split', extend⟩ := phrases_of_moreAlternatives e₁ e rest₁ rest more
  refine ⟨us ++ vs, ?_, extend us (.conjunction phrase)⟩
  rw [split, split', List.append_assoc]
termination_by (ts.length, 3)

/-- What follows the alternatives that are read already belongs to them. -/
theorem phrases_of_moreAlternatives (done e : Expr) (ts rest : List Token)
    (read : plain (moreAlternatives done ts) = .ok (e, rest)) :
    ∃ us, ts = us ++ rest ∧ ∀ before, Phrases IsOperand .alternatives done before →
      Phrases IsOperand .alternatives e (before ++ us) := by
  cases ts with
  | nil =>
    rw [plain_moreAlternatives_nil] at read
    cases read
    exact ⟨[], rfl, fun before phrase => by rwa [List.append_nil]⟩
  | cons t ts =>
    by_cases isOr : t.isOr = true
    · rw [plain_moreAlternatives_of_isOr isOr] at read
      obtain ⟨e₁, rest₁, first, more⟩ := plain_bind_ok read
      obtain ⟨us, split, phrase⟩ := phrases_of_conjunction e₁ ts rest₁ first
      have shorter : rest₁.length < ts.length := phrase.shorter split
      obtain ⟨vs, split', extend⟩ := phrases_of_moreAlternatives (.or done e₁) e rest₁ rest more
      refine ⟨t :: (us ++ vs), by rw [split, split', List.cons_append, List.append_assoc], ?_⟩
      intro before given
      have both := extend (before ++ t :: us) (.or isOr given (.conjunction phrase))
      rwa [List.append_assoc, List.cons_append] at both
    · rw [plain_moreAlternatives_of_not_isOr (Bool.eq_false_iff.2 isOr)] at read
      cases read
      exact ⟨[], rfl, fun before phrase => by rwa [List.append_nil]⟩
termination_by (ts.length, 0)

theorem phrases_of_conjunction (e : Expr) (ts rest : List Token)
    (read : plain (conjunction ts) = .ok (e, rest)) :
    ∃ us, ts = us ++ rest ∧ Phrases IsOperand .conjunction e us := by
  rw [plain_conjunction] at read
  obtain ⟨e₁, rest₁, first, more⟩ := plain_bind_ok read
  obtain ⟨us, split, phrase⟩ := phrases_of_operand e₁ ts rest₁ first
  have shorter : rest₁.length < ts.length := phrase.shorter split
  obtain ⟨vs, split', extend⟩ := phrases_of_moreOperands e₁ e rest₁ rest more
  refine ⟨us ++ vs, ?_, extend us (.operand phrase)⟩
  rw [split, split', List.append_assoc]
termination_by (ts.length, 2)

/-- What follows the operands that are read already belongs to them. -/
theorem phrases_of_moreOperands (done e : Expr) (ts rest : List Token)
    (read : plain (moreOperands done ts) = .ok (e, rest)) :
    ∃ us, ts = us ++ rest ∧ ∀ before, Phrases IsOperand .conjunction done before →
      Phrases IsOperand .conjunction e (before ++ us) := by
  cases ts with
  | nil =>
    rw [plain_moreOperands_of_head (by simp)] at read
    cases read
    exact ⟨[], rfl, fun before phrase => by rwa [List.append_nil]⟩
  | cons t ts =>
    by_cases isAnd : t.isAnd = true
    · rw [plain_moreOperands_of_isAnd isAnd] at read
      obtain ⟨e₁, rest₁, first, more⟩ := plain_bind_ok read
      obtain ⟨us, split, phrase⟩ := phrases_of_operand e₁ ts rest₁ first
      have shorter : rest₁.length < ts.length := phrase.shorter split
      obtain ⟨vs, split', extend⟩ := phrases_of_moreOperands (.and done e₁) e rest₁ rest more
      refine ⟨t :: (us ++ vs), by rw [split, split', List.cons_append, List.append_assoc], ?_⟩
      intro before given
      have both := extend (before ++ t :: us) (.and isAnd given (.operand phrase))
      rwa [List.append_assoc, List.cons_append] at both
    · rw [plain_moreOperands_of_head (by simpa using isAnd)] at read
      cases read
      exact ⟨[], rfl, fun before phrase => by rwa [List.append_nil]⟩
termination_by (ts.length, 0)

theorem phrases_of_operand (e : Expr) (ts rest : List Token)
    (read : plain (operand ts) = .ok (e, rest)) :
    ∃ us, ts = us ++ rest ∧ Phrases IsOperand .operand e us := by
  cases ts with
  | nil =>
    rw [operand] at read
    cases read
  | cons t ts =>
    by_cases isNot : t.isNot = true
    · rw [plain_operand_of_isNot isNot] at read
      rcases inner : plain (operand ts) with _ | ⟨e₁, rest₁⟩ <;> rw [inner] at read <;> cases read
      obtain ⟨us, split, phrase⟩ := phrases_of_operand e₁ ts rest inner
      exact ⟨t :: us, by rw [split, List.cons_append], .not isNot phrase⟩
    · cases t with
      | opening =>
        obtain ⟨us, split, phrase⟩ :=
          phrases_of_alternatives e ts (.closing :: rest) (plain_operand_opening_ok read)
        exact ⟨.opening :: us ++ [.closing], by simp [split], .group phrase⟩
      | word w =>
        have isOperand : IsOperand w := by
          simpa [IsOperand, Token.isNot, Token.spells] using isNot
        rw [plain_operand_word isOperand] at read
        cases read
        exact ⟨[.word w], rfl, .word isOperand⟩
      | bang => exact absurd rfl isNot
      | _ =>
        rw [operand.eq_def] at read
        cases read
termination_by (ts.length, 1)

end

/-- What the reader takes for an expression is made up of all the tokens. -/
theorem phrases_of_ofTokens {e : Expr} {ts : List Token} (read : ofTokens ts = .ok e) :
    Phrases IsOperand .alternatives e ts := by
  unfold ofTokens at read
  rcases all : alternatives ts with _ | ⟨e', rest, shorter⟩ <;> rw [all] at read
  · cases read
  · cases rest with
    | nil =>
      cases read
      have plain_all : plain (alternatives ts) = .ok (e, []) := by
        rw [all]
        rfl
      obtain ⟨us, split, phrase⟩ := phrases_of_alternatives e ts [] plain_all
      rwa [split, List.append_nil]
    | cons t rest => cases read

/-- A text is taken for an expression: its tokens make one up, with operator words also for
operands. -/
def IsTakenFrom (e : Expr) (s : String) : Prop :=
  ∃ ts, Phrases IsOperand .alternatives e ts ∧ Token.Spaced ts s.toList

theorem isTakenFrom_iff {e : Expr} {s : String} :
    e.IsTakenFrom s ↔ Phrases IsOperand .alternatives e (ofChars s.toList) := by
  constructor
  · rintro ⟨ts, phrase, spaced⟩
    rwa [ofChars_of_spaced spaced]
  · intro phrase
    exact ⟨_, phrase, spaced_ofChars s.toList⟩

theorem isTakenFrom_word {s w : String} (tokens : ofChars s.toList = [.word w])
    (isOperand : IsOperand w) : (Expr.word w).IsTakenFrom s := by
  rw [isTakenFrom_iff, tokens]
  exact .conjunction (.operand (.word isOperand))

theorem Writes.isComplete {level : Level} {e : Expr} {ts : List Token} (h : Writes level e ts) :
    IsComplete IsBinary ts := by
  refine h.phrases.isComplete (fun _ isBinary => isBinary) fun w isWord => ⟨?_, isWord.not_not⟩
  simp [IsBinary, Token.isAnd, Token.isOr, Token.spells, isWord.not_and, isWord.not_or]

/-- A text writes an expression if it is taken for it and every operator word is an operator. -/
theorem isWrittenBy_iff {e : Expr} {s : String} :
    e.IsWrittenBy s ↔ e.IsTakenFrom s ∧ IsOrderly (ofChars s.toList) := by
  constructor
  · rintro ⟨ts, writes, spaced⟩
    have isBinary : ∀ t, IsOperatorWord t → IsBinary t := by
      rintro t (isAnd | isOr)
      · exact .inl isAnd
      · exact .inr (by rw [Token.isOr, isOr, Bool.or_true])
    refine ⟨⟨ts, writes.phrases.mono fun _ isWord => isWord.not_not, spaced⟩, ?_⟩
    rw [ofChars_of_spaced spaced]
    exact writes.isComplete.toAvoids.mono fun t h => .inl (isBinary t h)
  · rintro ⟨taken, orderly⟩
    refine ⟨_, (isTakenFrom_iff.1 taken).writes orderly ?_, spaced_ofChars s.toList⟩
    exact fun w mem => chars_of_spaced (spaced_ofChars s.toList) mem

end Expr

open Filter.Expr Token

/-- A text that is taken for an expression has its value. -/
theorem evaluate_of_isTakenFrom {e : Expr} {s : String} (taken : e.IsTakenFrom s)
    (words : List String) : evaluate s words = .ok (e.value (isAmong words)) := by
  obtain ⟨e', same, reads⟩ := ofTokens_of_phrases (isTakenFrom_iff.1 taken)
  have parses : parse s = .ok e' := by
    unfold parse
    rw [reads]
    rfl
  unfold evaluate
  rw [parses]
  show Except.ok (e'.holds (words.map lower)) = _
  rw [holds_map_lower, same]

/-- A text is taken for an expression, or it is rejected. -/
theorem isTakenFrom_or_rejects (s : String) : (∃ e : Expr, e.IsTakenFrom s) ∨ Rejects s := by
  rcases read : ofTokens (ofChars s.toList) with problem | e
  · right
    refine ⟨⟨s, problem⟩, fun words => ?_⟩
    unfold evaluate parse
    rw [read]
    rfl
  · exact .inl ⟨e, isTakenFrom_iff.2 (phrases_of_ofTokens read)⟩

/-- The texts that are rejected are those that are taken for no expression. -/
theorem rejects_iff_not_isTakenFrom (s : String) : Rejects s ↔ ∀ e : Expr, ¬e.IsTakenFrom s := by
  constructor
  · rintro ⟨problem, rejects⟩ e taken
    have value := (rejects []).symm.trans (evaluate_of_isTakenFrom taken [])
    cases value
  · intro none
    rcases isTakenFrom_or_rejects s with ⟨e, taken⟩ | rejects
    · exact absurd taken (none e)
    · exact rejects

/-- A text in which a comma lacks an operand is taken for nothing. -/
theorem rejects_of_lacks_comma {s : String} (lacks : Lacks (· = .comma) (ofChars s.toList)) :
    Rejects s := by
  refine (rejects_iff_not_isTakenFrom s).2 fun e taken => ?_
  refine ((isTakenFrom_iff.1 taken).isComplete ?_ fun w isOperand => ⟨?_, isOperand⟩).not_lacks lacks
  · rintro _ rfl
    exact .inr rfl
  · rintro ⟨⟩

/-- A text in which a binary operator lacks an operand writes no expression. -/
theorem not_isWrittenBy_of_lacks {s : String} (lacks : Lacks IsBinary (ofChars s.toList)) (e : Expr) :
    ¬e.IsWrittenBy s := by
  rintro ⟨ts, writes, spaced⟩
  rw [ofChars_of_spaced spaced] at lacks
  exact writes.isComplete.not_lacks lacks

/-- The texts that are rejected, whichever words are given: those that are taken for no expression,
where `and` and `or` in the place of an operand are taken for words. Elsewhere these are the texts
that write no expression, and every text in which a binary operator lacks an operand is one of
them. -/
theorem rejects_iff (s : String) :
    (Rejects s ↔ ∀ e : Expr, ¬e.IsTakenFrom s) ∧
    (∀ e : Expr, e.IsTakenFrom s → ∀ words, evaluate s words = .ok (e.value (isAmong words))) ∧
    (∀ e : Expr, e.IsWrittenBy s ↔ e.IsTakenFrom s ∧ IsOrderly (ofChars s.toList)) ∧
    (IsOrderly (ofChars s.toList) →
      (Rejects s ↔ ∀ e : Expr, ¬e.IsWrittenBy s) ∧
      (Lacks IsBinary (ofChars s.toList) → Rejects s)) ∧
    (Lacks (· = .comma) (ofChars s.toList) → Rejects s) := by
  have written (orderly : IsOrderly (ofChars s.toList)) :
      Rejects s ↔ ∀ e : Expr, ¬e.IsWrittenBy s := by
    rw [rejects_iff_not_isTakenFrom]
    constructor
    · exact fun none e writes => none e (isWrittenBy_iff.1 writes).1
    · exact fun none e taken => none e (isWrittenBy_iff.2 ⟨taken, orderly⟩)
  refine ⟨rejects_iff_not_isTakenFrom s, fun e taken => evaluate_of_isTakenFrom taken,
    fun e => isWrittenBy_iff, fun orderly => ⟨written orderly, fun lacks => ?_⟩,
      rejects_of_lacks_comma⟩
  exact (written orderly).2 (not_isWrittenBy_of_lacks lacks)

/-- The second operand of a conjunction is missing. -/
theorem rejects_iff_dangling :
    IsOrderly (ofChars "qa and".toList) ∧ Lacks IsBinary (ofChars "qa and".toList) ∧
      Rejects "qa and" := by
  have tokens : ofChars "qa and".toList = [.word "qa", .word "and"] := by decide +kernel
  have orderly : IsOrderly (ofChars "qa and".toList) := by
    have fits : ¬IsOperatorWord (.word "qa") := by
      rintro (h | h) <;> revert h <;> decide +kernel
    have asks : ¬Asks IsBinary (.word "qa") := by
      rintro ((h | h) | h | h) <;> revert h <;> decide +kernel
    rw [tokens]
    constructor
    · rintro _ ⟨⟩
      exact fits
    · exact List.isChain_pair.2 fun h => absurd h asks
  have lacks : Lacks IsBinary (ofChars "qa and".toList) := by
    rw [tokens]
    show Lacks IsBinary ([.word "qa"] ++ [.word "and"])
    exact .last (.inl (by decide +kernel))
  exact ⟨orderly, lacks, ((rejects_iff "qa and").2.2.2.1 orderly).2 lacks⟩

/-- An operator word alone writes no expression, and is taken for a word. -/
theorem not_rejects_operatorWord :
    (∀ e : Expr, ¬e.IsWrittenBy "and") ∧ evaluate "and" [] = .ok false := by
  have tokens : ofChars "and".toList = [.word "and"] := by decide +kernel
  have isAnd : (Token.word "and").isAnd = true := by decide +kernel
  constructor
  · intro e written
    have orderly := (isWrittenBy_iff.1 written).2
    rw [tokens] at orderly
    exact orderly.starts _ rfl (.inl isAnd)
  · have isOperand : IsOperand "and" := show lower "and" ≠ "not" by decide +kernel
    rw [evaluate_of_isTakenFrom (isTakenFrom_word tokens isOperand)]
    rfl

end Migration.Filter
