import Migration.Filter.Token

/-!
# The spacing of filter expressions

How tokens may be spaced in a text. White space may stand around every token and need not stand
beside a symbol; a word ends only where no more characters of a word follow, so there is white space
between two words.

* `Token.Spaced` — the texts that tokens may be spaced in
* `Token.ofChars_of_spaced` — the tokens of such a text, however they are spaced
-/

namespace Migration.Filter.Token

open Text

/-- A text in which tokens follow one another, with any white space around them. -/
inductive Spaced : List Token → List Char → Prop
  | nil : Spaced [] []
  | blank {c ts cs} (blank : isBlank c = true) (rest : Spaced ts cs) : Spaced ts (c :: cs)
  | symbol {c t ts cs} (symbol : symbol? c = some t) (rest : Spaced ts cs) :
      Spaced (t :: ts) (c :: cs)
  | word {w ts cs} (nonempty : w ≠ "") (chars : ∀ c ∈ w.toList, isWordChar c = true)
      (ends : ∀ c ∈ cs.head?, isWordChar c = false) (rest : Spaced ts cs) :
      Spaced (.word w :: ts) (w.toList ++ cs)

/-- A symbol is no white space. -/
theorem isBlank_of_symbol? {c : Char} {t : Token} (h : symbol? c = some t) : isBlank c = false := by
  unfold symbol? at h
  repeat' split at h
  all_goals first | contradiction | (rename_i is; rw [beq_iff_eq.1 is]; decide)

theorem isWordChar_iff {c : Char} :
    isWordChar c = true ↔ isBlank c = false ∧ symbol? c = none := by
  unfold isWordChar
  rw [Bool.and_eq_true, Bool.not_eq_true', Option.isNone_iff_eq_none]

theorem ofChars_blank {c : Char} (blank : isBlank c = true) (rest : List Char) :
    ofChars (c :: rest) = ofChars rest := by
  rw [ofChars.eq_def]
  simp only [blank, if_true]

theorem ofChars_symbol {c : Char} {t : Token} (symbol : symbol? c = some t) (rest : List Char) :
    ofChars (c :: rest) = t :: ofChars rest := by
  rw [ofChars.eq_def]
  simp [isBlank_of_symbol? symbol, symbol]

theorem ofChars_wordChar {c : Char} (first : isWordChar c = true) (rest : List Char) :
    ofChars (c :: rest) =
      word (String.ofList (c :: rest.takeWhile isWordChar)) :: ofChars
        (rest.dropWhile isWordChar) := by
  obtain ⟨notBlank, noSymbol⟩ := isWordChar_iff.1 first
  rw [ofChars.eq_def]
  simp [notBlank, noSymbol]

/-- The characters of a word at the start of a text, and what follows them. -/
theorem span_word {word rest : List Char} (chars : ∀ c ∈ word, isWordChar c = true)
    (ends : ∀ c ∈ rest.head?, isWordChar c = false) :
    (word ++ rest).takeWhile isWordChar = word ∧ (word ++ rest).dropWhile isWordChar = rest := by
  rw [List.takeWhile_append_of_pos chars, List.dropWhile_append_of_pos chars]
  cases rest with
  | nil => simp
  | cons c cs => simp [ends c rfl]

/-- However the tokens are spaced, they are the tokens of the text. -/
theorem ofChars_of_spaced {ts : List Token} {cs : List Char} (h : Spaced ts cs) :
    ofChars cs = ts := by
  induction h with
  | nil => rw [ofChars.eq_def]
  | blank blank _ ih => rw [ofChars_blank blank, ih]
  | symbol symbol _ ih => rw [ofChars_symbol symbol, ih]
  | @word w ts cs nonempty chars ends _ ih =>
    cases hw : w.toList with
    | nil => exact absurd (String.toList_eq_nil_iff.1 hw) nonempty
    | cons c more =>
      rw [hw] at chars
      -- the first character starts a word, and the word goes on as far as it can
      obtain ⟨taken, left⟩ := span_word (fun c hc => chars c (List.mem_cons_of_mem _ hc)) ends
      rw [List.cons_append, ofChars_wordChar (chars c List.mem_cons_self), taken, left, ih, ← hw,
        String.ofList_toList]

/-- Every text is one in which its tokens are spaced. -/
theorem spaced_ofChars (cs : List Char) : Spaced (ofChars cs) cs := by
  fun_induction ofChars cs with
  | case1 => exact .nil
  | case2 c rest blank ih => exact .blank blank ih
  | case3 c rest notBlank t symbol ih => exact .symbol symbol ih
  | case4 c rest notBlank noSymbol ih =>
    have first : isWordChar c = true := isWordChar_iff.2 ⟨by simpa using notBlank, noSymbol⟩
    have spaced := Spaced.word (w := String.ofList (c :: rest.takeWhile isWordChar)) (by simp) ?_ ?_ ih
    · rwa [String.toList_ofList, List.cons_append, List.takeWhile_append_dropWhile] at spaced
    · intro c' hc'
      rw [String.toList_ofList] at hc'
      rcases List.mem_cons.1 hc' with rfl | hc'
      · exact first
      · exact List.all_eq_true.1 List.all_takeWhile c' hc'
    · intro c' hc'
      have ends := List.head?_dropWhile_not isWordChar rest
      rwa [Option.mem_def.1 hc'] at ends

theorem spaced_iff {ts : List Token} {cs : List Char} : Spaced ts cs ↔ ofChars cs = ts :=
  ⟨ofChars_of_spaced, fun h => h ▸ spaced_ofChars cs⟩

end Migration.Filter.Token
