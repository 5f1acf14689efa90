import Migration.Proofs.Filter.Commas

/-!
# Scanning a text for tokens

A text is scanned from its start to its end: white space is skipped, and then a token has to start.
One always does, since the white space at the end of the text is cut off first and every other
character either is a symbol or can stand in a word. So nothing but white space is lost.

* `Token.first?`, `Token.scan?` — the scan, which fails where no token starts
* `Token.Fits` — a token in its place
* `Text.Respaced` — texts that have white space at the same places
* `Token.tokens_of_text` — a scan gives the tokens of the text, and which ones these are
-/

namespace Migration

/-- Texts that differ in their white space only, and have some at the same places. -/
inductive Text.Respaced : List Char → List Char → Prop
  | nil : Respaced [] []
  | char {c cs ds} (rest : Respaced cs ds) : Respaced (c :: cs) (c :: ds)
  | gap {g g' cs ds} (some : g ≠ []) (some' : g' ≠ []) (blank : ∀ c ∈ g, isBlank c = true)
      (blank' : ∀ c ∈ g', isBlank c = true) (rest : Respaced cs ds) : Respaced (g ++ cs) (g' ++ ds)

namespace Filter.Token

open Text

variable {t : Token} {ts : List Token} {cs ds rest : List Char}

/-! ## One token after the other -/

/-- The first token of a text and what follows it; nothing if no token starts behind the white space
that the text starts with. -/
def first? (cs : List Char) : Option (Token × List Char) :=
  let cs := cs.dropWhile isBlank
  match cs.head?.bind symbol? with
  | some t => some (t, cs.tail)
  | none =>
    let chars := cs.takeWhile isWordChar
    if chars.isEmpty then none else some (word (String.ofList chars), cs.dropWhile isWordChar)

/-- The text of a symbol is the symbol. -/
theorem text_of_symbol? {c : Char} (h : symbol? c = some t) : t.text.toList = [c] := by
  unfold symbol? at h
  repeat' split at h
  all_goals first | contradiction | (rename_i is; cases h; rw [beq_iff_eq.1 is]; rfl)

/-- A scan skips white space only, and gets on. -/
theorem of_first? (h : first? cs = some (t, rest)) :
    (∃ gap, cs = gap ++ (t.text.toList ++ rest) ∧ ∀ c ∈ gap, isBlank c = true) ∧
      t.text.toList ≠ [] ∧ ofChars cs = t :: ofChars rest := by
  have skips : cs.takeWhile isBlank ++ cs.dropWhile isBlank = cs := List.takeWhile_append_dropWhile
  have blank : ∀ c ∈ cs.takeWhile isBlank, isBlank c = true := fun c =>
    List.all_eq_true.1 List.all_takeWhile c
  have same : ofChars (cs.dropWhile isBlank) = ofChars cs := ofChars_trimStart cs
  unfold first? at h
  dsimp only at h
  generalize cs.dropWhile isBlank = ds at h skips same
  rw [← same]
  cases ds with
  | nil => cases h
  | cons c ds =>
    rw [List.head?_cons, Option.bind_some] at h
    cases symbol : symbol? c with
    | some t' =>
      rw [symbol] at h
      cases h
      have text := text_of_symbol? symbol
      refine ⟨⟨_, ?_, blank⟩, text ▸ List.cons_ne_nil _ _, ofChars_symbol symbol ds⟩
      rw [text, List.singleton_append]
      exact skips.symm
    | none =>
      rw [symbol] at h
      dsimp only at h
      split at h
      case isTrue => cases h
      case isFalse some_ =>
        -- the word is not empty, so the character it starts with belongs to it
        cases h
        have first : isWordChar c = true := by
          by_contra no
          rw [List.takeWhile_cons_of_neg no] at some_
          exact some_ rfl
        refine ⟨⟨_, ?_, blank⟩, ?_, ?_⟩
        · rw [text, String.toList_ofList, List.takeWhile_append_dropWhile]
          exact skips.symm
        · rw [text, String.toList_ofList]
          simpa using some_
        · rw [ofChars_wordChar first, List.takeWhile_cons_of_pos first,
          List.dropWhile_cons_of_pos first]

theorem length_of_first? (h : first? cs = some (t, rest)) : rest.length < cs.length := by
  obtain ⟨⟨gap, rfl, -⟩, some_, -⟩ := of_first? h
  have := List.length_pos_of_ne_nil some_
  simp only [List.length_append]
  omega

/-- A token starts behind the white space if there is anything. -/
theorem first?_ne_none {c : Char} (mem : c ∈ cs) (notBlank : isBlank c = false) :
    first? cs ≠ none := by
  have first := List.head?_dropWhile_not isBlank cs
  unfold first?
  dsimp only
  cases left : cs.dropWhile isBlank with
  | nil =>
    have blank := List.dropWhile_eq_nil_iff.1 left c mem
    rw [notBlank] at blank
    cases blank
  | cons d ds =>
    rw [left] at first
    rw [List.head?_cons, Option.bind_some]
    cases symbol : symbol? d with
    | some t => exact nofun
    | none =>
      have inWord : isWordChar d = true := isWordChar_iff.2 ⟨by simpa using first, symbol⟩
      dsimp only
      rw [List.takeWhile_cons_of_pos inWord]
      exact nofun

/-- The tokens of a text, scanned one after the other; nothing if none starts at some place before
the end of the text. -/
def scan? (cs : List Char) : Option (List Token) :=
  if cs.isEmpty then some []
  else match first : first? cs with
    | some (t, rest) =>
      have := length_of_first? first
      (scan? rest).map (t :: ·)
    | none => none
termination_by cs.length

/-- A scan does not fail on a text that ends in something else than white space. -/
theorem scan?_of_ends (ends : ∀ c ∈ cs.getLast?, isBlank c = false) :
    scan? cs = some (ofChars cs) := by
  fun_induction scan? cs with
  | case1 cs empty =>
    rw [List.isEmpty_iff.1 empty, ofChars.eq_def]
  | case2 cs _ t rest first _ ih =>
    obtain ⟨⟨gap, whole, -⟩, -, tokens⟩ := of_first? first
    rw [ih fun c last => ends c ?_, tokens]
    · rfl
    · rw [whole, ← List.append_assoc, List.getLast?_append, Option.mem_def.1 last]
      rfl
  | case3 cs some_ first =>
    -- the last character is one that a token can start with
    obtain ⟨c, last⟩ := Option.isSome_iff_exists.1 (List.getLast?_isSome.2 (by simpa using some_))
    exact absurd first (first?_ne_none (List.mem_of_getLast? last) (ends c last))

/-! ## Tokens in their places -/

/-- A token between what comes before and after it: a symbol, or a word that cannot be made
longer. -/
inductive Fits (left right : List Char) : Token → Prop
  | symbol {s} (symbol : s ∈ [opening, closing, comma, bang]) : Fits left right s
  | word {w} (nonempty : w ≠ "") (chars : ∀ c ∈ w.toList, isWordChar c = true)
      (starts : ∀ c ∈ left.getLast?, isWordChar c = false)
      (ends : ∀ c ∈ right.head?, isWordChar c = false) : Fits left right (.word w)

theorem mem_of_symbol? {c : Char} (h : symbol? c = some t) :
    t ∈ [opening, closing, comma, bang] := by
  unfold symbol? at h
  repeat' split at h
  all_goals first | contradiction | (cases h; decide)

/-- A character that can stand in no word may come before any token. -/
theorem Fits.cons {left right : List Char} {c : Char} (h : Fits left right t)
    (other : isWordChar c = false) : Fits (c :: left) right t := by
  cases h with
  | symbol symbol => exact .symbol symbol
  | word nonempty chars starts ends =>
    refine .word nonempty chars (fun d last => ?_) ends
    cases left with
    | nil =>
      cases last
      exact other
    | cons c' left => exact starts d (by rwa [List.getLast?_cons_cons] at last)

/-- A word may come before any token that does not go on with it. -/
theorem Fits.append {w left right : List Char} (h : Fits left right t)
    (ends : ∀ c ∈ (left ++ (t.text.toList ++ right)).head?, isWordChar c = false) :
    Fits (w ++ left) right t := by
  cases h with
  | symbol symbol => exact .symbol symbol
  | @word w' nonempty chars starts ends' =>
    refine .word nonempty chars (fun d last => ?_) ends'
    cases left with
    | nil =>
      -- two words would stand side by side
      obtain ⟨c, more, hw⟩ := List.exists_cons_of_ne_nil fun nothing =>
        nonempty (String.toList_eq_nil_iff.1 nothing)
      have inWord := chars c (hw ▸ List.mem_cons_self)
      rw [ends c (by rw [List.nil_append, text, hw]; rfl)] at inWord
      cases inWord
    | cons c left =>
      rw [List.getLast?_append_of_ne_nil _ (List.cons_ne_nil _ _)] at last
      exact starts d last

/-- Every token has its place, with the tokens before it on its left and the tokens after it on its
right. -/
theorem Spaced.exists_place (h : Spaced ts cs) {before after : List Token}
    (split : ts = before ++ t :: after) : ∃ left right, cs = left ++ (t.text.toList ++ right) ∧
      Fits left right t ∧ Spaced before left ∧ Spaced after right := by
  induction h generalizing before with
  | nil => simp at split
  | @blank c ts cs blank _ ih =>
    obtain ⟨left, right, rfl, fits, hb, ha⟩ := ih split
    have other : isWordChar c = false := by simp [isWordChar, blank]
    exact ⟨c :: left, right, rfl, fits.cons other, .blank blank hb, ha⟩
  | @symbol c t' ts cs symbol spaced ih =>
    cases before with
    | nil =>
      cases split
      exact ⟨[], cs, by rw [text_of_symbol? symbol]; rfl,
        .symbol (mem_of_symbol? symbol), .nil, spaced⟩
    | cons u before =>
      cases split
      obtain ⟨left, right, rfl, fits, hb, ha⟩ := ih rfl
      have other : isWordChar c = false := by simp [isWordChar, symbol]
      exact ⟨c :: left, right, rfl, fits.cons other, .symbol symbol hb, ha⟩
  | @word w ts cs nonempty chars ends spaced ih =>
    cases before with
    | nil =>
      cases split
      have starts : ∀ c ∈ ([] : List Char).getLast?, isWordChar c = false := by simp
      exact ⟨[], cs, rfl, .word nonempty chars starts ends, .nil, spaced⟩
    | cons u before =>
      cases split
      obtain ⟨left, right, rfl, fits, hb, ha⟩ := ih rfl
      refine ⟨w.toList ++ left, right, (List.append_assoc _ _ _).symm, fits.append ends,
        .word nonempty chars (fun c first => ends c ?_) hb, ha⟩
      rw [List.head?_append, Option.mem_def.1 first]
      rfl

/-- The tokens have all characters of the text but its white space. -/
theorem Spaced.flatMap_text (h : Spaced ts cs) :
    ts.flatMap (·.text.toList) = cs.filter (!isBlank ·) := by
  induction h with
  | nil => rfl
  | blank blank _ ih => rw [List.filter_cons_of_neg (by simp [blank]), ih]
  | symbol symbol _ ih =>
    rw [List.filter_cons_of_pos (by simp [isBlank_of_symbol? symbol]), List.flatMap_cons, ih,
      text_of_symbol? symbol]
    rfl
  | @word w ts cs _ chars _ _ ih =>
    have all : w.toList.filter (!isBlank ·) = w.toList :=
      List.filter_eq_self.2 fun c mem => by simp [(isWordChar_iff.1 (chars c mem)).1]
    rw [List.filter_append, List.flatMap_cons, ih, all]
    rfl

/-! ## White space -/

theorem ofChars_append_gap {gap : List Char} (blank : ∀ c ∈ gap, isBlank c = true)
    (cs : List Char) :
    ofChars (gap ++ cs) = ofChars cs := by
  induction gap with
  | nil => rfl
  | cons c gap ih =>
    rw [List.cons_append, ofChars_blank (blank c List.mem_cons_self),
      ih fun d mem => blank d (List.mem_cons_of_mem _ mem)]

/-- A gap ends a word. -/
theorem span_gap {gap : List Char} (some_ : gap ≠ []) (blank : ∀ c ∈ gap, isBlank c = true)
    (cs : List Char) :
    (gap ++ cs).takeWhile isWordChar = [] ∧ (gap ++ cs).dropWhile isWordChar = gap ++ cs := by
  obtain ⟨c, gap, rfl⟩ := List.exists_cons_of_ne_nil some_
  have other : ¬isWordChar c = true := by simp [isWordChar, blank c List.mem_cons_self]
  rw [List.cons_append, List.takeWhile_cons_of_neg other, List.dropWhile_cons_of_neg other]
  exact ⟨rfl, rfl⟩

/-- Texts with white space at the same places have the same tokens. They go on with the same
characters of a word, and the same tokens follow. -/
theorem ofChars_of_respaced (h : Respaced cs ds) : ofChars cs = ofChars ds ∧
    cs.takeWhile isWordChar = ds.takeWhile isWordChar ∧
      ofChars (cs.dropWhile isWordChar) = ofChars (ds.dropWhile isWordChar) := by
  induction h with
  | nil => exact ⟨rfl, rfl, rfl⟩
  | @char c cs ds _ ih =>
    obtain ⟨tokens, chars, follow⟩ := ih
    by_cases inWord : isWordChar c = true
    · rw [ofChars_wordChar inWord, ofChars_wordChar inWord, List.takeWhile_cons_of_pos inWord,
        List.takeWhile_cons_of_pos inWord, List.dropWhile_cons_of_pos inWord,
        List.dropWhile_cons_of_pos inWord, chars, follow]
      exact ⟨rfl, rfl, rfl⟩
    · rw [List.takeWhile_cons_of_neg inWord, List.takeWhile_cons_of_neg inWord,
        List.dropWhile_cons_of_neg inWord, List.dropWhile_cons_of_neg inWord]
      have same : ofChars (c :: cs) = ofChars (c :: ds) := by
        cases blank : isBlank c with
        | true => rw [ofChars_blank blank, ofChars_blank blank, tokens]
        | false =>
          cases symbol : symbol? c with
          | some t => rw [ofChars_symbol symbol, ofChars_symbol symbol, tokens]
          | none => exact absurd (isWordChar_iff.2 ⟨blank, symbol⟩) inWord
      exact ⟨same, rfl, same⟩
  | gap some_ some' blank blank' _ ih =>
    have same := (ofChars_append_gap blank _).trans (ih.1.trans (ofChars_append_gap blank' _).symm)
    rw [(span_gap some_ blank _).1, (span_gap some_ blank _).2, (span_gap some' blank' _).1,
      (span_gap some' blank' _).2]
    exact ⟨same, rfl, same⟩

/-- A scan never fails, and gives the tokens of the text. Every one of them is a symbol or a word
that cannot be made longer, in its place between the tokens before and after it. Together they are
the text without its white space, and they stay the same if its white space is replaced by other
white space. -/
theorem tokens_of_text (cs : List Char) :
    scan? (trimEnd cs) = some (ofChars cs) ∧
    (∀ before t after, ofChars cs = before ++ t :: after → ∃ left right,
      cs = left ++ (t.text.toList ++ right) ∧ Fits left right t ∧
      ofChars left = before ∧ ofChars right = after) ∧
    (ofChars cs).flatMap (·.text.toList) = cs.filter (!isBlank ·) ∧
    ∀ ds, Respaced cs ds → ofChars ds = ofChars cs := by
  refine ⟨?_, fun before t after split => ?_, (spaced_ofChars cs).flatMap_text,
    fun ds respaced => (ofChars_of_respaced respaced).1.symm⟩
  · rw [scan?_of_ends (ends_trimEnd cs), ofChars_trimEnd]
  · obtain ⟨left, right, whole, fits, hb, ha⟩ := (spaced_ofChars cs).exists_place split
    exact ⟨left, right, whole, fits, ofChars_of_spaced hb, ofChars_of_spaced ha⟩

/-- A word that ends at a symbol, and white space of another kind around it. -/
theorem tokens_of_text_respaced :
    let cs := "not\u3000 (qa!)".toList
    let ds := "not\t(qa!)".toList
    Respaced cs ds ∧ ofChars cs = [word "not", opening] ++ word "qa" :: [bang, closing] ∧
      scan? cs = some [word "not", opening, word "qa", bang, closing] ∧
      (∃ left right, cs = left ++ ("qa".toList ++ right) ∧ Fits left right (word "qa")) ∧
      ofChars ds = ofChars cs := by
  intro cs ds
  have gaps : Respaced (['\u3000', ' '] ++ "(qa!)".toList) (['\t'] ++ "(qa!)".toList) :=
    .gap (by decide) (by decide) (by simp; decide) (by simp; decide)
      (.char (.char (.char (.char (.char .nil)))))
  have respaced : Respaced cs ds := .char (.char (.char gaps))
  have split : ofChars cs = [word "not", opening] ++ word "qa" :: [bang, closing] := by
    decide +kernel
  obtain ⟨scans, places, -, same⟩ := tokens_of_text cs
  obtain ⟨left, right, whole, fits, -⟩ := places _ _ _ split
  exact ⟨respaced, split, scans.trans (congrArg some split), ⟨left, right, whole, fits⟩,
    same ds respaced⟩

end Filter.Token
end Migration
