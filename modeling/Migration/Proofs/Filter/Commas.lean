import Mathlib.Data.List.TakeWhile
import Migration.Proofs.Filter.Rejection
import Migration.Proofs.Text

/-!
# Commas in filter expressions

A filter expression is cut at its commas into the expressions that they separate, unless one of them
stands inside parentheses. The texts between the commas have the tokens between the commas.

* `Token.splitOn_ofChars` — the tokens between commas are those of the texts between commas
* `Token.HasGap` — nothing stands beside a comma
* `Token.IsFlat` — no comma stands inside parentheses
* `Expr.Phrases.exists_parts` — the expressions between the commas of a flat one
* `Expr.isFlat_intercalate` — expressions with commas between them are flat
-/

namespace Migration.Filter

open Text

namespace Token

/-! ## The tokens between commas -/

/-- A comma may follow any text, and ends the word before it. -/
theorem Spaced.append_comma {ts us : List Token} {cs ds : List Char} (left : Spaced ts cs)
    (right : Spaced us ds) : Spaced (ts ++ .comma :: us) (cs ++ ',' :: ds) := by
  induction left with
  | nil => exact .symbol rfl right
  | blank blank _ ih => exact .blank blank ih
  | symbol symbol _ ih => exact .symbol symbol ih
  | @word w ts cs nonempty chars ends _ ih =>
    rw [List.cons_append, List.append_assoc]
    refine .word nonempty chars ?_ ih
    cases cs with
    | nil =>
      rintro _ ⟨⟩
      rfl
    | cons c cs => exact ends

theorem ofChars_append_comma (cs ds : List Char) :
    ofChars (cs ++ ',' :: ds) = ofChars cs ++ comma :: ofChars ds :=
  ofChars_of_spaced ((spaced_ofChars cs).append_comma (spaced_ofChars ds))

theorem ofChars_intercalate (parts : List (List Char)) :
    ofChars ([','].intercalate parts) = [comma].intercalate (parts.map ofChars) := by
  induction parts with
  | nil => rw [List.intercalate_nil, List.map_nil, List.intercalate_nil, ofChars.eq_def]
  | cons part parts ih =>
    cases parts with
    | nil => rw [List.map_singleton, List.intercalate_singleton, List.intercalate_singleton]
    | cons next parts =>
      rw [List.map_cons, List.map_cons, List.intercalate_cons_cons, List.intercalate_cons_cons,
        List.append_assoc, List.append_assoc, List.singleton_append, List.singleton_append,
        ofChars_append_comma, ih, List.map_cons]

theorem mem_of_comma_mem {ts : List Token} {cs : List Char} (h : Spaced ts cs) (mem : comma ∈ ts) :
    ',' ∈ cs := by
  induction h with
  | nil => cases mem
  | blank _ _ ih => exact List.mem_cons_of_mem _ (ih mem)
  | @symbol c t ts cs symbol _ ih =>
    rcases List.mem_cons.1 mem with rfl | mem
    · have same : c = ',' := by
        unfold symbol? at symbol
        repeat' split at symbol
        all_goals first | contradiction | (rename_i is; exact beq_iff_eq.1 is)
      exact same ▸ List.mem_cons_self
    · exact List.mem_cons_of_mem _ (ih mem)
  | word _ _ _ _ ih =>
    refine List.mem_append_right _ (ih ?_)
    exact (List.mem_cons.1 mem).resolve_left nofun

/-- The tokens between commas are those of the texts between commas. -/
theorem splitOn_ofChars (cs : List Char) :
    (ofChars cs).splitOn comma = (cs.splitOn ',').map ofChars := by
  have whole : ofChars cs = [comma].intercalate ((cs.splitOn ',').map ofChars) := by
    rw [← ofChars_intercalate, List.intercalate_splitOn]
  rw [whole]
  refine List.splitOn_intercalate comma (fun part mem inside => ?_) ?_
  · obtain ⟨text, between, rfl⟩ := List.mem_map.1 mem
    exact (mem_splitOn between).1 (mem_of_comma_mem (spaced_ofChars text) inside)
  · exact fun none => List.splitOn_ne_nil _ _ (List.map_eq_nil_iff.1 none)

/-- Nothing stands between two commas, before the first one or after the last one. -/
def HasGap (ts : List Token) : Prop := comma ∈ ts ∧ [] ∈ ts.splitOn comma

/-- An operator that lacks an operand still lacks it after more tokens, or is beside another one
then. -/
theorem Lacks.after {binary : Token → Prop} {t : Token} {ts us : List Token} (isBinary : binary t)
    (h : Lacks binary us) : Lacks binary (ts ++ t :: us) := by
  cases h with
  | first isBinary' => exact .beside isBinary isBinary'
  | @last u us isBinary' =>
    rw [show ts ++ t :: (us ++ [u]) = (ts ++ t :: us) ++ [u] by simp]
    exact .last isBinary'
  | @beside u v us vs isBinary' isBinary'' =>
    rw [show ts ++ t :: (us ++ u :: v :: vs) = (ts ++ t :: us) ++ u :: v :: vs by simp]
    exact .beside isBinary' isBinary''
  | @opened u us vs isBinary' =>
    rw [show ts ++ t :: (us ++ opening :: u :: vs) = (ts ++ t :: us) ++ opening :: u :: vs by simp]
    exact .opened isBinary'
  | @closed u us vs isBinary' =>
    rw [show ts ++ t :: (us ++ u :: closing :: vs) = (ts ++ t :: us) ++ u :: closing :: vs by simp]
    exact .closed isBinary'

theorem lacks_intercalate {parts : List (List Token)} (several : 1 < parts.length)
    (gap : [] ∈ parts) : Lacks (· = comma) ([comma].intercalate parts) := by
  induction parts with
  | nil => cases gap
  | cons part parts ih =>
    cases parts with
    | nil => exact absurd several (Nat.lt_irrefl 1)
    | cons next parts =>
      rw [List.intercalate_cons_cons, List.append_assoc, List.singleton_append]
      rcases List.mem_cons.1 gap with rfl | gap
      · exact .first rfl
      · cases parts with
        | nil =>
          obtain rfl := List.mem_singleton.1 gap
          exact .last rfl
        | cons third parts => exact .after rfl (ih (Nat.succ_lt_succ (Nat.zero_lt_succ _)) gap)

/-- A comma beside a gap lacks an operand. -/
theorem HasGap.lacks {ts : List Token} (h : HasGap ts) : Lacks (· = comma) ts := by
  have whole : [comma].intercalate (ts.splitOn comma) = ts := List.intercalate_splitOn comma
  rw [← whole]
  refine lacks_intercalate ?_ h.2
  rcases parts : ts.splitOn comma with _ | ⟨part, _ | ⟨next, rest⟩⟩
  · exact absurd parts (List.splitOn_ne_nil _ _)
  · rw [parts, List.intercalate_singleton] at whole
    have mem : part ∈ ts.splitOn comma := parts ▸ List.mem_cons_self
    exact absurd (whole ▸ h.1) (mem_splitOn mem).1
  · exact Nat.succ_lt_succ (Nat.zero_lt_succ _)

/-! ## White space -/

theorem Spaced.append_blank {ts : List Token} {cs : List Char} (h : Spaced ts cs) {c : Char}
    (blank : isBlank c = true) : Spaced ts (cs ++ [c]) := by
  induction h with
  | nil => exact .blank blank .nil
  | blank blank' _ ih => exact .blank blank' ih
  | symbol symbol _ ih => exact .symbol symbol ih
  | @word w ts cs nonempty chars ends _ ih =>
    rw [List.append_assoc]
    refine .word nonempty chars ?_ ih
    cases cs with
    | nil =>
      rintro _ ⟨⟩
      rw [isWordChar, blank]
      rfl
    | cons c cs => exact ends

/-- White space before a text does not count. -/
theorem ofChars_trimStart (cs : List Char) : ofChars (trimStart cs) = ofChars cs := by
  induction cs with
  | nil => rfl
  | cons c cs ih =>
    by_cases blank : isBlank c = true
    · rw [trimStart, List.dropWhile_cons_of_pos blank, ofChars_blank blank]
      exact ih
    · rw [trimStart, List.dropWhile_cons_of_neg blank]

/-- White space after a text does not count. -/
theorem ofChars_trimEnd (cs : List Char) : ofChars (trimEnd cs) = ofChars cs := by
  have ends : ∀ cs : List Char, ofChars (cs.dropWhile isBlank).reverse = ofChars cs.reverse := by
    intro cs
    induction cs with
    | nil => rfl
    | cons c cs ih =>
      by_cases blank : isBlank c = true
      · rw [List.dropWhile_cons_of_pos blank, ih, List.reverse_cons]
        exact (ofChars_of_spaced ((spaced_ofChars cs.reverse).append_blank blank)).symm
      · rw [List.dropWhile_cons_of_neg blank]
  rw [trimEnd, ends, List.reverse_reverse]

/-- White space around a text does not count. -/
theorem ofChars_trimChars (cs : List Char) : ofChars (trimChars cs) = ofChars cs := by
  rw [trimChars, ofChars_trimEnd, ofChars_trimStart]

theorem blank_of_spaced_nil {cs : List Char} (h : Spaced [] cs) : ∀ c ∈ cs, isBlank c = true := by
  generalize none : ([] : List Token) = ts at h
  induction h with
  | nil => exact nofun
  | blank blank _ ih => exact List.forall_mem_cons.2 ⟨blank, ih none⟩
  | symbol | word => cases none

/-- A text without tokens is white space only. -/
theorem ofChars_eq_nil_iff {cs : List Char} : ofChars cs = [] ↔ trimChars cs = [] := by
  constructor
  · intro none
    exact trimChars_of_blank (blank_of_spaced_nil (none ▸ spaced_ofChars cs))
  · intro none
    rw [← ofChars_trimChars, none, ofChars.eq_def]

/-! ## Parentheses -/

/-- Every parenthesis that is opened is closed, and none is closed that has not been opened. -/
structure IsNested (ts : List Token) : Prop where
  balanced : ts.count opening = ts.count closing
  opened : ∀ before after, ts = before ++ after → before.count closing ≤ before.count opening

/-- No comma stands inside parentheses: all that are opened before it are closed before it. -/
def IsFlat (ts : List Token) : Prop :=
  ∀ before after, ts = before ++ comma :: after → before.count opening = before.count closing

variable {t : Token} {ts us : List Token}

theorem ne_parenthesis (h : t.isNot = true ∨ t.isAnd = true ∨ t.isOr = true) :
    t ≠ opening ∧ t ≠ closing := by
  constructor
  · rintro rfl
    revert h
    decide
  · rintro rfl
    revert h
    decide

theorem IsNested.single (h : t ≠ opening ∧ t ≠ closing) : IsNested [t] where
  balanced := by simp [h.1, h.2]
  opened := by
    intro before after split
    have counts := congrArg (List.count closing) split
    rw [List.count_append, List.count_singleton, if_neg (by simpa using h.2)] at counts
    omega

theorem IsNested.append (left : IsNested ts) (right : IsNested us) : IsNested (ts ++ us) where
  balanced := by rw [List.count_append, List.count_append, left.balanced, right.balanced]
  opened := by
    intro before after split
    rcases List.append_eq_append_iff.1 split with ⟨more, rfl, here⟩ | ⟨more, rfl, -⟩
    · have inside := right.opened more after here
      have outside := left.balanced
      rw [List.count_append, List.count_append]
      omega
    · exact left.opened before more rfl

theorem IsNested.group (h : IsNested ts) : IsNested (.opening :: ts ++ [.closing]) where
  balanced := by simp [List.count_append, h.balanced]
  opened := by
    intro before after split
    cases before with
    | nil => exact Nat.le_refl 0
    | cons t before =>
      obtain ⟨rfl, below⟩ := List.cons.inj split
      rw [List.count_cons_self, List.count_cons_of_ne (by decide)]
      rcases List.append_eq_append_iff.1 below with ⟨more, rfl, here⟩ | ⟨more, rfl, -⟩
      · have counts := congrArg (List.count closing) here
        have inside := h.balanced
        rw [List.count_append, List.count_singleton_self] at counts
        rw [List.count_append, List.count_append]
        omega
      · have inside := h.opened before more rfl
        omega

theorem isFlat_of_noComma (noComma : comma ∉ ts) : IsFlat ts := by
  rintro before after rfl
  exact absurd (List.mem_append_right before List.mem_cons_self) noComma

/-- A comma before which no parenthesis is open cuts a flat stretch in two. -/
theorem isFlat_append_comma (noComma : comma ∉ ts) :
    IsFlat (ts ++ comma :: us) ↔ ts.count opening = ts.count closing ∧ IsFlat us := by
  have before (more : List Token) : ∀ t, t ≠ comma →
      (ts ++ comma :: more).count t = ts.count t + more.count t := by
    intro t other
    rw [List.count_append, List.count_cons_of_ne other.symm]
  constructor
  · intro flat
    have balanced := flat ts us rfl
    refine ⟨balanced, fun first after split => ?_⟩
    have whole :=
      flat (ts ++ comma :: first) after (by rw [split, List.append_assoc, List.cons_append])
    rw [before first opening (by decide), before first closing (by decide)] at whole
    omega
  · rintro ⟨balanced, flat⟩ first after split
    rcases List.append_eq_append_iff.1 split with ⟨more, rfl, here⟩ | ⟨more, rfl, here⟩
    · cases more with
      | nil => rwa [List.append_nil]
      | cons t more =>
        obtain ⟨rfl, below⟩ := List.cons.inj here
        have inside := flat more after below
        rw [before more opening (by decide), before more closing (by decide)]
        omega
    · cases more with
      | nil => rwa [List.append_nil] at balanced
      | cons t more =>
        obtain ⟨rfl, -⟩ := List.cons.inj here
        exact absurd (List.mem_append_right _ List.mem_cons_self) noComma

end Token

namespace Expr

open Token

variable {isWord : String → Prop} {level : Level} {e : Expr} {ts us ws : List Token}

theorem Phrases.isNested (h : Phrases isWord level e ts) : IsNested ts := by
  induction h with
  | word => exact .single ⟨nofun, nofun⟩
  | not isNot _ ih => exact (IsNested.single (ne_parenthesis (.inl isNot))).append ih
  | group _ ih => exact ih.group
  | operand _ ih | conjunction _ ih => exact ih
  | and isAnd _ _ left right =>
    exact left.append ((IsNested.single (ne_parenthesis (.inr (.inl isAnd)))).append right)
  | or isOr _ _ left right =>
    exact left.append ((IsNested.single (ne_parenthesis (.inr (.inr isOr)))).append right)

/-- Where a token stands in a stretch that is put together around another token. -/
theorem append_cons_cases {α : Type} {t u : α} {ts us vs ws : List α}
    (h : ts ++ t :: us = vs ++ u :: ws) :
    (∃ more, ts = vs ++ u :: more ∧ ws = more ++ t :: us) ∨ (ts = vs ∧ t = u ∧ us = ws) ∨
      ∃ more, vs = ts ++ t :: more ∧ us = more ++ u :: ws := by
  rcases List.append_eq_append_iff.1 h with ⟨more, rfl, here⟩ | ⟨more, rfl, here⟩
  · cases more with
    | nil =>
      obtain ⟨rfl, rfl⟩ := List.cons.inj here
      exact .inr (.inl ⟨(List.append_nil _).symm, rfl, rfl⟩)
    | cons v more =>
      obtain ⟨rfl, rfl⟩ := List.cons.inj here
      exact .inr (.inr ⟨more, rfl, rfl⟩)
  · cases more with
    | nil =>
      obtain ⟨rfl, rfl⟩ := List.cons.inj here
      exact .inr (.inl ⟨List.append_nil _, rfl, rfl⟩)
    | cons v more =>
      obtain ⟨rfl, rfl⟩ := List.cons.inj here
      exact .inl ⟨more, rfl, rfl⟩

/-- A comma outside all parentheses stands between two expressions, as the operator that binds
least. -/
theorem Phrases.split (h : Phrases isWord level e ws) (whole : ws = ts ++ comma :: us)
    (balanced : ts.count opening = ts.count closing) :
    level = .alternatives ∧ ∃ l r, Phrases isWord .alternatives l ts ∧
      Phrases isWord .alternatives r us ∧ e.Same (.or l r) := by
  induction h generalizing ts us with
  | word =>
    cases ts with
    | nil => cases whole
    | cons t ts => exact absurd (List.cons.inj whole).2.symm (by simp)
  | @not t _ _ isNot _ ih =>
    cases ts with
    | nil =>
      obtain ⟨rfl, -⟩ := List.cons.inj whole
      cases isNot
    | cons t' ts =>
      obtain ⟨rfl, below⟩ := List.cons.inj whole
      obtain ⟨opens, closes⟩ := ne_parenthesis (.inl isNot)
      rw [List.count_cons_of_ne opens, List.count_cons_of_ne closes] at balanced
      cases (ih below balanced).1
  | @group _ inside inner ih =>
    cases ts with
    | nil => cases (List.cons.inj whole).1
    | cons t' ts =>
      obtain ⟨rfl, below⟩ := List.cons.inj whole
      -- the comma stands before the closing parenthesis, so the opening one is still open
      rcases append_cons_cases below with ⟨more, rfl, -⟩ | ⟨-, ⟨⟩, -⟩ | ⟨more, -, last⟩
      · have opened := inner.isNested.opened ts (comma :: more) rfl
        rw [List.count_cons_self, List.count_cons_of_ne (by decide)] at balanced
        omega
      · exact absurd last (by simp)
  | operand inner ih => cases (ih whole balanced).1
  | @and t _ _ left right isAnd l r ihLeft ihRight =>
    rcases append_cons_cases whole with ⟨more, rfl, -⟩ | ⟨rfl, rfl, -⟩ | ⟨more, rfl, rfl⟩
    · cases (ihLeft rfl balanced).1
    · cases isAnd
    · obtain ⟨opens, closes⟩ := ne_parenthesis (.inr (.inl isAnd))
      have outside := l.isNested.balanced
      rw [List.count_append, List.count_append, List.count_cons_of_ne opens,
        List.count_cons_of_ne closes] at balanced
      cases (ihRight rfl (by omega)).1
  | conjunction inner ih => cases (ih whole balanced).1
  | @or t le re left right isOr l r ihLeft ihRight =>
    refine ⟨rfl, ?_⟩
    rcases append_cons_cases whole with ⟨more, rfl, rfl⟩ | ⟨rfl, rfl, rfl⟩ | ⟨more, rfl, rfl⟩
    · obtain ⟨-, l₁, l₂, first, second, same⟩ := ihLeft rfl balanced
      refine ⟨l₁, .or l₂ re, first, .or isOr second r, fun truth => ?_⟩
      rw [value, same truth, value, value, value, Bool.or_assoc]
    · exact ⟨le, re, l, r, .refl _⟩
    · obtain ⟨opens, closes⟩ := ne_parenthesis (.inr (.inr isOr))
      have outside := l.isNested.balanced
      rw [List.count_append, List.count_append, List.count_cons_of_ne opens,
        List.count_cons_of_ne closes] at balanced
      obtain ⟨-, r₁, r₂, first, second, same⟩ := ihRight rfl (by omega)
      refine ⟨.or le r₁, r₂, .or isOr l first, second, fun truth => ?_⟩
      rw [value, same truth, value, value, value, Bool.or_assoc]

/-- The expressions between the commas of a flat stretch: one of them is true if the whole is. -/
theorem Phrases.exists_parts {parts : List (List Token)} (nonempty : parts ≠ [])
    (noComma : ∀ part ∈ parts, comma ∉ part)
    (h : Phrases isWord .alternatives e ([comma].intercalate parts))
    (flat : IsFlat ([comma].intercalate parts)) :
    ∃ es, List.Forall₂ (Phrases isWord .alternatives) es parts ∧
      ∀ truth, e.value truth = es.any (·.value truth) := by
  induction parts generalizing e with
  | nil => exact absurd rfl nonempty
  | cons part parts ih =>
    cases parts with
    | nil =>
      rw [List.intercalate_singleton] at h
      exact ⟨[e], .cons h .nil, fun truth => by simp⟩
    | cons next parts =>
      rw [List.intercalate_cons_cons, List.append_assoc, List.singleton_append] at h flat
      obtain ⟨balanced, flat⟩ := (isFlat_append_comma (noComma part List.mem_cons_self)).1 flat
      obtain ⟨-, l, r, first, others, same⟩ := h.split rfl balanced
      obtain ⟨es, phrases, values⟩ := ih (List.cons_ne_nil _ _)
        (fun other mem => noComma other (List.mem_cons_of_mem _ mem)) others flat
      refine ⟨l :: es, .cons first phrases, fun truth => ?_⟩
      rw [same truth, value, values truth, List.any_cons]

/-- What stands between commas, if it is nested there, is not inside parentheses. -/
theorem isFlat_intercalate {parts : List (List Token)} (noComma : ∀ part ∈ parts, comma ∉ part)
    (nested : ∀ part ∈ parts, IsNested part) : IsFlat ([comma].intercalate parts) := by
  induction parts with
  | nil => exact isFlat_of_noComma (by simp)
  | cons part parts ih =>
    have first := noComma part List.mem_cons_self
    cases parts with
    | nil =>
      rw [List.intercalate_singleton]
      exact isFlat_of_noComma first
    | cons next parts =>
      rw [List.intercalate_cons_cons, List.append_assoc, List.singleton_append,
        isFlat_append_comma first]
      exact ⟨(nested part List.mem_cons_self).balanced,
        ih (fun other mem => noComma other (List.mem_cons_of_mem _ mem))
          fun other mem => nested other (List.mem_cons_of_mem _ mem)⟩

end Expr
end Migration.Filter
