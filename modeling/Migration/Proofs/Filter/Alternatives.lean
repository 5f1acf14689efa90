import Migration.Filter.Context
import Migration.Proofs.Filter.Commas

/-!
# The alternatives of a context filter

A context filter is evaluated as a whole, and compared and printed by its alternatives, which are
what stands between its commas. For an expression in which no comma stands inside parentheses both
come to the same: it admits a run if one of the alternatives does. Where a comma stands inside
parentheses, what stands beside it is no expression.

* `ContextFilter.ofChars_of_not_hasGap` — a text is made up of its alternatives unless it has a gap
* `ContextFilter.contexts_print` — a filter that is printed and read again has the same alternatives
* `ContextFilter.alternatives_of_isTakenFrom` — what the alternatives of a filter say about it
* `ContextFilter.not_alternatives_grouped` — filters that their alternatives say nothing about
-/

namespace Migration

open Text Migration.Filter Migration.Filter.Token Migration.Filter.Expr

namespace Filter

/-! ## Words of a run -/

theorem lower_ne_empty {w : String} (h : w ≠ "") : lower w ≠ "" := by
  cases chars : w.toList with
  | nil => exact absurd (String.toList_eq_nil_iff.1 chars) h
  | cons c rest =>
    intro none
    have noChars : lowerChars w.toList = [] := String.toList_ofList.symm.trans (congrArg _ none)
    rw [chars, lowerChars, lowerAfter] at noChars
    split at noChars
    · cases noChars
    · split at noChars <;> cases noChars

/-- An empty text is no word, so it does not count among those that are given. -/
theorem isAmong_filter {w : String} (h : w ≠ "") (run : List String) :
    isAmong (run.filter (!·.isEmpty)) w = isAmong run w := by
  rw [isAmong, isAmong, List.any_filter]
  refine congrArg run.any (funext fun v => ?_)
  cases empty : v.isEmpty with
  | false => rfl
  | true =>
    obtain rfl := String.isEmpty_iff.1 empty
    have other : (lower "" == lower w) = false := beq_eq_false_iff_ne.2 (lower_ne_empty h).symm
    rw [other]
    rfl

theorem Expr.Phrases.value_congr {isWord : String → Prop} {level : Level} {e : Expr}
    {ts : List Token} {truth truth' : String → Bool} (h : Phrases isWord level e ts)
    (same : ∀ w, Token.word w ∈ ts → truth w = truth' w) : e.value truth = e.value truth' := by
  induction h with
  | word => exact same _ List.mem_cons_self
  | not _ _ ih => rw [value, value, ih fun w mem => same w (List.mem_cons_of_mem _ mem)]
  | group _ ih => exact ih fun w mem => same w (List.mem_cons_of_mem _ (List.mem_append_left _ mem))
  | operand _ ih | conjunction _ ih => exact ih same
  | and _ _ _ left right | or _ _ _ left right =>
    rw [value, value, left fun w mem => same w (List.mem_append_left _ mem),
      right fun w mem => same w (List.mem_append_right _ (List.mem_cons_of_mem _ mem))]

theorem evaluate_filter {e : Expr} {s : String} (taken : e.IsTakenFrom s) (run : List String) :
    evaluate s (run.filter (!·.isEmpty)) = evaluate s run := by
  rw [evaluate_of_isTakenFrom taken, evaluate_of_isTakenFrom taken]
  refine congrArg _ ((isTakenFrom_iff.1 taken).value_congr fun w mem => ?_)
  exact isAmong_filter (chars_of_spaced (spaced_ofChars s.toList) mem).1 run

/-- What a text comes to depends on its tokens, but for the text in the error. -/
theorem evaluate_toOption {s s' : String} (same : ofChars s.toList = ofChars s'.toList)
    (words : List String) : (evaluate s words).toOption = (evaluate s' words).toOption := by
  rw [evaluate, evaluate, parse, parse, same]
  cases ofTokens (ofChars s'.toList) <;> rfl

/-- An expression has something beside each of its commas. -/
theorem Expr.IsTakenFrom.not_hasGap {e : Expr} {s : String} (taken : e.IsTakenFrom s) :
    ¬HasGap (ofChars s.toList) :=
  fun gap => (rejects_iff_not_isTakenFrom s).1 (rejects_of_lacks_comma gap.lacks) e taken

theorem isOrderly_of_mem_intercalate {parts : List (List Token)} (some : ∀ part ∈ parts, part ≠ [])
    (orderly : IsOrderly ([comma].intercalate parts)) : ∀ part ∈ parts, IsOrderly part := by
  induction parts with
  | nil => exact nofun
  | cons part parts ih =>
    cases parts with
    | nil =>
      rw [List.intercalate_singleton] at orderly
      exact List.forall_mem_singleton.2 orderly
    | cons next parts =>
      rw [List.intercalate_cons_cons, List.append_assoc, List.singleton_append] at orderly
      have first := Avoids.left orderly (some part List.mem_cons_self)
      have others := Avoids.right orderly (.inl (.inr rfl))
      exact List.forall_mem_cons.2
        ⟨first, ih (fun other mem => some other (List.mem_cons_of_mem _ mem)) others⟩

end Filter

namespace ContextFilter

variable {v v' : String} {e : Expr} {run : List String}

/-! ## What a filter is made up of -/

/-- White space around a filter does not count. -/
theorem ofChars_source (v : String) :
    ofChars ((ofText v).source.getD "").toList = ofChars v.toList := by
  unfold ofText
  by_cases empty : v.isEmpty = true
  · rw [if_pos empty, String.isEmpty_iff.1 empty]
    rfl
  · rw [if_neg empty, Option.getD_some, trim, String.toList_ofList, ofChars_trimChars]

/-- The alternatives have the tokens between the commas, where there are any. -/
theorem map_contexts (v : String) : (ofText v).contexts.map (fun x => ofChars x.toList) =
    ((ofChars v.toList).splitOn comma).filter (!·.isEmpty) := by
  rw [← ofChars_source v, splitOn_ofChars, contexts, commaList, splitOn_eq, List.filter_map,
    List.filter_map, List.map_map]
  have some : ((!·.isEmpty) ∘ fun part => String.ofList (trimChars part)) =
      (fun ts : List Token => !ts.isEmpty) ∘ ofChars := by
    funext part
    refine congrArg (! ·) (Bool.eq_iff_iff.2 ?_)
    rw [String.isEmpty_iff, List.isEmpty_iff, ofChars_eq_nil_iff, ← String.toList_eq_nil_iff,
      String.toList_ofList]
  rw [some]
  refine List.map_congr_left fun part _ => ?_
  rw [Function.comp_apply, String.toList_ofList, ofChars_trimChars]

/-- A text is made up of its alternatives, with commas between them, unless it has a gap. -/
theorem ofChars_of_not_hasGap (h : ¬HasGap (ofChars v.toList)) :
    ofChars v.toList = [comma].intercalate ((ofText v).contexts.map fun x => ofChars x.toList) := by
  rw [map_contexts]
  generalize ofChars v.toList = ts at h
  by_cases commas : comma ∈ ts
  · have all : (ts.splitOn comma).filter (!·.isEmpty) = ts.splitOn comma := by
      refine List.filter_eq_self.2 fun part mem => ?_
      rw [Bool.not_eq_true', List.isEmpty_eq_false_iff]
      rintro rfl
      exact h ⟨commas, mem⟩
    rw [all, List.intercalate_splitOn]
  · have alone : ([comma].intercalate [ts]).splitOn comma = [ts] :=
      List.splitOn_intercalate comma (by simpa using commas) (List.cons_ne_nil _ _)
    rw [List.intercalate_singleton] at alone
    rw [alone]
    cases ts with
    | nil => rfl
    | cons t ts => exact List.intercalate_singleton.symm

theorem contexts_nonempty_of_isTakenFrom (taken : e.IsTakenFrom v) : (ofText v).contexts ≠ [] := by
  intro none
  have tokens := ofChars_of_not_hasGap taken.not_hasGap
  rw [none] at tokens
  exact (isTakenFrom_iff.1 taken).nonempty tokens

/-! ## What a filter admits -/

/-- Without alternatives, or for a run without contexts, nothing is evaluated. -/
theorem admits_of_nothing (h : (ofText v).contexts = [] ∨ ∀ w ∈ run, w = "") :
    (ofText v).admits run = .ok true := by
  have nothing : ((ofText v).isEmpty || (run.filter (!·.isEmpty)).isEmpty) = true := by
    rw [Bool.or_eq_true, isEmpty, List.isEmpty_iff, List.isEmpty_iff, List.filter_eq_nil_iff]
    simpa using h
  rw [admits, if_pos nothing]
  rfl

theorem admits_of_some (some : (ofText v).contexts ≠ []) (named : ∃ w ∈ run, w ≠ "") :
    (ofText v).admits run =
      evaluate ((ofText v).source.getD "") (run.filter (!·.isEmpty)) := by
  have evaluates : ¬((ofText v).isEmpty || (run.filter (!·.isEmpty)).isEmpty) = true := by
    rw [Bool.or_eq_true, isEmpty, List.isEmpty_iff, List.isEmpty_iff, List.filter_eq_nil_iff]
    simpa [some] using named
  rw [admits, if_neg evaluates]

/-- An expression is evaluated to its value. -/
theorem admits_of_isTakenFrom (taken : e.IsTakenFrom v) (named : ∃ w ∈ run, w ≠ "") :
    (ofText v).admits run = .ok (e.value (isAmong run)) := by
  have source : e.IsTakenFrom ((ofText v).source.getD "") := by
    rw [isTakenFrom_iff, ofChars_source]
    exact isTakenFrom_iff.1 taken
  rw [admits_of_some (contexts_nonempty_of_isTakenFrom taken) named, evaluate_filter source,
    evaluate_of_isTakenFrom source]

/-- A filter with a gap fails where it is evaluated. -/
theorem admits_of_hasGap (gap : HasGap (ofChars v.toList)) (some : (ofText v).contexts ≠ [])
    (named : ∃ w ∈ run, w ≠ "") : ∃ m, (ofText v).admits run = .error m := by
  rw [← ofChars_source] at gap
  obtain ⟨m, fails⟩ := rejects_of_lacks_comma gap.lacks
  exact ⟨m, (admits_of_some some named).trans (fails _)⟩

/-- Filters with the same alternatives come to the same if both have a gap or none does. -/
theorem admits_congr (same : (ofText v').contexts = (ofText v).contexts)
    (gaps : HasGap (ofChars v'.toList) ↔ HasGap (ofChars v.toList)) (run : List String) :
    ((ofText v').admits run).toOption = ((ofText v).admits run).toOption := by
  by_cases nothing : (ofText v).contexts = [] ∨ ∀ w ∈ run, w = ""
  · rw [admits_of_nothing nothing, admits_of_nothing (same ▸ nothing)]
  · obtain ⟨some, named⟩ : (ofText v).contexts ≠ [] ∧ ∃ w ∈ run, w ≠ "" := by
      push Not at nothing
      exact nothing
    by_cases gap : HasGap (ofChars v.toList)
    · obtain ⟨m, fails⟩ := admits_of_hasGap gap some named
      obtain ⟨m', fails'⟩ := admits_of_hasGap (gaps.2 gap) (same ▸ some) named
      rw [fails, fails']
      rfl
    · have gap' : ¬HasGap (ofChars v'.toList) := fun gap' => gap (gaps.1 gap')
      rw [admits_of_some some named, admits_of_some (same ▸ some) named]
      refine evaluate_toOption ?_ _
      rw [ofChars_source, ofChars_source, ofChars_of_not_hasGap gap, ofChars_of_not_hasGap gap', same]

/-! ## Printing -/

/-- The text of an alternative: not empty, without commas, and trimmed. -/
structure IsAlternative (x : String) : Prop where
  nonempty : x.toList ≠ []
  noComma : ',' ∉ x.toList
  starts : ∀ c ∈ x.toList.head?, isBlank c = false
  ends : ∀ c ∈ x.toList.getLast?, isBlank c = false

theorem isAlternative_of_mem {x : String} (mem : x ∈ commaList v) : IsAlternative x := by
  rw [commaList, splitOn_eq, List.mem_filter, List.mem_map] at mem
  obtain ⟨⟨part, between, rfl⟩, some⟩ := mem
  rw [Bool.not_eq_true', ← Bool.not_eq_true, String.isEmpty_iff, ← String.toList_eq_nil_iff] at some
  constructor
  · exact some
  · rw [String.toList_ofList]
    exact fun inside => (mem_splitOn between).1 (mem_of_mem_trimChars inside)
  · rw [String.toList_ofList]
    exact starts_trimChars part
  · rw [String.toList_ofList]
    exact ends_trimChars part

theorem ends_intercalate {items : List String} (h : ∀ x ∈ items, IsAlternative x) :
    (∀ c ∈ ([','].intercalate (items.map String.toList)).head?, isBlank c = false) ∧
      ∀ c ∈ ([','].intercalate (items.map String.toList)).getLast?, isBlank c = false := by
  induction items with
  | nil => exact ⟨nofun, nofun⟩
  | cons x items ih =>
    obtain ⟨nonempty, -, starts, ends⟩ := h x List.mem_cons_self
    cases items with
    | nil =>
      rw [List.map_singleton, List.intercalate_singleton]
      exact ⟨starts, ends⟩
    | cons y items =>
      have others := (ih fun other mem => h other (List.mem_cons_of_mem _ mem)).2
      rw [List.map_cons, List.map_cons, List.intercalate_cons_cons, List.append_assoc,
        List.singleton_append, ← List.map_cons]
      constructor
      · rwa [List.head?_append_of_ne_nil _ nonempty]
      · intro c last
        rw [List.getLast?_append_cons] at last
        rcases rest : [','].intercalate ((y :: items).map String.toList) with _ | ⟨d, more⟩
        · rw [rest] at last
          cases last
          rfl
        · rw [rest, List.getLast?_cons_cons] at last
          rw [rest] at others
          exact others c last

theorem commaList_join {items : List String} (h : ∀ x ∈ items, IsAlternative x) :
    commaList (join "," items) = items := by
  have chars : (join "," items).toList = [','].intercalate (items.map String.toList) :=
    String.toList_intercalate
  rw [commaList, splitOn_eq, chars]
  cases items with
  | nil => rfl
  | cons x more =>
    rw [List.splitOn_intercalate ',' ?_ (by simp), List.map_map, List.filter_eq_self.2 ?_]
    · refine (List.map_congr_left fun y mem => ?_).trans (List.map_id _)
      have item := h y mem
      rw [Function.comp_apply, trimChars_of_ends item.starts item.ends, String.ofList_toList, id]
    · intro y mem
      rw [Bool.not_eq_true', ← Bool.not_eq_true, String.isEmpty_iff, ← String.toList_eq_nil_iff]
      obtain ⟨z, among, rfl⟩ := List.mem_map.1 mem
      rw [Function.comp_apply, trimChars_of_ends (h z among).starts (h z among).ends,
        String.toList_ofList]
      exact (h z among).nonempty
    · intro part mem
      obtain ⟨y, among, rfl⟩ := List.mem_map.1 mem
      exact (h y among).noComma

theorem toList_print (v : String) :
    (ofText v).print.toList = [','].intercalate ((ofText v).contexts.map String.toList) :=
  String.toList_intercalate

theorem ofChars_print (v : String) : ofChars (ofText v).print.toList =
    [comma].intercalate ((ofText v).contexts.map fun x => ofChars x.toList) := by
  rw [toList_print, ofChars_intercalate, List.map_map]
  rfl

/-- A filter that is printed and read again has the same alternatives. -/
theorem contexts_print (v : String) : (ofText (ofText v).print).contexts = (ofText v).contexts := by
  have items : ∀ x ∈ (ofText v).contexts, IsAlternative x := fun x => isAlternative_of_mem
  have source : (ofText (ofText v).print).source.getD "" = (ofText v).print := by
    obtain ⟨starts, ends⟩ := ends_intercalate items
    rw [← toList_print] at starts ends
    generalize (ofText v).print = printed at starts ends
    unfold ofText
    by_cases empty : printed.isEmpty = true
    · rw [if_pos empty, String.isEmpty_iff.1 empty]
      rfl
    · rw [if_neg empty, Option.getD_some, trim, trimChars_of_ends starts ends, String.ofList_toList]
  rw [contexts, source]
  exact commaList_join items

/-! ## Alternatives -/

/-- A list of expressions written in texts, one of which is true if their disjunction is. -/
theorem any_value_iff {es : List Expr} {texts : List String} (run : List String)
    (h : List.Forall₂ Expr.IsTakenFrom es texts) :
    (es.any (·.value (isAmong run))) = true ↔ ∃ x ∈ texts, evaluate x run = .ok true := by
  induction h with
  | nil => simp
  | @cons e x es texts taken _ ih =>
    rw [List.any_cons, Bool.or_eq_true, ih, List.exists_mem_cons_iff, evaluate_of_isTakenFrom taken,
      Except.ok.injEq]

theorem exists_isTakenFrom {es : List Expr} {texts : List String}
    (h : List.Forall₂ Expr.IsTakenFrom es texts) : ∀ x ∈ texts, ∃ e : Expr, e.IsTakenFrom x := by
  induction h with
  | nil => exact nofun
  | cons taken _ ih => exact List.forall_mem_cons.2 ⟨⟨_, taken⟩, ih⟩

/-- What stands between commas is not empty and has none. -/
theorem of_mem_parts {part : List Token}
    (mem : part ∈ (ofText v).contexts.map fun x => ofChars x.toList) :
    comma ∉ part ∧ part ≠ [] := by
  rw [map_contexts, List.mem_filter] at mem
  exact ⟨(mem_splitOn mem.1).1, by simpa using mem.2⟩

/-- The alternatives of an expression without commas in parentheses are expressions, and it has the
value of their disjunction. -/
theorem exists_expressions (taken : e.IsTakenFrom v) (flat : IsFlat (ofChars v.toList)) :
    ∃ es : List Expr, List.Forall₂ Expr.IsTakenFrom es (ofText v).contexts ∧
      ∀ truth, e.value truth = es.any (·.value truth) := by
  have phrase := isTakenFrom_iff.1 taken
  have nonempty : (ofText v).contexts.map (fun x => ofChars x.toList) ≠ [] := fun none =>
    contexts_nonempty_of_isTakenFrom taken (List.map_eq_nil_iff.1 none)
  rw [ofChars_of_not_hasGap taken.not_hasGap] at phrase flat
  obtain ⟨es, phrases, values⟩ :=
    phrase.exists_parts nonempty (fun part mem => (of_mem_parts mem).1) flat
  refine ⟨es, ?_, values⟩
  exact (List.forall₂_map_right_iff.1 phrases).imp fun _ _ phrase => isTakenFrom_iff.2 phrase

/-- All alternatives of an expression are expressions only if no comma stands in parentheses. -/
theorem isFlat_iff (taken : e.IsTakenFrom v) :
    (∀ x ∈ (ofText v).contexts, ∃ e' : Expr, e'.IsTakenFrom x) ↔ IsFlat (ofChars v.toList) := by
  constructor
  · intro all
    rw [ofChars_of_not_hasGap taken.not_hasGap]
    refine isFlat_intercalate (fun part mem => (of_mem_parts mem).1) fun part mem => ?_
    obtain ⟨x, among, rfl⟩ := List.mem_map.1 mem
    obtain ⟨e', taken'⟩ := all x among
    exact (isTakenFrom_iff.1 taken').isNested
  · intro flat
    obtain ⟨es, each, -⟩ := exists_expressions taken flat
    exact exists_isTakenFrom each

/-- If a filter writes an expression, so do its alternatives. -/
theorem exists_isWrittenBy (written : e.IsWrittenBy v) (flat : IsFlat (ofChars v.toList)) :
    ∀ x ∈ (ofText v).contexts, ∃ e' : Expr, e'.IsWrittenBy x := by
  intro x mem
  obtain ⟨taken, orderly⟩ := isWrittenBy_iff.1 written
  obtain ⟨e', taken'⟩ := (isFlat_iff taken).2 flat x mem
  rw [ofChars_of_not_hasGap taken.not_hasGap] at orderly
  have each := isOrderly_of_mem_intercalate (fun part mem => (of_mem_parts mem).2) orderly
  exact ⟨e', isWrittenBy_iff.2 ⟨taken', each _ (List.mem_map_of_mem mem)⟩⟩

/-- A filter that is printed and read again admits the same runs. -/
theorem admits_print (taken : e.IsTakenFrom v) (run : List String) :
    (ofText (ofText v).print).admits run = (ofText v).admits run := by
  have printed : e.IsTakenFrom (ofText v).print := by
    rw [isTakenFrom_iff, ofChars_print, ← ofChars_of_not_hasGap taken.not_hasGap]
    exact isTakenFrom_iff.1 taken
  by_cases named : ∃ w ∈ run, w ≠ ""
  · rw [admits_of_isTakenFrom printed named, admits_of_isTakenFrom taken named]
  · have nameless : ∀ w ∈ run, w = "" := by simpa using named
    rw [admits_of_nothing (.inr nameless), admits_of_nothing (.inr nameless)]

/-- What the alternatives of a filter say about it. -/
theorem alternatives_of_isTakenFrom (v : String) :
    (∀ e : Expr, e.IsTakenFrom v →
      ¬HasGap (ofChars v.toList) ∧
      ((∀ x ∈ (ofText v).contexts, ∃ e' : Expr, e'.IsTakenFrom x) ↔ IsFlat (ofChars v.toList)) ∧
      (IsFlat (ofChars v.toList) →
        (e.IsWrittenBy v → ∀ x ∈ (ofText v).contexts, ∃ e' : Expr, e'.IsWrittenBy x) ∧
        ∀ run : List String, (∃ w ∈ run, w ≠ "") → ∃ b, (ofText v).admits run = .ok b ∧
          (b = true ↔ ∃ x ∈ (ofText v).contexts, evaluate x run = .ok true)) ∧
      ∀ run, (ofText (ofText v).print).admits run = (ofText v).admits run) ∧
    (ofText (ofText v).print).contexts = (ofText v).contexts ∧
    (∀ v' : String, (ofText v').contexts = (ofText v).contexts →
      (HasGap (ofChars v'.toList) ↔ HasGap (ofChars v.toList)) → ∀ run,
        ((ofText v').admits run).toOption = ((ofText v).admits run).toOption) ∧
    (HasGap (ofChars v.toList) → (ofText v).contexts ≠ [] →
      ∀ run : List String, (∃ w ∈ run, w ≠ "") → ∃ m, (ofText v).admits run = .error m) := by
  refine ⟨fun e taken => ⟨taken.not_hasGap, isFlat_iff taken, fun flat => ⟨?_, fun run named => ?_⟩,
    admits_print taken⟩, contexts_print v, fun v' same gaps run => admits_congr same gaps run,
    fun gap some run named => admits_of_hasGap gap some named⟩
  · exact fun written => exists_isWrittenBy written flat
  · obtain ⟨es, each, values⟩ := exists_expressions taken flat
    refine ⟨_, admits_of_isTakenFrom taken named, ?_⟩
    rw [values]
    exact any_value_iff run each

/-- A comma between a conjunction and a word, and none in the parentheses. -/
theorem alternatives_of_isTakenFrom_flat :
    ∃ e : Expr, e.IsTakenFrom "qa and !(x or y), dev" ∧
      IsFlat (ofChars "qa and !(x or y), dev".toList) ∧
      ∃ b, (ofText "qa and !(x or y), dev").admits ["QA"] = .ok b ∧
        (b = true ↔
          ∃ x ∈ (ofText "qa and !(x or y), dev").contexts, evaluate x ["QA"] = .ok true) := by
  have tokens : ofChars "qa and !(x or y), dev".toList = [.word "qa", .word "and", .bang, .opening,
      .word "x", .word "or", .word "y", .closing] ++ .comma :: [.word "dev"] := by decide +kernel
  have word (w : String) (isOperand : lower w ≠ "not") :
      Phrases IsOperand .operand (.word w) [.word w] :=
    .word isOperand
  have group : Phrases IsOperand .operand (.or (.word "x") (.word "y"))
      [.opening, .word "x", .word "or", .word "y", .closing] :=
    .group (.or (t := .word "or") (by decide +kernel)
      (.conjunction (.operand (word "x" (by decide +kernel))))
      (.conjunction (.operand (word "y" (by decide +kernel)))))
  have taken :
      (Expr.or (.and (.word "qa") (.not (.or (.word "x") (.word "y")))) (.word "dev")).IsTakenFrom
      "qa and !(x or y), dev" := by
    rw [isTakenFrom_iff, tokens]
    refine .or rfl (.conjunction ?_) (.conjunction (.operand (word "dev" (by decide +kernel))))
    exact .and (t := .word "and") (by decide +kernel) (.operand (word "qa" (by decide +kernel)))
      (.operand (.not (t := .bang) rfl group))
  have flat : IsFlat (ofChars "qa and !(x or y), dev".toList) := by
    rw [tokens]
    exact (isFlat_append_comma (by decide)).2 ⟨by decide, isFlat_of_noComma (by decide)⟩
  obtain ⟨-, -, alike, -⟩ := (alternatives_of_isTakenFrom "qa and !(x or y), dev").1 _ taken
  exact ⟨_, taken, flat, (alike flat).2 ["QA"] ⟨"QA", List.mem_singleton_self _, by decide⟩⟩

/-- A comma in parentheses leaves no expressions beside it; and a filter with a gap has the
alternatives of one without, and fails where that one admits. -/
theorem not_alternatives_grouped :
    ((∃ e : Expr, e.IsWrittenBy "(a,b)") ∧ (ofText "(a,b)").contexts = ["(a", "b)"] ∧
      Rejects "(a" ∧ Rejects "b)") ∧
    (ofText "a,").contexts = (ofText "a").contexts ∧ (ofText "a").admits ["a"] = .ok true ∧
      ∃ m, (ofText "a,").admits ["a"] = .error m := by
  have word (w : String) (isWord : IsWord w) : Writes .alternatives (.word w) [.word w] :=
    .conjunction (.operand (.word isWord))
  have unbalanced {s : String} (ts : List Token) (tokens : ofChars s.toList = ts)
      (open_ : ts.count .opening ≠ ts.count .closing) : Rejects s := by
    refine (rejects_iff_not_isTakenFrom s).2 fun e taken => open_ ?_
    rw [← tokens]
    exact (isTakenFrom_iff.1 taken).isNested.balanced
  refine ⟨⟨⟨.or (.word "a") (.word "b"), [.opening, .word "a", .comma, .word "b", .closing], ?_,
    spaced_iff.2 (by decide +kernel)⟩, by decide +kernel, ?_, ?_⟩, by decide +kernel, ?_, ?_⟩
  · have pair := Writes.or (t := .comma) rfl (word "a" (by decide +kernel))
      (word "b" (by decide +kernel))
    exact .conjunction (.operand (.group pair))
  · exact unbalanced [.opening, .word "a"] (by decide +kernel) (by decide)
  · exact unbalanced [.word "b", .closing] (by decide +kernel) (by decide)
  · have taken : (Expr.word "a").IsTakenFrom "a" :=
      isTakenFrom_word (by decide +kernel) (show lower "a" ≠ "not" by decide +kernel)
    rw [admits_of_isTakenFrom taken ⟨"a", List.mem_singleton_self _, by decide⟩]
    exact congrArg Except.ok (by decide +kernel)
  · have tokens : ofChars "a,".toList = [.word "a", .comma] := by decide +kernel
    have gap : HasGap (ofChars "a,".toList) := by
      rw [tokens]
      exact ⟨by decide, by decide +kernel⟩
    exact admits_of_hasGap gap (by decide +kernel) ⟨"a", List.mem_singleton_self _, by decide⟩

end ContextFilter
end Migration
