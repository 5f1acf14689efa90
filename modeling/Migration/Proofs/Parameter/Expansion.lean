import Mathlib.Data.List.Forall2
import Migration.Proofs.Parameter.Lookup
import Migration.Proofs.Placeholder

/-!
# What a text expands to

A text is cut into placeholders and what stands between them: each placeholder is the first one that
starts in what is left of the text, and there is only one way to cut a text like that. Expansion
keeps what stands between the placeholders and puts a text in the place of each placeholder; what
has been put there is not looked at again.

* `Segment.Starts`, `Segment.Cut` — a placeholder at the front of a text, and a text that is cut
* `Segment.exists_cut`, `Segment.Cut.unique` — every text can be cut, in one way
* `Table.Replaces`, `Table.ReadsWell` — what stands in the place of a placeholder, and texts for
  which there always is something
* `Table.expand_eq_of_cut` — what a text expands to
-/

namespace Migration

namespace Segment

/-! ## Cutting a text -/

/-- A placeholder stands at the front of a text: there is at least one character between its braces,
and none of them is a brace. -/
structure Starts (cs inside after : List Char) : Prop where
  split : cs = '$' :: '{' :: (inside ++ '}' :: after)
  nonempty : inside ≠ []
  braceless : ∀ c ∈ inside, c ≠ '{' ∧ c ≠ '}'

/-- Up to some place of a text no placeholder starts. -/
def NoneBefore (n : Nat) (cs : List Char) : Prop :=
  ∀ before rest inside after, cs = before ++ rest → before.length < n → ¬Starts rest inside after

/-- In a text no placeholder starts. -/
def HasNone (cs : List Char) : Prop :=
  ∀ before rest inside after, cs = before ++ rest → ¬Starts rest inside after

/-- A text that is cut: what stands before each placeholder and what stands in its braces, and what
stands after the last one. Each placeholder is the first one that starts in what is left of the
text. -/
inductive Cut : List Char → List (List Char × List Char) → List Char → Prop
  | last {cs} (none : HasNone cs) : Cut cs [] cs
  | next (before) {rest inside after pieces tail} (starts : Starts rest inside after)
      (first : NoneBefore before.length (before ++ rest)) (more : Cut after pieces tail) :
      Cut (before ++ rest) ((before, inside) :: pieces) tail

/-- The segments of a text that is cut. -/
def ofCut (pieces : List (List Char × List Char)) (tail : List Char) : List Segment :=
  pieces.flatMap (fun piece => piece.1.map literal ++ [placeholder piece.2]) ++ tail.map literal

variable {c : Char} {cs rest inside inside' after after' : List Char}
  {pieces pieces' : List (List Char × List Char)} {tail tail' : List Char}

theorem isInside_iff : isInside c = true ↔ c ≠ '{' ∧ c ≠ '}' := by
  simp [isInside]

/-- The characters between the braces, and what follows them. -/
theorem Starts.span (h : Starts ('$' :: '{' :: rest) inside after) :
    rest.takeWhile isInside = inside ∧ rest.dropWhile isInside = '}' :: after := by
  obtain ⟨split, -, braceless⟩ := h
  obtain rfl : rest = inside ++ '}' :: after := (List.cons.inj (List.cons.inj split).2).2
  have all : ∀ c ∈ inside, isInside c = true := fun c mem => isInside_iff.2 (braceless c mem)
  have ends : isInside '}' = false := rfl
  rw [List.takeWhile_append_of_pos all, List.dropWhile_append_of_pos all]
  simp [ends]

theorem Starts.unique (h : Starts cs inside after) (h' : Starts cs inside' after') :
    inside = inside' ∧ after = after' := by
  have split := h.split
  subst split
  obtain ⟨taken, dropped⟩ := h.span
  obtain ⟨taken', dropped'⟩ := h'.span
  exact ⟨taken.symm.trans taken', (List.cons.inj (dropped.symm.trans dropped')).2⟩

/-- What stands between the braces is as long as it can be. -/
theorem starts_of_span (dropped : rest.dropWhile isInside = '}' :: after)
    (nonempty : rest.takeWhile isInside ≠ []) :
    Starts ('$' :: '{' :: rest) (rest.takeWhile isInside) after := by
  refine ⟨?_, nonempty, fun c mem => isInside_iff.1 (List.all_eq_true.1 List.all_takeWhile c mem)⟩
  rw [← dropped, List.takeWhile_append_dropWhile]

/-- A placeholder starts with its dollar sign. -/
theorem not_starts_of_ne (other : ∀ more, c = '$' → rest ≠ '{' :: more) :
    ¬Starts (c :: rest) inside after := by
  intro h
  obtain ⟨dollar, split⟩ := List.cons.inj h.split
  exact other _ dollar split

/-- One more character at the front, at which no placeholder starts. -/
theorem Cut.cons (h : Cut cs pieces tail) (new : ∀ inside after, ¬Starts (c :: cs) inside after) :
    ∃ pieces' tail', Cut (c :: cs) pieces' tail' ∧
      ofCut pieces' tail' = literal c :: ofCut pieces tail := by
  cases h with
  | last none =>
    refine ⟨[], c :: cs, .last fun before rest inside after split starts => ?_, rfl⟩
    cases before with
    | nil => exact new inside after (split ▸ starts)
    | cons d before => exact none before rest inside after (List.cons.inj split).2 starts
  | @next before rest inside after pieces tail starts first more =>
    refine ⟨(c :: before, inside) :: pieces, tail, ?_, rfl⟩
    refine .next (c :: before) starts (fun b r i a split shorter starts' => ?_) more
    cases b with
    | nil =>
      have here : r = c :: (before ++ rest) := split.symm
      exact new i a (here ▸ starts')
    | cons d b =>
      exact first b r i a (List.cons.inj split).2 (Nat.lt_of_succ_lt_succ shorter) starts'

/-- Every text can be cut, and reading it from left to right makes the segments of the cut. -/
theorem exists_cut (cs : List Char) :
    ∃ pieces tail, Cut cs pieces tail ∧ ofChars cs = ofCut pieces tail := by
  fun_induction ofChars cs with
  | case1 =>
    refine ⟨[], [], .last fun before rest inside after split starts => ?_, rfl⟩
    obtain ⟨rfl, rfl⟩ := List.append_eq_nil_iff.1 split.symm
    exact absurd starts.split (List.cons_ne_nil _ _).symm
  | case2 rest after dropped empty ih =>
    obtain ⟨pieces, tail, cut, segments⟩ := ih
    rw [segments]
    obtain ⟨pieces', tail', cut', same⟩ := cut.cons (c := '$') fun inside after starts =>
      starts.nonempty (starts.span.1.symm.trans (List.isEmpty_iff.1 empty))
    exact ⟨pieces', tail', cut', same.symm⟩
  | case3 rest after dropped nonempty ih =>
    obtain ⟨pieces, tail, cut, segments⟩ := ih
    rw [segments]
    have starts := starts_of_span dropped fun empty => nonempty (List.isEmpty_iff.2 empty)
    exact ⟨([], rest.takeWhile isInside) :: pieces, tail,
      .next [] starts (fun _ _ _ _ _ shorter => absurd shorter (Nat.not_lt_zero _)) cut, rfl⟩
  | case4 rest other ih =>
    obtain ⟨pieces, tail, cut, segments⟩ := ih
    rw [segments]
    obtain ⟨pieces', tail', cut', same⟩ := cut.cons (c := '$') fun inside after starts =>
      other after starts.span.2
    exact ⟨pieces', tail', cut', same.symm⟩
  | case5 c rest other ih =>
    obtain ⟨pieces, tail, cut, segments⟩ := ih
    rw [segments]
    obtain ⟨pieces', tail', cut', same⟩ := cut.cons (c := c) fun inside after =>
      not_starts_of_ne fun more dollar split => other more dollar split
    exact ⟨pieces', tail', cut', same.symm⟩

/-- There is only one way to cut a text. -/
theorem Cut.unique (h : Cut cs pieces tail) (h' : Cut cs pieces' tail') :
    pieces' = pieces ∧ tail' = tail := by
  induction h generalizing pieces' tail' with
  | last none =>
    cases h' with
    | last => exact ⟨rfl, rfl⟩
    | next before starts first more => exact absurd starts (none _ _ _ _ rfl)
  | @next before rest inside after pieces tail starts first more ih =>
    generalize whole : before ++ rest = cs at h'
    cases h' with
    | last none => exact absurd starts (none _ _ _ _ whole.symm)
    | @next before' rest' inside' after' pieces' tail' starts' first' more' =>
      -- neither placeholder starts before the other one
      have long : before'.length ≤ before.length := Nat.le_of_not_lt fun shorter =>
        first' before rest inside after whole.symm shorter starts
      have long' : before.length ≤ before'.length := Nat.le_of_not_lt fun shorter =>
        first before' rest' inside' after' whole shorter starts'
      obtain ⟨rfl, rfl⟩ := List.append_inj whole (Nat.le_antisymm long' long)
      obtain ⟨rfl, rfl⟩ := starts.unique starts'
      obtain ⟨rfl, rfl⟩ := ih more'
      exact ⟨rfl, rfl⟩

/-- A cut text with its placeholders filled in. -/
def refill (pieces : List (List Char × List Char)) (texts : List (List Char)) (tail : List Char) :
    List Char :=
  (List.zipWith (fun piece text => piece.1 ++ text) pieces texts).flatten ++ tail

end Segment

namespace Table

/-! ## Filling in the placeholders -/

/-- The name that stands between the braces of a placeholder. -/
def nameOf (inside : List Char) : String := Text.trim (String.ofList inside)

/-- What stands in the place of a placeholder: the text of the value that the writes of its name
decide on, or the placeholder itself if they decide on no write or on one without a value. -/
inductive Replaces (t : Table) (document : Option DocumentId) (inside : List Char) :
    List Char → Prop
  | value {p} (decides : t.Decides (nameOf inside) document t.parameters (.ok (some p)))
      (some : p.value.isNull = false) : Replaces t document inside p.value.print.toList
  | null {p} (decides : t.Decides (nameOf inside) document t.parameters (.ok (some p)))
      (none : p.value.isNull = true) : Replaces t document inside ('$' :: '{' :: inside ++ ['}'])
  | nothing (decides : t.Decides (nameOf inside) document t.parameters (.ok none)) :
      Replaces t document inside ('$' :: '{' :: inside ++ ['}'])

/-- Looking up the placeholders of a text meets no malformed filter. -/
def ReadsWell (t : Table) (s : String) (document : Option DocumentId) : Prop :=
  ∀ pieces tail, Segment.Cut s.toList pieces tail → ∀ piece ∈ pieces, ∀ m,
    ¬t.Decides (nameOf piece.2) document t.parameters (.error m)

variable {t : Table} {document : Option DocumentId} {inside text tail : List Char}
  {pieces : List (List Char × List Char)} {texts : List (List Char)} {s : String}

/-- A table in which every filter can be read meets no malformed one. -/
theorem readsWell_of_applies (h : ∀ p ∈ t.parameters, (t.applies p document).isOk = true) :
    t.ReadsWell s document := by
  intro pieces tail cut piece mem m decides
  generalize writes : t.parameters = ps at decides h
  cases decides with
  | malformed later named fails passed =>
    have isOk := h _ (List.mem_append_right _ List.mem_cons_self)
    rw [fails] at isOk
    cases isOk

theorem exists_replaces (h : ∀ m, ¬t.Decides (nameOf inside) document t.parameters (.error m)) :
    ∃ text, t.Replaces document inside text := by
  have decides := decides_search t (nameOf inside) document t.parameters
  rcases found : t.search (nameOf inside) document t.parameters with m | _ | p
  · exact absurd (found ▸ decides) (h m)
  · exact ⟨_, .nothing (found ▸ decides)⟩
  · cases value : p.value.isNull with
    | false => exact ⟨_, .value (found ▸ decides) value⟩
    | true => exact ⟨_, .null (found ▸ decides) value⟩

theorem expandSegment_of_replaces (h : t.Replaces document inside text) :
    t.expandSegment document (.placeholder inside) = .ok text := by
  have name : String.ofList (Text.trimChars inside) = nameOf inside := by
    rw [nameOf, Text.trim, String.toList_ofList]
  rw [expandSegment, name]
  cases h with
  | @value p decides some =>
    rw [find?_eq_iff.2 decides]
    show Except.ok (if p.value.isNull then _ else p.value.print.toList) = _
    rw [some]
    rfl
  | @null p decides none =>
    rw [find?_eq_iff.2 decides]
    show Except.ok (if p.value.isNull then (Segment.placeholder inside).chars else _) = _
    rw [none]
    rfl
  | nothing decides =>
    rw [find?_eq_iff.2 decides]
    rfl

theorem mapM_ofCut (h : List.Forall₂ (fun piece text => t.Replaces document piece.2 text) pieces texts)
    (tail : List Char) : ∃ parts,
      (Segment.ofCut pieces tail).mapM (t.expandSegment document) = .ok parts ∧
        parts.flatten = Segment.refill pieces texts tail := by
  have singletons : ∀ cs : List Char, (cs.map fun c => [c]).flatten = cs := fun cs => by
    rw [← List.flatMap_def, List.flatMap_singleton']
  induction h with
  | nil => exact ⟨_, t.mapM_literal document tail, singletons tail⟩
  | @cons piece text pieces texts replaces _ ih =>
    obtain ⟨parts, run, flat⟩ := ih
    refine ⟨piece.1.map (fun c => [c]) ++ text :: parts, ?_, ?_⟩
    · have front : Segment.ofCut (piece :: pieces) tail =
          piece.1.map .literal ++ .placeholder piece.2 :: Segment.ofCut pieces tail := by
        simp [Segment.ofCut]
      rw [front, List.mapM_append, t.mapM_literal, List.mapM_cons,
        expandSegment_of_replaces replaces, run]
      rfl
    · simp [Segment.refill, flat, singletons]

theorem exists_texts (h : ∀ piece ∈ pieces, ∀ m,
    ¬t.Decides (nameOf piece.2) document t.parameters (.error m)) :
    ∃ texts, List.Forall₂ (fun piece text => t.Replaces document piece.2 text) pieces texts := by
  induction pieces with
  | nil => exact ⟨[], .nil⟩
  | cons piece pieces ih =>
    obtain ⟨text, replaces⟩ := exists_replaces (h piece List.mem_cons_self)
    obtain ⟨texts, all⟩ := ih fun other mem => h other (List.mem_cons_of_mem _ mem)
    exact ⟨text :: texts, .cons replaces all⟩

/-- What a text expands to: each placeholder of the one way to cut it is replaced by the text that
the writes of its name decide on, and everything else is kept. -/
theorem expand_eq_of_cut (h : t.ReadsWell s document) :
    ∃ pieces tail texts, Segment.Cut s.toList pieces tail ∧
      (∀ pieces' tail', Segment.Cut s.toList pieces' tail' → pieces' = pieces ∧ tail' = tail) ∧
      List.Forall₂ (fun piece text => t.Replaces document piece.2 text) pieces texts ∧
      t.expand s document = .ok (String.ofList (Segment.refill pieces texts tail)) ∧
      (∀ v : Value, v.asText? = some s →
        t.expandValue v document = .ok (.text (String.ofList (Segment.refill pieces texts tail)))) ∧
      (Segment.HasNone s.toList → t.expand s document = .ok s) := by
  obtain ⟨pieces, tail, cut, segments⟩ := Segment.exists_cut s.toList
  obtain ⟨texts, replaced⟩ := exists_texts (h pieces tail cut)
  obtain ⟨parts, run, flat⟩ := mapM_ofCut replaced tail
  have expands : t.expand s document = .ok (String.ofList (Segment.refill pieces texts tail)) := by
    rw [expand, segments, run, ← flat]
    rfl
  refine ⟨pieces, tail, texts, cut, fun pieces' tail' => cut.unique, replaced, expands, ?_, ?_⟩
  · intro v isText
    rw [expandValue, isText]
    show Value.text <$> t.expand s document = _
    rw [expands]
    rfl
  · intro none
    obtain ⟨rfl, rfl⟩ := cut.unique (.last none)
    cases replaced
    rw [expands, Segment.refill, List.zipWith_nil_left, List.flatten_nil, List.nil_append,
      String.ofList_toList]

/-- A value that looks like a placeholder, a placeholder in braces, one without a value and one that
does not end. -/
theorem expand_eq_of_cut_overlapping :
    let t : Table := ⟨none, [], ⟨none⟩,
      [.ofText "x" "[$\x7by\x7d]", .ofText "y" "1", { Parameter.ofText "z" "" with value := .null }]⟩
    let s := "$$\x7b x \x7d-$\x7b$\x7bx\x7d\x7d-$\x7bz\x7d-$\x7b\x7d-$\x7b"
    t.ReadsWell s none ∧ ∃ pieces tail texts, Segment.Cut s.toList pieces tail ∧
      List.Forall₂ (fun piece text => t.Replaces none piece.2 text) pieces texts ∧
      Segment.refill pieces texts tail =
        "$[$\x7by\x7d]-$\x7b[$\x7by\x7d]\x7d-$\x7bz\x7d-$\x7b\x7d-$\x7b".toList := by
  intro t s
  have well : t.ReadsWell s none := readsWell_of_applies (by decide +kernel)
  obtain ⟨pieces, tail, texts, cut, -, replaced, expands, -⟩ := expand_eq_of_cut well
  refine ⟨well, pieces, tail, texts, cut, replaced, ?_⟩
  have computed : t.expand s none =
      .ok "$[$\x7by\x7d]-$\x7b[$\x7by\x7d]\x7d-$\x7bz\x7d-$\x7b\x7d-$\x7b" := by decide +kernel
  have same := Except.ok.inj (expands.symm.trans computed)
  rw [← same, String.toList_ofList]

end Table

end Migration
