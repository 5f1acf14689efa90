import Mathlib.Data.List.Forall2
import Mathlib.Data.List.Nodup
import Migration.Proofs.Parameter.Removal
import Migration.Proofs.Placeholder

/-!
# Tables that cannot be told apart

All that can be seen of the table of a run is what value a name has inside a document: whether it
has one, what it is, what texts expand to and what bare names stand for all depend on that. If
different names are written into a table in one way or another, nothing tells the results apart just
if nothing tells any of the single writes apart.

* `Text.Mentions` — the names in the placeholders of a text
* `Table.value?` — the value that a name has inside a document
* `Table.Indistinguishable`, `Table.indistinguishable_iff` — tables that give every name the same
  value
* `Table.writing` — a table with more writes
* `Table.Indistinguishable.writing` — what is written later does not tell tables apart
* `Table.indistinguishable_writing_iff` — writes of different names are seen one by one
-/

namespace Migration

/-- The names that stand between the braces of the placeholders of a text. -/
def Text.Mentions (s name : String) : Prop :=
  ∃ inside, Segment.placeholder inside ∈ Segment.ofChars s.toList ∧
    name = String.ofList (Text.trimChars inside)

/-- The names that stand in the placeholders of a value, if it counts as text. -/
def Value.Mentions (v : Value) (name : String) : Prop :=
  ∃ s, v.asText? = some s ∧ Text.Mentions s name

theorem Text.not_mentions_of_isPlain {s : String} (h : Text.IsPlain s) (name : String) :
    ¬Text.Mentions s name := by
  rintro ⟨inside, mem, -⟩
  rw [Segment.ofChars_of_isPlain h] at mem
  obtain ⟨c, -, same⟩ := List.mem_map.1 mem
  cases same

/-- A text without placeholders is its characters. -/
theorem Segment.ofChars_of_none {cs : List Char}
    (none_ : ∀ inside, placeholder inside ∉ ofChars cs) :
    ofChars cs = cs.map literal := by
  fun_induction ofChars cs with
  | case1 => rfl
  | case3 rest after dropped nonempty ih => exact absurd List.mem_cons_self (none_ _)
  | case2 rest after dropped empty ih | case4 rest other ih | case5 c rest other ih =>
    rw [List.map_cons, ih fun inside mem => none_ inside (List.mem_cons_of_mem _ mem)]

namespace Table

/-- The value that a name has inside a document, if it has one. -/
def value? (t : Table) (name : String) (document : Option DocumentId) :
    Except Filter.Malformed (Option Value) :=
  Option.map Parameter.value <$> t.find? name document

/-- Nothing that can be seen of tables tells them apart. -/
structure Indistinguishable (t t' : Table) : Prop where
  run : t' = { t with parameters := t'.parameters }
  has : ∀ name document, t'.has name document = t.has name document
  get : ∀ name document, t'.get name document = t.get name document
  expand : ∀ text document, t'.expand text document = t.expand text document
  expandValue : ∀ v document, t'.expandValue v document = t.expandValue v document
  resolve : ∀ (e : Engine) (name : String) (r : Running), r.session.table = t → ∃ result,
    ScriptM.resolve e name r = (result, r) ∧
      ScriptM.resolve e name (r.withTable t') = (result, r.withTable t')

variable {t t' : Table} {name : String} {document : Option DocumentId}

theorem has_eq (t : Table) (name : String) (document : Option DocumentId) :
    t.has name document = Option.isSome <$> t.value? name document := by
  unfold has value?
  rcases t.find? name document with m | _ | p <;> rfl

theorem get_eq (t : Table) (name : String) (document : Option DocumentId) :
    t.get name document = (·.getD .null) <$> t.value? name document := by
  unfold get value?
  rcases t.find? name document with m | _ | p <;> rfl

theorem expandSegment_eq (t : Table) (inside : List Char) (document : Option DocumentId) :
    t.expandSegment document (.placeholder inside) =
      (fun v => if (v.getD .null).isNull then (Segment.placeholder inside).chars
        else (v.getD .null).print.toList) <$>
        t.value? (String.ofList (Text.trimChars inside)) document := by
  rw [expandSegment, value?]
  rcases t.find? (String.ofList (Text.trimChars inside)) document with m | _ | p <;> rfl

/-- What a text expands to depends on the values of the names in its placeholders. -/
theorem expand_eq_of_values {s : String}
    (same : ∀ name, Text.Mentions s name → t'.value? name document = t.value? name document) :
    t'.expand s document = t.expand s document := by
  have segments : ∀ segments : List Segment, (∀ segment ∈ segments,
      segment ∈ Segment.ofChars s.toList) →
      segments.mapM (t'.expandSegment document) = segments.mapM (t.expandSegment document) := by
    intro segments inside
    induction segments with
    | nil => rfl
    | cons segment rest ih =>
      have first : t'.expandSegment document segment = t.expandSegment document segment := by
        cases segment with
        | literal c => rfl
        | placeholder text =>
          rw [expandSegment_eq, expandSegment_eq, same _ ⟨text, inside _ List.mem_cons_self, rfl⟩]
      rw [List.mapM_cons, List.mapM_cons,
        first, ih fun other mem => inside other (List.mem_cons_of_mem _ mem)]
  rw [expand, expand, segments _ fun _ mem => mem]

/-- What a value expands to depends on the values of the names in its placeholders. -/
theorem expandValue_eq_of_values {v : Value}
    (same : ∀ name, v.Mentions name → t'.value? name document = t.value? name document) :
    t'.expandValue v document = t.expandValue v document := by
  unfold expandValue
  cases text : v.asText? with
  | none => rfl
  | some s =>
    have expands : t'.expand s document = t.expand s document :=
      expand_eq_of_values fun name mentions => same name ⟨s, text, mentions⟩
    exact congrArg (Value.text <$> ·) expands

/-- A text without placeholders expands to itself. -/
theorem expand_of_not_mentions {s : String} (none_ : ∀ name, ¬Text.Mentions s name) (t : Table)
    (document : Option DocumentId) : t.expand s document = .ok s :=
  t.expand_of_literals (Segment.ofChars_of_none fun inside mem => none_ _ ⟨inside, mem, rfl⟩) document

/-- What a bare name stands for: what it is defined as, or its value in the document of the
script. -/
theorem resolve_eq (e : Engine) (name : String) (r : Running) :
    ScriptM.resolve e name r =
      (match ScriptM.defined? e r.frame name with
        | some binding => .ok binding
        | none => match r.session.table.value? name (some r.frame.document) with
          | .error m => .error (.mishap (.malformedFilter m))
          | .ok none => .ok .nothing
          | .ok (some v) => .ok (.value v), r) := by
  rw [ScriptM.resolve_eq, value?]
  cases ScriptM.defined? e r.frame name with
  | some binding => rfl
  | none => rcases r.session.table.find? name (some r.frame.document) with m | _ | p <;> rfl

/-- Tables of one run cannot be told apart just if they give every name the same value in every
document. -/
theorem indistinguishable_iff : t.Indistinguishable t' ↔
    t' = { t with parameters := t'.parameters } ∧
    ∀ name document, t'.value? name document = t.value? name document := by
  constructor
  · refine fun h => ⟨h.run, fun name document => ?_⟩
    have has := h.has name document
    have get := h.get name document
    -- a name without a value and one whose value is nothing differ in `has`, all others in `get`
    rw [has_eq, has_eq] at has
    rw [get_eq, get_eq] at get
    revert has get
    rcases t.value? name document with m | _ | v <;>
      rcases t'.value? name document with m' | _ | v' <;> intro has get
    · exact congrArg Except.error (Except.error.inj has)
    · cases has
    · cases has
    · cases has
    · rfl
    · cases has
    · cases has
    · cases has
    · exact congrArg (Except.ok ∘ some) (Except.ok.inj get)
  · rintro ⟨run, same⟩
    refine ⟨run, fun name document => ?_, fun name document => ?_,
      fun text document => expand_eq_of_values fun name _ => same name document,
      fun v document => expandValue_eq_of_values fun name _ => same name document, ?_⟩
    · rw [has_eq, has_eq, same]
    · rw [get_eq, get_eq, same]
    · rintro e name r rfl
      refine ⟨_, resolve_eq e name r, ?_⟩
      rw [resolve_eq]
      have frame : (r.withTable t').frame = r.frame := rfl
      have table : (r.withTable t').session.table = t' := rfl
      rw [frame, table, same]

/-! ## Many writes -/

/-- The table with more writes, of which the last one is the latest. -/
def writing (t : Table) (ps : List Parameter) : Table := ps.foldl set t

variable {p : Parameter} {ps qs : List Parameter}

theorem writing_eq (t : Table) (ps : List Parameter) :
    t.writing ps = { t with parameters := ps.reverse ++ t.parameters } := by
  induction ps generalizing t with
  | nil => rfl
  | cons p rest ih =>
    show (t.set p).writing rest = _
    rw [ih]
    simp [set]

theorem find?_set (t : Table) (p : Parameter) (name : String) (document : Option DocumentId) :
    (t.set p).find? name document = t.search name document (p :: t.parameters) :=
  search_with t _ name document _

theorem find?_writing (t : Table) (ps : List Parameter) (name : String)
    (document : Option DocumentId) :
    (t.writing ps).find? name document = t.search name document (ps.reverse ++ t.parameters) := by
  rw [writing_eq]
  exact search_with t _ name document _

/-- A name that is not among the writes is looked up as before. -/
theorem find?_writing_of_not_mem (absent : name ∉ ps.map Parameter.key) :
    (t.writing ps).find? name document = t.find? name document := by
  have others : ∀ q ∈ ps.reverse, t.Passes name document q := fun q mem named =>
    absurd (named ▸ List.mem_map_of_mem (List.mem_reverse.1 mem)) absent
  rw [find?_writing, search_append_of_passes others]
  rfl

/-- A name that is written once is looked up as if nothing else had been written. -/
theorem find?_writing_of_mem (nodup : (ps.map Parameter.key).Nodup) (mem : p ∈ ps) :
    (t.writing ps).find? p.key document = (t.set p).find? p.key document := by
  obtain ⟨before, after, rfl⟩ := List.append_of_mem mem
  have others : ∀ q ∈ before ++ after, t.Passes p.key document q := by
    intro q mem named
    rw [List.map_append, List.map_cons] at nodup
    have apart := (List.nodup_cons.1 (List.nodup_middle.1 nodup)).1
    rw [← List.map_append] at apart
    exact absurd (named ▸ List.mem_map_of_mem mem) apart
  have later : ∀ q ∈ after.reverse, t.Passes p.key document q := fun q mem =>
    others q (List.mem_append_right _ (List.mem_reverse.1 mem))
  have earlier : ∀ q ∈ before.reverse, t.Passes p.key document q := fun q mem =>
    others q (List.mem_append_left _ (List.mem_reverse.1 mem))
  have order : (before ++ p :: after).reverse ++ t.parameters =
      after.reverse ++ (p :: (before.reverse ++ t.parameters)) := by
    simp
  rw [find?_writing, find?_set, order, search_append_of_passes later, search_cons_of_key rfl,
    search_cons_of_key rfl, search_append_of_passes earlier]

theorem value?_writing_of_mem (nodup : (ps.map Parameter.key).Nodup) (mem : p ∈ ps) :
    (t.writing ps).value? p.key document = (t.set p).value? p.key document := by
  rw [value?, value?, find?_writing_of_mem nodup mem]

theorem value?_writing_of_not_mem (absent : name ∉ ps.map Parameter.key) :
    (t.writing ps).value? name document = t.value? name document := by
  rw [value?, value?, find?_writing_of_not_mem absent]

theorem value?_set_of_ne (other : p.key ≠ name) :
    (t.set p).value? name document = t.value? name document := by
  have absent : name ∉ [p].map Parameter.key := fun mem => other (List.mem_singleton.1 mem).symm
  exact value?_writing_of_not_mem absent

/-- What a name stands for after a write of it: its value if that applies, and what it stood for
otherwise. -/
theorem value?_set_of_key (named : p.key = name) :
    (t.set p).value? name document = t.applies p document >>= fun applies =>
      if applies then pure (some p.value) else t.value? name document := by
  rw [value?, find?_set, search_cons_of_key named]
  rcases t.applies p document with m | _ | _ <;> rfl

/-- Whatever is written later into tables that cannot be told apart, they stay so. -/
theorem Indistinguishable.writing (h : t.Indistinguishable t') (later : List Parameter) :
    (t.writing later).Indistinguishable (t'.writing later) := by
  induction later generalizing t t' with
  | nil => exact h
  | cons p later ih =>
    obtain ⟨run, same⟩ := indistinguishable_iff.1 h
    refine ih (indistinguishable_iff.2 ⟨congrArg (set · p) run, fun name document => ?_⟩)
    by_cases named : p.key = name
    · have applies : t'.applies p document = t.applies p document :=
        (congrArg (applies · p document) run).trans rfl
      rw [value?_set_of_key named, value?_set_of_key named, applies, same]
    · rw [value?_set_of_ne named, value?_set_of_ne named, same]

theorem exists_of_forall₂ {R : Parameter → Parameter → Prop} (h : List.Forall₂ R ps qs)
    (mem : p ∈ ps) :
    ∃ q ∈ qs, R p q := by
  induction h with
  | nil => cases mem
  | cons first more ih =>
    rcases List.mem_cons.1 mem with rfl | mem
    · exact ⟨_, List.mem_cons_self, first⟩
    · obtain ⟨q, mem', holds⟩ := ih mem
      exact ⟨q, List.mem_cons_of_mem _ mem', holds⟩

theorem keys_eq_of_forall₂ (named : List.Forall₂ (fun p q => q.key = p.key) ps qs) :
    qs.map Parameter.key = ps.map Parameter.key := by
  rw [← List.forall₂_eq_eq_eq, List.forall₂_map_left_iff, List.forall₂_map_right_iff]
  exact named.flip

/-- Two writes of a name are told apart by what the name stands for after them, if at all. -/
theorem indistinguishable_set_iff {q : Parameter} (named : q.key = p.key) :
    (t.set p).Indistinguishable (t.set q) ↔
      ∀ document, (t.set q).value? p.key document = (t.set p).value? p.key document := by
  rw [indistinguishable_iff]
  refine ⟨fun same => same.2 p.key, fun same => ⟨rfl, fun name document => ?_⟩⟩
  by_cases own : p.key = name
  · exact own ▸ same document
  · rw [value?_set_of_ne own, value?_set_of_ne (named ▸ own)]

/-- Writes of different names are seen one by one. -/
theorem indistinguishable_writing_iff (nodup : (ps.map Parameter.key).Nodup)
    (named : List.Forall₂ (fun p q => q.key = p.key) ps qs) :
    (t.writing ps).Indistinguishable (t.writing qs) ↔
      List.Forall₂ (fun p q => (t.set p).Indistinguishable (t.set q)) ps qs := by
  have keys : qs.map Parameter.key = ps.map Parameter.key := keys_eq_of_forall₂ named
  have nodup' : (qs.map Parameter.key).Nodup := keys ▸ nodup
  have each : ∀ p ∈ ps, ∀ q ∈ qs, q.key = p.key → ∀ document,
      (t.writing ps).value? p.key document = (t.set p).value? p.key document ∧
        (t.writing qs).value? p.key document = (t.set q).value? p.key document := by
    intro p mem q mem' named document
    refine ⟨value?_writing_of_mem nodup mem, ?_⟩
    rw [← named]
    exact value?_writing_of_mem nodup' mem'
  rw [indistinguishable_iff]
  constructor
  · rintro ⟨-, same⟩
    refine List.forall₂_iff_zip.2 ⟨named.length_eq, fun {p q} mem => ?_⟩
    have key := List.forall₂_zip named mem
    obtain ⟨mem, mem'⟩ := List.of_mem_zip mem
    refine (indistinguishable_set_iff key).2 fun document => ?_
    obtain ⟨first, second⟩ := each p mem q mem' key document
    rw [← first, ← second, same]
  · refine fun same => ⟨by rw [writing_eq, writing_eq], fun name document => ?_⟩
    by_cases written : name ∈ ps.map Parameter.key
    · have both :
          List.Forall₂ (fun p q => q.key = p.key ∧ (t.set p).Indistinguishable (t.set q)) ps qs :=
        named.mp (fun _ _ key alike => ⟨key, alike⟩) same
      obtain ⟨p, mem, rfl⟩ := List.mem_map.1 written
      obtain ⟨q, mem', key, alike⟩ := exists_of_forall₂ both mem
      obtain ⟨first, second⟩ := each p mem q mem' key document
      rw [first, second, (indistinguishable_set_iff key).1 alike]
    · rw [value?_writing_of_not_mem written, value?_writing_of_not_mem (keys ▸ written)]

end Table

end Migration
