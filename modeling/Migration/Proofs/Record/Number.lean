import Migration.Proofs.Parameter.Expansion
import Migration.Proofs.Record.Coercion

/-!
# Numbers in placeholders

A number is converted as its text is converted, so a field that is set to a placeholder holds what
it would hold if it were set to the number that the placeholder stands for.

* `Value.IsExact` — numbers that are read back from their text
* `FieldType.coerce_text_print` — a number and its text are converted to the same value, or for the
  same reason to none
* `Table.expandValue_placeholder` — what a placeholder alone expands to
* `SessionM.fill_congr` — records that are filled with attributes that come to the same
* `Value.survives_of_isExact` — records that are filled with a number and with its placeholder
-/

namespace Migration

/-- A number that can be read from its text: an integer with no more digits than a numeral may have,
or a decimal within the bounds on exponents. -/
def Value.IsExact : Value → Prop
  | int n => (Text.digits n.natAbs).length ≤ Integer.maxDigits
  | decimal d => d.IsBounded
  | _ => False

namespace FieldType

variable {type : FieldType} {v : Value}

/-- A text is converted by reading it. -/
theorem coerce_text_eq (flag : type ≠ .truth) (text : type ≠ .text) (s : String) :
    type.coerce (.text s) = type.convert (.text s) := by
  have foreign : type.has (.text s) = false := by cases type <;> rfl
  rw [coerce_eq (by simp) flag text, foreign]
  rfl

/-- A value that does not have the type yet is converted as its text is. -/
theorem convert_text_print (flag : type ≠ .truth) (v : Value) :
    type.convert (.text v.print) = type.convert v := by
  cases type with
  | truth => exact absurd rfl flag
  | _ => rfl

/-- A number that has the type already is what its text is converted to. -/
theorem convert_of_has (exact : v.IsExact) (h : type.has v = true) : type.convert v = .ok v := by
  cases v with
  | int n =>
    obtain rfl : type = .integer := by cases type <;> first | rfl | cases h
    have read : Integer.parse? (Value.int n).print = some n := Integer.parse?_print exact
    simp only [convert, read]
    rfl
  | decimal d =>
    obtain rfl : type = .decimal := by cases type <;> first | rfl | cases h
    have read : Decimal.parse? (Value.decimal d).print = some d := Decimal.parse?_print exact
    simp only [convert, read]
    rfl
  | _ => exact exact.elim

/-- A number and its text are converted to the same value, or for the same reason to none. -/
theorem coerce_text_print (exact : v.IsExact) (flag : type ≠ .truth) :
    type.coerce (.text v.print) = type.coerce v := by
  by_cases text : type = .text
  · subst text
    cases v with
    | int | decimal => rfl
    | _ => exact exact.elim
  · have given : v ≠ .null := by
      rintro rfl
      exact exact
    rw [coerce_text_eq flag text, convert_text_print flag, coerce_eq given flag text]
    by_cases has : type.has v = true
    · rw [if_pos has, convert_of_has exact has]
    · rw [if_neg has]

end FieldType

namespace Segment

theorem hasNone_nil : HasNone [] := by
  intro before rest inside after split starts
  obtain ⟨rfl, rfl⟩ := List.append_eq_nil_iff.1 split.symm
  exact absurd starts.split (List.cons_ne_nil _ _).symm

/-- A text that is nothing but a placeholder. -/
theorem cut_of_starts {cs inside : List Char} (alone : Starts cs inside []) :
    Cut cs [([], inside)] [] :=
  .next [] alone (fun _ _ _ _ _ shorter => absurd shorter (Nat.not_lt_zero _)) (.last hasNone_nil)

end Segment

/-- A placeholder alone expands to the text of the value that its name stands for. -/
theorem Table.expandValue_placeholder {t : Table} {document : Option DocumentId} {s : String}
    {inside : List Char} {p : Parameter} (alone : Segment.Starts s.toList inside [])
    (finds : t.find? (nameOf inside) document = .ok (some p)) (given : p.value.isNull = false) :
    t.expandValue (.text s) document = .ok (.text p.value.print) := by
  obtain ⟨pieces, tail, cut, segments⟩ := Segment.exists_cut s.toList
  obtain ⟨rfl, rfl⟩ := (Segment.cut_of_starts alone).unique cut
  have replaced : List.Forall₂ (fun (piece : List Char × List Char) text =>
      t.Replaces document piece.2 text) [([], inside)] [p.value.print.toList] :=
    .cons (.value (find?_eq_iff.1 finds) given) .nil
  obtain ⟨parts, run, flat⟩ := mapM_ofCut replaced []
  have text : String.ofList parts.flatten = p.value.print := by
    rw [flat]
    simp [Segment.refill]
  have expands : t.expand s document = .ok p.value.print := by
    rw [expand, segments, run, ← text]
    rfl
  have isText : (Value.text s).asText? = some s := rfl
  rw [expandValue, isText]
  show Value.text <$> t.expand s document = _
  rw [expands]
  rfl

namespace SessionM

variable {d : DocumentId} {owner : String} {target : Target} {r : Record} {s : Session}

/-- Two attributes that come to the same in records of the type fill a record alike, whatever other
attributes are given before them and after them. -/
theorem fill_congr {key : String} {v v' w w' : Value} (before after : Attributes)
    (expands : expand d v s = (.ok w, s)) (expands' : expand d v' s = (.ok w', s))
    (binds : ∀ r' : Record, r'.type = r.type → r'.bind key w = r'.bind key w') :
    fill d owner target r (before ++ (key, v) :: after) s =
      fill d owner target r (before ++ (key, v') :: after) s := by
  induction before generalizing r with
  | nil =>
    rw [List.nil_append, List.nil_append, fill, fill, Step.run_bind_of_ok expands,
      Step.run_bind_of_ok expands', binds r rfl]
  | cons entry before ih =>
    obtain ⟨name, u⟩ := entry
    rw [List.cons_append, List.cons_append, fill, fill]
    rcases first : expand d u s with ⟨result, s'⟩
    obtain rfl : s = s' := (keeps_expand d u).of_run (R := (· = ·)) first
    cases result with
    | error failure => rw [Step.run_bind_of_error first, Step.run_bind_of_error first]
    | ok u' =>
      rw [Step.run_bind_of_ok first, Step.run_bind_of_ok first]
      cases bound : r.bind name u' with
      | error cause => rfl
      | ok r' =>
        have same := Record.type_of_bind bound
        exact ih fun r'' type => binds r'' (type.trans same)

end SessionM

namespace Value

variable {v : Value}

theorem isNull_of_isExact (exact : v.IsExact) : v.isNull = false := by
  cases v with
  | null => exact exact.elim
  | _ => rfl

theorem asText?_of_isExact (exact : v.IsExact) : v.asText? = none := by
  cases v with
  | text | choice => exact exact.elim
  | _ => rfl

end Value

/-- A field that is no flag is set to a number as it is set to the text of the number. -/
theorem Record.bind_text_print {r : Record} {key : String} {v : Value} (exact : v.IsExact)
    (flag : ∀ f, r.type.field? key = some f → f.type ≠ some .truth) :
    r.bind key (.text v.print) = r.bind key v := by
  unfold bind
  cases field : r.type.field? key with
  | none => rfl
  | some f =>
    cases writable : f.type with
    | none => simp only [writable]
    | some type =>
      have other : type ≠ .truth := by
        rintro rfl
        exact flag f field writable
      simp only [writable, FieldType.coerce_text_print exact other]

/-- A number survives its placeholder: it is read back from its text exactly, it is converted to
every type but a flag as its text is, and a record is filled with the placeholder of the number as
with the number itself. -/
theorem Value.survives_of_isExact {v : Value} (exact : v.IsExact) :
    (∀ n, v = .int n → Integer.parse? (Integer.print n) = some n) ∧
      (∀ x, v = .decimal x → Decimal.parse? x.print = some x) ∧
      (∀ type ≠ .truth, FieldType.coerce type (.text v.print) = type.coerce v) ∧
      ∀ (d : DocumentId) (owner : String) (target : Target) (r : Record) (s : Session)
        (before after : Attributes) (key text : String) (inside : List Char) (p : Parameter),
        Segment.Starts text.toList inside [] →
        s.table.find? (Table.nameOf inside) (some d) = .ok (some p) → p.value = v →
        (∀ f, r.type.field? key = some f → f.type ≠ some .truth) →
        SessionM.fill d owner target r (before ++ (key, .text text) :: after) s =
          SessionM.fill d owner target r (before ++ (key, v) :: after) s := by
  refine ⟨?_, ?_, fun type flag => FieldType.coerce_text_print exact flag, ?_⟩
  · rintro n rfl
    exact Integer.parse?_print exact
  · rintro x rfl
    exact Decimal.parse?_print exact
  · rintro d owner target r s before after key text inside p alone finds rfl flag
    have placeholder := SessionM.expand_of_ok
      (Table.expandValue_placeholder alone finds (Value.isNull_of_isExact exact))
    have number : s.table.expandValue p.value (some d) = .ok p.value := by
      rw [Table.expandValue, Value.asText?_of_isExact exact]
      rfl
    apply SessionM.fill_congr before after placeholder (SessionM.expand_of_ok number)
    intro r' type
    exact Record.bind_text_print exact (type ▸ flag)

/-- A decimal in scientific notation that keeps the zero at its end, as the value of a column. -/
theorem Value.survives_of_isExact_scientific :
    let v : Value := .decimal (.finite true 150 (-9))
    let s : Session :=
      { table := ⟨none, [], ⟨none⟩, [{ Parameter.ofText "p" "" with value := v }]⟩ }
    let filled := fun w : Value => SessionM.fill ⟨0⟩ "" (.column "insert") (.fresh Catalog.column)
      [("name", .text "total"), ("valueNumeric", w), ("remarks", .null)] s
    v.IsExact ∧ v.print = "-1.50E-7" ∧ Decimal.parse? "-1.50E-7" = some (.finite true 150 (-9)) ∧
      FieldType.coerce .decimal (.text "-1.50E-7") = FieldType.coerce .decimal v ∧
      filled (.text "$\x7b p \x7d") = filled v := by
  intro v s filled
  have exact : v.IsExact := by
    show Decimal.fits 150 (-9) = true
    decide +kernel
  have printed : v.print = "-1.50E-7" := by decide +kernel
  obtain ⟨-, decimals, conversions, fills⟩ := survives_of_isExact exact
  refine ⟨exact, printed, printed ▸ decimals _ rfl, printed ▸ conversions .decimal (by decide), ?_⟩
  have starts : Segment.Starts "$\x7b p \x7d".toList [' ', 'p', ' '] [] :=
    ⟨by decide, by decide, Text.forall_mem_of_all (by decide)⟩
  have finds : s.table.find? (Table.nameOf [' ', 'p', ' ']) (some ⟨0⟩) =
      .ok (some { Parameter.ofText "p" "" with value := v }) := rfl
  have flag : ∀ f, Catalog.column.field? "valueNumeric" = some f → f.type ≠ some .truth := by
    intro f field
    cases field
    decide
  exact fills ⟨0⟩ "" (.column "insert") (.fresh Catalog.column) s [("name", .text "total")]
    [("remarks", .null)] "valueNumeric" _ _ _ starts finds rfl flag

end Migration
