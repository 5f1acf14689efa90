import Migration.Proofs.Number.Decimal
import Migration.Proofs.Number.Integer
import Migration.Proofs.Record
import Migration.Proofs.Time

/-!
# Conversions are stable

A value that has been converted to a type is not changed by another conversion to that type, and a
number may be converted through its text.

* `FieldType.coerce_of_has` — a value of the type stays as it is
* `FieldType.coerce_ofTimeText` — a point in time is read as the same point from its own text
* `FieldType.coerce_idempotent` — converting twice is converting once
-/

namespace Migration

/-- Trimming twice is trimming once. -/
theorem Text.trim_trim (s : String) : trim (trim s) = trim s := by
  rw [trim, trim, String.toList_ofList,
    trimChars_of_ends (starts_trimChars s.toList) (ends_trimChars s.toList)]

/-- The text of a time of day has no white space at its ends. -/
theorem TimeOfDay.trim_print (t : TimeOfDay) : Text.trim t.print = t.print := by
  have others : ∀ c ∈ [':', '.', '+', '-'], Text.isBlank c = false :=
    Text.forall_mem_of_all (by decide)
  have notBlank := forall_mem_printChars (by decide) others t
  rw [Text.trim, print, String.toList_ofList, Text.trimChars_of_forall notBlank]

namespace FieldType

variable {type : FieldType} {v w : Value}

/-- A value of the type stays as it is. -/
theorem coerce_of_has (h : type.has v = true) : type.coerce v = .ok v := by
  cases type <;> cases v <;> simp_all [has, coerce, pure, Except.pure]

/-- Converting to a point in time never fails. -/
theorem convert_timestamp (v : Value) :
    timestamp.convert v = .ok (.ofTimeText (Text.trim v.print)) := rfl

/-- A point in time that a text writes is read from its own text again. -/
theorem coerce_ofTimeText {s : String} (trimmed : Text.trim s = s) :
    timestamp.coerce (.ofTimeText s) = .ok (.ofTimeText s) := by
  unfold Value.ofTimeText
  split
  · exact coerce_of_has rfl
  · rename_i t noTimestamp time
    have readable := TimeOfDay.isReadable_of_parse? time
    show timestamp.convert (.time t) = _
    rw [convert_timestamp, Value.print, TimeOfDay.trim_print, Value.ofTimeText,
      Timestamp.parse?_timeOfDay readable.1, TimeOfDay.parse?_print readable]
  · rename_i noTimestamp noTime
    show timestamp.convert (.function .expression s) = _
    rw [convert_timestamp, Value.print, trimmed, Value.ofTimeText, noTimestamp, noTime]

/-- Other conversions give a value of the type. -/
theorem has_of_convert (h : type.convert v = .ok w) (timed : type ≠ .timestamp)
    (flag : type ≠ .truth) (text : type ≠ .text) : type.has w = true := by
  cases type with
  | truth => exact absurd rfl flag
  | text => exact absurd rfl text
  | timestamp => exact absurd rfl timed
  | integer =>
    simp only [convert] at h
    cases read : Integer.parse? v.print <;> rw [read] at h <;> cases h
    rfl
  | decimal =>
    simp only [convert] at h
    cases read : Decimal.parse? v.print <;> rw [read] at h <;> cases h
    rfl
  | function kind =>
    cases h
    simp [has]
  | choice kind =>
    simp only [convert] at h
    cases read : Choice.ofName? kind v.print with
    | none => rw [read] at h; cases h
    | some c =>
      rw [read] at h
      cases h
      unfold Choice.ofName? at read
      split at read <;> cases read
      simp [has]

/-- Nothing stays nothing. -/
theorem coerce_null (type : FieldType) : type.coerce .null = .ok .null := by
  cases type <;> rfl

/-- Other values stay as they are if they have the type, and go through their text if not. -/
theorem coerce_eq (given : v ≠ .null) (flag : type ≠ .truth) (text : type ≠ .text) :
    type.coerce v = if type.has v then .ok v else type.convert v := by
  unfold coerce
  split
  · exact absurd rfl given
  · exact absurd rfl flag
  · exact absurd rfl text
  · exact absurd rfl text
  · rfl

/-- A value converted to a type is not changed by converting it to the type again. -/
theorem coerce_idempotent (h : type.coerce v = .ok w) : type.coerce w = .ok w := by
  by_cases nothing : v = .null
  · rw [nothing, coerce_null] at h
    cases h
    exact coerce_null type
  by_cases flag : type = .truth
  · subst flag
    cases v <;> cases h <;> rfl
  by_cases text : type = .text
  · subst text
    cases v <;> cases h <;> rfl
  rw [coerce_eq nothing flag text] at h
  split at h
  · rename_i keeps
    cases h
    exact coerce_of_has keeps
  · by_cases timed : type = .timestamp
    · subst timed
      rw [convert_timestamp, Except.ok.injEq] at h
      rw [← h]
      exact coerce_ofTimeText (Text.trim_trim v.print)
    · exact coerce_of_has (has_of_convert h timed flag text)

/-- A time of day with a fraction and an offset, read from one form and printed in another. -/
theorem coerce_idempotent_timeOfDay :
    timestamp.coerce (.text " T03:04:05,5+01") =
        .ok (.time ⟨⟨3, 4, 5, 500000⟩, some ⟨3600000000⟩⟩) ∧
      timestamp.coerce (.time ⟨⟨3, 4, 5, 500000⟩, some ⟨3600000000⟩⟩) =
        .ok (.time ⟨⟨3, 4, 5, 500000⟩, some ⟨3600000000⟩⟩) := by
  have noTimestamp : Timestamp.parse? (Text.trim " T03:04:05,5+01") = none := by decide +kernel
  have time : TimeOfDay.parse? (Text.trim " T03:04:05,5+01") =
      some ⟨⟨3, 4, 5, 500000⟩, some ⟨3600000000⟩⟩ := by decide +kernel
  have converted : timestamp.coerce (.text " T03:04:05,5+01") =
      .ok (.time ⟨⟨3, 4, 5, 500000⟩, some ⟨3600000000⟩⟩) := by
    show timestamp.convert (.text " T03:04:05,5+01") = _
    rw [convert_timestamp, Value.print, Value.ofTimeText, noTimestamp, time]
  exact ⟨converted, coerce_idempotent converted⟩

end FieldType
end Migration
