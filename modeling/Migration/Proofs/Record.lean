import Migration.Proofs.Step

/-!
# Records that are filled

Two fields of a record can be set in either order, so what is set in a record beforehand and what is
set in it afterwards come to the same. Filling a record fails in the same way whoever its owner is,
if no attribute is refused.

* `Record.put_comm` — two fields are set in either order
* `Record.bind_of_field?` — a field is set by one of its spellings
* `Record.bind_of_not_hasProperty` — other spellings are refused
* `SessionM.fill_map` — filling a record that has been changed beforehand
-/

namespace Migration

namespace Record

variable {r : Record} {name other spelling : String} {v w : Value}

theorem put_comm (ne : name ≠ other) (r : Record) (v w : Value) :
    (r.put name v).put other w = (r.put other w).put name v := by
  have each : ∀ entry : String × Value,
      (fun u => if u.1 == other then (u.1, w) else u : String × Value → String × Value)
        (if entry.1 == name then (entry.1, v) else entry) =
      (fun u => if u.1 == name then (u.1, v) else u : String × Value → String × Value)
        (if entry.1 == other then (entry.1, w) else entry) := by
    rintro ⟨key, u⟩
    by_cases first : key = name
    · subst first
      simp [ne]
    · by_cases second : key = other
      · subst second
        simp [first]
      · simp [first, second]
  unfold put
  dsimp only
  rw [List.map_map, List.map_map]
  exact congrArg (Record.mk r.type) (List.map_congr_left fun entry _ => each entry)

/-- A field from which nothing follows is set by itself. -/
theorem set_eq_put (alone : r.type.consequences = []) (name : String) (v : Value) :
    r.set name v = r.put name v := by
  unfold set
  rw [alone]
  rfl

/-- A field is set by one of its spellings to what the value is converted to. -/
theorem bind_of_field? {f : Field} {type : FieldType} (field : r.type.field? spelling = some f)
    (writable : f.type = some type) (converts : type.coerce v = .ok w) :
    r.bind spelling v = .ok (r.set f.name w) := by
  unfold bind
  simp only [field, writable, converts]
  rfl

/-- A field that a type does not have, or that no script can set, is refused. -/
theorem bind_of_not_hasProperty (no : r.type.hasProperty spelling = false) (v : Value) :
    ∃ cause, r.bind spelling v = .error cause := by
  unfold RecordType.hasProperty at no
  unfold bind
  cases field : r.type.field? spelling with
  | none => exact ⟨_, rfl⟩
  | some f =>
    simp only [field] at no
    cases writable : f.type with
    | none => exact ⟨.notWritable spelling r.type.name, by simp only [writable]; rfl⟩
    | some type =>
      rw [writable] at no
      cases no

/-- Setting a field does not change the type of a record. -/
theorem type_set (r : Record) (name : String) (v : Value) : (r.set name v).type = r.type := by
  have all : ∀ (more : List (String × String × Value)) (r : Record),
      (more.foldl (fun r entry => r.put entry.2.1 entry.2.2) r).type = r.type := by
    intro more
    induction more with
    | nil => exact fun _ => rfl
    | cons first rest ih => exact fun r => ih (r.put first.2.1 first.2.2)
  exact all _ (r.put name v)

theorem type_of_bind {r' : Record} (h : r.bind spelling v = .ok r') : r'.type = r.type := by
  unfold bind at h
  cases field : r.type.field? spelling with
  | none =>
    simp only [field] at h
    cases h
  | some f =>
    cases writable : f.type with
    | none =>
      simp only [field, writable] at h
      cases h
    | some type =>
      cases converts : type.coerce v with
      | error cause =>
        simp only [field, writable, converts] at h
        cases h
      | ok w =>
        simp only [field, writable, converts] at h
        cases h
        exact type_set r f.name w

end Record

/-- Everything can be converted to a text, and so it can to a truth value. -/
theorem FieldType.coerce_ok {type : FieldType} (h : type = .text ∨ type = .truth) (v : Value) :
    ∃ w, type.coerce v = .ok w := by
  rcases h with rfl | rfl <;> cases v <;> exact ⟨_, rfl⟩

namespace SessionM

variable {d : DocumentId} {owner owner' : String} {target target' : Target} {r : Record}
  {a : Attributes} {s s' : Session}

/-- What a value expands to depends on the parameters alone. -/
theorem expand_congr (same : s'.table = s.table) (d : DocumentId) (v : Value) :
    (expand d v s').1 = (expand d v s).1 := by
  show (ofFilter (s'.table.expandValue v (some d)) s').1 =
    (ofFilter (s.table.expandValue v (some d)) s).1
  rw [same]
  cases s.table.expandValue v (some d) <;> rfl

/-- A failure to expand a value is not about a name. -/
theorem bound_of_expand_error {v : Value} {failure : Failure}
    (h : expand d v s = (.error failure, s')) (name : String) : failure ≠ .unbound name := by
  replace h : ofFilter (s.table.expandValue v (some d)) s = (.error failure, s') := h
  cases expands : s.table.expandValue v (some d) <;> rw [expands] at h <;> cases h
  exact nofun

/-- A failure to fill a record is not about a name. -/
theorem bound_of_fill_error {failure : Failure}
    (h : fill d owner target r a s = (.error failure, s')) (name : String) :
    failure ≠ .unbound name := by
  induction a generalizing r s with
  | nil => cases h
  | cons entry rest ih =>
    obtain ⟨key, v⟩ := entry
    rw [fill, Step.run_bind] at h
    rcases expands : expand d v s with ⟨failure' | w, s₁⟩ <;> rw [expands] at h
    · cases h
      exact bound_of_expand_error expands name
    · cases binds : r.bind key w with
      | ok r' =>
        simp only [binds] at h
        exact ih h
      | error cause =>
        simp only [binds] at h
        cases h
        intro same
        cases same

/-- An attribute that is not refused is set, and then the others are. -/
theorem fill_cons {name : String} {v w : Value} {r' : Record} {rest : Attributes}
    (expands : expand d v s = (.ok w, s)) (binds : r.bind name w = .ok r') :
    fill d owner target r ((name, v) :: rest) s = fill d owner target r' rest s := by
  rw [fill, Step.run_bind_of_ok expands]
  simp only [binds]

/-- Filling a record that has been changed beforehand is filling it and changing it then, if no
attribute is refused and none of them has to do with the change. Neither the owner nor anything but
the parameters matters. -/
theorem fill_map {f : Record → Record} {P : Record → Prop} (same : s'.table = s.table)
    (binds : ∀ entry ∈ a, ∀ r v, P r →
      ∃ r', P r' ∧ r.bind entry.1 v = .ok r' ∧ (f r).bind entry.1 v = .ok (f r')) (h : P r) :
    (fill d owner' target' (f r) a s').1 = (fill d owner target r a s).1.map f := by
  induction a generalizing r with
  | nil => rfl
  | cons entry rest ih =>
    obtain ⟨key, v⟩ := entry
    have expands := expand_congr same d v
    rcases h₁ : expand d v s with ⟨result, s₁⟩
    rcases h₂ : expand d v s' with ⟨result', s₂⟩
    obtain rfl : s = s₁ := (keeps_expand d v).of_run (R := (· = ·)) h₁
    obtain rfl : s' = s₂ := (keeps_expand d v).of_run (R := (· = ·)) h₂
    rw [h₁, h₂] at expands
    obtain rfl : result' = result := expands
    cases result' with
    | error failure =>
      rw [fill, fill, Step.run_bind_of_error h₁, Step.run_bind_of_error h₂]
      rfl
    | ok w =>
      obtain ⟨r', h', plain, changed⟩ := binds _ List.mem_cons_self r w h
      rw [fill_cons h₁ plain, fill_cons h₂ changed]
      exact ih (fun entry mem => binds entry (List.mem_cons_of_mem _ mem)) h'

end SessionM
end Migration
