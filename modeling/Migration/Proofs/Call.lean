import Migration.Proofs.Script

/-!
# Calls with given attributes

A call whose attributes are written as values makes exactly these attributes, as long as each is
given once and under its own spelling. So the attributes of one call can be handed on to others.

* `Attributes.IsSpelled` — attributes as they can be written
* `Attributes.get_only` — attributes that are handed on keep their values
* `ScriptM.nodup_of_prepare` — a call makes every attribute once
* `Script.Call.giving` — a call with given attributes
* `ScriptM.prepare_giving` — what it applies
-/

namespace Migration

/-- What is given under a key, if every key is given once, is what is found under it. -/
theorem lookup_eq_some_of_nodup {α β : Type} [BEq α] [LawfulBEq α] {entries : List (α × β)}
    (nodup : (entries.map (·.1)).Nodup) {key : α} {value : β} :
    entries.lookup key = some value ↔ (key, value) ∈ entries := by
  rw [List.lookup_eq_some_iff]
  constructor
  · rintro ⟨before, after, rfl, -⟩
    exact List.mem_append_right _ List.mem_cons_self
  · intro mem
    obtain ⟨before, after, rfl⟩ := List.append_of_mem mem
    refine ⟨before, after, rfl, fun entry earlier => bne_iff_ne.2 fun same => ?_⟩
    rw [List.map_append] at nodup
    exact (List.nodup_append.1 nodup).2.2 entry.1 (List.mem_map_of_mem earlier) key
      List.mem_cons_self same.symm

namespace Attributes

variable {a : Attributes} {name : String} {names : List String} {v : Value}

/-! ## Attributes as they are written -/

/-- The names of attributes, in order. -/
def keys (a : Attributes) : List String := a.map (·.1)

/-- Attributes as they can be written: each is given once, and its spelling is its name. -/
structure IsSpelled (a : Attributes) : Prop where
  nodup : a.keys.Nodup
  own : ∀ name ∈ a.keys, Script.attributeName name = name

theorem has_iff : a.has name = true ↔ name ∈ a.keys := by
  unfold has keys
  rw [List.any_eq_true]
  simp

/-- One more attribute comes last. -/
theorem put_of_not_mem (new : name ∉ a.keys) (v : Value) : a.put name v = a ++ [(name, v)] := by
  have absent : ¬a.has name = true := fun present => new (has_iff.1 present)
  unfold put
  rw [if_neg absent]

theorem nodup_put (nodup : a.keys.Nodup) (name : String) (v : Value) :
    (a.put name v).keys.Nodup := by
  by_cases present : a.has name = true
  · have same : (a.put name v).keys = a.keys := by
      unfold put keys
      rw [if_pos present, List.map_map]
      refine List.map_congr_left fun entry _ => ?_
      show (if entry.1 == name then (entry.1, v) else (entry.1, entry.2)).1 = entry.1
      split <;> rfl
    rw [same]
    exact nodup
  · have new : name ∉ a.keys := fun mem => present (has_iff.2 mem)
    rw [put_of_not_mem new]
    unfold keys
    rw [List.map_append]
    refine List.nodup_append.2 ⟨nodup, by simp, ?_⟩
    rintro other mem _ mem' rfl
    rw [List.map_singleton, List.mem_singleton] at mem'
    subst mem'
    exact new mem

/-- However they are spelled, every attribute is made once. -/
theorem nodup_ofSpellings (pairs : List (String × Value)) : (ofSpellings pairs).keys.Nodup := by
  have all : ∀ (pairs : List (String × Value)) (done : Attributes), done.keys.Nodup →
      (pairs.foldl (fun a pair => a.put (Script.attributeName pair.1) pair.2) done).keys.Nodup := by
    intro pairs
    induction pairs with
    | nil => exact fun _ nodup => nodup
    | cons pair rest ih => exact fun done nodup => ih _ (nodup_put nodup _ _)
  exact all pairs [] List.nodup_nil

/-- Attributes that are given once each are made in order, under their own names. -/
theorem ofSpellings_of_nodup {pairs : List (String × Value)}
    (nodup : (pairs.map fun pair => Script.attributeName pair.1).Nodup) :
    ofSpellings pairs = pairs.map fun pair => (Script.attributeName pair.1, pair.2) := by
  have all : ∀ (pairs : List (String × Value)) (done : Attributes),
      (done.keys ++ pairs.map fun pair => Script.attributeName pair.1).Nodup →
      pairs.foldl (fun a pair => a.put (Script.attributeName pair.1) pair.2) done =
        done ++ pairs.map fun pair => (Script.attributeName pair.1, pair.2) := by
    intro pairs
    induction pairs with
    | nil => exact fun done _ => (List.append_nil done).symm
    | cons pair rest ih =>
      intro done nodup
      have new : Script.attributeName pair.1 ∉ done.keys := fun mem =>
        (List.nodup_append.1 nodup).2.2 _ mem _ List.mem_cons_self rfl
      rw [List.foldl_cons, put_of_not_mem new, ih _ (by simpa [keys] using nodup)]
      simp
  exact all pairs [] nodup

/-- Attributes that can be written are made as they are. -/
theorem ofSpellings_of_isSpelled (h : a.IsSpelled) : ofSpellings a = a := by
  have own : ∀ entry ∈ a, Script.attributeName entry.1 = entry.1 := fun entry mem =>
    h.own entry.1 (List.mem_map_of_mem mem)
  have names : a.map (fun entry => Script.attributeName entry.1) = a.keys := List.map_congr_left own
  rw [ofSpellings_of_nodup (names ▸ h.nodup)]
  refine (List.map_congr_left fun entry mem => ?_).trans (List.map_id a)
  rw [own entry mem]
  rfl

/-! ## Attributes that are handed on -/

theorem mem_keys_only : name ∈ (a.only names).keys ↔ name ∈ a.keys ∧ name ∈ names := by
  unfold keys only
  simp only [List.mem_map, List.mem_filter, List.contains_iff_mem]
  constructor
  · rintro ⟨entry, ⟨mem, chosen⟩, rfl⟩
    exact ⟨⟨entry, mem, rfl⟩, chosen⟩
  · rintro ⟨⟨entry, mem, rfl⟩, chosen⟩
    exact ⟨entry, ⟨mem, chosen⟩, rfl⟩

theorem not_mem_keys_only (other : name ∉ names) : name ∉ (a.only names).keys :=
  fun mem => other (mem_keys_only.1 mem).2

theorem lookup_only (chosen : name ∈ names) : (a.only names).lookup name = a.lookup name := by
  unfold only
  induction a with
  | nil => rfl
  | cons entry rest ih =>
    obtain ⟨key, v⟩ := entry
    by_cases keep : key ∈ names
    · rw [List.filter_cons_of_pos (by simpa using keep), List.lookup_cons, List.lookup_cons, ih]
    · have miss : (name == key) = false := by
        rw [beq_eq_false_iff_ne]
        rintro rfl
        exact keep chosen
      rw [List.filter_cons_of_neg (by simpa using keep), ih, List.lookup_cons, miss]

/-- Attributes that are handed on keep their values. -/
theorem get_only (chosen : name ∈ names) : (a.only names).get name = a.get name := by
  unfold get
  rw [lookup_only chosen]

theorem get_cons_of_ne {other : String} (ne : name ≠ other) :
    get ((other, v) :: a) name = a.get name := by
  unfold get
  rw [List.lookup_cons, beq_eq_false_iff_ne.2 ne]

theorem get_cons_self : get ((name, v) :: a) name = v := by
  unfold get
  rw [List.lookup_cons, beq_self_eq_true]
  rfl

/-- An attribute that is not given is nothing. -/
theorem get_of_not_mem (absent : name ∉ a.keys) : a.get name = .null := by
  have none_ : a.lookup name = none := by
    rw [List.lookup_eq_none_iff]
    intro entry mem
    rw [bne_iff_ne]
    rintro rfl
    exact absent (List.mem_map_of_mem mem)
  unfold get
  rw [none_]
  rfl

theorem nodup_only (nodup : a.keys.Nodup) (names : List String) : (a.only names).keys.Nodup :=
  nodup.sublist (List.filter_sublist.map _)

/-- Attributes that are handed on can be written if their names can. -/
theorem IsSpelled.only (nodup : a.keys.Nodup)
    (own : ∀ name ∈ names, Script.attributeName name = name) : (a.only names).IsSpelled where
  nodup := nodup_only nodup names
  own := fun name mem => own name (mem_keys_only.1 mem).2

/-- One more attribute can be written before others. -/
theorem IsSpelled.cons (h : a.IsSpelled) (new : name ∉ a.keys)
    (own : Script.attributeName name = name) (v : Value) : IsSpelled ((name, v) :: a) where
  nodup := List.nodup_cons.2 ⟨new, h.nodup⟩
  own := by
    intro other mem
    rcases List.mem_cons.1 mem with rfl | mem
    · exact own
    · exact h.own other mem

/-- Attributes are those of an element if they are among those it has, and none has been removed. -/
theorem validate_of_keys {owner element : String} {allowed : List String}
    (present : ∀ entry ∈ removed, entry.1 ≠ element) (subset : ∀ name ∈ a.keys, name ∈ allowed) :
    a.validate owner element allowed = .ok () := by
  have kept : removed.find? (fun entry => entry.1 == element && a.has entry.2.1) = none := by
    rw [List.find?_eq_none]
    intro entry mem
    simp [present entry mem]
  have supported : a.unsupported? allowed = none := by
    unfold unsupported?
    rw [Option.map_eq_none_iff, List.find?_eq_none]
    intro entry mem
    simpa using subset entry.1 (List.mem_map_of_mem mem)
  unfold validate
  rw [show removed.find? _ = none from kept, supported]
  rfl

end Attributes

/-- A call of an element with attributes that are given as values. -/
def Script.Call.giving (element : String) (a : Attributes) : Script.Call where
  element
  attributes := a.map fun entry => (entry.1, .literal entry.2)

namespace ScriptM

variable {e : Engine} {r : Running} {a : Attributes}

/-- A call makes every attribute once. -/
theorem nodup_of_prepare {c : Script.Call} {x : Application} {r' : Running}
    (h : prepare e c r = (.ok x, r')) : x.attributes.keys.Nodup := by
  obtain ⟨-, positional, pairs, dispatches⟩ := dispatch_of_prepare h
  rw [attributes_of_dispatch dispatches]
  exact Attributes.nodup_ofSpellings pairs

/-- Values that are written out are there at once. -/
theorem evalAttributes_literal (e : Engine) (a : Attributes) (r : Running) :
    evalAttributes e (a.map fun entry => (entry.1, .literal entry.2)) r = (.ok a, r) := by
  induction a with
  | nil => rfl
  | cons entry rest ih =>
    rw [List.map_cons, evalAttributes,
      Step.run_bind_of_ok (show eval e (.literal entry.2) r = (.ok entry.2, r) by rw [eval]; rfl),
      Step.run_bind_of_ok ih]
    rfl

/-- What a name is defined as that nothing is kept for and that no script starts with. -/
theorem defined?_of_free {f : Frame} {name : String} (free : f.kept.lookup name = none)
    (own : name ∉ globalNames) :
    defined? e f name = if Vocabulary.contains e.changes e.preconditions name then some .element
      else (e.language.builtin? name).map .builtin := by
  have unset : (globals e.language f.path).lookup name = none := by
    rw [List.lookup_eq_none_iff]
    intro entry mem
    rw [bne_iff_ne]
    rintro rfl
    have mem : entry.1 ∈ (globals e.language f.path).map Prod.fst := List.mem_map_of_mem mem
    exact own mem
  unfold defined?
  rw [free]
  simp only [unset]

/-- A name that nothing brings along is not defined. -/
theorem defined?_of_foreign {f : Frame} {name : String} (free : f.kept.lookup name = none)
    (own : name ∉ globalNames) (known : Vocabulary.contains e.changes e.preconditions name = false)
    (foreign : e.language.builtin? name = none) : defined? e f name = none := by
  rw [defined?_of_free free own, known, foreign]
  rfl

/-- A name that nothing is kept for and that no script starts with stands for an element, if there
is one of that name. -/
theorem resolve_of_known {name : String} (free : r.frame.kept.lookup name = none)
    (own : name ∉ globalNames)
    (known : Vocabulary.contains e.changes e.preconditions name = true) :
    resolve e name r = (.ok .element, r) := by
  rw [resolve_eq, defined?_of_free free own, if_pos known]

/-- A name that is defined as nothing and is no parameter stands for nothing. -/
theorem resolve_of_unset {name : String} (undefined : defined? e r.frame name = none)
    (unset : r.session.table.find? name (some r.frame.document) = .ok none) :
    resolve e name r = (.ok .nothing, r) := by
  rw [resolve_eq, undefined, unset]

/-- A call of an element by its name is dispatched with what its arguments come to. -/
theorem prepare_eq_dispatch {c : Script.Call} {positional : List Value}
    {pairs : List (String × Value)} (names : resolve e c.element r = (.ok .element, r))
    (items : evalItems e c.positional r = (.ok positional, r))
    (entries : evalAttributes e c.attributes r = (.ok pairs, r)) :
    prepare e c r = dispatch e c.element positional (.ofSpellings pairs) r := by
  unfold prepare
  rw [Step.run_bind_of_ok names]
  dsimp only
  rw [Step.run_bind_of_ok items, Step.run_bind_of_ok entries]

/-- A call with given attributes applies the element that its name stands for to them. -/
theorem prepare_giving {name : String} {element : Element} (h : a.IsSpelled)
    (other : receiver ∉ a.keys) (free : r.frame.kept.lookup name = none) (own : name ∉ globalNames)
    (known : Vocabulary.contains e.changes e.preconditions name = true)
    (stands : r.frame.innermostBody.element? e name = some element)
    (fits : element.signature.check [] a = .ok ()) :
    prepare e (.giving name a) r = (.ok { element, positional := [], attributes := a }, r) := by
  have items : evalItems e (Script.Call.giving name a).positional r = (.ok [], r) := rfl
  have given : ¬a.has receiver = true := fun h => other (Attributes.has_iff.1 h)
  rw [prepare_eq_dispatch (resolve_of_known free own known) items (evalAttributes_literal e a r),
    Attributes.ofSpellings_of_isSpelled h, run_dispatch, if_neg given,
    show (Script.Call.giving name a).element = name from rfl, stands]
  simp only [fits]

end ScriptM
end Migration
