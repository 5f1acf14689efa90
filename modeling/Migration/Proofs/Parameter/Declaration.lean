import Migration.Proofs.Call
import Migration.Proofs.Parameter.Observation

/-!
# What properties declare

A property says where its parameters apply by attributes that are expanded once, whether it writes
one parameter or every entry of a file. If they do not say so, nothing is written. A property for
one entry of a file reads the same attributes, but its value is expanded while the text of a file is
taken as it stands.

* `entryAttributes` — the attributes of the property for one entry
* `Table.Scopes` — what the attributes of a property say about where it applies
* `Table.Writes` — the parameter that the property for an entry writes
* `SessionM.property_of_scopes`, `SessionM.property_of_not_scopes` — what every property does
* `SessionM.property_entry_cases` — what the property for one entry does
-/

namespace Migration

/-- The attributes that every entry of a file has of the element. -/
def scopeAttributes : List String := ["context", "contextFilter", "labels", "dbms", "global"]

/-- The attributes of a property for one entry of a file. -/
def entryAttributes (a : Attributes) (entry : String × String) : Attributes :=
  ("name", .text entry.1) :: ("value", .text entry.2) :: a.only scopeAttributes

/-- A parameter with another key and another value. -/
def Parameter.holding (p : Parameter) (entry : String × Value) : Parameter :=
  { p with key := entry.1, value := entry.2 }

namespace Table

/-! ## What attributes declare -/

/-- Attributes say where a parameter of a document applies. -/
structure Scopes (t : Table) (d : DocumentId) (a : Attributes) (p : Parameter) : Prop where
  contexts : ∃ v, t.expandValue a.context (some d) = .ok v ∧
    p.contexts = if v.isTruthy then some (.ofText v.print) else none
  labels : ∃ v, t.expandValue (a.get "labels") (some d) = .ok v ∧
    p.labels = if v.isTruthy then some (.ofText v.print) else none
  databases : ∃ v, t.expandValue (a.get "dbms") (some d) = .ok v ∧ v.databases = .ok p.databases
  isGlobal : p.isGlobal = a.flag "global" true
  owner : p.owner = some d

/-- The parameter that a property for an entry writes. -/
structure Writes (t : Table) (d : DocumentId) (a : Attributes) (entry : String × String)
    (p : Parameter) : Prop where
  scopes : t.Scopes d a p
  key : p.key = entry.1
  value : ∃ text, t.expand entry.2 (some d) = .ok text ∧ p.value = .text text

variable {t t' : Table} {d : DocumentId} {a a' : Attributes} {p q : Parameter}
  {entry : String × String}

/-- What is said about where a parameter applies says nothing about its key and its value. -/
theorem Scopes.holding (h : t.Scopes d a p) (entry : String × Value) :
    t.Scopes d a (p.holding entry) :=
  ⟨h.contexts, h.labels, h.databases, h.isGlobal, h.owner⟩

/-- Where a parameter applies depends on what the attributes expand to. -/
theorem Scopes.congr (h : t.Scopes d a p)
    (contexts : t'.expandValue a'.context (some d) = t.expandValue a.context (some d))
    (labels : t'.expandValue (a'.get "labels") (some d) = t.expandValue (a.get "labels") (some d))
    (databases : t'.expandValue (a'.get "dbms") (some d) = t.expandValue (a.get "dbms") (some d))
    (isGlobal : a'.flag "global" true = a.flag "global" true) : t'.Scopes d a' p where
  contexts := contexts ▸ h.contexts
  labels := labels ▸ h.labels
  databases := databases ▸ h.databases
  isGlobal := isGlobal ▸ h.isGlobal
  owner := h.owner

/-- Attributes say one thing about where a parameter applies. -/
theorem Scopes.eq_holding (h : t.Scopes d a p) (h' : t.Scopes d a q) :
    q = p.holding (q.key, q.value) := by
  obtain ⟨⟨c, expands, contexts⟩, ⟨l, expandsLabels, labels⟩, ⟨b, expandsNames, names⟩,
    isGlobal, owner⟩ := h
  obtain ⟨⟨c', expands', contexts'⟩, ⟨l', expandsLabels', labels'⟩,
    ⟨b', expandsNames', names'⟩, isGlobal',
    owner'⟩ := h'
  obtain rfl := Except.ok.inj (expands.symm.trans expands')
  obtain rfl := Except.ok.inj (expandsLabels.symm.trans expandsLabels')
  obtain rfl := Except.ok.inj (expandsNames.symm.trans expandsNames')
  cases p
  cases q
  simp_all [Parameter.holding]

end Table

namespace SessionM

variable {e : Engine} {d : DocumentId} {a : Attributes} {s s' : Session} {p : Parameter}

/-- What a property writes: the entries of a file, or one entry. -/
def entriesOf (e : Engine) (d : DocumentId) (a : Attributes) : SessionM (List (String × Value)) := do
  if a.given "file" then propertiesOf e d a
  else do
    let name ← expand d (a.get "name")
    if !name.isTruthy then reject (.propertyWithoutName documentOwner)
    let value ← expand d (a.get "value")
    pure [(name.print, value)]

/-- Parameters that differ in nothing but key and value are written one after the other. -/
theorem setParameters_of_ok {where_ : Parameter.Declaration}
    (declares : ∀ entry : String × Value,
      Parameter.ofDeclaration { where_ with name := .text entry.1, value := entry.2 } =
        .ok (p.holding entry)) (entries : List (String × Value)) (s : Session) :
    setParameters where_ entries s =
      (.ok (), { s with table := s.table.writing (entries.map p.holding) }) := by
  induction entries generalizing s with
  | nil => rfl
  | cons entry rest ih =>
    have first : ofMishap (Parameter.ofDeclaration
        { where_ with name := .text entry.1, value := entry.2 }) s =
          (.ok (p.holding entry), s) := by
      rw [declares]
      rfl
    exact (Step.run_bind_of_ok first _).trans
      ((Step.run_bind_of_ok (Step.run_modify _ _) _).trans (ih _))

/-- What is declared for a document with contexts, labels and databases that have been expanded. -/
def declarationOf (d : DocumentId) (a : Attributes) (contexts labels databases : Value) :
    Parameter.Declaration :=
  let given := fun (v : Value) => if v.isTruthy then Value.text v.print else .null
  { name := .null, value := .null, databases, contexts := given contexts, labels := given labels
    isGlobal := .bool (a.flag "global" true), owner := some d }

/-- Whether a declaration is one of a parameter depends on nothing but its databases. -/
theorem ofDeclaration_declarationOf (d : DocumentId) (a : Attributes)
    (contexts labels databases : Value) (entry : String × Value) :
    Parameter.ofDeclaration
        { declarationOf d a contexts labels databases with name := .text entry.1, value := entry.2 } =
      (fun names => {
        key := entry.1, value := entry.2
        contexts := if contexts.isTruthy then some (.ofText contexts.print) else none
        labels := if labels.isTruthy then some (.ofText labels.print) else none
        databases := names, isGlobal := a.flag "global" true, owner := some d }) <$>
        databases.databases := by
  unfold Parameter.ofDeclaration declarationOf
  dsimp only
  rcases databases.databases with m | names
  · rfl
  · cases contexts.isTruthy <;> cases labels.isTruthy <;> rfl

theorem setParameters_of_error {contexts labels databases : Value} {m : Mishap}
    (wrong : databases.databases = .error m) (entry : String × Value) (rest : List (String × Value))
    (s : Session) :
    setParameters (declarationOf d a contexts labels databases) (entry :: rest) s =
      (.error (.mishap m), s) := by
  have first : ofMishap (Parameter.ofDeclaration { declarationOf d a contexts labels databases with
      name := .text entry.1, value := entry.2 }) s = (.error (.mishap m), s) := by
    rw [ofDeclaration_declarationOf, wrong]
    rfl
  exact Step.run_bind_of_error first _

section

variable (valid : a.validate documentOwner "property" propertyAttributes = .ok ())

include valid

theorem property_eq {contexts labels databases : Value}
    (hc : s.table.expandValue a.context (some d) = .ok contexts)
    (hl : s.table.expandValue (a.get "labels") (some d) = .ok labels)
    (hb : s.table.expandValue (a.get "dbms") (some d) = .ok databases) :
    property e d a s =
      (entriesOf e d a >>= setParameters (declarationOf d a contexts labels databases)) s := by
  have checks := ofCheck_of_ok valid s
  unfold property
  rw [Step.run_bind_of_ok checks, Step.run_bind_of_ok (expand_of_ok hc),
    Step.run_bind_of_ok (expand_of_ok hl), Step.run_bind_of_ok (expand_of_ok hb)]
  unfold entriesOf
  by_cases file : a.given "file" = true
  · rw [if_pos file, if_pos file]
    rfl
  · -- what follows the check of the name stands in both of its branches
    rw [if_neg file, if_neg file]
    simp only [bind_assoc, pure_bind]
    refine congrFun (bind_congr fun name => ?_) s
    cases !name.isTruthy <;> simp only [bind_assoc, pure_bind, Bool.false_eq_true, if_true,
      if_false] <;> rfl

/-- A property writes all its entries where its attributes say. -/
theorem property_of_scopes (h : s.table.Scopes d a p) {entries : List (String × Value)}
    (reads : entriesOf e d a s = (.ok entries, s)) :
    property e d a s = (.ok (), { s with table := s.table.writing (entries.map p.holding) }) := by
  obtain ⟨⟨contexts, hc, hp⟩, ⟨labels, hl, hp'⟩, ⟨databases, hb, hp''⟩, isGlobal, owner⟩ := h
  rw [property_eq valid hc hl hb, Step.run_bind_of_ok reads]
  refine setParameters_of_ok (fun entry => ?_) entries s
  rw [ofDeclaration_declarationOf, hp'']
  obtain ⟨key, value, _, _, _, _, _⟩ := p
  cases hp
  cases hp'
  cases isGlobal
  cases owner
  rfl

theorem property_of_error (h : s.table.Scopes d a p) {failure : Failure}
    (fails : entriesOf e d a s = (.error failure, s)) :
    property e d a s = (.error failure, s) := by
  obtain ⟨⟨contexts, hc, -⟩, ⟨labels, hl, -⟩, ⟨databases, hb, -⟩, -, -⟩ := h
  rw [property_eq valid hc hl hb, Step.run_bind_of_error fails]

/-- A property whose attributes do not say where its entries apply writes none of them. -/
theorem property_of_not_scopes (none_ : ∀ p, ¬s.table.Scopes d a p)
    {result : Except Failure (List (String × Value))} (reads : entriesOf e d a s = (result, s))
    (some_ : result ≠ .ok []) : ∃ failure, property e d a s = (.error failure, s) := by
  have checks := ofCheck_of_ok valid s
  rcases hc : s.table.expandValue a.context (some d) with m | contexts
  · unfold property
    rw [Step.run_bind_of_ok checks]
    exact ⟨_, Step.run_bind_of_error (expand_of_error hc) _⟩
  rcases hl : s.table.expandValue (a.get "labels") (some d) with m | labels
  · unfold property
    rw [Step.run_bind_of_ok checks, Step.run_bind_of_ok (expand_of_ok hc)]
    exact ⟨_, Step.run_bind_of_error (expand_of_error hl) _⟩
  rcases hb : s.table.expandValue (a.get "dbms") (some d) with m | databases
  · unfold property
    rw [Step.run_bind_of_ok checks, Step.run_bind_of_ok (expand_of_ok hc),
      Step.run_bind_of_ok (expand_of_ok hl)]
    exact ⟨_, Step.run_bind_of_error (expand_of_error hb) _⟩
  rw [property_eq valid hc hl hb]
  match result, reads with
  | .error failure, reads => exact ⟨failure, Step.run_bind_of_error reads _⟩
  | .ok [], _ => exact absurd rfl some_
  | .ok (entry :: rest), reads =>
    rw [Step.run_bind_of_ok reads]
    rcases known : databases.databases with m | names
    · exact ⟨_, setParameters_of_error known entry rest s⟩
    · exact absurd ⟨⟨contexts, hc, rfl⟩, ⟨labels, hl, rfl⟩, ⟨databases, hb, known⟩, rfl, rfl⟩
        (none_ {
          key := "", value := .null
          contexts := if contexts.isTruthy then some (.ofText contexts.print) else none
          labels := if labels.isTruthy then some (.ofText labels.print) else none
          databases := names, isGlobal := a.flag "global" true, owner := some d })

end

/-! ## A property for one entry -/

variable {entry : String × String}

theorem get_entryAttributes {name : String} (shared : name ∈ scopeAttributes) :
    (entryAttributes a entry).get name = a.get name := by
  have ne : name ≠ "name" := by
    rintro rfl
    exact absurd shared (by decide)
  have ne' : name ≠ "value" := by
    rintro rfl
    exact absurd shared (by decide)
  unfold entryAttributes
  rw [Attributes.get_cons_of_ne ne, Attributes.get_cons_of_ne ne', Attributes.get_only shared]

theorem context_entryAttributes : (entryAttributes a entry).context = a.context := by
  unfold Attributes.context Attributes.given
  rw [get_entryAttributes (by decide), get_entryAttributes (by decide)]

theorem flag_entryAttributes :
    (entryAttributes a entry).flag "global" true = a.flag "global" true := by
  unfold Attributes.flag
  rw [get_entryAttributes (by decide)]

/-- A property for an entry applies where its attributes say, which are those of the file. -/
theorem scopes_entryAttributes {t : Table} :
    t.Scopes d (entryAttributes a entry) p ↔ t.Scopes d a p := by
  have labels : (entryAttributes a entry).get "labels" = a.get "labels" :=
    get_entryAttributes (by decide)
  have databases : (entryAttributes a entry).get "dbms" = a.get "dbms" :=
    get_entryAttributes (by decide)
  constructor
  · intro h
    exact h.congr (by rw [context_entryAttributes]) (by rw [labels]) (by rw [databases])
      flag_entryAttributes.symm
  · intro h
    exact h.congr (by rw [context_entryAttributes]) (by rw [labels]) (by rw [databases])
      flag_entryAttributes

/-- What a property for an entry gives: a name, a value, and what it has of the file. -/
theorem mem_keys_entryAttributes {name : String} (mem : name ∈ (entryAttributes a entry).keys) :
    name ∈ "name" :: "value" :: scopeAttributes := by
  have keys : (entryAttributes a entry).keys = "name" :: "value" :: (a.only scopeAttributes).keys :=
    rfl
  rw [keys] at mem
  exact List.cons_subset_cons _
    (List.cons_subset_cons _ fun _ mem => (Attributes.mem_keys_only.1 mem).2) mem

theorem validate_entryAttributes :
    (entryAttributes a entry).validate documentOwner "property" propertyAttributes = .ok () := by
  have known : "name" :: "value" :: scopeAttributes ⊆ propertyAttributes := by decide
  exact Attributes.validate_of_keys (by decide) fun name mem => known (mem_keys_entryAttributes mem)

theorem given_file_entryAttributes : (entryAttributes a entry).given "file" = false := by
  have absent : "file" ∉ (entryAttributes a entry).keys := fun mem =>
    absurd (mem_keys_entryAttributes mem) (by decide)
  unfold Attributes.given
  rw [Attributes.get_of_not_mem absent]
  rfl

/-- A property for one entry writes the key as it is, with its value expanded. -/
theorem entriesOf_entryAttributes (named : entry.1 ≠ "")
    (keys : ∀ name, ¬Text.Mentions entry.1 name) :
    entriesOf e d (entryAttributes a entry) s =
      (expand d (.text entry.2) >>= fun value => pure [(entry.1, value)]) s := by
  have name : (entryAttributes a entry).get "name" = .text entry.1 := Attributes.get_cons_self
  have value : (entryAttributes a entry).get "value" = .text entry.2 :=
    (Attributes.get_cons_of_ne (by decide)).trans Attributes.get_cons_self
  have key : s.table.expandValue (.text entry.1) (some d) = .ok (.text entry.1) :=
    congrArg (Value.text <$> ·) (Table.expand_of_not_mentions keys s.table (some d))
  have truthy : (Value.text entry.1).isTruthy = true := by
    simpa [Value.isTruthy] using named
  unfold entriesOf
  rw [if_neg (by rw [given_file_entryAttributes]; decide), name, value,
    Step.run_bind_of_ok (expand_of_ok key)]
  dsimp only
  rw [truthy]
  rfl

/-- A property for one entry writes one parameter if there is one to write, and else changes
nothing. -/
theorem property_entry_cases (named : entry.1 ≠ "") (keys : ∀ name, ¬Text.Mentions entry.1 name) :
    (∃ q, s.table.Writes d a entry q ∧
      property e d (entryAttributes a entry) s = (.ok (), { s with table := s.table.set q })) ∨
    ((∀ q, ¬s.table.Writes d a entry q) ∧
      ∃ failure, property e d (entryAttributes a entry) s = (.error failure, s)) := by
  have reads := entriesOf_entryAttributes (e := e) (d := d) (a := a) (s := s) named keys
  rcases expands : s.table.expand entry.2 (some d) with m | text
  · have value : s.table.expandValue (.text entry.2) (some d) = .error m :=
      congrArg (Value.text <$> ·) expands
    rw [Step.run_bind_of_error (expand_of_error value)] at reads
    refine .inr ⟨fun q writes => ?_, ?_⟩
    · obtain ⟨text, same, -⟩ := writes.value
      cases expands.symm.trans same
    · by_cases some_ : ∃ p, s.table.Scopes d (entryAttributes a entry) p
      · obtain ⟨p, scopes⟩ := some_
        exact ⟨_, property_of_error validate_entryAttributes scopes reads⟩
      · exact property_of_not_scopes validate_entryAttributes (not_exists.1 some_) reads nofun
  · have value : s.table.expandValue (.text entry.2) (some d) = .ok (.text text) :=
      congrArg (Value.text <$> ·) expands
    rw [Step.run_bind_of_ok (expand_of_ok value)] at reads
    by_cases some_ : ∃ p, s.table.Scopes d (entryAttributes a entry) p
    · obtain ⟨p, scopes⟩ := some_
      exact .inl ⟨p.holding (entry.1, .text text),
        ⟨(scopes_entryAttributes.1 scopes).holding _, rfl, text, expands, rfl⟩,
        property_of_scopes validate_entryAttributes scopes reads⟩
    · refine .inr ⟨fun q writes => not_exists.1 some_ q (scopes_entryAttributes.2 writes.scopes), ?_⟩
      exact property_of_not_scopes validate_entryAttributes (not_exists.1 some_) reads nofun

end SessionM

end Migration
