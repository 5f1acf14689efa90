import Migration.Proofs.Inclusion.Repetition
import Migration.Proofs.Parameter.Declaration
import Migration.Proofs.Properties

/-!
# A properties file and properties one by one

A property with a file writes every entry of the file, all of them alike but for the key and the
value, and the value is the text of the file as it stands. A property for each entry would write the
same keys, but each is an element of its own: it reads the attributes again, with what has been
written before it, and takes its value through expansion. What both leave behind cannot be told
apart just if no value has anything to expand in it, unless the entries do not apply at all.

* `SessionM.HasEntries` — what the file of a property holds
* `Table.Declares` — what properties write that are run one after the other
* `SessionM.properties_cases` — what they do
* `Table.Declares.indistinguishable_iff` — when they write what the file does
* `SessionM.property_file_iff` — the property with the file does what they do just if there is
  nothing to expand
-/

namespace Migration

/-- The parameter of an entry of a file that applies where another one does. -/
def Parameter.ofEntry (p : Parameter) (entry : String × String) : Parameter :=
  p.holding (entry.1, .text entry.2)

/-- The values that say where a parameter applies, before they are expanded. -/
def Attributes.scopeValues (a : Attributes) : List Value := [a.context, a.get "labels", a.get "dbms"]

namespace Table

/-- The parameters that properties for entries write, one after the other. -/
inductive Declares (d : DocumentId) (a : Attributes) :
    Table → List (String × String) → List Parameter → Prop
  | nil (t) : Declares d a t [] []
  | cons {t entry rest q qs} (writes : t.Writes d a entry q)
      (more : Declares d a (t.set q) rest qs) :
      Declares d a t (entry :: rest) (q :: qs)

variable {t : Table} {d : DocumentId} {a : Attributes} {p q : Parameter} {ps : List Parameter}
  {entry : String × String}

/-! ## Parameters that apply in one place -/

/-- Writes whose names do not occur in the attributes do not change where they say something
applies. -/
theorem Scopes.writing (h : t.Scopes d a p)
    (apart : ∀ v ∈ a.scopeValues, ∀ q ∈ ps, ¬v.Mentions q.key) :
    (t.writing ps).Scopes d a p := by
  have same : ∀ v ∈ a.scopeValues,
      (t.writing ps).expandValue v (some d) = t.expandValue v (some d) := by
    intro v mem
    refine expandValue_eq_of_values fun name mentions => value?_writing_of_not_mem fun written => ?_
    obtain ⟨q, mem', rfl⟩ := List.mem_map.1 written
    exact apart v mem q mem' mentions
  exact h.congr (same _ (by simp [Attributes.scopeValues]))
    (same _ (by simp [Attributes.scopeValues])) (same _ (by simp [Attributes.scopeValues])) rfl

/-- Where attributes say that something applies, an entry is written with its value expanded. -/
theorem Scopes.writes_iff (h : t.Scopes d a p) : t.Writes d a entry q ↔
    ∃ text, t.expand entry.2 (some d) = .ok text ∧ q = p.ofEntry (entry.1, text) := by
  constructor
  · rintro ⟨scopes, key, text, expands, value⟩
    refine ⟨text, expands, ?_⟩
    rw [h.eq_holding scopes, key, value]
    rfl
  · rintro ⟨text, expands, rfl⟩
    exact ⟨h.holding _, rfl, text, expands, rfl⟩

/-- The property for an entry writes one parameter. -/
theorem Writes.unique (h : t.Writes d a entry p) (h' : t.Writes d a entry q) : q = p := by
  obtain ⟨text, expands, same⟩ := h.scopes.writes_iff.1 h
  obtain ⟨text', expands', same'⟩ := h.scopes.writes_iff.1 h'
  rw [same, same', Except.ok.inj (expands.symm.trans expands')]

/-- A parameter that applies anywhere applies in the document that declares it. -/
theorem applies_owner (owner : p.owner = some d) {document : Option DocumentId}
    (applies : t.applies p document = .ok true) : t.applies p (some d) = .ok true := by
  rw [applies_eq] at applies
  split at applies
  · cases applies
  · rw [applies_eq, if_neg (by simp [owner])]
    exact applies

/-- Two values of an entry are told apart just if they differ and the entry applies. -/
theorem indistinguishable_ofEntry_iff (owner : p.owner = some d) {key v w : String} :
    (t.set (p.ofEntry (key, v))).Indistinguishable (t.set (p.ofEntry (key, w))) ↔
      (t.applies p (some d) = .ok true → w = v) := by
  have value : ∀ (text : String) document, (t.set (p.ofEntry (key, text))).value? key document =
      t.applies p document >>= fun applies =>
        if applies then pure (some (.text text)) else t.value? key document :=
    fun text document => value?_set_of_key rfl
  rw [indistinguishable_set_iff (p := p.ofEntry (key, v)) (q := p.ofEntry (key, w)) rfl]
  constructor
  · intro same applies
    have own : (t.set (p.ofEntry (key, w))).value? key (some d) =
      (t.set (p.ofEntry (key, v))).value? key (some d) := same (some d)
    rw [value, value, applies] at own
    exact Value.text.inj (Option.some.inj (Except.ok.inj own))
  · intro same document
    show (t.set (p.ofEntry (key, w))).value? key document =
      (t.set (p.ofEntry (key, v))).value? key document
    rw [value, value]
    rcases applies : t.applies p document with m | _ | _
    · rfl
    · rfl
    · rw [same (applies_owner owner applies)]

/-! ## All entries -/

/-- Properties for entries write their keys. -/
theorem Declares.keys {entries : List (String × String)} {qs : List Parameter}
    (h : Declares d a t entries qs) : List.Forall₂ (fun entry q => q.key = entry.1) entries qs := by
  induction h with
  | nil => exact .nil
  | cons writes _ ih => exact .cons writes.key ih

theorem Declares.unique {entries : List (String × String)} {qs qs' : List Parameter}
    (h : Declares d a t entries qs) (h' : Declares d a t entries qs') : qs' = qs := by
  induction h generalizing qs' with
  | nil =>
    cases h'
    rfl
  | cons writes more ih =>
    cases h' with
    | cons writes' more' =>
      obtain rfl := writes.unique writes'
      rw [ih more']

/-- Something holds wherever a list is cut if it holds at its head and wherever its tail is cut. -/
theorem forall_cut_cons {α : Type} {x : α} {rest : List α} {P : List α → α → Prop} :
    (∀ before y after, x :: rest = before ++ y :: after → P before y) ↔
      P [] x ∧ ∀ before y after, rest = before ++ y :: after → P (x :: before) y := by
  constructor
  · intro h
    exact ⟨h [] x rest rfl, fun before y after split => h (x :: before) y after (by rw [split]; rfl)⟩
  · rintro ⟨head, tail⟩ before y after split
    cases before with
    | nil =>
      obtain ⟨rfl, rfl⟩ := List.cons.inj split
      exact head
    | cons z before =>
      obtain ⟨rfl, more⟩ := List.cons.inj split
      exact tail before y after more

/-- Where every value expands to itself, properties for entries write what the file does. -/
theorem declares_ofEntry (scopes : t.Scopes d a p) {entries : List (String × String)}
    (apart : ∀ v ∈ a.scopeValues, ∀ entry ∈ entries, ¬v.Mentions entry.1)
    (fixed : ∀ before entry after, entries = before ++ entry :: after →
      (t.writing (before.map p.ofEntry)).expand entry.2 (some d) = .ok entry.2) :
    Declares d a t entries (entries.map p.ofEntry) := by
  induction entries generalizing t with
  | nil => exact .nil t
  | cons entry rest ih =>
    obtain ⟨head, tail⟩ := forall_cut_cons.1 fixed
    refine .cons (scopes.writes_iff.2 ⟨entry.2, head, rfl⟩) (ih ?_ ?_ tail)
    · have first : ∀ v ∈ a.scopeValues, ∀ q ∈ [p.ofEntry entry], ¬v.Mentions q.key := by
        intro v mem q mem'
        rw [List.mem_singleton.1 mem']
        exact apart v mem entry List.mem_cons_self
      exact scopes.writing first
    · exact fun v mem other mem' => apart v mem other (List.mem_cons_of_mem _ mem')

theorem writing_append (t : Table) (ps qs : List Parameter) :
    t.writing (ps ++ qs) = (t.writing ps).writing qs :=
  List.foldl_append

/-- Properties for the entries of a file write what nothing tells apart from what the file writes
just if every value of the file, expanded where it is written, is what it was, unless the entries do
not apply. -/
theorem exists_declares_iff_of_done (scopes : t.Scopes d a p) {done done' : List Parameter}
    {rest : List (String × String)}
    (pairs : List.Forall₂ (fun p q => q.key = p.key ∧ (t.set p).Indistinguishable (t.set q))
      done done')
    (nodup : (done.map Parameter.key ++ rest.map Prod.fst).Nodup)
    (apart : ∀ v ∈ a.scopeValues, ∀ key ∈ done.map Parameter.key ++ rest.map Prod.fst,
      ¬v.Mentions key) :
    (∃ qs, Declares d a (t.writing done') rest qs ∧
      List.Forall₂ (fun entry q => (t.set (p.ofEntry entry)).Indistinguishable (t.set q)) rest qs) ↔
    ∀ before entry after, rest = before ++ entry :: after → ∃ text,
      (t.writing (done ++ before.map p.ofEntry)).expand entry.2 (some d) = .ok text ∧
        (t.applies p (some d) = .ok true → text = entry.2) := by
  induction rest generalizing done done' with
  | nil =>
    refine ⟨fun _ before entry after split => ?_, fun _ => ⟨[], .nil _, .nil⟩⟩
    exact absurd split.symm (List.append_ne_nil_of_right_ne_nil _ (List.cons_ne_nil _ _))
  | cons entry rest ih =>
    -- what has been written cannot be told apart, so the value expands to the same text after
    -- either
    have keys : done'.map Parameter.key = done.map Parameter.key :=
      keys_eq_of_forall₂ (pairs.imp fun _ _ => And.left)
    have table : (t.writing done).Indistinguishable (t.writing done') :=
      (indistinguishable_writing_iff (List.nodup_append.1 nodup).1 (pairs.imp fun _ _ => And.left)).2
        (pairs.imp fun _ _ => And.right)
    have here : (t.writing done').Scopes d a p := by
      refine scopes.writing fun v mem q mem' => apart v mem q.key ?_
      rw [← keys]
      exact List.mem_append_left _ (List.mem_map_of_mem mem')
    have order : done.map Parameter.key ++ (entry :: rest).map Prod.fst =
        (done ++ [p.ofEntry entry]).map Parameter.key ++ rest.map Prod.fst := by
      rw [List.map_append, List.append_assoc]
      rfl
    rw [order] at nodup apart
    -- what is left to write after the entry, whatever it has been written as
    have later : ∀ text, (t.applies p (some d) = .ok true → text = entry.2) →
        ((∃ qs, Declares d a ((t.writing done').set (p.ofEntry (entry.1, text))) rest qs ∧
          List.Forall₂ (fun entry q => (t.set (p.ofEntry entry)).Indistinguishable (t.set q))
            rest qs) ↔
        ∀ before other after, rest = before ++ other :: after → ∃ text,
          (t.writing (done ++ (entry :: before).map p.ofEntry)).expand other.2 (some d) = .ok text ∧
            (t.applies p (some d) = .ok true → text = other.2)) := by
      intro text fixed
      have alike : (t.set (p.ofEntry entry)).Indistinguishable
          (t.set (p.ofEntry (entry.1, text))) :=
        (indistinguishable_ofEntry_iff scopes.owner).2 fixed
      have pair : List.Forall₂ (fun p q => q.key = p.key ∧ (t.set p).Indistinguishable (t.set q))
          [p.ofEntry entry] [p.ofEntry (entry.1, text)] := .cons ⟨rfl, alike⟩ .nil
      have whole := ih (List.rel_append pairs pair) nodup apart
      rw [writing_append] at whole
      simp only [List.append_assoc] at whole
      exact whole
    rw [forall_cut_cons, List.map_nil, List.append_nil]
    constructor
    · rintro ⟨_, declares, alike⟩
      cases declares with
      | cons writes more =>
        obtain ⟨alike, others⟩ := List.forall₂_cons.1 alike
        obtain ⟨text, expands, rfl⟩ := here.writes_iff.1 writes
        have fixed := (indistinguishable_ofEntry_iff scopes.owner).1 alike
        exact ⟨⟨text, (table.expand _ _).symm.trans expands, fixed⟩,
          (later text fixed).1 ⟨_, more, others⟩⟩
    · rintro ⟨⟨text, expands, fixed⟩, tail⟩
      obtain ⟨qs, more, others⟩ := (later text fixed).2 tail
      exact ⟨_ :: qs, .cons (here.writes_iff.2 ⟨text, (table.expand _ _).trans expands, rfl⟩) more,
        .cons ((indistinguishable_ofEntry_iff scopes.owner).2 fixed) others⟩

/-- What the file writes and what properties for its entries write are told apart entry by entry. -/
theorem Declares.indistinguishable_iff {entries : List (String × String)} {qs : List Parameter}
    (h : Declares d a t entries qs) (nodup : (entries.map Prod.fst).Nodup) :
    (t.writing (entries.map p.ofEntry)).Indistinguishable (t.writing qs) ↔
      List.Forall₂ (fun entry q => (t.set (p.ofEntry entry)).Indistinguishable (t.set q))
        entries qs := by
  have keys : (entries.map p.ofEntry).map Parameter.key = entries.map Prod.fst := by
    rw [List.map_map]
    rfl
  rw [indistinguishable_writing_iff (keys ▸ nodup) (List.forall₂_map_left_iff.2 h.keys),
    List.forall₂_map_left_iff]

end Table

/-! ## The elements -/

namespace SessionM

variable {e : Engine} {d : DocumentId} {a : Attributes} {s : Session} {p : Parameter}
  {entries : List (String × String)}

/-- The file of a property can be read and has these entries. -/
def HasEntries (e : Engine) (d : DocumentId) (a : Attributes) (s : Session)
    (entries : List (String × String)) : Prop :=
  ∃ path relativeTo file text, expandPath d (a.get "file") "file" "property" s = (.ok path, s) ∧
    startingPath d (a.flag "relativeToChangelogFile" false) s = (.ok relativeTo, s) ∧
    e.sources.read relativeTo path = .ok file ∧ e.text file = .ok text ∧
    Properties.parse text = .ok entries

/-- The entries of the file of a property, with their texts as they stand. -/
theorem entriesOf_of_hasEntries (given : a.given "file" = true) (has : HasEntries e d a s entries) :
    entriesOf e d a s = (.ok (entries.map fun entry => (entry.1, .text entry.2)), s) := by
  obtain ⟨path, relativeTo, file, text, expands, starts, reads, decodes, parses⟩ := has
  unfold entriesOf propertiesOf
  have known : ofMishap (e.text file) s = (.ok text, s) := by
    rw [decodes]
    rfl
  rw [if_pos given, Step.run_bind_of_ok expands, Step.run_bind_of_ok starts, reads]
  dsimp only
  rw [Step.run_bind_of_ok known, parses]
  rfl

/-- A property for each entry, one after the other. -/
def properties (e : Engine) (d : DocumentId) (a : Attributes) (entries : List (String × String)) :
    SessionM Unit :=
  entries.forM fun entry => property e d (entryAttributes a entry)

theorem properties_cons {entry : String × String} {rest : List (String × String)} :
    properties e d a (entry :: rest) s =
      (property e d (entryAttributes a entry) >>= fun _ => properties e d a rest) s :=
  rfl

/-- Properties for entries write their parameters if there are any, and else one of them fails. -/
theorem properties_cases (named : ∀ entry ∈ entries, entry.1 ≠ "")
    (keys : ∀ entry ∈ entries, ∀ name, ¬Text.Mentions entry.1 name) :
    (∃ qs, s.table.Declares d a entries qs ∧
      properties e d a entries s = (.ok (), { s with table := s.table.writing qs })) ∨
    ((∀ qs, ¬s.table.Declares d a entries qs) ∧
      ∃ failure s', properties e d a entries s = (.error failure, s')) := by
  induction entries generalizing s with
  | nil => exact .inl ⟨[], .nil _, rfl⟩
  | cons entry rest ih =>
    rw [properties_cons]
    rcases property_entry_cases (e := e) (a := a) (d := d) (s := s) (named _ List.mem_cons_self)
      (keys _ List.mem_cons_self) with ⟨q, writes, runs⟩ | ⟨none_, failure, fails⟩
    · -- the parameters are determined, so there are none for the rest in any other way
      rw [Step.run_bind_of_ok runs]
      rcases ih (s := { s with table := s.table.set q })
        (fun other mem => named other (List.mem_cons_of_mem _ mem))
        (fun other mem => keys other (List.mem_cons_of_mem _ mem)) with
          ⟨qs, more, runs⟩ | ⟨none_, fails⟩
      · exact .inl ⟨q :: qs, .cons writes more, runs⟩
      · refine .inr ⟨fun qs declares => ?_, fails⟩
        cases declares with
        | cons writes' more =>
          rw [writes.unique writes'] at more
          exact none_ _ more
    · refine .inr ⟨fun qs declares => ?_, failure, s, Step.run_bind_of_error fails _⟩
      cases declares with
      | cons writes _ => exact none_ _ writes

theorem properties_of_declares (named : ∀ entry ∈ entries, entry.1 ≠ "")
    (keys : ∀ entry ∈ entries, ∀ name, ¬Text.Mentions entry.1 name) {qs : List Parameter}
    (declares : s.table.Declares d a entries qs) :
    properties e d a entries s = (.ok (), { s with table := s.table.writing qs }) := by
  rcases properties_cases (e := e) named keys with ⟨qs', declares', runs⟩ | ⟨none_, -⟩
  · rw [runs, declares.unique declares']
  · exact absurd declares (none_ qs)

/-- Properties for entries succeed as the property with the file does, and nothing tells apart what
the two leave behind, whatever is written later. -/
def EffectsAgree (e : Engine) (d : DocumentId) (a : Attributes) (entries : List (String × String))
    (s : Session) : Prop :=
  ∃ t t', property e d a s = (.ok (), { s with table := t }) ∧
    properties e d a entries s = (.ok (), { s with table := t' }) ∧
    ∀ later, (t.writing later).Indistinguishable (t'.writing later)

/-- A property with a file against a property for each of its entries. If the attributes do not say
where the entries apply, both fail at once. If they do, the file is written as it stands, and
nothing tells apart what the two leave behind just if that holds of every single write; where the
attributes do not refer to the entries, that is so just if every value, expanded where it stands, is
what it was, unless the entries do not apply, and if every value is, the two do the very same. -/
theorem property_file_iff (valid : a.validate documentOwner "property" propertyAttributes = .ok ())
    (given : a.given "file" = true) (has : HasEntries e d a s entries)
    (keys : ∀ entry ∈ entries, ∀ name, ¬Text.Mentions entry.1 name) :
    (entries.map Prod.fst).Nodup ∧ "" ∉ entries.map Prod.fst ∧
    (entries ≠ [] → (∀ p, ¬s.table.Scopes d a p) → ∃ failure failure',
      property e d a s = (.error failure, s) ∧ properties e d a entries s = (.error failure', s)) ∧
    ∀ p, s.table.Scopes d a p →
      property e d a s = (.ok (), { s with table := s.table.writing (entries.map p.ofEntry) }) ∧
      (EffectsAgree e d a entries s ↔ ∃ qs, s.table.Declares d a entries qs ∧ List.Forall₂
        (fun entry q => (s.table.set (p.ofEntry entry)).Indistinguishable (s.table.set q))
          entries qs) ∧
      ((∀ v ∈ a.scopeValues, ∀ entry ∈ entries, ¬v.Mentions entry.1) →
        (EffectsAgree e d a entries s ↔
          ∀ before entry after, entries = before ++ entry :: after → ∃ text,
            (s.table.writing (before.map p.ofEntry)).expand entry.2 (some d) = .ok text ∧
              (s.table.applies p (some d) = .ok true → text = entry.2)) ∧
        ((∀ before entry after, entries = before ++ entry :: after →
            (s.table.writing (before.map p.ofEntry)).expand entry.2 (some d) = .ok entry.2) →
          properties e d a entries s = property e d a s)) := by
  have reads := entriesOf_of_hasEntries given has
  obtain ⟨nodup, nonempty⟩ : (entries.map Prod.fst).Nodup ∧ "" ∉ entries.map Prod.fst := by
    obtain ⟨_, _, _, _, _, _, _, _, parses⟩ := has
    exact Properties.keys_of_parse parses
  have named : ∀ entry ∈ entries, entry.1 ≠ "" := fun entry mem empty =>
    nonempty (empty ▸ List.mem_map_of_mem mem)
  refine ⟨nodup, nonempty, fun some_ none_ => ?_, fun p scopes => ?_⟩
  · obtain ⟨entry, rest, rfl⟩ := List.exists_cons_of_ne_nil some_
    obtain ⟨failure, fails⟩ := property_of_not_scopes valid none_ reads (by simp)
    rcases property_entry_cases (e := e) (a := a) (d := d) (s := s) (named _ List.mem_cons_self)
      (keys _ List.mem_cons_self) with ⟨q, writes, -⟩ | ⟨-, failure', fails'⟩
    · exact absurd writes.scopes (none_ q)
    · exact ⟨failure, failure', fails, Step.run_bind_of_error fails' _⟩
  · -- two writes are told apart by their values only, so it comes to comparing write by write
    have whole : property e d a s =
        (.ok (), { s with table := s.table.writing (entries.map p.ofEntry) }) := by
      rw [property_of_scopes valid scopes reads, List.map_map]
      rfl
    have single : EffectsAgree e d a entries s ↔ ∃ qs, s.table.Declares d a entries qs ∧
        List.Forall₂ (fun entry q => (s.table.set (p.ofEntry entry)).Indistinguishable (s.table.set q))
          entries qs := by
      constructor
      · rintro ⟨t, t', runs, runs', alike⟩
        obtain rfl := congrArg Session.table (congrArg Prod.snd (whole.symm.trans runs))
        rcases properties_cases (e := e) (a := a) (s := s) (d := d) named keys with
          ⟨qs, declares, runs''⟩ | ⟨-, failure, s', fails⟩
        · obtain rfl := congrArg Session.table (congrArg Prod.snd (runs''.symm.trans runs'))
          exact ⟨qs, declares, (declares.indistinguishable_iff nodup).1 (alike [])⟩
        · cases (congrArg Prod.fst (fails.symm.trans runs'))
      · rintro ⟨qs, declares, alike⟩
        exact ⟨_, _, whole, properties_of_declares named keys declares,
          ((declares.indistinguishable_iff nodup).2 alike).writing⟩
    refine ⟨whole, single, fun apart => ⟨?_, fun fixed => ?_⟩⟩
    · rw [single]
      have apart' : ∀ v ∈ a.scopeValues, ∀ key ∈ entries.map Prod.fst, ¬v.Mentions key := by
        intro v mem key mem'
        obtain ⟨entry, mem'', rfl⟩ := List.mem_map.1 mem'
        exact apart v mem entry mem''
      exact Table.exists_declares_iff_of_done scopes .nil nodup apart'
    · rw [whole]
      exact properties_of_declares named keys (Table.declares_ofEntry scopes apart fixed)

end SessionM

/-- A properties file with one entry that refers to another name. -/
def greeting : Engine :=
  { Engine.ofScripts [] with sources.entries :=
    [(["p.properties"], .file (.bytes "greeting=hello $\x7bwho\x7d".toUTF8.toList))] }

theorem hasEntries_greeting (s : Session) : SessionM.HasEntries greeting ⟨0⟩
    [("file", .text "p.properties")] s [("greeting", "hello $\x7bwho\x7d")] :=
  ⟨"p.properties", none, .bytes "greeting=hello $\x7bwho\x7d".toUTF8.toList,
    "greeting=hello $\x7bwho\x7d",
    SessionM.expandPath_of_isClean (by decide +kernel) (by decide) _ _ s, rfl, rfl,
    by decide +kernel, by decide +kernel⟩

theorem not_mentions_greeting :
    ∀ entry ∈ [("greeting", "hello $\x7bwho\x7d")], ∀ name, ¬Text.Mentions entry.1 name := by
  intro entry mem
  rw [List.mem_singleton.1 mem]
  exact Text.not_mentions_of_isPlain (by decide +kernel)

/-- As long as the other name has no value, the file does what a property for its entry does. -/
theorem property_file_iff_unset :
    let a : Attributes := [("file", .text "p.properties")]
    let entries := [("greeting", "hello $\x7bwho\x7d")]
    let s : Session := { table := .ofRun none none none }
    SessionM.EffectsAgree greeting ⟨0⟩ a entries s ∧
      SessionM.properties greeting ⟨0⟩ a entries s = SessionM.property greeting ⟨0⟩ a s := by
  intro a entries s
  obtain ⟨-, -, -, law⟩ := SessionM.property_file_iff (e := greeting) (d := ⟨0⟩) (a := a) (s := s)
    (Attributes.validate_of_keys (by decide) (by decide)) rfl (hasEntries_greeting s)
      not_mentions_greeting
  let p : Parameter := ⟨"", .null, none, none, none, true, some ⟨0⟩⟩
  have scopes : s.table.Scopes ⟨0⟩ a p :=
    ⟨⟨.null, rfl, rfl⟩, ⟨.null, rfl, rfl⟩, ⟨.null, rfl, rfl⟩, rfl, rfl⟩
  have apart : ∀ v ∈ a.scopeValues, ∀ entry ∈ entries, ¬v.Mentions entry.1 := by
    have null : ∀ v ∈ a.scopeValues, v.asText? = none := by
      unfold Attributes.scopeValues
      intro v mem
      simp only [List.mem_cons, List.not_mem_nil, or_false] at mem
      rcases mem with rfl | rfl | rfl <;> rfl
    rintro v mem entry - ⟨text, isText, -⟩
    rw [null v mem] at isText
    cases isText
  have fixed : ∀ before entry after, entries = before ++ entry :: after →
      (s.table.writing (before.map p.ofEntry)).expand entry.2 (some ⟨0⟩) = .ok entry.2 :=
    Table.forall_cut_cons.2 ⟨by decide +kernel, fun before y after split => by simp at split⟩
  obtain ⟨-, -, fits⟩ := law p scopes
  obtain ⟨agree, same⟩ := fits apart
  refine ⟨agree.2 fun before entry after split => ?_, same fixed⟩
  exact ⟨entry.2, fixed before entry after split, fun _ => rfl⟩

/-- If the other name has a value, a property for the entry takes it over, and the file does not. -/
theorem not_effectsAgree_greeting :
    let a : Attributes := [("file", .text "p.properties")]
    let entries := [("greeting", "hello $\x7bwho\x7d")]
    let s : Session := { table := (Table.ofRun none none none).set (.ofText "who" "world") }
    SessionM.HasEntries greeting ⟨0⟩ a s entries ∧
      (∀ entry ∈ entries, ∀ name, ¬Text.Mentions entry.1 name) ∧
      (SessionM.property greeting ⟨0⟩ a s).2.table.expand "$\x7bgreeting\x7d" (some ⟨0⟩) =
        .ok "hello $\x7bwho\x7d" ∧
      (SessionM.properties greeting ⟨0⟩ a entries s).2.table.expand "$\x7bgreeting\x7d" (some ⟨0⟩) =
        .ok "hello world" ∧
      ¬SessionM.EffectsAgree greeting ⟨0⟩ a entries s := by
  intro a entries s
  have whole : (SessionM.property greeting ⟨0⟩ a s).2.table.expand "$\x7bgreeting\x7d" (some ⟨0⟩) =
      .ok "hello $\x7bwho\x7d" := by
    decide +kernel
  have single : (SessionM.properties greeting ⟨0⟩ a entries s).2.table.expand "$\x7bgreeting\x7d"
      (some ⟨0⟩) = .ok "hello world" := by
    decide +kernel
  refine ⟨hasEntries_greeting s, not_mentions_greeting, whole, single, ?_⟩
  rintro ⟨t, t', runs, runs', alike⟩
  rw [runs] at whole
  rw [runs'] at single
  have same : t'.expand "$\x7bgreeting\x7d" (some ⟨0⟩) = t.expand "$\x7bgreeting\x7d" (some ⟨0⟩) :=
    (alike []).expand _ _
  rw [show t.expand _ _ = _ from whole, show t'.expand _ _ = _ from single] at same
  exact absurd same (by decide)

end Migration
