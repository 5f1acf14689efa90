import Migration.Proofs.Attribute.Filling
import Migration.Proofs.Call
import Migration.Proofs.Failure.Calls

/-!
# Attributes that an element does not accept

Every element refuses an attribute that it does not accept, wherever it stands among the others.
Most elements know all their attributes beforehand, or set them in a record that nothing refers to
yet, so nothing has changed when they refuse. The constraints of a column are set in place, one
after the other: those before the refused one stay set.

* `Element.accepts` — the attributes that an element accepts
* `SessionM.Refuses` — a step fails, changes nothing, and says what it has been given
* `SessionM.refuses_fill`, `SessionM.refuses_act` — records refuse attributes, and so do elements
* `SessionM.constraints_refuse` — constraints are set up to the one that is refused
* `refused_of_unaccepted` — a call with an attribute that its element does not accept
-/

namespace Migration

/-! ## Which attributes an element accepts -/

/-- Whether an element accepts an attribute. -/
def Element.accepts (store : Store) (x : Element) (name : String) : Bool :=
  match x with
  | changeLog => SessionM.changeLogAttributes.contains name
  | property => SessionM.propertyAttributes.contains name
  | changeSet => changeSetAttributes.contains name
  | «include» => SessionM.includeAttributes.contains name
  | includeAll => SessionM.includeAllAttributes.contains name
  | includeAllSql => SessionM.includeAllSqlAttributes.contains name
  | preconditions .. => Catalog.container.hasProperty name
  | removeProperty => SessionM.removalAttributes.contains name
  | comment _ => name == "text"
  | checkSum _ => name == "check_sum"
  | rollback .. => SessionM.rollbackAttributes.contains name
  | modifySql .. => ["dbms", "context", "contextFilter", "labels", "applyToRollback"].contains name
  | change _ _ type .. | precondition _ _ type _ | visitor _ type .. => type.hasProperty name
  | column _ _ i =>
    let change := (store.changes.get? i).getD default
    (change.record.type.columns.getD .plain).type.hasProperty name
  | whereClause .. => name == "clause"
  | whereParams .. | group .. => false
  | param .. => Catalog.column.hasProperty name
  | constraints _ _ i =>
    let column := (store.columns.get? i).getD default
    (column.constraints.getD (.fresh Catalog.constraints)).type.hasProperty name
  | constraint .. => name == "value"

/-- The elements that expand and set one attribute after the other, without a look at the names of
those that follow. -/
def Element.setsInTurn : Element → Bool
  | preconditions .. | change .. | column .. | param .. | constraints .. | precondition ..
  | visitor .. => true
  | _ => false

/-- The values that an element may expand before it comes to the attribute that it refuses. -/
def Element.expanded (x : Element) (positional : List Value) (a : Attributes) : List Value :=
  if x.setsInTurn then positional ++ a.map (·.2) else []

namespace Attributes

variable {a : Attributes} {name : String}

/-- Attributes that are not all among those of an element are refused. -/
theorem validate_of_not_mem {owner element : String} {allowed : List String} (given : name ∈ a.keys)
    (no : allowed.contains name = false) :
    ∃ problem, a.validate owner element allowed = .error problem := by
  obtain ⟨entry, mem, rfl⟩ := List.mem_map.1 given
  obtain ⟨other, found⟩ : ∃ other, a.find? (fun entry => !allowed.contains entry.1) = some other :=
    Option.isSome_iff_exists.1 (List.find?_isSome.2 ⟨entry, mem, by rw [no]; rfl⟩)
  have unsupported : a.unsupported? allowed = some other.1 :=
    congrArg (Option.map fun entry : String × Value => entry.1) found
  unfold validate
  split
  · exact ⟨_, rfl⟩
  · rw [unsupported]
    exact ⟨_, rfl⟩

/-- The first attribute that does not satisfy a condition, if there is one. -/
theorem exists_first (accepts : String → Bool) (given : name ∈ a.keys) (no : accepts name = false) :
    ∃ before refused v after, a = before ++ (refused, v) :: after ∧
      (∀ entry ∈ before, accepts entry.1 = true) ∧ accepts refused = false := by
  obtain ⟨entry, mem, rfl⟩ := List.mem_map.1 given
  obtain ⟨first, found⟩ : ∃ first, a.find? (fun entry => !accepts entry.1) = some first :=
    Option.isSome_iff_exists.1 (List.find?_isSome.2 ⟨entry, mem, by rw [no]; rfl⟩)
  obtain ⟨refused, before, after, split, others⟩ := List.find?_eq_some_iff_append.1 found
  refine ⟨before, first.1, first.2, after, split, fun entry mem => ?_, by simpa using refused⟩
  simpa using others entry mem

end Attributes

namespace Signature

variable {a : Attributes} {name : String}

theorem refuse_of_mem (given : name ∈ a.keys) : ∃ problem, refuse a = .error problem := by
  cases a with
  | nil => cases given
  | cons entry rest => exact ⟨_, rfl⟩

/-- An element without attributes takes none. -/
theorem check_nothing (positional : List Value) (given : name ∈ a.keys) :
    ∃ problem, nothing.check positional a = .error problem := by
  cases positional with
  | nil => exact refuse_of_mem given
  | cons v more => exact ⟨_, rfl⟩

/-- An element with a single argument takes no other. -/
theorem check_one (positional : List Value) (given : name ∈ a.keys) {own : String}
    (other : (name == own) = false) : ∃ problem, (one own).check positional a = .error problem := by
  cases positional with
  | nil =>
    obtain ⟨entry, mem, rfl⟩ := List.mem_map.1 given
    have left : entry.1 ∈ Attributes.keys (a.filter (·.1 != own)) :=
      List.mem_map.2 ⟨entry, List.mem_filter.2 ⟨mem, by unfold bne; rw [other]; rfl⟩, rfl⟩
    obtain ⟨problem, refused⟩ := refuse_of_mem left
    unfold check
    by_cases missing : a.has own = true
    · exact ⟨problem, by simpa [missing] using refused⟩
    · exact ⟨_, by simp [missing]; rfl⟩
  | cons v more =>
    obtain ⟨problem, refused⟩ := refuse_of_mem given
    unfold check
    by_cases twice : a.has own = true
    · exact ⟨_, by simp [twice]; rfl⟩
    · cases more with
      | nil => exact ⟨problem, by simpa [twice] using refused⟩
      | cons _ _ => exact ⟨_, by simp [twice]; rfl⟩

end Signature

namespace SessionM

variable {α β : Type} {d : DocumentId} {s : Session} {values : List Value}

/-! ## Steps that refuse what they are given -/

/-- A failure that says what is wrong with a call: the script is no valid change log, or one of the
values that it gives cannot be expanded. -/
def Rejects (d : DocumentId) (values : List Value) (s : Session) (failure : Failure) : Prop :=
  (∃ problem cause, failure = .parse problem cause) ∨
    ∃ v ∈ values, expand d v s = (.error failure, s)

/-- A step fails on what it is given, and changes nothing. -/
def Refuses (d : DocumentId) (values : List Value) (m : SessionM α) (s : Session) : Prop :=
  ∃ failure, m s = (.error failure, s) ∧ Rejects d values s failure

theorem Rejects.mono {values' : List Value} {failure : Failure} (h : Rejects d values s failure)
    (more : ∀ v ∈ values, v ∈ values') : Rejects d values' s failure :=
  h.imp_right fun ⟨v, mem, expands⟩ => ⟨v, more v mem, expands⟩

theorem Refuses.mono {values' : List Value} {m : SessionM α} (h : Refuses d values m s)
    (more : ∀ v ∈ values, v ∈ values') : Refuses d values' m s := by
  obtain ⟨failure, run, rejects⟩ := h
  exact ⟨failure, run, rejects.mono more⟩

/-- What comes after a step that refuses is not done. -/
theorem Refuses.bind {m : SessionM α} (h : Refuses d values m s) (f : α → SessionM β) :
    Refuses d values (m >>= f) s := by
  obtain ⟨failure, run, rejects⟩ := h
  exact ⟨failure, Step.run_bind_of_error run f, rejects⟩

/-- What is read before a step that refuses changes nothing. -/
theorem Refuses.after {m : SessionM α} {a : α} (reads : m s = (.ok a, s)) {f : α → SessionM β}
    (h : Refuses d values (f a) s) : Refuses d values (m >>= f) s := by
  obtain ⟨failure, run, rejects⟩ := h
  exact ⟨failure, (Step.run_bind_of_ok reads f).trans run, rejects⟩

theorem refuses_reject (problem : ParseFailure) (cause : Option BindError) :
    Refuses d values (reject problem cause : SessionM α) s :=
  ⟨_, rfl, .inl ⟨problem, cause, rfl⟩⟩

theorem refuses_ofCheck {x : Except ParseFailure α} (h : ∃ problem, x = .error problem) :
    Refuses d values (ofCheck x) s := by
  obtain ⟨problem, rfl⟩ := h
  exact refuses_reject problem none

/-- A record refuses attributes if there is one among them that its type does not have. -/
theorem refuses_fill {owner : String} {target : Target} {r : Record} {a : Attributes}
    {name : String} (given : name ∈ a.keys) (no : r.type.hasProperty name = false) :
    Refuses d (a.map (·.2)) (fill d owner target r a) s := by
  induction a generalizing r with
  | nil => cases given
  | cons entry rest ih =>
    obtain ⟨key, v⟩ := entry
    obtain ⟨failure, expands⟩ | ⟨w, expands⟩ := (keeps_expand d v).run_cases s
    · refine ⟨failure, ?_, .inr ⟨v, List.mem_cons_self, expands⟩⟩
      rw [fill, Step.run_bind_of_error expands]
    · cases binds : r.bind key w with
      | error cause =>
        refine ⟨.parse (.invalidAttribute owner key target) (some cause), ?_, .inl ⟨_, _, rfl⟩⟩
        rw [fill, Step.run_bind_of_ok expands]
        simp only [binds]
        rfl
      | ok r' =>
        have later : name ∈ Attributes.keys rest := by
          rcases List.mem_cons.1 given with rfl | later
          · obtain ⟨cause, refused⟩ := Record.bind_of_not_hasProperty no w
            cases refused.symm.trans binds
          · exact later
        obtain ⟨failure, run, rejects⟩ := ih later ((Record.type_of_bind binds).symm ▸ no)
        refine ⟨failure, (fill_cons expands binds).trans run, ?_⟩
        exact rejects.mono fun v mem => List.mem_cons_of_mem _ mem

/-- So does one with a positional argument. -/
theorem refuses_newRecord {owner element : String} {target : Target} {type : RecordType}
    {a : Attributes} {name : String} (positional : List Value) (given : name ∈ a.keys)
    (no : type.hasProperty name = false) :
    Refuses d (positional ++ a.map (·.2)) (newRecord d owner element target type positional a) s := by
  unfold newRecord
  cases placed : withPositional owner element type positional a with
  | error problem => exact (refuses_ofCheck ⟨problem, rfl⟩).bind _
  | ok all =>
    have split : ∃ first : Attributes, all = first ++ a ∧ ∀ v ∈ first.map (·.2), v ∈ positional := by
      unfold withPositional at placed
      cases positional with
      | nil =>
        cases placed
        exact ⟨[], rfl, by simp⟩
      | cons v more =>
        dsimp only at placed
        split at placed
        · cases placed
        · split at placed
          · cases placed
          · split at placed <;> cases placed
            exact ⟨[(_, v)], rfl, by simp⟩
    obtain ⟨first, rfl, own⟩ := split
    have mem : name ∈ Attributes.keys (first ++ a) := by
      unfold Attributes.keys
      rw [List.map_append]
      exact List.mem_append_right _ given
    refine Refuses.mono (refuses_fill mem no) fun v mem => ?_
    rw [List.map_append] at mem
    rcases List.mem_append.1 mem with mem | mem
    · exact List.mem_append_left _ (own v mem)
    · exact List.mem_append_right _ mem

/-- Attributes that are checked by their names are refused. -/
theorem refuses_validate {owner element : String} {allowed : List String} {a : Attributes}
    {name : String} (given : name ∈ a.keys) (no : allowed.contains name = false) :
    Refuses d values (ofCheck (a.validate owner element allowed)) s :=
  refuses_ofCheck (Attributes.validate_of_not_mem given no)

/-! ## Elements -/

variable {e : Engine} {compiler : Compiler}

theorem refuses_rollback {owner : String} {i : ChangeSetId} {a : Attributes} {name : String}
    (positional : List Value) (given : name ∈ a.keys)
    (no : rollbackAttributes.contains name = false) :
    Refuses d values (rollback d owner i positional a) s := by
  have some_ : a.isEmpty = false := by
    cases a with
    | nil => cases given
    | cons entry rest => rfl
  cases positional with
  | nil =>
    unfold rollback
    simp only [some_, Bool.false_eq_true, if_false]
    exact ((refuses_validate given no).bind _).bind _
  | cons sql more =>
    unfold rollback
    simp only [some_, Bool.not_false, Bool.or_true, if_true]
    exact (refuses_reject _ _).bind _

/-- An element refuses an attribute that it does not accept, unless it sets its attributes in
place. -/
theorem refuses_act {x : Element} {positional : List Value} {a : Attributes} {name : String}
    (given : name ∈ a.keys) (no : x.accepts s.store name = false)
    (fits : x.signature.check positional a = .ok ())
    (apart : ∀ owner element i, x ≠ .constraints owner element i) :
    Refuses d (x.expanded positional a) (act e compiler d x positional a) s := by
  have alone : ∀ v ∈ a.map (·.2), v ∈ positional ++ a.map (·.2) :=
    fun v mem => List.mem_append_right _ mem
  cases x with
  | changeLog => exact ((refuses_validate given no).bind _).bind _
  | property => exact ((refuses_validate given no).bind _).bind _
  | changeSet => exact ((refuses_validate given no).bind _).bind _
  | «include» => exact (((refuses_validate given no).bind _).bind _).bind _
  | includeAll => exact (((refuses_validate given no).bind _).bind _).bind _
  | includeAllSql => exact (((refuses_validate given no).bind _).bind _).bind _
  | preconditions owner i =>
    exact (((refuses_fill (r := .fresh Catalog.container) given no).mono alone).bind _).bind _
  | removeProperty => exact (((refuses_validate given no).bind _).bind _).bind _
  | comment i | checkSum i | whereClause owner element i | constraint owner element i key =>
    obtain ⟨problem, refused⟩ := Signature.check_one positional given no
    cases refused.symm.trans fits
  | rollback owner i => exact refuses_rollback positional given no
  | modifySql owner i => exact (refuses_validate given no).bind _
  | change owner element type i undoes => exact (refuses_newRecord positional given no).bind _
  | column owner element i =>
    refine (Refuses.after (show change i s = (.ok _, s) from rfl) (Refuses.bind ?_ _)).bind _
    exact (refuses_fill (r := .fresh _) given no).mono alone
  | whereParams | group =>
    obtain ⟨problem, refused⟩ := Signature.check_nothing positional given
    cases refused.symm.trans fits
  | param owner element i =>
    exact (((refuses_fill (r := .fresh Catalog.column) given no).mono alone).bind _).bind _
  | constraints owner element i => exact absurd rfl (apart owner element i)
  | precondition owner element type parent => exact (refuses_newRecord positional given no).bind _
  | visitor owner type i filter =>
    exact (((refuses_fill (r := .fresh type) given no).mono alone).bind _).bind _

/-! ## Constraints -/

/-- At most the constraints of one column have changed. -/
structure Constrains (i : ColumnId) (s s' : Session) : Prop where
  others : s' = { s with store := { s.store with columns := s'.store.columns } }
  columns : ∀ j, s'.store.columns.get? j = s.store.columns.get? j ∨ j = i ∧ ∃ c constraints,
    s.store.columns.get? i = some c ∧ s'.store.columns.get? i = some { c with constraints }

instance {i : ColumnId} : IsPreorder Session (Constrains i) where
  refl s := ⟨rfl, fun _ => .inl rfl⟩
  trans s s' s'' h h' := by
    refine ⟨?_, fun j => ?_⟩
    · rw [h'.others, h.others]
    · rcases h'.columns j with same' | ⟨rfl, c', set', found', put'⟩
      · rcases h.columns j with same | ⟨rfl, c, set, found, put⟩
        · exact .inl (same'.trans same)
        · exact .inr ⟨rfl, c, set, found, same'.trans put⟩
      · right
        refine ⟨rfl, ?_⟩
        rcases h.columns j with same | ⟨-, c, set, found, put⟩
        · exact ⟨c', set', same.symm.trans found', put'⟩
        · cases put.symm.trans found'
          exact ⟨c, set', found, put'⟩

/-- Setting constraints changes nothing else. -/
theorem keeps_constraints (owner element : String) (i : ColumnId) (a : Attributes) :
    Keeps (Constrains i) (constraints d owner element i a) := by
  induction a with
  | nil => exact .pure _
  | cons entry rest ih =>
    refine Keeps.bind (keeps_expand d entry.2) fun v => Keeps.bind .get fun s => ?_
    dsimp only
    split
    · next r _ =>
      refine Keeps.bind (fun s => ⟨rfl, fun j => ?_⟩) fun _ => ih
      show (s.store.columns.modify i _).get? j = _ ∨ j = i ∧ ∃ c constraints, _ ∧
        (s.store.columns.modify i _).get? i = _
      rw [Pool.get?_modify, Pool.get?_modify, if_pos rfl]
      by_cases same : i = j
      · subst same
        rw [if_pos rfl]
        cases found : s.store.columns.get? i with
        | none => exact .inl rfl
        | some c => exact .inr ⟨rfl, c, some r, rfl, rfl⟩
      · rw [if_neg same]
        exact .inl rfl
    · exact Keeps.bind (keeps_reject _ _) fun _ => ih

/-- The type of the constraints of a column. -/
def constraintsType (s : Session) (i : ColumnId) : RecordType :=
  (((s.store.columns.get? i).getD default).constraints.getD (.fresh Catalog.constraints)).type

/-- Constraints are set one after the other. The first one that is refused is not set, nor are those
after it. -/
theorem constraints_refuse {owner element refused : String} {i : ColumnId}
    {before after : Attributes}
    {v : Value} (no : (constraintsType s i).hasProperty refused = false) :
    ∃ failure, constraints d owner element i (before ++ (refused, v) :: after) s =
        (.error failure, (constraints d owner element i before s).2) ∧
      Rejects d ((before ++ (refused, v) :: after).map (·.2)) s failure := by
  induction before generalizing s with
  | nil =>
    obtain ⟨failure, expands⟩ | ⟨w, expands⟩ := (keeps_expand d v).run_cases s
    · refine ⟨failure, ?_, .inr ⟨v, List.mem_cons_self, expands⟩⟩
      show constraints d owner element i ((refused, v) :: after) s = (_, s)
      rw [constraints, Step.run_bind_of_error expands]
    · obtain ⟨cause, binds⟩ := Record.bind_of_not_hasProperty no w
      exact ⟨_, constraints_cons_of_error expands binds, .inl ⟨_, _, rfl⟩⟩
  | cons entry rest ih =>
    obtain ⟨failure, expands⟩ | ⟨w, expands⟩ := (keeps_expand d entry.2).run_cases s
    · refine ⟨failure, ?_, .inr ⟨entry.2, List.mem_cons_self, expands⟩⟩
      rw [List.cons_append, constraints, constraints, Step.run_bind_of_error expands,
        Step.run_bind_of_error expands]
    · cases binds : (s.constraintsOf i).bind entry.1 w with
      | error cause =>
        rw [List.cons_append, constraints_cons_of_error expands binds,
          constraints_cons_of_error expands binds]
        exact ⟨_, rfl, .inl ⟨_, _, rfl⟩⟩
      | ok r =>
        obtain ⟨entries, -, rfl⟩ := Record.bind_eq_ok.1 binds
        rw [List.cons_append, constraints_cons_of_ok expands binds,
          constraints_cons_of_ok expands binds]
        -- the constraints are of the same type after one of them has been set
        have type : constraintsType (s.amend i entries) i = constraintsType s i :=
          Session.type_constraintsOf_amend s i entries
        obtain ⟨failure, run, rejects⟩ := ih (s := s.amend i entries) (type.symm ▸ no)
        refine ⟨failure, run, ?_⟩
        rcases rejects with parse | ⟨u, mem, expands'⟩
        · exact .inl parse
        · -- and nothing is expanded otherwise
          have same : (expand d u s).1 = (expand d u (s.amend i entries)).1 :=
            expand_congr (show s.table = (s.amend i entries).table from rfl) d u
          rw [expands'] at same
          refine .inr ⟨u, List.mem_cons_of_mem _ mem, Prod.ext same ?_⟩
          exact (keeps_expand (R := (· = ·)) d u s).symm

end SessionM

/-- A call of an element with an attribute that stands for the element itself fails because of that
before the element is looked up. -/
theorem ScriptM.call_of_receiver {e : Engine} {compiler : Compiler} {c : Script.Call} {r : Running}
    {positional : List Value} {pairs : List (String × Value)}
    (names : resolve e c.element r = (.ok .element, r))
    (items : evalItems e c.positional r = (.ok positional, r))
    (entries : evalAttributes e c.attributes r = (.ok pairs, r))
    (given : receiver ∈ Attributes.keys (.ofSpellings pairs)) :
    call e compiler c r =
      (.error (.mishap (.argumentTwice (elementType ++ ".__call__") receiver)), r) := by
  have prepares : prepare e c r =
      (.error (.mishap (.argumentTwice (elementType ++ ".__call__") receiver)), r) := by
    rw [prepare_eq_dispatch names items entries, run_dispatch, if_pos (Attributes.has_iff.2 given)]
  exact call_of_error (function?_of_resolve names) prepares

/-- A call with an attribute that its element does not accept fails, in whatever state the script is
and wherever the attribute stands among the others. The failure is that the script is no valid
change log, or, for an element that sets its attributes in turn, that one of their values cannot be
expanded. Nothing at all has changed; only constraints that stand before the first one that is not
accepted have been set, which changes the constraints of their column and nothing else. An attribute
that stands for the element itself is a mishap, whatever else there is, and nothing has changed. -/
theorem refused_of_unaccepted (e : Engine) (compiler : Compiler) {c : Script.Call} {r : Running}
    {positional : List Value} {pairs : List (String × Value)} {x : Element} {name : String}
    (names : ScriptM.resolve e c.element r = (.ok .element, r))
    (items : ScriptM.evalItems e c.positional r = (.ok positional, r))
    (entries : ScriptM.evalAttributes e c.attributes r = (.ok pairs, r))
    (stands : r.frame.innermostBody.element? e c.element = some x)
    (given : name ∈ Attributes.keys (.ofSpellings pairs))
    (no : x.accepts r.session.store name = false) :
    (ScriptM.receiver ∈ Attributes.keys (.ofSpellings pairs) →
      ScriptM.call e compiler c r =
        (.error (.mishap
          (.argumentTwice (ScriptM.elementType ++ ".__call__") ScriptM.receiver)), r)) ∧
    (ScriptM.receiver ∉ Attributes.keys (.ofSpellings pairs) →
      ∃ failure r', ScriptM.call e compiler c r = (.error failure, r') ∧
        SessionM.Rejects r.frame.document (x.expanded positional (.ofSpellings pairs))
          r.session failure ∧
        (r' = r ∨ ∃ owner element i before refused v after, x = .constraints owner element i ∧
          Attributes.ofSpellings pairs = before ++ (refused, v) :: after ∧
          (∀ entry ∈ before, x.accepts r.session.store entry.1 = true) ∧
          x.accepts r.session.store refused = false ∧
          r' = { r with
            session := (SessionM.constraints r.frame.document owner element i before r.session).2 } ∧
          SessionM.Constrains i r.session r'.session)) := by
  refine ⟨ScriptM.call_of_receiver names items entries, fun other => ?_⟩
  have dispatches := ScriptM.prepare_eq_dispatch names items entries
  rw [ScriptM.run_dispatch, if_neg fun own => other (Attributes.has_iff.1 own),
    stands] at dispatches
  dsimp only at dispatches
  cases fits : x.signature.check positional (.ofSpellings pairs) with
  | error problem =>
    rw [fits] at dispatches
    have fails : ScriptM.call e compiler c r = _ :=
      ScriptM.call_of_error (ScriptM.function?_of_resolve names) dispatches
    exact ⟨_, r, fails, .inl ⟨_, _, rfl⟩, .inl rfl⟩
  | ok _ =>
    rw [fits] at dispatches
    -- constraints are set one by one as they are read, all other elements fill what they then put
    -- down
    by_cases inPlace : ∃ owner element i, x = .constraints owner element i
    · obtain ⟨owner, element, i, rfl⟩ := inPlace
      obtain ⟨before, refused, v, after, split, accepted, first⟩ := Attributes.exists_first
        (fun name => (Element.constraints owner element i).accepts r.session.store name) given no
      obtain ⟨failure, run, rejects⟩ : ∃ failure, SessionM.constraints r.frame.document owner element i
          (.ofSpellings pairs) r.session = (.error failure, _) ∧
            SessionM.Rejects r.frame.document ((Attributes.ofSpellings pairs).map (·.2))
              r.session failure :=
        split ▸ SessionM.constraints_refuse first
      refine ⟨failure, _, ScriptM.call_eq dispatches (Step.run_bind_of_error run _), ?_, .inr
        ⟨owner, element, i, before, refused, v, after, rfl, split, accepted, first, rfl, ?_⟩⟩
      · exact rejects.mono fun v mem => List.mem_append_right _ mem
      · exact SessionM.keeps_constraints owner element i before r.session
    · obtain ⟨failure, run, rejects⟩ : SessionM.Refuses r.frame.document _
          (SessionM.act e compiler r.frame.document x positional (.ofSpellings pairs)) r.session :=
        SessionM.refuses_act given no fits fun owner element i same =>
          inPlace ⟨owner, element, i, same⟩
      exact ⟨failure, r, ScriptM.call_eq dispatches run, rejects, .inl rfl⟩

/-- A call of `changeSet` with an attribute that there is not fails in an open document because of
that, and changes nothing. -/
theorem refused_of_unaccepted_colour :
    ∃ problem cause, ScriptM.call (.ofScripts []) none
        (.giving "changeSet" [("colour", .null)]) openedBlock =
      (.error (.parse problem cause), openedBlock) := by
  have names : ScriptM.resolve (.ofScripts []) "changeSet" openedBlock =
      (.ok .element, openedBlock) := rfl
  have stands : openedBlock.frame.innermostBody.element? (.ofScripts []) "changeSet" =
      some .changeSet := rfl
  obtain ⟨-, refuses⟩ := refused_of_unaccepted (.ofScripts []) none
    (c := .giving "changeSet" [("colour", .null)]) names rfl rfl stands
    (show "colour" ∈ _ by decide) rfl
  obtain ⟨failure, r', run, ⟨problem, cause, rfl⟩ | ⟨v, mem, -⟩,
    rfl | ⟨_, _, _, _, _, _, _, other, -⟩⟩ := refuses (by decide)
  · exact ⟨problem, cause, run⟩
  · cases other
  · cases mem
  · cases mem

/-- A script that has opened a block for the constraints of a column. -/
def openColumn : Running :=
  (ScriptM.runNodes (.ofScripts []) none
    [.keep "log" { element := "databaseChangeLog" }, .enter "log",
      .keep "set" { element := "changeSet" }, .enter "set",
      .keep "table" { element := "createTable" }, .enter "table",
      .keep "key" { element := "column" }, .enter "key"]
    (.start "a.py" ⟨0⟩ (SessionM.newDocument { path := "a.py" } none
      { table := .ofRun none none none }).2)).2

/-- A call of `constraints` with an attribute that it accepts and one that it does not. -/
def refusedConstraints : Script.Call :=
  .giving "constraints" [("nullable", .bool false), ("colour", .int 1)]

/-- The call fails, but the constraint that stands before the one that is not accepted has been
set. -/
theorem nullable_of_refusedConstraints :
    (ScriptM.call (.ofScripts []) none refusedConstraints openColumn).1.toBool = false ∧
      ((openColumn.session.store.columns.get? ⟨0⟩).bind (·.constraints)).map
        (fun r => (r.get "nullable").isNull) = some true ∧
      (((ScriptM.call (.ofScripts []) none refusedConstraints openColumn).2.session.store.columns.get?
        ⟨0⟩).bind (·.constraints)).map (fun r => (r.get "nullable").isNull) = some false := by
  decide +kernel

end Migration
