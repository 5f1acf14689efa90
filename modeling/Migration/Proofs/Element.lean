import Migration.Proofs.Write

/-!
# What elements do

Elements work on what their block is about, and that came into the store after the script was
opened. So an element changes only what its script owns, and what it leaves behind refers to that
again.

* `Body.IsNew`, `Element.IsNew`, `Scope.IsNew` — what a block, an element or a result refers to came
  in between two stores
* `Body.Names`, `Body.names_of_element?` — the elements that stand in a block, and their names
* `Element.isNew_of_element?` — a block hands on only what it refers to itself
* `SessionM.writes_act` — most elements only write what they refer to
* `Element.Yields`, `SessionM.act_yields` — what an element that succeeds has added and leaves
  behind
* `SessionM.act_isNew` — that refers only to what came in
-/

namespace Migration

/-! ## References -/

variable {b s s' : Store}

namespace Body

/-- What a block is about came in between two stores. -/
def IsNew (b s : Store) : Body → Prop
  | script | changeLog | leaf .. => True
  | changeSet _ i | rollback _ i | modifySql _ i _ => b.Added s i
  | change _ _ i | whereParams _ _ i => b.Added s i
  | column _ _ i => b.Added s i
  | preconditions _ i => b.Added s i

theorem IsNew.mono (h : s.Grows s') {body : Body} (new : body.IsNew b s) : body.IsNew b s' := by
  cases body <;> first | trivial | exact Store.Added.mono h new

end Body

/-- What opening a result works on came in between two stores. -/
def Opening.IsNew (b s : Store) : Opening → Prop
  | .body inner => inner.IsNew b s
  | .constraints _ _ i => b.Added s i
  | .visitors _ i _ => b.Added s i

/-- What leaving a block works on came in between two stores. -/
def Completion.IsNew (b s : Store) : Completion → Prop
  | .nothing => True
  | .appendChangeSet i => b.Added s i
  | .setPreconditions i => b.Added s i
  | .setChangeSetPreconditions i c => b.Added s i ∧ b.Added s c

/-- What a result that can be opened works on came in between two stores. -/
structure Scope.IsNew (b s : Store) (x : Scope) : Prop where
  opening : x.opening.IsNew b s
  completion : x.completion.IsNew b s

/-- What an element leaves behind works only on what came in between two stores. -/
def Result.IsNew (b s : Store) : Result → Prop
  | .nothing | .object _ => True
  | .scope x => x.IsNew b s

theorem Opening.IsNew.mono (h : s.Grows s') {x : Opening} (new : x.IsNew b s) : x.IsNew b s' := by
  cases x with
  | body => exact Body.IsNew.mono h new
  | constraints => exact Store.Added.mono h new
  | visitors => exact Store.Added.mono h new

theorem Completion.IsNew.mono (h : s.Grows s') {x : Completion} (new : x.IsNew b s) :
    x.IsNew b s' := by
  cases x with
  | nothing => trivial
  | appendChangeSet => exact Store.Added.mono h new
  | setPreconditions => exact Store.Added.mono h new
  | setChangeSetPreconditions => exact ⟨new.1.mono h, new.2.mono h⟩

theorem Scope.IsNew.mono (h : s.Grows s') {x : Scope} (new : x.IsNew b s) : x.IsNew b s' where
  opening := new.opening.mono h
  completion := new.completion.mono h

/-! ## Names -/

/-- The elements that may stand in a block, by their names. -/
inductive Body.Names (e : Engine) : Body → String → Element → Prop
  | changeLog : Names e .script "databaseChangeLog" .changeLog
  | property : Names e .changeLog "property" .property
  | changeSet : Names e .changeLog "changeSet" .changeSet
  | «include» : Names e .changeLog "include" .include
  | includeAll : Names e .changeLog "includeAll" .includeAll
  | includeAllSql : Names e .changeLog "includeAllSql" .includeAllSql
  | containers : Names e .changeLog "preConditions" (.preconditions documentOwner none)
  | removeProperty : Names e .changeLog "removeChangeSetProperty" .removeProperty
  | comment (owner i) : Names e (.changeSet owner i) "comment" (.comment i)
  | checkSum (owner i) : Names e (.changeSet owner i) "validCheckSum" (.checkSum i)
  | checks (owner i) : Names e (.changeSet owner i) "preConditions" (.preconditions owner (some i))
  | rollback (owner i) : Names e (.changeSet owner i) "rollback" (.rollback owner i)
  | modifySql (owner i) : Names e (.changeSet owner i) "modifySql" (.modifySql owner i)
  | change (owner i name type) : Names e (.changeSet owner i) name (.change owner name type i false)
  | undo (owner i name type) : Names e (.rollback owner i) name (.change owner name type i true)
  | column (owner name i) : Names e (.change owner name i) "column" (.column owner name i)
  | whereClause (owner name i) : Names e (.change owner name i) "where" (.whereClause owner name i)
  | whereParams (owner name i) :
      Names e (.change owner name i) "whereParams" (.whereParams owner name i)
  | param (owner name i) : Names e (.whereParams owner name i) "param" (.param owner name i)
  | constraints (owner name i) :
      Names e (.column owner name i) "constraints" (.constraints owner name i)
  | constraint (owner name i key) :
      Names e (.column owner name i) key (.constraint owner name i key)
  | group (owner i name type) : Names e (.preconditions owner i) name (.group owner type i)
  | precondition (owner i name type) :
      Names e (.preconditions owner i) name (.precondition owner name type i)
  | visitor (owner i filter name type) :
      Names e (.modifySql owner i filter) name (.visitor owner type i filter)

/-- No other element stands in a block, and none by another name. -/
theorem Body.names_of_element? {e : Engine} {name : String} {body : Body} {x : Element}
    (h : body.element? e name = some x) : body.Names e name x := by
  cases body with
  | script =>
    simp only [element?] at h
    split at h <;> cases h
    obtain rfl := eq_of_beq ‹_›
    exact .changeLog
  | changeLog =>
    simp only [element?, changeLogElement?] at h
    split at h <;> cases h <;> constructor
  | changeSet owner i =>
    simp only [element?, changeSetElement?] at h
    split at h <;> first | cases h | obtain ⟨type, -, rfl⟩ := Option.map_eq_some_iff.1 h
    all_goals constructor
  | rollback owner i =>
    obtain ⟨type, -, rfl⟩ := Option.map_eq_some_iff.1 h
    exact .undo ..
  | change owner change i =>
    simp only [element?, changeElement?] at h
    split at h <;> cases h <;> constructor
  | whereParams owner change i =>
    simp only [element?] at h
    split at h <;> cases h
    obtain rfl := eq_of_beq ‹_›
    exact .param ..
  | column owner change i =>
    simp only [element?, columnElement?] at h
    split at h
    · cases h
      obtain rfl := eq_of_beq ‹_›
      exact .constraints ..
    · split at h <;> cases h
      exact .constraint ..
  | preconditions owner i =>
    simp only [element?, preconditionElement?] at h
    split at h
    · cases h
      exact .group ..
    · obtain ⟨type, -, rfl⟩ := Option.map_eq_some_iff.1 h
      exact .precondition ..
  | leaf => cases h
  | modifySql owner i filter =>
    obtain ⟨type, -, rfl⟩ := Option.map_eq_some_iff.1 h
    exact .visitor ..

/-- Outside of all blocks only a change log may stand. -/
theorem Body.eq_of_script {e : Engine} {name : String} {x : Element}
    (h : Body.script.element? e name = some x) : name = "databaseChangeLog" ∧ x = .changeLog := by
  cases names_of_element? h
  exact ⟨rfl, rfl⟩

namespace Element

/-- What an element works on came in between two stores. -/
def IsNew (b s : Store) : Element → Prop
  | changeLog | property | changeSet | «include» | includeAll | includeAllSql
  | preconditions _ none | removeProperty => True
  | preconditions _ (some i) | comment i | checkSum i | rollback _ i | modifySql _ i
  | change _ _ _ i _ | visitor _ _ i _ => b.Added s i
  | column _ _ i | whereClause _ _ i | whereParams _ _ i | param _ _ i => b.Added s i
  | constraints _ _ i | constraint _ _ i _ => b.Added s i
  | group _ _ i | precondition _ _ _ i => b.Added s i

/-- The element that a name stands for in a block works on what the block is about. -/
theorem isNew_of_element? {e : Engine} {name : String} {body : Body} {x : Element}
    (h : body.element? e name = some x) (new : body.IsNew b s) : x.IsNew b s := by
  cases Body.names_of_element? h with
  | changeLog | property | changeSet | «include» | includeAll | includeAllSql => trivial
  | containers | removeProperty => trivial
  | _ => exact new

/-- The elements by which their document gains something at once. -/
def contributes : Element → Bool
  | «include» | includeAll | includeAllSql | removeProperty => true
  | _ => false

end Element

/-- The elements that always leave something behind to be opened. -/
def Element.opens : Element → Bool
  | changeLog | changeSet | preconditions .. | modifySql .. | change .. | column .. => true
  | whereParams .. | group .. | precondition .. => true
  | _ => false

/-- What an element can leave behind where it has turned one store into another: what it opens is
about what it works on itself, or about what has come in. -/
inductive Element.Yields (s s' : Store) (positional : List Value) (a : Attributes) :
    Element → Result → Prop
  | changeLog : Yields s s' positional a .changeLog (.block "databaseChangeLog" (.body .changeLog))
  | changeSet {owner : String} (added : s.Added s' s.changeSets.next) :
      Yields s s' positional a .changeSet
        (.block "changeSet" (.body (.changeSet owner s.changeSets.next))
          (.appendChangeSet s.changeSets.next))
  | containers {owner : String} {i : PreconditionId} (added : s.Added s' i) :
      Yields s s' positional a (.preconditions owner none)
        (.block "preConditions" (.body (.preconditions owner i)) (.setPreconditions i))
  | checks {owner : String} {c : ChangeSetId} {i : PreconditionId} (added : s.Added s' i) :
      Yields s s' positional a (.preconditions owner (some c))
        (.block "preConditions" (.body (.preconditions owner i)) (.setChangeSetPreconditions c i))
  | rollback {owner : String} {i : ChangeSetId} (noStatement : positional = [])
      (noReference : a = []) :
      Yields s s' positional a (.rollback owner i) (.block "rollback" (.body (.rollback owner i)))
  | modifySql {owner : String} {i : ChangeSetId} :
      Yields s s' positional a (.modifySql owner i) (.block "modifySql" (.visitors owner i a))
  | change {owner name : String} {type : RecordType} {i : ChangeSetId} {undoes : Bool}
      {c : ChangeId} (added : s.Added s' c) :
      Yields s s' positional a (.change owner name type i undoes)
        (.handle (.body (.change owner name c)))
  | column {owner name : String} {i : ChangeId} {c : ColumnId} (added : s.Added s' c) :
      Yields s s' positional a (.column owner name i) (.handle (.constraints owner name c))
  | whereParams {owner name : String} {i : ChangeId} :
      Yields s s' positional a (.whereParams owner name i)
        (.block "whereParams" (.body (.whereParams owner name i)))
  | group {owner : String} {type : RecordType} {parent i : PreconditionId} (added : s.Added s' i) :
      Yields s s' positional a (.group owner type parent) (.handle (.body (.preconditions owner i)))
  | precondition {owner name : String} {type : RecordType} {parent : PreconditionId} :
      Yields s s' positional a (.precondition owner name type parent)
        (.handle (.body (.leaf owner name)))
  | nothing {x : Element} (closed : x.opens = false) : Yields s s' positional a x .nothing
  | object {x : Element} {type : String} (closed : x.opens = false) :
      Yields s s' positional a x (.object type)

namespace SessionM

open Session

variable {d : DocumentId}

/-! ## Reading files -/

variable {R : Session → Session → Prop} [AllowsNotes R]

@[grind ←] theorem keeps_setParameters (declaration : Parameter.Declaration)
    (entries : List (String × Value)) : Keeps R (setParameters declaration entries) := by
  induction entries with
  | nil => exact .pure _
  | cons entry rest ih =>
    refine Keeps.bind (keeps_ofMishap _) fun p => ?_
    exact Keeps.bind (fun _ => AllowsNotes.of_same rfl rfl) fun _ => ih

@[grind ←] theorem keeps_propertiesOf (e : Engine) (a : Attributes) :
    Keeps R (propertiesOf e d a) := by
  unfold propertiesOf
  refine Keeps.bind (keeps_expandPath _ _ _ _) fun path => ?_
  refine Keeps.bind (keeps_startingPath _ _) fun relativeTo => ?_
  grind

@[grind ←] theorem keeps_property (e : Engine) (a : Attributes) :
    Keeps R (property e d a) := by
  unfold property
  refine Keeps.bind (keeps_ofCheck _) fun _ => ?_
  refine Keeps.bind (keeps_expand _ _) fun _ => ?_
  refine Keeps.bind (keeps_expand _ _) fun _ => ?_
  refine Keeps.bind (keeps_expand _ _) fun _ => ?_
  grind

@[grind ←] theorem keeps_listing (e : Engine) (relativeTo : Option String) (path element : String)
    (required : Bool) : Keeps R (listing e relativeTo path element required) := by
  grind [listing]

@[grind ←] theorem keeps_discover (e : Engine) (a : Attributes) (element : String) :
    Keeps R (discover e d a element) := by
  unfold discover
  refine Keeps.bind (keeps_expandPath _ _ _ _) fun _ => ?_
  refine Keeps.bind (keeps_expandDepth _ _ _ _) fun _ => ?_
  refine Keeps.bind (keeps_expandDepth _ _ _ _) fun _ => ?_
  refine Keeps.bind (keeps_expand _ _) fun _ => ?_
  refine Keeps.bind (keeps_namedFilter _ _ _) fun _ => ?_
  refine Keeps.bind (keeps_namedComparator _ _ _) fun _ => ?_
  refine Keeps.bind (keeps_startingPath _ _) fun _ => ?_
  refine Keeps.bind (keeps_listing _ _ _ _ _) fun _ => ?_
  grind

@[grind ←] theorem keeps_readIncludeAll (e : Engine) (a : Attributes) :
    Keeps R (readIncludeAll e d a) := by
  grind [readIncludeAll]

@[grind ←] theorem keeps_readIncludeAllSql (e : Engine) (a : Attributes) :
    Keeps R (readIncludeAllSql e d a) := by
  grind [readIncludeAllSql]

/-! ## Elements that work on what they refer to -/

theorem writes_setLogicalPath (a : Attributes) : Keeps (Writes b d) (setLogicalPath d a) := by
  refine Keeps.bind (keeps_document _) fun doc => Keeps.ite ?_ (.pure _)
  refine Keeps.bind (keeps_expand _ _) fun v s => ?_
  exact .one (.modifyDocument fun _ => .of_same rfl rfl rfl rfl rfl rfl)

theorem writes_setContexts (a : Attributes) : Keeps (Writes b d) (setContexts d a) := by
  refine Keeps.bind (keeps_contextFilter _ _) fun contexts => ?_
  cases contexts with
  | none => exact .pure _
  | some contexts => exact fun s => .one (.modifyDocument fun _ => .of_same rfl rfl rfl rfl rfl rfl)

theorem writes_setQuotingStrategy (a : Attributes) :
    Keeps (Writes b d) (setQuotingStrategy d a) := by
  refine Keeps.ite ?_ (.pure _)
  refine Keeps.bind (keeps_expand _ _) fun v => Keeps.bind (keeps_choice _ _ _) fun c s => ?_
  exact .one (.modifyDocument fun _ => .of_same rfl rfl rfl rfl rfl rfl)

theorem writes_changeLog (a : Attributes) : Keeps (Writes b d) (changeLog d a) := by
  refine Keeps.bind (keeps_ofCheck _) fun _ => ?_
  refine Keeps.bind (writes_setLogicalPath a) fun _ => ?_
  exact Keeps.bind (writes_setContexts a) fun _ => writes_setQuotingStrategy a

theorem writes_newContainer (owner : String) (a : Attributes) :
    Keeps (Writes b d) (newContainer d owner a) :=
  Keeps.bind (keeps_fill _ _ _ _ _) fun record _ => .one (.addPrecondition record)

theorem writes_changeSet (a : Attributes) : Keeps (Writes b d) (changeSet d a) := by
  refine fun s => Keeps.run_bind_of_ok (keeps_newChangeSet d a s) fun c s₁ makes => ?_
  exact Keeps.run_bind (.one (.addChangeSet (gives_newChangeSet d a s c s₁ makes))) fun _ => .pure _

/-- A change set may get changes that are there as its rollback. -/
theorem writes_addRollback {i : ChangeSetId} (owned : ¬b.Has i) {changes : List ChangeId}
    {s : Session} (known : ∀ j ∈ changes, s.store.Offers j) :
    Writes b d s (addRollback i changes s).2 :=
  .one (.modifyChangeSet owned (fun _ => rfl) (fun _ => rfl) (fun _ _ hj => .inl hj)
    fun _ j hj => (List.mem_append.1 hj).imp_right (known j))

theorem writes_attachChange {i : ChangeSetId} (owned : ¬b.Has i) (undoes : Bool) {c : ChangeId}
    {s : Session} (known : s.store.Has c) : Writes b d s (attachChange i undoes c s).2 := by
  have offered : ∀ j ∈ [c], s.store.Offers j := fun j hj => .inl (List.mem_singleton.1 hj ▸ known)
  unfold attachChange
  split
  · exact writes_addRollback owned offered
  · exact .one (.modifyChangeSet owned (fun _ => rfl) (fun _ => rfl)
      (fun _ j hj => (List.mem_append.1 hj).imp_right (offered j)) fun _ _ hj => .inl hj)

/-- A change that has been put into the store may be put to use. -/
theorem writes_addChange {α : Type} {c : DraftChange} (columns : c.columns = [])
    {f : ChangeId → SessionM α} (hf : ∀ i s, s.store.Has i → Writes b d s (f i s).2) :
    Keeps (Writes b d) (addChange c >>= f) := by
  refine fun s => Keeps.run_bind_of_ok (.one (.addChange columns)) fun i s₁ adds => ?_
  cases adds
  refine hf _ _ ?_
  show s.store.changes.size < (s.store.changes.add c).size
  rw [Pool.size_add]
  exact Nat.lt_succ_self _

theorem writes_rollbackBySql {i : ChangeSetId} (owned : ¬b.Has i) (sql : Value) :
    Keeps (Writes b d) (rollbackBySql d i sql) := by
  refine Keeps.bind (keeps_expand _ _) fun v => Keeps.ite (Keeps.bind (.throw _) fun _ => ?_) ?_
  all_goals
    refine writes_addChange rfl fun j s known => writes_addRollback owned fun k hk => .inl ?_
    exact List.mem_singleton.1 hk ▸ known

theorem writes_rollbackByReference {i : ChangeSetId} (owned : ¬b.Has i) (owner : String)
    (a : Attributes) : Keeps (Writes b d) (rollbackByReference d owner i a) := by
  refine Keeps.bind (keeps_ofCheck _) fun _ => Keeps.bind (keeps_expand _ _) fun id => ?_
  refine Keeps.ite (Keeps.bind (keeps_reject _ _) fun _ => ?_) ?_
  all_goals
    refine Keeps.bind (keeps_expand _ _) fun author => Keeps.bind (keeps_expand _ _) fun path s => ?_
    refine Keeps.run_bind_of_ok (Keeps.get s) fun _ _ reads => ?_
    cases reads
    dsimp only
    cases finds : (s.store.find? d path author id).bind s.store.changeSets.get? with
    | none => exact refl_of (Writes b d) s
    | some found =>
      obtain ⟨k, -, there⟩ := Option.bind_eq_some_iff.1 finds
      exact writes_addRollback owned fun j hj => .inr ⟨k, found, there, hj⟩

theorem writes_rollback {i : ChangeSetId} (owned : ¬b.Has i) (owner : String)
    (positional : List Value) (a : Attributes) :
    Keeps (Writes b d) (rollback d owner i positional a) := by
  have := writes_rollbackByReference (d := d) owned owner a
  have := writes_rollbackBySql (d := d) owned
  cases positional <;> grind [rollback]

theorem writes_newChange {i : ChangeSetId} (owned : ¬b.Has i) (owner name : String)
    (type : RecordType) (undoes : Bool) (positional : List Value) (a : Attributes) :
    Keeps (Writes b d) (newChange d owner name type i undoes positional a) := by
  refine Keeps.bind (keeps_newRecord _ _ _ _ _ _ _) fun record =>
    writes_addChange rfl fun c s known => ?_
  exact Keeps.run_bind (writes_attachChange owned undoes known) fun _ => .pure _

theorem writes_visitor {i : ChangeSetId} (owned : ¬b.Has i) (owner : String) (type : RecordType)
    (filter : VisitorFilter) (a : Attributes) :
    Keeps (Writes b d) (visitor d owner type i filter a) :=
  Keeps.bind (keeps_fill _ _ _ _ _) fun _ _ =>
    .one (.modifyChangeSet owned (fun _ => rfl) (fun _ => rfl) (fun _ _ hj => .inl hj)
      fun _ _ hj => .inl hj)

theorem writes_column {i : ChangeId} (owned : ¬b.Has i) (owner name : String) (a : Attributes) :
    Keeps (Writes b d) (column d owner name i a) := by
  refine Keeps.bind (keeps_change _) fun old => Keeps.bind (keeps_fill _ _ _ _ _) fun record => ?_
  refine Keeps.ite (Keeps.bind (keeps_reject _ _) fun _ => ?_) ?_
  all_goals
    refine fun s => Keeps.run_bind_of_ok (.one (.addColumn _)) fun j s₁ adds => ?_
    cases adds
    refine Keeps.run_bind (.one (.modifyChange owned fun c k hk => ?_)) fun _ => .pure _
    refine (List.mem_append.1 hk).imp_right fun hk => ?_
    obtain rfl := List.mem_singleton.1 hk
    show s.store.columns.size < (s.store.columns.add _).size
    rw [Pool.size_add]
    exact Nat.lt_succ_self _

theorem writes_whereClause {i : ChangeId} (owned : ¬b.Has i) (owner name : String) (v : Value) :
    Keeps (Writes b d) (whereClause d owner name i v) := by
  refine Keeps.bind (keeps_change _) fun c => Keeps.ite (Keeps.bind (keeps_reject _ _) fun _ => ?_) ?_
  all_goals
    refine Keeps.bind (keeps_expand _ _) fun v => ?_
    cases c.record.bind "where" v with
    | ok record => exact fun s => .one (.modifyChange owned fun _ _ hj => .inl hj)
    | error cause => exact keeps_reject _ _

theorem writes_param {i : ChangeId} (owned : ¬b.Has i) (owner name : String) (a : Attributes) :
    Keeps (Writes b d) (param d owner name i a) := by
  refine Keeps.bind (keeps_fill _ _ _ _ _) fun record => Keeps.bind (keeps_change _) fun c => ?_
  refine Keeps.ite (Keeps.bind (keeps_reject _ _) fun _ => ?_) ?_
  all_goals exact fun s => .one (.modifyChange owned fun _ _ hj => .inl hj)

theorem writes_constraints {i : ColumnId} (owned : ¬b.Has i) (owner name : String)
    (a : Attributes) : Keeps (Writes b d) (constraints d owner name i a) := by
  have set : ∀ f, Keeps (Writes b d) (modifyColumn i f) :=
    fun f s => .one (.modifyColumn owned f)
  induction a with
  | nil => grind [constraints]
  | cons entry rest ih => grind [constraints]

/-- An element that does not contribute to its document only writes what it works on. -/
theorem writes_act {e : Engine} {compiler : Compiler} {x : Element} {positional : List Value}
    {a : Attributes} {s s' : Session} {result : Except Failure Result} (new : x.IsNew b s.store)
    (local_ : x.contributes = false) (acts : act e compiler d x positional a s = (result, s')) :
    Writes b d s s' := by
  suffices Writes b d s (act e compiler d x positional a s).2 by rwa [acts] at this
  cases x with
  | changeLog => exact Keeps.run_bind (writes_changeLog a s) fun _ => .pure _
  | property => exact Keeps.run_bind (keeps_property e a s) fun _ => .pure _
  | changeSet => exact writes_changeSet a s
  | «include» => cases local_
  | includeAll => cases local_
  | includeAllSql => cases local_
  | preconditions owner i => exact Keeps.run_bind (writes_newContainer owner a s) fun _ => .pure _
  | removeProperty => cases local_
  | comment i | checkSum i =>
    refine Keeps.run_bind (keeps_expand _ _ s) fun v => Keeps.bind (fun _ => ?_) fun _ => .pure _
    exact .one (.modifyChangeSet new.1 (fun _ => rfl) (fun _ => rfl) (fun _ _ hj => .inl hj)
      fun _ _ hj => .inl hj)
  | rollback owner i => exact writes_rollback new.1 owner positional a s
  | modifySql owner i => exact Keeps.run_bind (keeps_ofCheck _ s) fun _ => .pure _
  | change owner name type i undoes =>
    exact writes_newChange new.1 owner name type undoes positional a s
  | column owner name i =>
    exact Keeps.run_bind (writes_column new.1 owner name a s) fun _ => .pure _
  | whereClause owner name i =>
    exact Keeps.run_bind (writes_whereClause new.1 _ _ _ s) fun _ => .pure _
  | whereParams owner name i => exact refl_of (Writes b d) s
  | param owner name i => exact Keeps.run_bind (writes_param new.1 _ _ _ s) fun _ => .pure _
  | constraints owner name i =>
    exact Keeps.run_bind (writes_constraints new.1 _ _ _ s) fun _ => .pure _
  | constraint owner name i key =>
    exact Keeps.run_bind (writes_constraints new.1 _ _ _ s) fun _ => .pure _
  | group owner type parent => exact Keeps.run_bind (.one (.nest new _)) fun _ => .pure _
  | precondition owner name type parent =>
    refine Keeps.run_bind_of_ok (keeps_newRecord _ _ _ _ _ _ _ s) fun record s₁ reads => ?_
    obtain rfl : s = s₁ := (keeps_newRecord _ _ _ _ _ _ _).of_run (R := (· = ·)) reads
    exact Keeps.run_bind (.one (.nest new _)) fun _ => .pure _
  | visitor owner type i filter =>
    exact Keeps.run_bind (writes_visitor new.1 _ _ _ _ s) fun _ => .pure _

/-- So it changes only what its script owns, and its document gains nothing. -/
theorem quiet_act {e : Engine} {compiler : Compiler} {x : Element} {positional : List Value}
    {a : Attributes} {s s' : Session} {result : Except Failure Result} (owned : ¬b.Has d)
    (new : x.IsNew b s.store) (local_ : x.contributes = false)
    (acts : act e compiler d x positional a s = (result, s')) : Quiet b d s s' :=
  (writes_act new local_ acts).quiet owned

/-! ## What elements leave behind -/

theorem added_of_addChange {s s' : Session} {c : DraftChange} {i : ChangeId}
    (base : b.Grows s.store) (h : addChange c s = (.ok i, s')) : b.Added s'.store i := by
  cases h
  exact Store.added_next base (.change) (Pool.size_add ..)

theorem added_of_addChangeSet {s s' : Session} {c : DraftChangeSet} {i : ChangeSetId}
    (base : b.Grows s.store) (h : addChangeSet c s = (.ok i, s')) : b.Added s'.store i := by
  cases h
  exact Store.added_next base (.changeSet) (Pool.size_add ..)

theorem added_of_addPrecondition {s s' : Session} {p : DraftPrecondition} {i : PreconditionId}
    (base : b.Grows s.store) (h : addPrecondition p s = (.ok i, s')) : b.Added s'.store i := by
  cases h
  exact Store.added_next base (.precondition) (Pool.size_add ..)

theorem added_of_nest {s s' : Session} {parent i : PreconditionId} {r : Record}
    (base : b.Grows s.store) (h : nest parent r s = (.ok i, s')) : b.Added s'.store i := by
  cases h
  exact Store.added_next base .precondition ((Pool.size_modify ..).trans (Pool.size_add ..))

theorem added_of_column {s s' : Session} {owner name : String} {i : ChangeId} {a : Attributes}
    {c : ColumnId} (h : column d owner name i a s = (.ok c, s')) : s.store.Added s'.store c := by
  obtain ⟨old, -, h⟩ := (keeps_change i).bind_eq_ok.1 h
  obtain ⟨record, -, h⟩ := (keeps_fill d owner _ _ a).bind_eq_ok.1 h
  simp only at h
  split at h
  · obtain ⟨_, s₃, h, -⟩ := Step.bind_eq_ok.1 h
    cases h
  · cases h
    exact Store.added_next (.refl _) .column (Pool.size_add ..)

theorem grows_attachChange (i : ChangeSetId) (undoes : Bool) (c : ChangeId) :
    Keeps Session.Grows (attachChange i undoes c) :=
  Keeps.ite (grows_modifyChangeSet _ _) (grows_modifyChangeSet _ _)

section

variable {s s' : Session} {positional : List Value} {a : Attributes} {r : Result}

theorem changeSet_yields (h : changeSet d a s = (.ok r, s')) :
    Element.changeSet.Yields s.store s'.store positional a r := by
  obtain ⟨c, -, h⟩ := (keeps_newChangeSet d a).bind_eq_ok.1 h
  obtain ⟨i, s₁, adds, h⟩ := Step.bind_eq_ok.1 h
  cases h
  have added := added_of_addChangeSet (.refl _) adds
  cases adds
  exact .changeSet added

theorem preconditions_yields {owner : String} {checked : Option ChangeSetId}
    (h : preconditions d owner checked a s = (.ok r, s')) :
    (Element.preconditions owner checked).Yields s.store s'.store positional a r := by
  obtain ⟨i, s₁, makes, h⟩ := Step.bind_eq_ok.1 h
  obtain ⟨record, -, adds⟩ := (keeps_fill d owner _ _ a).bind_eq_ok.1 makes
  cases h
  have added := added_of_addPrecondition (.refl _) adds
  cases checked with
  | none => exact .containers added
  | some c => exact .checks added

/-- Only a rollback without anything to undo can be opened as a block. -/
theorem rollback_yields {owner : String} {i : ChangeSetId}
    (h : rollback d owner i positional a s = (.ok r, s')) :
    (Element.rollback owner i).Yields s.store s'.store positional a r := by
  simp only [rollback] at h
  cases positional with
  | cons sql more =>
    dsimp only at h
    split at h
    · obtain ⟨_, s₁, rejects, -⟩ := Step.bind_eq_ok.1 h
      cases rejects
    · obtain ⟨-, s₁, -, h⟩ := Step.bind_eq_ok.1 h
      cases h
      exact .nothing rfl
  | nil =>
    dsimp only at h
    split at h
    next empty =>
      cases h
      exact .rollback rfl (List.isEmpty_iff.1 empty)
    next =>
      obtain ⟨-, s₁, -, h⟩ := Step.bind_eq_ok.1 h
      cases h
      exact .nothing rfl

theorem newChange_yields {owner name : String} {type : RecordType} {i : ChangeSetId} {undoes : Bool}
    (h : newChange d owner name type i undoes positional a s = (.ok r, s')) :
    (Element.change owner name type i undoes).Yields s.store s'.store positional a r := by
  obtain ⟨record, -, h⟩ := (keeps_newRecord d owner name _ type positional a).bind_eq_ok.1 h
  obtain ⟨c, s₁, adds, h⟩ := Step.bind_eq_ok.1 h
  obtain ⟨_, s₂, attaches, h⟩ := Step.bind_eq_ok.1 h
  cases h
  have added := added_of_addChange (.refl _) adds
  exact .change (added.mono ((grows_attachChange i undoes c).of_run attaches))

/-- All that is known of what an element leaves behind is how the element came to it. -/
theorem act_yields {e : Engine} {compiler : Compiler} {x : Element}
    (h : act e compiler d x positional a s = (.ok r, s')) :
    x.Yields s.store s'.store positional a r := by
  cases x with
  | changeSet => exact changeSet_yields h
  | preconditions owner checked => exact preconditions_yields h
  | rollback owner i => exact rollback_yields h
  | change owner name type i undoes => exact newChange_yields h
  | column owner name i =>
    obtain ⟨c, s₁, adds, h⟩ := Step.bind_eq_ok.1 h
    cases h
    exact .column (added_of_column adds)
  | group owner type parent =>
    obtain ⟨i, s₁, adds, h⟩ := Step.bind_eq_ok.1 h
    cases h
    exact .group (added_of_nest (.refl _) adds)
  | precondition owner name type parent =>
    obtain ⟨record, s₁, -, h⟩ := Step.bind_eq_ok.1 h
    obtain ⟨-, s₂, -, h⟩ := Step.bind_eq_ok.1 h
    cases h
    exact .precondition
  | whereParams owner name i =>
    cases h
    exact .whereParams
  | changeLog =>
    obtain ⟨-, s₁, -, h⟩ := Step.bind_eq_ok.1 h
    cases h
    exact .changeLog
  | modifySql owner i =>
    obtain ⟨-, s₁, -, h⟩ := Step.bind_eq_ok.1 h
    cases h
    exact .modifySql
  | comment i | checkSum i =>
    obtain ⟨v, s₁, -, h⟩ := Step.bind_eq_ok.1 h
    obtain ⟨-, s₂, -, h⟩ := Step.bind_eq_ok.1 h
    cases h
    exact .nothing rfl
  | param | visitor =>
    obtain ⟨-, s₁, -, h⟩ := Step.bind_eq_ok.1 h
    cases h
    exact .object rfl
  | _ =>
    obtain ⟨-, s₁, -, h⟩ := Step.bind_eq_ok.1 h
    cases h
    exact .nothing rfl

end

/-- Nothing that an element leaves behind works on what its script does not own. -/
theorem act_isNew {e : Engine} {compiler : Compiler} {x : Element} {positional : List Value}
    {a : Attributes} {s s' : Session} {r : Result} (base : b.Grows s.store)
    (new : x.IsNew b s.store) (h : act e compiler d x positional a s = (.ok r, s')) :
    r.IsNew b s'.store := by
  -- what the element works on is still new after it, since an element that opens a block only
  -- writes
  have grows : x.contributes = false → s.store.Grows s'.store := fun local_ =>
    (writes_act new local_ h).grows
  cases act_yields h with
  | changeLog | precondition => exact ⟨trivial, trivial⟩
  | changeSet added | containers added => exact ⟨added.of_grows base, added.of_grows base⟩
  | checks added => exact ⟨added.of_grows base, new.mono (grows rfl), added.of_grows base⟩
  | rollback | modifySql | whereParams => exact ⟨new.mono (grows rfl), trivial⟩
  | change added | column added | group added => exact ⟨added.of_grows base, trivial⟩
  | nothing | object => trivial

end SessionM

/-! ## Blocks in blocks -/

/-- A block is about a part of a document, not about a whole one. -/
def Body.IsInner : Body → Prop
  | script | changeLog => False
  | _ => True

/-- A result is opened as a block about a part of a document. -/
def Opening.IsInner : Opening → Prop
  | .body inner => inner.IsInner
  | .constraints .. | .visitors .. => True

/-- The results that an element can leave behind to be opened as a block. -/
inductive Element.Leaves (x : Element) (y : Scope) : Prop
  | changeLog (element : x = .changeLog) (opening : y.opening = .body .changeLog)
      (completion : y.completion = .nothing)
  | changeSet {owner i} (element : x = .changeSet)
      (opening : y.opening = .body (.changeSet owner i))
      (completion : y.completion = .appendChangeSet i)
  | preconditions {owner i} (element : x = .preconditions owner none)
      (opening : y.opening = .body (.preconditions owner i))
      (completion : y.completion = .setPreconditions i)
  | changeSetPreconditions {owner c i} (element : x = .preconditions owner (some c))
      (opening : y.opening = .body (.preconditions owner i))
      (completion : y.completion = .setChangeSetPreconditions c i)
  | part (element : x ≠ .changeLog ∧ x ≠ .changeSet) (opening : y.opening.IsInner)
      (completion : y.completion = .nothing)

namespace SessionM

/-- An element leaves behind what it can. -/
theorem act_leaves {d : DocumentId} {e : Engine} {compiler : Compiler} {x : Element}
    {positional : List Value} {a : Attributes} {s s' : Session} {y : Scope}
    (h : act e compiler d x positional a s = (.ok (.scope y), s')) : x.Leaves y := by
  cases act_yields h with
  | changeLog => exact .changeLog rfl rfl rfl
  | changeSet => exact .changeSet rfl rfl rfl
  | containers => exact .preconditions rfl rfl rfl
  | checks => exact .changeSetPreconditions rfl rfl rfl
  | _ => exact .part ⟨nofun, nofun⟩ trivial rfl

/-- An element that contributes to its document leaves nothing behind to be opened. -/
theorem not_contributes_of_leaves {d : DocumentId} {e : Engine} {compiler : Compiler} {x : Element}
    {positional : List Value} {a : Attributes} {s s' : Session} {y : Scope}
    (h : act e compiler d x positional a s = (.ok (.scope y), s')) : x.contributes = false := by
  cases act_yields h <;> rfl

/-- What a change set leaves behind must be opened, and the next change set of the store comes into
the document where its block is left. -/
theorem changeSet_leaves {d : DocumentId} {e : Engine} {compiler : Compiler}
    {positional : List Value} {a : Attributes} {s s' : Session} {r : Result}
    (h : act e compiler d .changeSet positional a s = (.ok r, s')) :
    ∃ y, r = .scope y ∧ y.completion = .appendChangeSet s.store.changeSets.next ∧
      y.required.isSome ∧ s.store.Added s'.store s.store.changeSets.next := by
  cases act_yields h with
  | changeSet added => exact ⟨_, rfl, rfl, rfl, added⟩
  | nothing closed | object closed => cases closed

/-- What comes into the document where a block is left has come into the store by the element, and
its block must be opened. -/
theorem appends_of_act {d : DocumentId} {e : Engine} {compiler : Compiler} {x : Element}
    {positional : List Value} {a : Attributes} {s s' : Session} {y : Scope} {made : ChangeSetId}
    (h : act e compiler d x positional a s = (.ok (.scope y), s'))
    (completion : y.completion = .appendChangeSet made) :
    y.required.isSome ∧ s.store.Added s'.store made := by
  cases act_yields h with
  | changeSet added =>
    cases completion
    exact ⟨rfl, added⟩
  | _ => cases completion

end SessionM

/-- In a block about a part of a document no element contributes to the document, and none stands
for a change log or a change set. -/
theorem Body.element?_of_inner {e : Engine} {name : String} {body : Body} {x : Element}
    (h : body.element? e name = some x) (inner : body.IsInner) :
    x.contributes = false ∧ x ≠ .changeLog ∧ x ≠ .changeSet := by
  cases names_of_element? h with
  | changeLog | property | changeSet | «include» | includeAll | includeAllSql => cases inner
  | containers | removeProperty => cases inner
  | _ => exact ⟨rfl, nofun, nofun⟩

end Migration
