import Migration.Proofs.Contribution
import Migration.Proofs.Relocation.Places

/-!
# Reading in two sessions

Steps that only read give the same in two sessions that hold the same things at other places: they
look up parameters, and what they see of a document are its texts. A document that came in later
does not see the parameters of any other document, so it does not matter where it is.

* `Agrees` — two steps give the same and lead to states that are related again
* `ScriptM.eval_agrees` — an expression comes to the same where names stand for the same
* `Relocation.find?_place` — a parameter is found in both sessions or in neither
* `SessionM.fill_agrees`, `SessionM.readIncludeAll_agrees` — what attributes say in both sessions
-/

namespace Migration

variable {σ α β : Type}

/-- Two steps that give the same from states that are related, and lead to states that are
related. -/
def Agrees (P : σ → σ → Prop) (x y : ExceptT Failure (StateM σ) α) : Prop :=
  ∀ ⦃s t⦄, P s t → (y t).1 = (x s).1 ∧ P (x s).2 (y t).2

namespace Agrees

variable {P : σ → σ → Prop}

@[grind ←] theorem pure (a : α) :
    Agrees P (Pure.pure a : ExceptT Failure (StateM σ) α) (Pure.pure a) :=
  fun _ _ h => ⟨rfl, h⟩

@[grind ←] theorem throw (e : Failure) :
    Agrees P (MonadExcept.throw e : ExceptT Failure (StateM σ) α) (MonadExcept.throw e) :=
  fun _ _ h => ⟨rfl, h⟩

/-- What would follow a failure does not matter. -/
theorem throw_bind (e : Failure) (f g : α → ExceptT Failure (StateM σ) β) :
    Agrees P (MonadExcept.throw e >>= f) (MonadExcept.throw e >>= g) :=
  fun _ _ h => ⟨rfl, h⟩

/-- What follows steps that have given the same goes on to give the same. -/
theorem bind_of_run {x y : ExceptT Failure (StateM σ) α} {f g : α → ExceptT Failure (StateM σ) β}
    {s t : σ} (hx : (y t).1 = (x s).1 ∧ P (x s).2 (y t).2) (hf : ∀ a, Agrees P (f a) (g a)) :
    ((y >>= g) t).1 = ((x >>= f) s).1 ∧ P ((x >>= f) s).2 ((y >>= g) t).2 := by
  obtain ⟨same, related⟩ := hx
  rw [Step.run_bind, Step.run_bind]
  rcases hxs : x s with ⟨_ | a, s'⟩
  all_goals
    rcases hyt : y t with ⟨_ | b, t'⟩
    all_goals
      rw [hxs, hyt] at same related
      cases same
  · exact ⟨rfl, related⟩
  · exact hf a related

@[grind ←] theorem bind {x y : ExceptT Failure (StateM σ) α}
    {f g : α → ExceptT Failure (StateM σ) β} (hx : Agrees P x y) (hf : ∀ a, Agrees P (f a) (g a)) :
    Agrees P (x >>= f) (y >>= g) :=
  fun _ _ h => bind_of_run (hx h) hf

@[grind ←] theorem map {x y : ExceptT Failure (StateM σ) α} (f : α → β) (hx : Agrees P x y) :
    Agrees P (f <$> x) (f <$> y) := by
  rw [map_eq_pure_bind, map_eq_pure_bind]
  exact bind hx fun a => pure _

theorem ite {c : Prop} [Decidable c] {x x' y y' : ExceptT Failure (StateM σ) α} (hx : Agrees P x y)
    (hx' : Agrees P x' y') : Agrees P (if c then x else x') (if c then y else y') := by
  split <;> assumption

end Agrees

/-! ## Expressions -/

namespace ScriptM

variable {P : Running → Running → Prop} {e : Engine}

theorem frame_bind_agrees {f g : Frame → ScriptM α}
    (h : ∀ r u, P r u → Agrees P (f r.frame) (g u.frame)) : Agrees P (frame >>= f) (frame >>= g) :=
  fun r u related => h r u related related

/-- Names stand for the same in states that are related. -/
structure NamesAgree (P : Running → Running → Prop) (e : Engine) : Prop where
  defined : ∀ r u, P r u → ∀ name, defined? e u.frame name = defined? e r.frame name
  found : ∀ r u, P r u → ∀ name, u.session.table.find? name (some u.frame.document) =
    r.session.table.find? name (some r.frame.document)
  typeName : ∀ r u, P r u → ∀ result : Outcome,
    result.typeName u.frame.scopes = result.typeName r.frame.scopes

theorem NamesAgree.resolve (names : NamesAgree P e) (name : String) :
    Agrees P (resolve e name) (resolve e name) := by
  intro r u h
  rw [resolve_eq, resolve_eq, names.defined r u h, names.found r u h]
  exact ⟨rfl, h⟩

theorem NamesAgree.function? (names : NamesAgree P e) {r u : Running} (h : P r u) (name : String) :
    function? e u.frame name = function? e r.frame name := by
  unfold ScriptM.function?
  rw [names.defined r u h]

/-- A kept result is the same value if its type has the same name. -/
theorem toValue_congr {l : Script.Language} {scopes scopes' : Array Scope} {result : Outcome}
    (type : result.typeName scopes' = result.typeName scopes) (name : String) :
    result.toValue l scopes' name = result.toValue l scopes name := by
  cases result with
  | nothing => rfl
  | value v => rfl
  | object type => rfl
  | scope i =>
    show Value.object (l.object _ name) = Value.object (l.object _ name)
    rw [type]

theorem valueOf_agrees (names : NamesAgree P e) (name : String) :
    Agrees P (valueOf e name) (valueOf e name) := by
  refine .bind (names.resolve name) fun binding => ?_
  cases binding with
  | kept result =>
    refine frame_bind_agrees fun r u h => ?_
    rw [toValue_congr (names.typeName r u h result)]
    exact .pure _
  | nothing => exact .throw _
  | _ => exact .pure _

mutual

theorem eval_agrees (names : NamesAgree P e) (x : Script.Expr) :
    Agrees P (eval e x) (eval e x) := by
  cases x with
  | literal v => exact .pure _
  | name n => exact valueOf_agrees names n
  | list items => exact .bind (evalItems_agrees names items) fun values => .pure _
  | map entries =>
    refine .bind (evalEntries_agrees names entries) fun entries => .bind ?_ fun _ => .pure _
    cases entries.foldlM putEntry [] with
    | ok entries => exact Agrees.pure (P := P) entries
    | error mishap => exact Agrees.throw (P := P) (.mishap mishap)

theorem evalItems_agrees (names : NamesAgree P e) (items : List Script.Expr) :
    Agrees P (evalItems e items) (evalItems e items) := by
  cases items with
  | nil => exact .pure _
  | cons x rest =>
    exact .bind (eval_agrees names x) fun _ =>
      .bind (evalItems_agrees names rest) fun _ => .pure _

theorem evalEntries_agrees (names : NamesAgree P e)
    (entries : List (Script.Expr × Script.Expr)) :
    Agrees P (evalEntries e entries) (evalEntries e entries) := by
  cases entries with
  | nil => exact .pure _
  | cons entry rest =>
    exact .bind (evalEntry_agrees names entry) fun _ =>
      .bind (evalEntries_agrees names rest) fun _ => .pure _

theorem evalEntry_agrees (names : NamesAgree P e)
    (entry : Script.Expr × Script.Expr) :
    Agrees P (evalEntry e entry) (evalEntry e entry) := by
  obtain ⟨key, x⟩ := entry
  exact .bind (eval_agrees names key) fun _ => .bind (eval_agrees names x) fun _ => .pure _

end

theorem evalAttributes_agrees (names : NamesAgree P e)
    (a : List (String × Script.Expr)) :
    Agrees P (evalAttributes e a) (evalAttributes e a) := by
  induction a with
  | nil => exact .pure _
  | cons entry rest ih =>
    exact .bind (eval_agrees names entry.2) fun _ => .bind ih fun _ => .pure _

/-- A function of the language gives the same for the same arguments. -/
theorem callFunction_agrees (names : NamesAgree P e) (f : Script.Builtin.Function)
    (c : Script.Call) :
    Agrees P (callFunction e f c) (callFunction e f c) := by
  refine .bind (evalItems_agrees names _) fun positional =>
    .bind (evalAttributes_agrees names _) fun pairs => ?_
  cases f positional pairs with
  | ok v => exact Agrees.pure (P := P) (Outcome.value v)
  | error x => exact Agrees.throw (P := P) _

/-- A name stands for the same result, or for none and then for what is of the same type. -/
theorem keptScope_agrees (names : NamesAgree P e) (name : String) (mishap : String → Mishap) :
    Agrees P (keptScope e name mishap) (keptScope e name mishap) := by
  refine .bind (names.resolve name) fun binding => ?_
  have refused : ∀ result : Outcome,
      Agrees P (frame >>= fun f => (throw (.mishap (mishap (result.typeName f.scopes))) :
        ScriptM ScopeId)) (frame >>= fun f =>
          throw (.mishap (mishap (result.typeName f.scopes)))) :=
    fun result => frame_bind_agrees fun r u h => by
      rw [names.typeName r u h]
      exact .throw _
  cases binding with
  | kept result =>
    cases result with
    | scope i => exact .pure i
    | _ => exact refused _
  | value v => exact .throw _
  | _ => exact .throw _

end ScriptM

namespace Relocation

variable (m : Relocation)

/-- Two sessions that are related, after the first one has all the places of a store. -/
structure At (c : Store) (s t : Session) : Prop where
  relates : m.Relates s t
  grown : c.Grows s.store

variable {m} {d : DocumentId}

/-! ## Parameters -/

/-- A parameter applies in a document that came in later wherever the document is. -/
theorem applies_place (new : ¬m.source.Has d) {p : Parameter} (hp : p ∈ m.table.parameters) :
    m.table.applies p (some (m.place d)) = m.table.applies p (some d) := by
  have same : (!p.isGlobal && p.owner != some (m.place d)) =
      (!p.isGlobal && p.owner != some d) := by
    cases global : p.isGlobal with
    | true => rfl
    | false =>
      have owners := m.owners p hp global
      have before : p.owner ≠ some d := fun h => new (owners d h).1
      have after : p.owner ≠ some (m.place d) := fun h => not_has_place new (owners _ h).2
      rw [bne_iff_ne.2 before, bne_iff_ne.2 after]
  unfold Table.applies
  rw [same]

theorem find?_place (new : ¬m.source.Has d) (name : String) :
    m.table.find? name (some (m.place d)) = m.table.find? name (some d) := by
  have search : ∀ ps, (∀ p ∈ ps, p ∈ m.table.parameters) →
      m.table.search name (some (m.place d)) ps = m.table.search name (some d) ps := by
    intro ps known
    induction ps with
    | nil => rfl
    | cons p rest ih =>
      unfold Table.search
      rw [applies_place new (known p List.mem_cons_self),
        ih fun q hq => known q (List.mem_cons_of_mem _ hq)]
  exact search _ fun _ h => h

theorem expandValue_place (new : ¬m.source.Has d) (v : Value) :
    m.table.expandValue v (some (m.place d)) = m.table.expandValue v (some d) := by
  have segments : m.table.expandSegment (some (m.place d)) = m.table.expandSegment (some d) := by
    funext segment
    cases segment with
    | literal c => rfl
    | placeholder inside =>
      simp only [Table.expandSegment, find?_place new]
  unfold Table.expandValue Table.expand
  rw [segments]

end Relocation

namespace SessionM

open Relocation

variable {m : Relocation} {c : Store} {d : DocumentId}

/-! ## Reading attributes -/

@[grind ←] theorem reject_agrees (failure : ParseFailure) (cause : Option BindError) :
    Agrees (m.At c) (reject failure cause : SessionM α) (reject failure cause) :=
  Agrees.throw _

@[grind ←] theorem ofFilter_agrees (x : Except Filter.Malformed α) :
    Agrees (m.At c) (ofFilter x) (ofFilter x) := by
  cases x <;> grind [ofFilter]

@[grind ←] theorem ofMishap_agrees (x : Except Mishap α) :
    Agrees (m.At c) (ofMishap x) (ofMishap x) := by
  cases x <;> grind [ofMishap]

@[grind ←] theorem ofCheck_agrees (x : Except ParseFailure α) :
    Agrees (m.At c) (ofCheck x) (ofCheck x) := by
  cases x <;> grind [ofCheck]

@[grind ←] theorem ofResource_agrees (x : Except ResourceError α) :
    Agrees (m.At c) (ofResource x) (ofResource x) := by
  cases x <;> grind [ofResource]

@[grind ←] theorem ofExtension_agrees (x : Except Extensions.Problem α) :
    Agrees (m.At c) (ofExtension x) (ofExtension x) := by
  cases x <;> grind [ofExtension]

@[grind ←] theorem warn_agrees (w : Warning) : Agrees (m.At c) (warn w) (warn w) := fun _ _ h =>
  ⟨rfl, ⟨⟨h.relates.base, h.relates.sizes, h.relates.items, h.relates.closed, h.relates.tables,
    h.relates.chain⟩, h.grown⟩⟩

@[grind ←] theorem expand_agrees (known : m.source.Added c d) (v : Value) :
    Agrees (m.At c) (expand d v) (expand (m.place d) v) := by
  intro s t h
  have tables := h.relates.tables
  have same := expandValue_place known.1 v
  show (ofFilter (t.table.expandValue v _) t).1 = (ofFilter (s.table.expandValue v _) s).1 ∧
    m.At c (ofFilter (s.table.expandValue v _) s).2 (ofFilter (t.table.expandValue v _) t).2
  rw [tables.1, tables.2, same]
  exact ofFilter_agrees _ h

/-- What is read of a document in the store is read of the relocated document. -/
theorem document_bind_agrees (known : m.source.Added c d) {f g : DraftDocument → SessionM α}
    (h : ∀ doc, Agrees (m.At c) (f doc) (g (m.item .document doc))) :
    Agrees (m.At c) (SessionM.document d >>= f) (SessionM.document (m.place d) >>= g) := by
  intro s t related
  obtain ⟨doc, hd⟩ := Store.exists_get?_of_has (related.grown.has known.2)
  have placed := related.relates.items d known.1
  rw [hd] at placed
  rw [Step.run_bind_of_ok (document_eq hd), Step.run_bind_of_ok (document_eq placed)]
  exact h doc related

/-- What is read of the session besides the store is the same in both sessions. -/
theorem get_bind_agrees {f g : Session → SessionM α}
    (h : ∀ s t, m.Relates s t → Agrees (m.At c) (f s) (g t)) :
    Agrees (m.At c) (get >>= f) (get >>= g) :=
  fun s t related => h s t related.relates related

@[grind ←] theorem contextFilter_agrees (known : m.source.Added c d) (a : Attributes) :
    Agrees (m.At c) (contextFilter d a) (contextFilter (m.place d) a) := by
  grind [contextFilter]

@[grind ←] theorem labels_agrees (known : m.source.Added c d) (a : Attributes) :
    Agrees (m.At c) (labels d a) (labels (m.place d) a) := by
  grind [labels]

@[grind ←] theorem fill_agrees (known : m.source.Added c d) (owner : String) (target : Target)
    (r : Record) (a : Attributes) :
    Agrees (m.At c) (fill d owner target r a) (fill (m.place d) owner target r a) := by
  induction a generalizing r with
  | nil => exact .pure _
  | cons entry rest ih =>
    refine Agrees.bind (expand_agrees known _) fun v => ?_
    cases r.bind entry.1 v with
    | ok r => exact ih r
    | error cause => exact reject_agrees _ _

@[grind ←] theorem newRecord_agrees (known : m.source.Added c d) (owner element : String)
    (target : Target) (type : RecordType) (positional : List Value) (a : Attributes) :
    Agrees (m.At c) (newRecord d owner element target type positional a)
      (newRecord (m.place d) owner element target type positional a) := by
  grind [newRecord]

@[grind ←] theorem choice_agrees (kind : Choice.Kind) (v : Value)
    (failure : String → ParseFailure) :
    Agrees (m.At c) (choice kind v failure) (choice kind v failure) := by
  grind [choice]

@[grind ←] theorem quotingStrategy_agrees (known : m.source.Added c d) (owner : String)
    (a : Attributes) :
    Agrees (m.At c) (quotingStrategy d owner a) (quotingStrategy (m.place d) owner a) := by
  unfold quotingStrategy
  split
  · grind
  · exact document_bind_agrees known fun doc => .pure _

@[grind ←] theorem changeSetPath_agrees (known : m.source.Added c d) (a : Attributes) :
    Agrees (m.At c) (changeSetPath d a) (changeSetPath (m.place d) a) := by
  refine document_bind_agrees known fun doc => ?_
  grind [Document.filePath, item]

@[grind ←] theorem visitorFilter_agrees (known : m.source.Added c d) (a : Attributes) :
    Agrees (m.At c) (ScriptM.visitorFilter d a) (ScriptM.visitorFilter (m.place d) a) := by
  refine .bind (expand_agrees known _) fun _ => .bind (ofMishap_agrees _) fun _ => ?_
  refine .ite (.bind (expand_agrees known _) fun _ => ?_) ?_
  all_goals
    refine .bind (.pure _) fun _ => .ite (.bind (expand_agrees known _) fun _ => ?_) ?_
    all_goals exact .bind (.pure _) fun _ => .pure _

theorem readRemoval_agrees (known : m.source.Added c d) (e : Engine) (a : Attributes) :
    Agrees (m.At c) (readRemoval e d a) (readRemoval e (m.place d) a) := by
  unfold readRemoval
  refine .bind (ofCheck_agrees _) fun _ => .bind (expand_agrees known _) fun change => ?_
  refine .bind (expand_agrees known _) fun _ => .bind (ofMishap_agrees _) fun databases => ?_
  refine .bind (expand_agrees known _) fun remove => ?_
  cases databases with
  | none => exact reject_agrees _ _
  | some databases =>
    refine .ite (.throw_bind _ _ _) (.ite (.throw_bind _ _ _) (.ite (.throw_bind _ _ _) ?_))
    refine get_bind_agrees fun s t h => ?_
    rw [h.tables.1, h.tables.2]
    exact .ite (.pure _) (.pure _)

/-! ## Finding files -/

@[grind ←] theorem expandPath_agrees (known : m.source.Added c d) (v : Value)
    (name element : String) :
    Agrees (m.At c) (expandPath d v name element) (expandPath (m.place d) v name element) := by
  grind [expandPath]

@[grind ←] theorem startingPath_agrees (known : m.source.Added c d) (relative : Bool) :
    Agrees (m.At c) (startingPath d relative) (startingPath (m.place d) relative) :=
  document_bind_agrees known fun _ => .pure _

@[grind ←] theorem expandDepth_agrees (known : m.source.Added c d) (v : Value)
    (name element : String) :
    Agrees (m.At c) (expandDepth d v name element) (expandDepth (m.place d) v name element) := by
  unfold expandDepth
  refine .ite (.pure _) (.bind (expand_agrees known _) fun v => ?_)
  cases Integer.parse? v.print with
  | some n => exact .pure _
  | none => exact reject_agrees _ _

@[grind ←] theorem namedFilter_agrees (known : m.source.Added c d) (e : Engine) (v : Value) :
    Agrees (m.At c) (namedFilter e d v) (namedFilter e (m.place d) v) :=
  .ite (.bind (expand_agrees known _) fun _ => .map _ (ofExtension_agrees _)) (.pure _)

@[grind ←] theorem namedComparator_agrees (known : m.source.Added c d) (e : Engine) (v : Value) :
    Agrees (m.At c) (namedComparator e d v) (namedComparator e (m.place d) v) :=
  .ite (.bind (expand_agrees known _) fun _ => .map _ (ofExtension_agrees _)) (.pure _)

@[grind ←] theorem textOrEmpty_agrees (known : m.source.Added c d) (v : Value) :
    Agrees (m.At c) (textOrEmpty d v) (textOrEmpty (m.place d) v) :=
  .bind (expand_agrees known _) fun _ => .pure _

theorem inclusionOf_agrees (known : m.source.Added c d) (a : Attributes) :
    Agrees (m.At c) (inclusionOf d a) (inclusionOf (m.place d) a) := by
  grind [inclusionOf]

theorem readInclude_agrees (known : m.source.Added c d) (a : Attributes) :
    Agrees (m.At c) (readInclude d a) (readInclude (m.place d) a) := by
  refine .bind (ofCheck_agrees _) fun _ => .bind (expandPath_agrees known _ _ _) fun path => ?_
  refine .bind (startingPath_agrees known _) fun relativeTo => ?_
  exact .bind (inclusionOf_agrees known _) fun i => .pure _

@[grind ←] theorem listing_agrees (e : Engine) (relativeTo : Option String) (path element : String)
    (required : Bool) :
    Agrees (m.At c) (listing e relativeTo path element required)
      (listing e relativeTo path element required) := by
  refine .bind (ofResource_agrees _) fun directory => ?_
  cases e.sources.list relativeTo path true with
  | ok files => exact .pure _
  | error error => exact .ite (.throw _) (.ite (.throw _) (.bind (warn_agrees _) fun _ => .pure _))

theorem discover_agrees (known : m.source.Added c d) (e : Engine) (a : Attributes)
    (element : String) :
    Agrees (m.At c) (discover e d a element) (discover e (m.place d) a element) := by
  refine .bind (expandPath_agrees known _ _ _) fun path => ?_
  refine .bind (expandDepth_agrees known _ _ _) fun minDepth => ?_
  refine .bind (expandDepth_agrees known _ _ _) fun maxDepth => ?_
  refine .bind (expand_agrees known _) fun ending => ?_
  refine .bind (namedFilter_agrees known _ _) fun includes => ?_
  refine .bind (namedComparator_agrees known _ _) fun compare => ?_
  refine .bind (startingPath_agrees known _) fun relativeTo => ?_
  refine .bind (listing_agrees _ _ _ _ _) fun found => ?_
  exact .ite (.ite (.throw_bind _ _ _) (.bind (warn_agrees _) fun _ => .pure _)) (.pure _)

theorem readIncludeAll_agrees (known : m.source.Added c d) (e : Engine) (a : Attributes) :
    Agrees (m.At c) (readIncludeAll e d a) (readIncludeAll e (m.place d) a) := by
  refine .bind (ofCheck_agrees _) fun _ => .bind (discover_agrees known _ _ _) fun paths => ?_
  exact .bind (inclusionOf_agrees known _) fun i => .pure _

theorem readIncludeAllSql_agrees (known : m.source.Added c d) (e : Engine) (a : Attributes) :
    Agrees (m.At c) (readIncludeAllSql e d a) (readIncludeAllSql e (m.place d) a) := by
  refine .bind (ofCheck_agrees _) fun _ => .bind (discover_agrees known _ _ _) fun paths => ?_
  refine .ite (.pure _) (.bind (textOrEmpty_agrees known _) fun start => ?_)
  exact .bind (textOrEmpty_agrees known _) fun ending => .pure _

theorem checkChain_agrees (path : String) :
    Agrees (m.At c) (checkChain path) (checkChain path) :=
  get_bind_agrees fun s t h => by
    rw [h.chain]
    exact .ite (.throw _) (.pure _)

theorem checkDepth_agrees (e : Engine) (path : String) :
    Agrees (m.At c) (checkDepth e path) (checkDepth e path) :=
  get_bind_agrees fun s t h => by
    rw [h.chain]
    exact .ite (.throw _) (.pure _)

theorem accept_agrees (e : Engine) (relativeTo : Option String) (path : String)
    (skipsUnknown : Bool) :
    Agrees (m.At c) (accept e relativeTo path skipsUnknown)
      (accept e relativeTo path skipsUnknown) := by
  refine .bind (ofResource_agrees _) fun path => ?_
  cases e.parser? path with
  | none => exact .ite (.bind (warn_agrees _) fun _ => .pure _) (reject_agrees _ _)
  | some parser =>
    exact .bind (checkChain_agrees path) fun _ => .bind (checkDepth_agrees e path) fun _ => .pure _

end SessionM
end Migration
