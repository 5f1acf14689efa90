import Mathlib.Logic.Relation
import Migration.Proofs.Primitive

/-!
# What scripts write

Everything that the elements of a script do to the session, unless they add something to its
document at once, is made up of a few kinds of writes: something is put in that refers to nothing
but what is there, or something is changed that the script owns. What holds of each kind of write
holds of all of them.

* `Session.Write` — one write
* `Session.Writes` — any number of writes
* `Session.Writes.quiet` — the document of the script gains nothing by them
* `SessionM.gives_newChangeSet` — attributes describe a change set without parts
-/

namespace Migration

/-- A change set has no parts that other places hold. -/
def ChangeSet.IsBare (s : DraftChangeSet) : Prop :=
  s.changes = [] ∧ s.rollback = [] ∧ s.preconditions = none

/-- A change is in the store, or some change set of the store has it. -/
def Store.Offers (s : Store) (j : ChangeId) : Prop :=
  s.Has j ∨ ∃ i c, s.changeSets.get? i = some c ∧ j ∈ c.changes

namespace Session

open SessionM

/-- A write of the script that was opened on the store `b` for the document `d`. -/
inductive Write (b : Store) (d : DocumentId) (s : Session) : Session → Prop
  | note {s' : Session} (store : s'.store = s.store) (chain : s'.chain = s.chain) : Write b d s s'
  | addColumn (c : Column) : Write b d s (addColumn c s).2
  | addChange {c : DraftChange} (columns : c.columns = []) : Write b d s (addChange c s).2
  | addChangeSet {c : DraftChangeSet} (bare : c.IsBare) : Write b d s (addChangeSet c s).2
  | addPrecondition (r : Record) : Write b d s (addPrecondition { record := r } s).2
  | nest {parent : PreconditionId} (owned : b.Added s.store parent) (r : Record) :
      Write b d s (nest parent r s).2
  | modifyColumn {i : ColumnId} (owned : ¬b.Has i) (f : Column → Column) :
      Write b d s (modifyColumn i f s).2
  | modifyChange {i : ChangeId} {f : DraftChange → DraftChange} (owned : ¬b.Has i)
      (columns : ∀ c, ∀ j ∈ (f c).columns, j ∈ c.columns ∨ s.store.Has j) :
      Write b d s (modifyChange i f s).2
  | modifyChangeSet {i : ChangeSetId} {f : DraftChangeSet → DraftChangeSet} (owned : ¬b.Has i)
      (tags : ∀ c, (f c).tags = c.tags) (preconditions : ∀ c, (f c).preconditions = c.preconditions)
      (changes : ∀ c, ∀ j ∈ (f c).changes, j ∈ c.changes ∨ s.store.Offers j)
      (rollback : ∀ c, ∀ j ∈ (f c).rollback, j ∈ c.rollback ∨ s.store.Offers j) :
      Write b d s (modifyChangeSet i f s).2
  | modifyDocument {f : DraftDocument → DraftDocument}
      (gains : ∀ doc, Document.Gains {} doc (f doc)) :
      Write b d s (modifyDocument d f s).2

/-- Writes one after the other. -/
def Writes (b : Store) (d : DocumentId) : Session → Session → Prop :=
    Relation.ReflTransGen (Write b d)

variable {b : Store} {d : DocumentId} {s s' : Session}

instance : IsPreorder Session (Writes b d) where
  refl _ := .refl
  trans _ _ _ := Relation.ReflTransGen.trans

theorem Writes.one (h : Write b d s s') : Writes b d s s' := .single h

instance : AllowsNotes (Writes b d) := ⟨fun store chain => Writes.one (.note store chain)⟩

/-- What holds of each write holds of any number of them. -/
theorem Writes.of_write {R : Session → Session → Prop} [IsPreorder Session R]
    (write : ∀ {s s'}, Write b d s s' → R s s') (h : Writes b d s s') : R s s' := by
  induction h with
  | refl => exact refl_of R s
  | tail _ last ih => exact trans_of R ih (write last)

theorem Write.grows (h : Write b d s s') : s.Grows s' := by
  cases h with
  | note store chain => exact (Extends.of_same store chain).grows
  | addColumn c => exact (keeps_addColumn c s : s.Extends _).grows
  | addChange => exact (keeps_addChange _ s : s.Extends _).grows
  | addChangeSet => exact (keeps_addChangeSet _ s : s.Extends _).grows
  | addPrecondition r => exact (keeps_addPrecondition r s : s.Extends _).grows
  | nest parentOwned r =>
    exact Store.Grows.trans (keeps_addPrecondition r s : s.Extends _).grows
      (grows_modifyPrecondition _ _ _)
  | modifyColumn itemOwned f => exact grows_modifyColumn _ f s
  | modifyChange => exact grows_modifyChange _ _ s
  | modifyChangeSet => exact grows_modifyChangeSet _ _ s
  | modifyDocument => exact grows_modifyDocument _ _ s

theorem Writes.grows (h : Writes b d s s') : s.store.Grows s'.store :=
    h.of_write (R := Grows) Write.grows

/-- A write changes only what the script owns, and its document gains nothing. -/
theorem Write.quiet (owned : ¬b.Has d) (h : Write b d s s') : Quiet b d s s' := by
  cases h with
  | note store chain => exact AllowsNotes.of_same store chain
  | addColumn c => exact keeps_addColumn c s
  | addChange => exact keeps_addChange _ s
  | addChangeSet => exact keeps_addChangeSet _ s
  | addPrecondition r => exact keeps_addPrecondition r s
  | nest parentOwned r => exact quiet_nest parentOwned.1 r s
  | modifyColumn itemOwned f => exact quiet_modifyColumn itemOwned f s
  | modifyChange itemOwned => exact quiet_modifyChange itemOwned _ s
  | modifyChangeSet itemOwned tags => exact quiet_modifyChangeSet itemOwned tags s
  | modifyDocument gains => exact quiet_modifyDocument owned gains s

theorem Writes.quiet (owned : ¬b.Has d) (h : Writes b d s s') : Quiet b d s s' :=
  h.of_write fun write => write.quiet owned

end Session

namespace SessionM

/-! ## Change sets from attributes -/

/-- The change set that its texts give has no parts. -/
theorem isBare_of_changeSetOf {id author path runWith spoolFile : Value} {x : DraftChangeSet}
    (h : changeSetOf id author path runWith spoolFile = .ok x) : x.IsBare := by
  unfold changeSetOf at h
  split at h
  · cases h
    exact ⟨rfl, rfl, rfl⟩
  · cases h

theorem gives_optionalParts (d : DocumentId) (owner : String) (a : Attributes) {s : DraftChangeSet}
    (bare : s.IsBare) : Gives ChangeSet.IsBare (optionalParts d owner a s) := by
  unfold optionalParts
  -- each part is followed by the parts after it, so the last one comes first
  extract_lets s₀ last ignored ordered created labelled validated s₁
  have ignores : ∀ s, s.IsBare → Gives ChangeSet.IsBare (ignored () s) := fun s bare =>
    .ite (.pure bare) (.pure bare)
  have orders : ∀ s, s.IsBare → Gives ChangeSet.IsBare (ordered () s) := fun s bare =>
    .ite (.bind fun _ => .ite (.bind fun _ => ignores _ bare) (ignores _ bare)) (ignores s bare)
  have creates : ∀ s, s.IsBare → Gives ChangeSet.IsBare (created () s) := fun s bare =>
    .ite (.bind fun _ => orders _ bare) (orders s bare)
  have labels : ∀ s, s.IsBare → Gives ChangeSet.IsBare (labelled () s) := fun s bare =>
    .ite (.bind fun _ => creates _ bare) (creates s bare)
  have validates : ∀ s, s.IsBare → Gives ChangeSet.IsBare (validated () s) := fun s bare =>
    .ite (.bind fun _ => .bind fun _ => labels _ bare) (labels s bare)
  exact .ite (validates _ bare) (validates _ bare)

/-- Attributes describe a change set without parts. -/
theorem gives_newChangeSet (d : DocumentId) (a : Attributes) :
    Gives ChangeSet.IsBare (newChangeSet d a) := by
  unfold newChangeSet
  refine .bind fun _ => .bind fun _ => .bind fun path => .bind fun _ => .bind fun id => ?_
  refine .bind fun author => .bind fun _ => .bind fun _ => .bind fun runWith => ?_
  refine .bind fun spoolFile => ?_
  cases h : changeSetOf id author path runWith spoolFile with
  | error mishap => exact .throw_bind _ _
  | ok x =>
    simp only [ofMishap, pure_bind]
    have bare := isBare_of_changeSetOf h
    exact gives_optionalParts d _ a ⟨bare.1, bare.2.1, bare.2.2⟩

end SessionM
end Migration
