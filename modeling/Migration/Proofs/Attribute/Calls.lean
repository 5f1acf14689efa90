import Mathlib.Data.List.Perm.Basic
import Migration.Proofs.Attribute.Views
import Migration.Proofs.Failure.Calls
import Migration.Proofs.Placeholder

/-!
# Calls with attributes in another order

The attributes of a call are evaluated in order, but that changes nothing. So if the call succeeds
and no two of its attributes write different values into one field, it does the same with them in
any order, and so does everything that comes after it.

* `ScriptM.prepare_perm` — what a call applies, if its attributes are given in another order
* `ScriptM.call_perm` — the order of the attributes of a call does not matter
* `ScriptM.call_perm_deleteCascade` — unless an attribute that sets another field goes against one
  that gives it
-/

namespace Migration

open Attributes

/-! ## Attributes as they are evaluated -/

namespace ScriptM

variable {e : Engine} {compiler : Compiler} {r r₁ : Running}

/-- Attributes are evaluated if each of them is, and each in the same state. -/
theorem evalAttributes_eq_ok {entries : List (String × Script.Expr)}
    {pairs : List (String × Value)} :
    evalAttributes e entries r = (.ok pairs, r₁) ↔ r₁ = r ∧ entries.Forall₂
      (fun entry pair => pair.1 = entry.1 ∧ eval e entry.2 r = (.ok pair.2, r)) pairs := by
  induction entries generalizing pairs with
  | nil =>
    constructor
    · intro h
      cases h
      exact ⟨rfl, .nil⟩
    · rintro ⟨rfl, ⟨⟩⟩
      rfl
  | cons entry rest ih =>
    constructor
    · intro h
      obtain ⟨v, evaluates, h⟩ := (keeps_eval e entry.2).bind_eq_ok.1 h
      obtain ⟨more, others, h⟩ := (keeps_evalAttributes e rest).bind_eq_ok.1 h
      cases h
      exact ⟨rfl, .cons ⟨rfl, evaluates⟩ (ih.1 others).2⟩
    · rintro ⟨rfl, each⟩
      obtain ⟨⟨name, v⟩, more, ⟨rfl, evaluates⟩, others, rfl⟩ := List.forall₂_cons_left_iff.1 each
      refine Step.bind_eq_ok.2 ⟨v, r₁, evaluates, ?_⟩
      exact Step.bind_eq_ok.2 ⟨more, r₁, ih.2 ⟨rfl, others⟩, rfl⟩

theorem names_of_evalAttributes {entries : List (String × Script.Expr)}
    {pairs : List (String × Value)} (h : evalAttributes e entries r = (.ok pairs, r₁)) :
    pairs.map (·.1) = entries.map (·.1) := by
  obtain ⟨-, each⟩ := evalAttributes_eq_ok.1 h
  clear h
  induction each with
  | nil => rfl
  | cons evaluates _ ih => rw [List.map_cons, List.map_cons, evaluates.1, ih]

/-- Attributes are evaluated in any order. -/
theorem evalAttributes_perm {entries entries' : List (String × Script.Expr)}
    {pairs : List (String × Value)} (perm : entries'.Perm entries)
    (h : evalAttributes e entries r = (.ok pairs, r₁)) :
    ∃ pairs', evalAttributes e entries' r = (.ok pairs', r₁) ∧ pairs'.Perm pairs := by
  obtain ⟨same, each⟩ := evalAttributes_eq_ok.1 h
  obtain ⟨pairs', each', perm'⟩ := List.perm_comp_forall₂ perm each
  exact ⟨pairs', evalAttributes_eq_ok.2 ⟨same, each'⟩, perm'⟩

end ScriptM

namespace Attributes

variable {a a' : Attributes}

/-- Attributes that are given once each are made in the order in which they are written. -/
theorem alike_ofSpellings {pairs pairs' : List (String × Value)} (perm : pairs'.Perm pairs)
    (nodup : (pairs.map fun pair => Script.attributeName pair.1).Nodup) :
    (ofSpellings pairs).Alike (ofSpellings pairs') where
  perm := by
    rw [ofSpellings_of_nodup nodup, ofSpellings_of_nodup ((perm.map _).nodup_iff.2 nodup)]
    exact perm.map _
  nodup := nodup_ofSpellings pairs

/-- What an attribute without placeholders writes into a record. -/
theorem written?_of_isPlain {d : DocumentId} {s : Session} {t : RecordType} {x : String × Value}
    (plain : x.2.IsPlain) : written? d s t x = t.writes? x.1 x.2.expanded :=
  written?_of_expand (SessionM.expand_of_isPlain plain d s)

namespace Alike

theorem refuse (h : a.Alike a') (refuses : Signature.refuse a = .ok ()) :
    Signature.refuse a' = .ok () := by
  cases a with
  | nil =>
    rw [List.perm_nil.1 h.perm]
    rfl
  | cons => cases refuses

theorem filter (h : a.Alike a') (keep : String × Value → Bool) :
    Alike (List.filter keep a) (List.filter keep a') where
  perm := h.perm.filter keep
  nodup := h.nodup.sublist (List.filter_sublist.map _)

/-- Arguments that fit an element do so in any order. -/
theorem check (h : a.Alike a') {signature : Signature} {positional : List Value}
    (fits : signature.check positional a = .ok ()) : signature.check positional a' = .ok () := by
  cases signature with
  | anything => rfl
  | attributes => cases positional <;> exact fits
  | nothing =>
    cases positional with
    | nil => exact h.refuse fits
    | cons => cases fits
  | one name =>
    unfold Signature.check at fits ⊢
    cases positional with
    | nil =>
      simp only [h.has] at fits ⊢
      cases given : a.has name with
      | false =>
        rw [given] at fits
        cases fits
      | true =>
        rw [given] at fits
        exact (h.filter _).refuse fits
    | cons v more =>
      simp only [h.has] at fits ⊢
      cases given : a.has name with
      | true =>
        rw [given] at fits
        cases fits
      | false =>
        rw [given] at fits
        cases single : more.isEmpty with
        | false =>
          rw [single] at fits
          cases fits
        | true =>
          rw [single] at fits
          exact h.refuse fits

end Alike
end Attributes

namespace ScriptM

variable {e : Engine} {compiler : Compiler} {r r₁ : Running} {a a' : Attributes}

theorem dispatch_alike (alike : a.Alike a') {name : String} {positional : List Value}
    {x : Application} (h : dispatch e name positional a r = (.ok x, r₁)) :
    dispatch e name positional a' r = (.ok { x with attributes := a' }, r) := by
  obtain ⟨given, element, stands, fits, rfl⟩ := dispatch_ok h
  rw [run_dispatch, alike.has, if_neg given, stands]
  simp only [alike.check fits]

/-- A call applies the same element to its attributes in any order. -/
theorem prepare_perm {c : Script.Call} {entries : List (String × Script.Expr)} {x : Application}
    (perm : entries.Perm c.attributes)
    (names : (c.attributes.map fun entry => Script.attributeName entry.1).Nodup)
    (h : prepare e c r = (.ok x, r₁)) :
    ∃ a', x.attributes.Alike a' ∧
      prepare e { c with attributes := entries } r = (.ok { x with attributes := a' }, r) := by
  obtain ⟨-, element, positional, pairs, items, evaluates, dispatches⟩ := of_prepare h
  -- evaluation leaves the state alone, so the values come in the order of the attributes
  obtain ⟨pairs', evaluates', perm'⟩ := evalAttributes_perm perm evaluates
  have nodup : (pairs.map fun pair => Script.attributeName pair.1).Nodup := by
    have same := congrArg (List.map Script.attributeName) (names_of_evalAttributes evaluates)
    rw [List.map_map, List.map_map] at same
    exact same ▸ names
  have alike := alike_ofSpellings perm' nodup
  refine ⟨_, (attributes_of_dispatch dispatches).symm ▸ alike, ?_⟩
  rw [prepare_eq_dispatch (c := { c with attributes := entries }) element items evaluates']
  exact dispatch_alike alike dispatches

/-- A call that succeeds does so with its attributes in any order, and leaves what looks the
same. -/
theorem call_alike {c : Script.Call} {entries : List (String × Script.Expr)} {o : Outcome}
    (perm : entries.Perm c.attributes)
    (names : (c.attributes.map fun entry => Script.attributeName entry.1).Nodup)
    (other : function? e r.frame c.element = none)
    (consistent : ∀ x, prepare e c r = (.ok x, r) → ∀ t ∈ x.element.fills r.session,
      IsConsistent r.frame.document r.session t x.attributes)
    (calls : call e compiler c r = (.ok o, r₁)) :
    ∃ r₁', call e compiler { c with attributes := entries } r = (.ok o, r₁') ∧ r₁.Alike r₁' := by
  rcases prepares : prepare e c r with ⟨failure | x, r'⟩
  · rw [call_of_error other prepares] at calls
    cases calls
  obtain ⟨a', alike, prepares'⟩ := prepare_perm perm names prepares
  obtain rfl : r' = r := (dispatch_of_prepare prepares).1
  rcases acts : SessionM.act e compiler r'.frame.document x.element x.positional x.attributes
    r'.session with ⟨result, s⟩
  rw [call_eq prepares acts] at calls
  cases result with
  | error failure => cases calls
  | ok y =>
    obtain ⟨y', acts', same⟩ := SessionM.act_alike alike (consistent x prepares) acts
    obtain ⟨result, related⟩ := outcomeOf_agrees same (.refl { r' with session := s })
    rw [calls] at result related
    refine ⟨_, ?_, related⟩
    rw [call_eq prepares' acts']
    exact Prod.ext result rfl

end ScriptM

/-- The step with another call, if it is one of an element. -/
def Script.Node.withCall (c : Script.Call) : Script.Node → Script.Node
  | .call _ => .call c
  | .keep name _ => .keep name c
  | .block _ body => .block c body
  | node => node

namespace ScriptM

variable {e : Engine} {compiler : Compiler} {r r₁ : Running}

/-- A step does the same with a call that does the same. -/
theorem runNode_withCall {c c' : Script.Call} {node : Script.Node} (calls : node.call? = some c)
    (same : (call e compiler c' r).1 = (call e compiler c r).1 ∧
      (call e compiler c r).2.Alike (call e compiler c' r).2) :
    (runNode e compiler (node.withCall c') r).1 = (runNode e compiler node r).1 ∧
      (runNode e compiler node r).2.Alike (runNode e compiler (node.withCall c') r).2 := by
  cases node with
  | call _ =>
    cases calls
    rw [Script.Node.withCall, runNode, runNode]
    exact Agrees.bind_of_run same fun _ => .pure _
  | keep name _ =>
    cases calls
    rw [Script.Node.withCall, runNode, runNode]
    exact Agrees.bind_of_run same fun _ => modifyFrame_agrees fun _ _ => rfl
  | block _ body =>
    cases calls
    rw [Script.Node.withCall, runNode, runNode]
    refine Agrees.bind_of_run same fun result => ?_
    cases result with
    | scope i => exact within_agrees i (runNodes_agrees body)
    | _ => exact .throw _
  | _ => cases calls

/-- A call of an element that succeeds does so with its attributes in any order, if no two of them
write different values into one field of the record that it fills. It gives the same and does the
same to the session, and so do a step that makes the call, a block that it opens, and all the steps
that come after it. -/
theorem call_perm {c : Script.Call} {entries : List (String × Script.Expr)} {o : Outcome}
    (perm : entries.Perm c.attributes)
    (names : (c.attributes.map fun entry => Script.attributeName entry.1).Nodup)
    (other : function? e r.frame c.element = none)
    (consistent : ∀ x, prepare e c r = (.ok x, r) → ∀ t ∈ x.element.fills r.session,
      IsConsistent r.frame.document r.session t x.attributes)
    (calls : call e compiler c r = (.ok o, r₁)) :
    (∃ r₁', call e compiler { c with attributes := entries } r = (.ok o, r₁') ∧
      r₁'.session = r₁.session) ∧
    ∀ (node : Script.Node) (rest : List Script.Node), node.call? = some c →
      let run := runNodes e compiler (node :: rest) r
      let run' := runNodes e compiler (node.withCall { c with attributes := entries } :: rest) r
      run'.1 = run.1 ∧ run'.2.session = run.2.session := by
  obtain ⟨r₁', calls', alike⟩ := call_alike perm names other consistent calls
  refine ⟨⟨r₁', calls', alike.session⟩, fun node rest makes => ?_⟩
  have same : (call e compiler { c with attributes := entries } r).1 = (call e compiler c r).1 ∧
      (call e compiler c r).2.Alike (call e compiler { c with attributes := entries } r).2 := by
    rw [calls, calls']
    exact ⟨rfl, alike⟩
  obtain ⟨result, related⟩ :=
    Agrees.bind_of_run (runNode_withCall makes same) fun _ => runNodes_agrees rest
  exact ⟨result, related.session⟩

end ScriptM

/-- A script that has opened a change set in its `databaseChangeLog` block. -/
def openedChangeSet : Running :=
  (ScriptM.enter 1 (ScriptM.call (.ofScripts []) none {
    element := "changeSet"
    attributes := [("id", .literal (.text "1")), ("author", .literal (.text "a"))] }
      openedBlock).2).2

namespace ScriptM

theorem innermostBody_openedChangeSet :
    ∃ owner i, openedChangeSet.frame.innermostBody = .changeSet owner i := by
  have inner : (match openedChangeSet.frame.innermostBody with
    | .changeSet .. => true
    | _ => false) = true := by decide +kernel
  split at inner
  · next owner i is => exact ⟨owner, i, is⟩
  · cases inner

/-- The action on deletion that the first change of a session gives. -/
def firstOnDelete (s : Session) : Option String :=
  (s.store.changes.get? ⟨0⟩).bind fun c => (c.record.get "on_delete").asText?

/-- Attributes that agree on a field which one of them gives and which follows from another one. -/
def agreeing : Attributes :=
  [("deleteCascade", .bool true), ("onDelete", .text "CASCADE"), ("onUpdate", .text "SET NULL")]

theorem isConsistent_agreeing {t : RecordType}
    (known : (Registry.defaults .change).get? "addForeignKeyConstraint" = some t) (d : DocumentId)
    (s : Session) : IsConsistent d s t agreeing := by
  have plain : Text.IsPlain "CASCADE" ∧ Text.IsPlain "SET NULL" := by decide +kernel
  have cascade : written? d s t ("deleteCascade", .bool true) =
      some [("delete_cascade", .bool true), ("on_delete", .text "CASCADE")] := by
    rw [written?_of_isPlain (x := ("deleteCascade", .bool true)) nofun]
    cases known
    rfl
  have onDelete : written? d s t ("onDelete", .text "CASCADE") =
      some [("on_delete", .text "CASCADE")] := by
    rw [written?_of_isPlain (Value.isPlain_text.2 plain.1)]
    cases known
    rfl
  have onUpdate : written? d s t ("onUpdate", .text "SET NULL") =
      some [("on_update", .text "SET NULL")] := by
    rw [written?_of_isPlain (Value.isPlain_text.2 plain.2)]
    cases known
    rfl
  unfold IsConsistent agreeing
  simp only [List.forall_mem_cons, cascade, onDelete, onUpdate, Option.getD_some]
  simp

/-- A call with attributes that agree. -/
theorem call_perm_agreeing :
    let e : Engine := .ofScripts []
    ∃ o r₁ r₁', call e none (.giving "addForeignKeyConstraint" agreeing) openedChangeSet =
      (.ok o, r₁) ∧
      call e none (.giving "addForeignKeyConstraint" agreeing.reverse) openedChangeSet =
        (.ok o, r₁') ∧
      r₁'.session = r₁.session ∧ firstOnDelete r₁.session = some "CASCADE" := by
  intro e
  let c : Script.Call := .giving "addForeignKeyConstraint" agreeing
  have names : (c.attributes.map fun entry => Script.attributeName entry.1).Nodup := by
    decide +kernel
  have other : function? e openedChangeSet.frame c.element = none := by decide +kernel
  have perm : (agreeing.reverse.map fun entry => (entry.1, Script.Expr.literal entry.2)).Perm
      c.attributes := agreeing.reverse_perm.map _
  have spelled : agreeing.IsSpelled := ⟨by decide, by decide +kernel⟩
  obtain ⟨owner, i, inner⟩ := innermostBody_openedChangeSet
  obtain ⟨t, known⟩ : ∃ t, e.changes.get? "addForeignKeyConstraint" = some t := ⟨_, rfl⟩
  have stands : openedChangeSet.frame.innermostBody.element? e "addForeignKeyConstraint" =
      some (.change owner "addForeignKeyConstraint" t i false) := by
    simp only [inner, Body.element?, Body.changeSetElement?, known, Option.map_some]
    rfl
  have prepared := prepare_giving spelled (by decide) (by decide +kernel) (by decide)
    (by decide +kernel) stands rfl
  have consistent : ∀ x, prepare e c openedChangeSet = (.ok x, openedChangeSet) →
      ∀ t ∈ x.element.fills openedChangeSet.session,
        IsConsistent openedChangeSet.frame.document openedChangeSet.session t x.attributes := by
    intro x prepares t mem
    cases prepared.symm.trans prepares
    cases mem
    exact isConsistent_agreeing known _ _
  have onDelete : (call e none c openedChangeSet).1.isOk = true ∧
      firstOnDelete (call e none c openedChangeSet).2.session = some "CASCADE" := by decide +kernel
  rcases calls : call e none c openedChangeSet with ⟨failure | o, r₁⟩
  all_goals rw [calls] at onDelete
  · cases onDelete.1
  · obtain ⟨⟨r₁', calls', session⟩, -⟩ := call_perm perm names other consistent calls
    exact ⟨o, r₁, r₁', rfl, calls', session, onDelete.2⟩

/-- The call whose attributes set a field to two values: the one that comes last counts. -/
theorem call_perm_deleteCascade :
    let cascade : String × Value := ("deleteCascade", .bool true)
    let setNull : String × Value := ("onDelete", .text "SET NULL")
    let c : Script.Call := .giving "addForeignKeyConstraint" [cascade, setNull]
    let c' : Script.Call := .giving "addForeignKeyConstraint" [setNull, cascade]
    let run := call (.ofScripts []) none c openedChangeSet
    let run' := call (.ofScripts []) none c' openedChangeSet
    c'.attributes.Perm c.attributes ∧
      (∀ t ∈ Registry.get? (.defaults .change) "addForeignKeyConstraint",
        (t.field? "deleteCascade").map (·.name) ≠ (t.field? "onDelete").map (·.name)) ∧
      run.1.isOk = true ∧ run'.1.isOk = true ∧ firstOnDelete run.2.session = some "SET NULL" ∧
      firstOnDelete run'.2.session = some "CASCADE" ∧ run'.2.session ≠ run.2.session := by
  intro cascade setNull c c' run run'
  have runs : run.1.isOk = true ∧ run'.1.isOk = true ∧
      firstOnDelete run.2.session = some "SET NULL" ∧
      firstOnDelete run'.2.session = some "CASCADE" := by decide +kernel
  obtain ⟨ok, ok', first, second⟩ := runs
  refine ⟨.swap _ _ _, by decide +kernel, ok, ok', first, second, fun same => ?_⟩
  rw [same, first] at second
  exact absurd second (by decide)

end ScriptM
end Migration
