import Migration.Proofs.Inclusion.Chain

/-!
# Documents and the ones that include them

Each document of an included script knows the document that includes it, and so on up to the first
one. At every point of a compile these are the documents of the open scripts, each of them put down
before the next; and none of them but the last one changes while that one is built.

* `Store.Lineage` — the documents from one up to the first
* `Running.Inside` — a script builds its document inside others
* `Visits.exists_inside` — so it is at every point of a compile
-/

namespace Migration

/-! ## Lineages -/

/-- The documents from one up to the first one, each followed by the one that includes it, which was
put down before it. -/
inductive Store.Lineage (store : Store) : Option DocumentId → List DraftDocument → Prop
  | root : Lineage store none []
  | inside {i d above} (there : store.documents.get? i = some d)
      (later : ∀ j ∈ d.parent, j.index < i.index) (rest : Lineage store d.parent above) :
      Lineage store (some i) (d :: above)

namespace Store.Lineage

variable {store store' : Store} {o : Option DocumentId} {documents : List DraftDocument}

/-- A lineage stays one as long as its documents stay as they are. -/
theorem mono (h : store.Lineage o documents)
    (kept : ∀ i d, store.documents.get? i = some d → store'.documents.get? i = some d) :
    store'.Lineage o documents := by
  induction h with
  | root => exact .root
  | inside there later _ ih => exact .inside (kept _ _ there) later ih

theorem has (h : store.Lineage o documents) : ∀ i ∈ o, store.Has i := by
  cases h with
  | root => simp
  | inside there =>
    intro i same
    obtain rfl := Option.mem_some.1 same
    exact Store.has_of_get? there

end Store.Lineage

/-! ## Open scripts -/

/-- The document that a script builds stands inside others, which were there with all their change
sets before the script was opened on the store `b`. -/
structure Running.Inside (b : Store) (r : Running) (d : DraftDocument)
    (outer : List DraftDocument) :
    Prop where
  owns : r.Owns b
  document : r.session.store.documents.get? r.frame.document = some d
  later : ∀ j ∈ d.parent, j.index < r.frame.document.index
  lineage : b.Lineage d.parent outer
  kept : ∀ i d, b.documents.get? i = some d → r.session.store.documents.get? i = some d
  known : ∀ d ∈ outer, ∀ i ∈ d.changeSets, b.Has i

namespace Running.Inside

variable {b : Store} {r r' : Running} {d : DraftDocument} {outer : List DraftDocument}

/-- Whatever a script does, its document stays where it is. -/
theorem works (h : r.Inside b d outer) (works : r.Works b r') :
    ∃ d', r'.Inside b d' outer ∧ d'.physicalPath = d.physicalPath := by
  obtain ⟨owns', g, -, adv⟩ := works h.owns
  obtain ⟨d', hd', gains⟩ := adv.session.document d h.document
  rw [← adv.frame.document] at hd'
  refine ⟨d', ⟨owns', hd', ?_, ?_, fun i d there => ?_, h.known⟩, gains.physicalPath⟩
  · rw [gains.parent, adv.frame.document]
    exact h.later
  · rw [gains.parent]
    exact h.lineage
  · have old : b.Has i := Store.has_of_get? there
    exact (adv.session.kept i old).trans (h.kept i d there)

/-- The document of a script and the ones around it are a lineage of the store. -/
theorem lineage_cons (h : r.Inside b d outer) :
    r.session.store.Lineage (some r.frame.document) (d :: outer) :=
  .inside h.document h.later (h.lineage.mono h.kept)

/-- What has come in since the script was opened is in none of the documents around its own. -/
theorem not_mem_outer (h : r.Inside b d outer) {i : ChangeSetId} (new : ¬b.Has i) :
    ∀ d ∈ outer, i ∉ d.changeSets := fun d inside mem => new (h.known d inside i mem)

end Running.Inside

section

variable {e : Engine} {q : Request} {s s₁ : Session} {o : SessionM.Opened}
    {above : List DraftDocument}

open SessionM

/-- A script that is opened starts inside the documents that its request says. -/
theorem inside_of_open (opens : openScript e q s = (.ok o, s₁))
    (lineage : s.store.Lineage q.parent above)
    (known : ∀ d ∈ above, ∀ i ∈ d.changeSets, s.store.Has i) :
    ∃ d, (Running.start o.path o.document (s₁.opening o.path)).Inside s.store d above ∧
      d.physicalPath = o.path := by
  obtain ⟨-, extends_, -⟩ := openScript_ok opens
  have owns := owns_of_open opens
  obtain ⟨-, logicalPath, -, -, -, puts⟩ := of_openScript_ok opens
  rw [newDocument_eq] at puts
  obtain ⟨document, rfl⟩ := Prod.mk.inj puts
  have document := Except.ok.inj document
  refine ⟨{
      physicalPath := o.path, logicalPath, preconditions := s.store.preconditions.next
      inheritance := q.inheritance, parent := q.parent },
    ⟨owns, ?_, ?_, lineage, fun i d there => ?_, known⟩, rfl⟩
  · show (s.store.documents.add _).get? o.document = _
    rw [← document, Pool.get?_add, if_pos rfl]
  · intro j parent
    have before : j.index < s.store.documents.size := lineage.has j parent
    show j.index < o.document.index
    rw [← document]
    exact before
  · have old : s.store.Has i := Store.has_of_get? there
    exact (extends_.kept i old).trans there

/-- At every point of a compile the document under construction is the last one of the open scripts,
and the others are around it. -/
theorem Visits.exists_inside {depth : Nat} {p : Point} (h : Visits e depth q s p)
    (lineage : s.store.Lineage q.parent above)
    (known : ∀ d ∈ above, ∀ i ∈ d.changeSets, s.store.Has i) :
    ∃ b d outer, p.running.Inside b d outer ∧
      (d :: outer).map (·.physicalPath) = p.chain.reverse ++ above.map (·.physicalPath) := by
  induction h generalizing above with
  | @here depth r s o s₁ steps running opens reaches =>
    obtain ⟨d₀, inside, path⟩ := inside_of_open opens lineage known
    obtain ⟨d, inside', same⟩ := inside.works (reaches.works (compilerBelow_isSound e depth))
    refine ⟨_, d, above, inside', ?_⟩
    rw [List.map_cons, same, path]
    rfl
  | @«inside» depth r s o s₁ node rest running c relativeTo path i s₂ path' suffix s₃ p opens reaches
      calls meets accepts visits ih =>
    obtain ⟨d₀, inside, path⟩ := inside_of_open opens lineage known
    have sound := compilerBelow_isSound e (depth + 1)
    obtain ⟨-, -, -, -, rfl⟩ := of_accept accepts
    -- the script has gone on to the file that it meets, and its document has stayed where it is
    have met := Running.works_of_session (meets.works (b := s.store) sound)
    obtain ⟨d, inside', same⟩ := inside.works (trans_of _ (reaches.works sound) met)
    have known' : ∀ x ∈ d :: above, ∀ i ∈ x.changeSets, s₃.store.Has i := by
      obtain ⟨d', hd', parts⟩ := inside'.owns.session.document
      obtain rfl : d' = d := Option.some.inj (hd'.symm.trans inside'.document)
      intro x mem i hi
      rcases List.mem_cons.1 mem with rfl | mem
      · exact (parts.changeSets i hi).2
      · exact inside'.owns.session.base.has (known x mem i hi)
    obtain ⟨b, d', outer, there, paths⟩ := ih inside'.lineage_cons known'
    refine ⟨b, d', outer, there, ?_⟩
    rw [paths, List.map_cons, same, path]
    simp [Point.chain]

end

end Migration
