import Migration.Proofs.Placeholder
import Migration.Proofs.Point

/-!
# The chain of open scripts

A script may include others, but not one that is open already, and only so many may be open at once.
The session keeps the chain of open scripts to tell. At every point of a compile the chain is right,
and the guard turns away exactly the files that it should.

* `accept_eq` — when a file is accepted
* `Visits.isGuarded` — the chain at a point, from the chain at the start
* `chain_of_visits` — the chain of a compile, and what the guard does with it
-/

namespace Migration

open SessionM Session

/-! ## What is accepted -/

namespace SessionM

variable {e : Engine} {s s₁ : Session} {relativeTo : Option String} {path resolved : String}
  {parser : Parser}

/-- A file that a parser takes is turned away if it is open, or if as many scripts are open as may
be. -/
theorem accept_eq (hr : e.sources.resolve relativeTo path = .ok resolved)
    (hp : e.parser? resolved = some parser) (skipsUnknown : Bool) (s : Session) :
    accept e relativeTo path skipsUnknown s =
      (if resolved ∈ s.chain then .error (.inclusion (.circular (s.chain ++ [resolved])))
      else if e.settings.maxIncludeDepth ≤ s.chain.length then
        .error (.inclusion (.tooDeep e.settings.maxIncludeDepth resolved))
      else .ok (some (resolved, parser)), s) := by
  have chain : checkChain resolved s =
      (if resolved ∈ s.chain then .error (.inclusion (.circular (s.chain ++ [resolved])))
      else .ok (), s) := by
    show (if s.chain.contains resolved = true then _ else _ : SessionM Unit) s = _
    simp only [List.contains_iff_mem]
    split <;> rfl
  have depth : checkDepth e resolved s =
      (if e.settings.maxIncludeDepth ≤ s.chain.length then
        .error (.inclusion (.tooDeep e.settings.maxIncludeDepth resolved)) else .ok (), s) := by
    show (if _ then _ else _ : SessionM Unit) s = _
    split <;> rfl
  have found : ofResource (e.sources.resolve relativeTo path) s = (.ok resolved, s) := by
    rw [hr]
    rfl
  unfold accept
  rw [Step.run_bind_of_ok found]
  simp only [hp]
  rw [Step.run_bind, chain]
  by_cases open_ : resolved ∈ s.chain
  · simp only [if_pos open_]
  · simp only [if_neg open_]
    rw [Step.run_bind, depth]
    by_cases deep : e.settings.maxIncludeDepth ≤ s.chain.length
    · simp only [if_pos deep]
    · simp only [if_neg deep]
      rfl

/-- An accepted file is taken by a parser, it is not open yet, and one more script may be open. -/
theorem of_accept {skipsUnknown : Bool}
    (h : accept e relativeTo path skipsUnknown s = (.ok (some (resolved, parser)), s₁)) :
    e.sources.resolve relativeTo path = .ok resolved ∧ e.parser? resolved = some parser ∧
      resolved ∉ s.chain ∧ s.chain.length < e.settings.maxIncludeDepth ∧ s₁ = s := by
  have hr : ∃ q, e.sources.resolve relativeTo path = .ok q := by
    cases hr : e.sources.resolve relativeTo path with
    | error failure =>
      unfold accept at h
      rw [hr] at h
      cases h
    | ok q => exact ⟨q, rfl⟩
  obtain ⟨q, hr⟩ := hr
  cases hp : e.parser? q with
  | none =>
    -- a file that no parser takes is passed over or rejected
    unfold accept at h
    rw [hr, Step.run_bind_of_ok (show ofResource (.ok q) s = (.ok q, s) from rfl)] at h
    simp only [hp] at h
    cases skipsUnknown <;> cases h
  | some taken =>
    rw [accept_eq hr hp] at h
    split at h
    · cases h
    · split at h
      · cases h
      · rename_i notOpen more
        cases h
        exact ⟨hr, hp, notOpen, Nat.lt_of_not_le more, rfl⟩

end SessionM

/-! ## Files met at a point -/

section

variable {e : Engine} {compiler : Compiler} {c : Script.Call} {r : Running}
  {relativeTo : Option String} {path : String} {i : Inclusion} {s : Session}

/-- Up to the file that is met, a call changes only what its script owns. -/
theorem Meets.works {b : Store} (sound : compiler.IsSound)
    (h : Meets e compiler c r relativeTo path i s) : r.session.Works b r.frame.document s := by
  cases h with
  | file _ _ reads => exact (keeps_readInclude _ _).of_run reads
  | directory _ _ reads earlier =>
    exact trans_of (Session.Works b _) ((keeps_readIncludeAll e _).of_run reads)
      ((works_includeFiles sound _ _).of_run earlier)

/-- A call includes the file that it meets, and then perhaps some more. -/
theorem Meets.acts (h : Meets e compiler c r relativeTo path i s) :
    ∃ x after, ScriptM.prepare e c r = (.ok x, r) ∧
      act e compiler r.frame.document x.element x.positional x.attributes r.session =
        (includeFile e compiler r.frame.document relativeTo path i >>= fun _ =>
          includeFiles e compiler r.frame.document i after >>= fun _ =>
            (pure .nothing : SessionM Result)) s := by
  cases h with
  | @file x _ _ _ _ prepares element reads =>
    refine ⟨x, [], prepares, ?_⟩
    rw [element]
    refine Step.run_bind_congr ?_ _
    unfold «include»
    rw [Step.run_bind_of_ok reads]
  | @directory x before _ after _ _ _ prepares element reads earlier =>
    refine ⟨x, after, prepares, ?_⟩
    rw [element, ← bind_assoc]
    refine Step.run_bind_congr ?_ _
    unfold includeAll
    rw [Step.run_bind_of_ok reads]
    show includeFiles e compiler _ i (before ++ path :: after) _ = _
    rw [SessionM.includeFiles_append, Step.run_bind_of_ok earlier]
    rfl

/-- A call fails if the include of a file that it meets fails. -/
theorem Meets.call_of_error (h : Meets e compiler c r relativeTo path i s) {failure : Failure}
    {s' : Session}
    (fails : includeFile e compiler r.frame.document relativeTo path i s = (.error failure, s')) :
    ScriptM.call e compiler c r = (.error failure, { r with session := s' }) := by
  obtain ⟨x, after, prepares, acts⟩ := h.acts
  rw [Step.run_bind_of_error fails] at acts
  rw [ScriptM.call_eq prepares acts]
  rfl

/-- After the include of a file that it meets, a call changes only what its script owns. -/
theorem Meets.call_of_ok {b : Store} (sound : compiler.IsSound)
    (h : Meets e compiler c r relativeTo path i s) {s' : Session}
    (included : includeFile e compiler r.frame.document relativeTo path i s = (.ok (), s')) :
    ∃ outcome s'', ScriptM.call e compiler c r = (outcome, { r with session := s'' }) ∧
      s'.Works b r.frame.document s'' := by
  obtain ⟨x, after, prepares, acts⟩ := h.acts
  rw [Step.run_bind_of_ok included] at acts
  rcases more : includeFiles e compiler r.frame.document i after s' with ⟨failure | _, s''⟩
  all_goals
    have works : s'.Works b r.frame.document s'' := (works_includeFiles sound i after).of_run more
  · rw [Step.run_bind_of_error more] at acts
    exact ⟨_, s'', ScriptM.call_eq prepares acts, works⟩
  · rw [Step.run_bind_of_ok more] at acts
    exact ⟨_, s'', ScriptM.call_eq prepares acts, works⟩

end

/-! ## The chain at a point -/

/-- Scripts that may be open at once: each under its resolved path, none of them twice, and not more
than the settings allow. -/
structure Engine.Admits (e : Engine) (chain : List String) : Prop where
  resolved : ∀ path ∈ chain, e.sources.resolve none path = .ok path
  nodup : chain.Nodup
  length : chain.length ≤ e.settings.maxIncludeDepth

section

variable {e : Engine} {chain : List String} {path : String}

theorem Engine.admits_nil (e : Engine) : e.Admits [] where
  resolved := by simp
  nodup := List.nodup_nil
  length := Nat.zero_le _

theorem Engine.Admits.append (h : e.Admits chain)
    (resolved : e.sources.resolve none path = .ok path) (fresh : path ∉ chain)
    (room : chain.length < e.settings.maxIncludeDepth) : e.Admits (chain ++ [path]) where
  resolved q hq := by
    rcases List.mem_append.1 hq with hq | hq
    · exact h.resolved q hq
    · obtain rfl := List.mem_singleton.1 hq
      exact resolved
  nodup := by
    refine List.nodup_append.2 ⟨h.nodup, by simp, fun q hq q' hq' => ?_⟩
    obtain rfl := List.mem_singleton.1 hq'
    rintro rfl
    exact fresh hq
  length := by
    rw [List.length_append]
    exact room

/-- At a point of a compile the chain is the one that the compile started with, and then the scripts
that are open on the way to the point. -/
theorem Visits.isGuarded {depth : Nat} {r : Request} {s : Session} {p : Point}
    (h : Visits e depth r s p) (admits : e.Admits s.chain)
    (room : s.chain.length + depth + 1 = e.settings.maxIncludeDepth)
    (fresh : ∀ path, e.sources.resolve none r.path = .ok path → path ∉ s.chain) :
    p.running.session.chain = s.chain ++ p.chain ∧ e.Admits (s.chain ++ p.chain) ∧
      (s.chain ++ p.chain).length + p.depth = e.settings.maxIncludeDepth := by
  induction h with
  | @here depth r s o s₁ steps running opens reaches =>
    obtain ⟨resolved, -⟩ := openScript_ok opens
    refine ⟨chain_of_reaches (compilerBelow_isSound e depth) opens reaches, ?_, ?_⟩
    · exact admits.append (Tree.resolve_of_resolve resolved) (fresh _ resolved) (by omega)
    · show (s.chain ++ [o.path]).length + depth = _
      rw [List.length_append, List.length_singleton]
      omega
  | @inside depth r s o s₁ node rest running c relativeTo path i s₂ path' suffix s₃ p opens reaches
      calls meets accepts visits ih =>
    obtain ⟨resolved, -⟩ := openScript_ok opens
    have sound := compilerBelow_isSound e (depth + 1)
    -- the chain stays the same from the point of the including script to the included one
    obtain ⟨owns, -⟩ := reaches.works sound (owns_of_open opens)
    obtain ⟨_, -, -, met⟩ := meets.works sound owns.session
    obtain ⟨resolved', -, fresh', room', rfl⟩ := of_accept accepts
    have chain : s₃.chain = s.chain ++ [o.path] :=
      met.chain.trans (chain_of_reaches sound opens reaches)
    have admits' : e.Admits s₃.chain := chain ▸
      admits.append (Tree.resolve_of_resolve resolved) (fresh _ resolved) (by omega)
    have length : s₃.chain.length = s.chain.length + 1 := by
      rw [chain, List.length_append, List.length_singleton]
    have inner := ih admits' (by omega) fun q hq => by
      obtain rfl : path' = q :=
        Except.ok.inj ((Tree.resolve_of_resolve resolved').symm.trans hq)
      exact fresh'
    rw [chain, List.append_assoc] at inner
    exact inner

/-- Every compile of a script leaves the chain of open scripts as it found it, whether it succeeds
or not. At every point of a compile the chain holds the scripts that are open there, from the first
one inwards, each under its resolved path and none of them twice, and no more of them than may be
open. So a call that is about to include a file which is open fails; one that is about to include
any other file, while fewer scripts are open than may be, goes on to compile and merge the file. -/
theorem chain_of_visits (e : Engine) :
    (∀ depth r s, (compileScript e depth r s).2.chain = s.chain) ∧
      ∀ (table : Table) (path : String) (p : Point),
        Visits e (e.settings.maxIncludeDepth - 1) { path } { table } p →
        p.running.session.chain = p.chain ∧ e.Admits p.chain ∧
          ∀ c relativeTo file i s,
            Meets e (compilerBelow e p.depth) c p.running relativeTo file i s →
            s.chain = p.chain ∧
              ∀ found parser, e.sources.resolve relativeTo file = .ok found →
                e.parser? found = some parser →
                (found ∈ p.chain →
                  ScriptM.call e (compilerBelow e p.depth) c p.running =
                    (.error (.inclusion (.circular (p.chain ++ [found]))),
                      { p.running with session := s })) ∧
                (found ∉ p.chain → p.chain.length < e.settings.maxIncludeDepth →
                  ∃ below, p.depth = below + 1 ∧
                    includeFile e (compilerBelow e p.depth) p.running.frame.document relativeTo file
                        i s =
                      bringIn p.running.frame.document found i
                        (compileWith e (some (compileScript e below)) parser
                          (i.request p.running.frame.document found)) s) := by
  refine ⟨fun depth r s => ((compiles_compileScript depth r).keeps s).chain,
    fun table path p h => ?_⟩
  have start : (0 : Nat) + (e.settings.maxIncludeDepth - 1) + 1 = e.settings.maxIncludeDepth := by
    have := e.settings.maxIncludeDepth_pos
    omega
  obtain ⟨chain, admits, room⟩ := h.isGuarded e.admits_nil start fun _ _ => List.not_mem_nil
  refine ⟨chain, admits, fun c relativeTo file i s meets => ?_⟩
  obtain ⟨b, owns⟩ := h.owns
  obtain ⟨_, -, -, met⟩ := meets.works (compilerBelow_isSound e p.depth) owns.session
  have chain : s.chain = p.chain := met.chain.trans chain
  refine ⟨chain, fun found parser resolves takes => ⟨fun isOpen => ?_, fun notOpen more => ?_⟩⟩
  · refine meets.call_of_error (Step.run_bind_of_error ?_ _)
    rw [accept_eq resolves takes, chain, if_pos isOpen]
  · obtain ⟨below, hbelow⟩ : ∃ below, p.depth = below + 1 :=
      Nat.exists_eq_succ_of_ne_zero (by
        have room : p.chain.length + p.depth = e.settings.maxIncludeDepth := room
        omega)
    refine ⟨below, hbelow, ?_⟩
    have accepted : accept e relativeTo file i.skipsUnknown s =
        (.ok (some (found, parser)), s) := by
      rw [accept_eq resolves takes, chain, if_neg notOpen, if_neg (Nat.not_le.2 more)]
    rw [includeFile_of_accept accepted, hbelow]
    rfl

/-- A script that includes itself. -/
def selfIncluding : Engine := .ofScripts [("a.py", [
  .block { element := "databaseChangeLog" } [
    .call { element := "include", attributes := [("file", .literal (.text "a.py"))] }]])]

/-- The script comes to the include of itself, which fails. -/
theorem chain_of_visits_selfIncluding :
    ∃ p c i s,
      Visits selfIncluding 63 { path := "a.py" } { table := .ofRun none none none } p ∧
      Meets selfIncluding (compilerBelow selfIncluding p.depth) c p.running none "a.py" i s ∧
      p.running.session.chain = ["a.py"] ∧
      ScriptM.call selfIncluding (compilerBelow selfIncluding p.depth) c p.running =
        (.error (.inclusion (.circular ["a.py", "a.py"])), { p.running with session := s }) := by
  let c : Script.Call :=
    { element := "include", attributes := [("file", .literal (.text "a.py"))] }
  let s₁ : Session := (newDocument { path := "a.py" } none { table := .ofRun none none none }).2
  have opens : openScript selfIncluding { path := "a.py" } { table := .ofRun none none none } =
    (.ok { path := "a.py", nodes := [.block { element := "databaseChangeLog" } [.call c]],
           document := ⟨0⟩ }, s₁) := rfl
  -- the block is opened, and nothing is done in it before the include
  let r₁ : Running := (ScriptM.call selfIncluding (compilerBelow selfIncluding 63)
    { element := "databaseChangeLog" } (.start "a.py" ⟨0⟩ (s₁.opening "a.py"))).2
  let r₂ : Running := (ScriptM.enter 0 r₁).2
  have calls : ScriptM.call selfIncluding (compilerBelow selfIncluding 63)
    { element := "databaseChangeLog" } (.start "a.py" ⟨0⟩ (s₁.opening "a.py")) =
      (.ok (.scope 0), r₁) := rfl
  have enters : ScriptM.enter 0 r₁ = (.ok (), r₂) := rfl
  have reaches : Reaches selfIncluding (compilerBelow selfIncluding 63)
      ([.block { element := "databaseChangeLog" } [.call c]],
        .start "a.py" ⟨0⟩ (s₁.opening "a.py")) ([.call c], r₂) :=
    .single (.block calls enters)
  have prepares : ScriptM.prepare selfIncluding c r₂ =
      (.ok { element := .include, positional := [], attributes := [("file", .text "a.py")] }, r₂) :=
    rfl
  have reads : readInclude ⟨0⟩ [("file", .text "a.py")] (s₁.opening "a.py") = _ :=
    readInclude_file (by decide +kernel) (by decide) _ _
  have visits := Visits.here opens reaches
  have meets : Meets selfIncluding (compilerBelow selfIncluding 63) c r₂ none "a.py" _ _ :=
    .file prepares rfl reads
  have resolves : selfIncluding.sources.resolve none "a.py" = .ok "a.py" := rfl
  have takes : selfIncluding.parser? "a.py" = some (.script ".py") :=
    Engine.parser?_ofScripts (by decide +kernel)
  obtain ⟨chain, -, guard⟩ := (chain_of_visits selfIncluding).2 _ _ _ visits
  obtain ⟨-, guard⟩ := guard c none "a.py" _ _ meets
  have fails := (guard "a.py" _ resolves takes).1 (List.mem_singleton_self _)
  exact ⟨_, c, _, _, visits, meets, chain, fails⟩

end

end Migration
