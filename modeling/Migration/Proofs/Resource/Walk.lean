import Migration.Proofs.Path

/-!
# Paths as walks

A path is a walk that starts at the root: a component is a step down, a step up or no step at all. A
path is resolved to the place where its walk ends. It is refused if its walk leads above the root
anywhere on its way, even if it comes back later.

* `Path.walk` — where a walk ends
* `Path.route` — the components that a path goes through
* `Path.normalize_fromRoot`, `Path.walk_fromRoot` — normal paths are the ends of walks
* `Tree.resolve_eq_walk` — a path is resolved to where its walk ends
-/

namespace Migration

namespace Path

/-! ## Walks -/

/-- Where one step leads; nothing if it leads above the root. Places are given by the names that
lead down to them, the last one first. -/
def advance (here : List String) (component : String) : Option (List String) :=
  if component = "" ∨ component = "." then some here
  else if component = ".." then here.tail?
  else some (component :: here)

/-- Where a walk ends that takes one step after the other; nothing if it leads above the root. -/
def walk (here components : List String) : Option (List String) := components.foldlM advance here

/-- The components of a path: what stands between its slashes, with backslashes read as slashes and
none at the start. -/
def written (path : String) : List String :=
  ((relative path.toList).splitOn '/').map String.ofList

/-- The components that a path goes through: those of what it is relative to, up to the last slash,
and then its own. -/
def route (relativeTo : Option String) (path : String) : List String :=
  (written (relativeTo.getD "")).dropLast ++ written path

variable {here next stop components : List String} {component : String}

theorem walk_cons (here : List String) (component : String) (rest : List String) :
    walk here (component :: rest) = (advance here component).bind (walk · rest) := rfl

/-- Components that are no steps can be left out. -/
theorem walk_filter (here components : List String) :
    walk here (components.filter (· != "")) = walk here components := by
  induction components generalizing here with
  | nil => rfl
  | cons component rest ih =>
    by_cases empty : component = ""
    · rw [List.filter_cons_of_neg (by simp [empty]), ih, walk_cons, empty]
      rfl
    · rw [List.filter_cons_of_pos (by simpa using empty), walk_cons, walk_cons]
      exact Option.bind_congr fun next _ => ih next

/-- Below the root a step is one of a normal path. -/
theorem step_of_advance (inside : ".." ∉ here) (leads : advance here component = some next) :
    step here component = next ∧ ".." ∉ next := by
  unfold advance at leads
  unfold step
  split at leads
  · next skip =>
    cases leads
    rw [if_pos (by simpa using skip)]
    exact ⟨rfl, inside⟩
  · next skip =>
    rw [if_neg (by simpa using skip)]
    split at leads
    · next up =>
      subst up
      cases here with
      | nil => cases leads
      | cons last above =>
        cases leads
        rw [List.mem_cons, not_or] at inside
        rw [if_pos (beq_self_eq_true _)]
        dsimp only
        rw [if_neg (by simpa using Ne.symm inside.1)]
        exact ⟨rfl, inside.2⟩
    · next down =>
      cases leads
      rw [if_neg (by simpa using down)]
      exact ⟨rfl, by simpa using ⟨Ne.symm down, inside⟩⟩

/-- A step above the root is the first one up in a normal path. -/
theorem step_of_advance_none (leads : advance here component = none) :
    step here component = [".."] := by
  unfold advance at leads
  split at leads
  · cases leads
  · split at leads
    · next up =>
      subst up
      cases here with
      | nil => rfl
      | cons last above => cases leads
    · cases leads

/-- What has once led above the root stays so. -/
theorem getLast?_step {done : List String} (above : done.getLast? = some "..")
    (component : String) : (step done component).getLast? = some ".." := by
  unfold step
  split
  · exact above
  · split
    · cases done with
      | nil => rfl
      | cons last rest =>
        dsimp only
        split
        · rw [List.getLast?_cons_cons]
          exact above
        · next down =>
          cases rest with
          | nil => exact absurd (by simpa using above) down
          | cons next more => rwa [List.getLast?_cons_cons] at above
    · cases done with
      | nil => cases above
      | cons last rest => rwa [List.getLast?_cons_cons]

theorem getLast?_foldl_step {done : List String} (above : done.getLast? = some "..")
    (components : List String) : (components.foldl step done).getLast? = some ".." := by
  induction components generalizing done with
  | nil => exact above
  | cons component rest ih => exact ih (getLast?_step above component)

/-- A walk that stays below the root gives the normal path, and no other walk does: after one that
leads above the root the normal path leads up first. -/
theorem foldl_step_eq_walk (inside : ".." ∉ here) (components : List String) :
    match walk here components with
    | some stop => components.foldl step here = stop ∧ ".." ∉ stop
    | none => (components.foldl step here).getLast? = some ".." := by
  induction components generalizing here with
  | nil => exact ⟨rfl, inside⟩
  | cons component rest ih =>
    rw [walk_cons, List.foldl_cons]
    cases leads : advance here component with
    | none =>
      rw [step_of_advance_none leads]
      exact getLast?_foldl_step rfl rest
    | some next =>
      obtain ⟨steps, below⟩ := step_of_advance inside leads
      rw [steps]
      exact ih below

/-! ## Steps of a text -/

/-- What stands between the slashes of a text, but for nothing. -/
def stretches (cs : List Char) : List (List Char) := (cs.splitOn '/').filter (!·.isEmpty)

theorem stretches_nil : stretches [] = [] := rfl

theorem stretches_append_slash (before after : List Char) :
    stretches (before ++ '/' :: after) = stretches before ++ stretches after := by
  unfold stretches
  rw [List.splitOn_append_cons_self, List.filter_append]

theorem stretches_joined (base path : List Char) :
    stretches (joined base path) = stretches base ++ stretches path := by
  unfold joined
  split
  · next empty => rw [List.isEmpty_iff.1 empty, stretches_nil, List.nil_append]
  · split
    · next slash =>
      obtain ⟨before, rfl⟩ := List.getLast?_eq_some_iff.1 (beq_iff_eq.1 slash)
      rw [List.append_assoc, List.singleton_append, stretches_append_slash, stretches_append_slash,
        stretches_nil, List.append_nil]
    · exact stretches_append_slash base path

/-- Slashes at the end do not count. -/
theorem stretches_dropWhile_reverse (cs : List Char) :
    stretches (cs.dropWhile (· == '/')).reverse = stretches cs.reverse := by
  induction cs with
  | nil => rfl
  | cons c rest ih =>
    by_cases slash : c = '/'
    · rw [List.dropWhile_cons_of_pos (by simpa using slash), ih, List.reverse_cons, slash,
        stretches_append_slash, stretches_nil, List.append_nil]
    · rw [List.dropWhile_cons_of_neg (by simpa using slash)]

/-- The directory of a resource is what stands before the last slash. -/
theorem stretches_parent (cs : List Char) :
    stretches (parent cs) = (cs.splitOn '/').dropLast.filter (!·.isEmpty) := by
  have cut := List.takeWhile_append_dropWhile (p := (· != '/')) (l := cs.reverse)
  have name : ∀ c ∈ cs.reverse.takeWhile (· != '/'), c ≠ '/' := fun c hc => by
    simpa using List.all_eq_true.1 List.all_takeWhile c hc
  generalize hn : cs.reverse.takeWhile (· != '/') = last at cut name
  unfold parent
  cases rest : cs.reverse.dropWhile (· != '/') with
  | nil =>
    have alone : '/' ∉ cs := fun mem => by
      rw [rest, List.append_nil] at cut
      exact name '/' (cut ▸ List.mem_reverse.2 mem) rfl
    rw [List.splitOn_eq_singleton alone]
    rfl
  | cons c before =>
    have slash : c = '/' := by
      have := List.head?_dropWhile_not (· != '/') cs.reverse
      rw [rest] at this
      simpa using this
    subst slash
    have whole : cs = before.reverse ++ '/' :: last.reverse := by
      rw [← List.reverse_reverse cs, ← cut, rest]
      simp
    have alone : '/' ∉ last.reverse := fun mem => name '/' (List.mem_reverse.1 mem) rfl
    rw [stretches_dropWhile_reverse, whole, List.splitOn_append_cons_self,
      List.splitOn_eq_singleton alone, List.dropLast_concat, List.reverse_cons,
      stretches_append_slash, stretches_nil, List.append_nil]
    rfl

theorem filter_map_ofList (parts : List (List Char)) :
    (parts.map String.ofList).filter (· != "") = (parts.filter (!·.isEmpty)).map String.ofList := by
  rw [List.filter_map]
  congr 1
  refine List.filter_congr fun part _ => ?_
  cases part with
  | nil => rfl
  | cons c rest => simp

/-- A path as it is written from the root is the same walk as its route. -/
theorem walk_fromRoot (relativeTo : Option String) (path : String) :
    walk [] (((Tree.fromRoot relativeTo path).splitOn '/').map String.ofList) =
      walk [] (route relativeTo path) := by
  have steps : stretches (Tree.fromRoot relativeTo path) =
      ((relative (relativeTo.getD "").toList).splitOn '/').dropLast.filter (!·.isEmpty) ++
        stretches (relative path.toList) := by
    unfold Tree.fromRoot
    dsimp only
    split
    · next nothing =>
      rw [String.isEmpty_iff.1 nothing]
      rfl
    · rw [stretches_joined, stretches_parent]
  rw [← walk_filter, filter_map_ofList, ← walk_filter [] (route relativeTo path)]
  unfold route written
  rw [List.filter_append, ← List.map_dropLast, filter_map_ofList, filter_map_ofList,
    ← List.map_append]
  exact congrArg (fun parts => walk [] (parts.map String.ofList)) steps

/-- The normal path is the end of the walk, or leads up first if there is none. -/
theorem normalize_fromRoot (relativeTo : Option String) (path : String) :
    match walk [] (route relativeTo path) with
    | some stop => normalize (Tree.fromRoot relativeTo path) = stop.reverse ∧ ".." ∉ stop
    | none => (normalize (Tree.fromRoot relativeTo path)).head? = some ".." := by
  have ends := foldl_step_eq_walk List.not_mem_nil
    (((Tree.fromRoot relativeTo path).splitOn '/').map String.ofList)
  rw [walk_fromRoot] at ends
  unfold normalize
  rw [Text.splitOn_eq]
  cases walks : walk [] (route relativeTo path) with
  | none =>
    rw [walks] at ends
    rwa [List.head?_reverse]
  | some stop =>
    rw [walks] at ends
    exact ⟨congrArg List.reverse ends.1, ends.2⟩

end Path

namespace Tree

variable {α : Type}

/-- A path is resolved to the place where its walk ends; one whose walk leads above the root is
refused. -/
theorem resolve_eq_walk (t : Tree α) (relativeTo : Option String) (path : String) :
    t.resolve relativeTo path =
      match Path.walk [] (Path.route relativeTo path) with
      | some stop => .ok (Path.ofComponents stop.reverse)
      | none => .error (.outside (String.ofList (fromRoot relativeTo path)) t.root) := by
  have ends := Path.normalize_fromRoot relativeTo path
  unfold resolve
  cases walks : Path.walk [] (Path.route relativeTo path) with
  | none =>
    rw [walks] at ends
    dsimp only
    rw [if_pos (by simpa using ends)]
    rfl
  | some stop =>
    rw [walks] at ends
    obtain ⟨same, below⟩ := ends
    dsimp only
    rw [same, if_neg fun up => below ?_]
    · rfl
    · exact List.mem_reverse.1 (List.mem_of_mem_head? (beq_iff_eq.1 up))

end Tree
end Migration
