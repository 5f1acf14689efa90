import Migration.Proofs.Inclusion.Discovery
import Migration.Proofs.Inclusion.Repetition
import Migration.Proofs.Text

/-!
# Names of extensions

A name is first looked for among the extensions that are registered. If it is not there and imports
are allowed, it is cut into a module and a member, the member is looked for in the module, and what
is found there is made. Each of these steps can go wrong, and what goes wrong is a failure that
tells the name; only a module with a relative name is a mishap of another kind.

* `Extensions.IsCut` — a name cut into a module and a member
* `Extensions.Finds` — where an extension comes from
* `Extensions.Resolves` — what comes of a name, step by step
* `Extensions.resolve_eq_iff` — what comes of a name is just that
* `Attributes.Names`, `SessionM.act_of_names` — an element that names an extension of which nothing
  comes
* `Extensions.resolve_of_name` — an extension that can do what it is needed for, or a failure with
  the name
-/

namespace Migration

namespace Extensions

/-! ## Names cut in two -/

/-- A name cut into a module and a member: at its first colon, or at its last point if it has no
colon. -/
inductive IsCut : List Char → List Char → List Char → Prop
  | colon {module member} (first : ':' ∉ module) : IsCut (module ++ ':' :: member) module member
  | point {module member} (noColon : ':' ∉ module ++ '.' :: member) (last : '.' ∉ member) :
      IsCut (module ++ '.' :: member) module member

section

variable {name : String} {module member : List Char}

theorem splitName_of_isCut (h : IsCut name.toList module member) :
    splitName name = (module, member) := by
  unfold splitName
  generalize name.toList = cs at h
  cases h with
  | colon first =>
    rw [if_pos (by simp), Text.span_append first]
    rfl
  | point noColon last =>
    rw [if_neg (by simpa using noColon), Text.span_reverse last]
    simp

/-- A name that cannot be cut has no module. -/
theorem splitName_of_uncut (h : ∀ module member, ¬IsCut name.toList module member) :
    splitName name = ([], name.toList) := by
  have noColon : ':' ∉ name.toList := by
    intro mem
    obtain ⟨module, member, split, first⟩ := List.eq_append_cons_of_mem mem
    exact h module member (split ▸ .colon first)
  have noPoint : '.' ∉ name.toList := by
    intro mem
    obtain ⟨module, member, whole, last⟩ := Text.exists_last_cut mem
    rw [whole] at noColon
    exact h module member (whole ▸ .point noColon last)
  unfold splitName
  dsimp only
  rw [if_neg (by simpa using noColon), Text.span_of_not_mem (by simpa using noPoint)]
  simp

theorem splitName_eq_iff (named : module ≠ []) :
    splitName name = (module, member) ↔ IsCut name.toList module member := by
  refine ⟨fun split => ?_, splitName_of_isCut⟩
  by_cases cut : ∃ module member, IsCut name.toList module member
  · obtain ⟨module', member', cut⟩ := cut
    obtain ⟨rfl, rfl⟩ := Prod.mk.inj ((splitName_of_isCut cut).symm.trans split)
    exact cut
  · push Not at cut
    obtain ⟨rfl, -⟩ := Prod.mk.inj ((splitName_of_uncut cut).symm.trans split)
    exact absurd rfl named

end

/-! ## Where an extension comes from -/

/-- What is registered for a slot, the later ones first. -/
def registered (x : Extensions) : Slot → List (String × Extension.Source)
  | .filter => x.filters
  | .comparator => x.comparators

/-- A name that is not registered and is imported as a member of a module. -/
structure Imports (x : Extensions) (slot : Slot) (name : String) (module member : List Char) :
    Prop where
  unregistered : (x.registered slot).lookup name = none
  allowed : x.allowImports = true
  cut : IsCut name.toList module member
  module_ne : module ≠ []
  member_ne : member ≠ []

/-- Names lead to a member of a module, one after the other. A group of members can be found, but it
is nothing that can be used. -/
inductive Leads : List (String × Extension.Member) → List String → Extension.Source → Prop
  | source {members name source} (found : members.lookup name = some (.source source)) :
      Leads members [name] source
  | group {members name inside} (found : members.lookup name = some (.group inside)) :
      Leads members [name] (.instance .inert)
  | inside {members name inside next rest source}
      (found : members.lookup name = some (.group inside))
      (more : Leads inside (next :: rest) source) : Leads members (name :: next :: rest) source

/-- The names that lead to a member, which stand between points. -/
def steps (member : List Char) : List String := (Text.splitOn '.' member).map String.ofList

/-- What a name stands for: what was registered last under it, or else a member of a module that can
be imported, unless the name of the module is relative. -/
inductive Finds (x : Extensions) (slot : Slot) (name : String) : Extension.Source → Prop
  | registered {source} (found : (x.registered slot).lookup name = some source) :
      Finds x slot name source
  | imported {module member members source} (imports : x.Imports slot name module member)
      (absolute : module.head? ≠ some '.')
      (known : x.modules.lookup (String.ofList module) = some members)
      (leads : Leads members (steps member) source) : Finds x slot name source

/-- The extension that a source yields: the one that is there, or the one that is made. -/
inductive Yields : Extension.Source → Extension → Prop
  | there (extension) : Yields (.instance extension) extension
  | made (extension) : Yields (.factory (.ok extension)) extension

/-- An extension can do what a slot needs. -/
def Slot.Takes : Slot → Extension → Prop
  | filter, extension => ∃ includes, extension = .filter includes
  | comparator, extension => ∃ compare, extension = .comparator compare

/-- What comes of a name that an extension is needed under. -/
inductive Resolves (x : Extensions) (slot : Slot) (name : String) : Except Problem Extension → Prop
  | extension {source extension} (finds : x.Finds slot name source)
      (yields : Yields source extension)
      (takes : slot.Takes extension) : Resolves x slot name (.ok extension)
  | notRegistered (unregistered : (x.registered slot).lookup name = none)
      (closed : x.allowImports = false) :
      Resolves x slot name (.error (.failure (.notRegistered slot name)))
  | notImportable (unregistered : (x.registered slot).lookup name = none)
      (allowed : x.allowImports = true)
      (uncut : ∀ module member, ¬x.Imports slot name module member) :
      Resolves x slot name (.error (.failure (.notImportable slot name)))
  | relative {module member} (imports : x.Imports slot name module member)
      (relative : module.head? = some '.') :
      Resolves x slot name (.error (.mishap (.relativeModule (String.ofList module))))
  | noModule {module member} (imports : x.Imports slot name module member)
      (absolute : module.head? ≠ some '.')
      (unknown : x.modules.lookup (String.ofList module) = none) :
      Resolves x slot name (.error (.failure (.noModule slot name (String.ofList module))))
  | noMember {module member members} (imports : x.Imports slot name module member)
      (absolute : module.head? ≠ some '.')
      (known : x.modules.lookup (String.ofList module) = some members)
      (lost : ∀ source, ¬Leads members (steps member) source) :
      Resolves x slot name
        (.error (.failure (.noMember slot name (String.ofList module) (String.ofList member))))
  | notMade {reason} (finds : x.Finds slot name (.factory (.error reason))) :
      Resolves x slot name (.error (.failure (.notMade slot name reason)))
  | incapable {source extension} (finds : x.Finds slot name source)
      (yields : Yields source extension)
      (unfit : ¬slot.Takes extension) :
      Resolves x slot name (.error (.failure (.incapable slot name)))

/-- The extension that a name stands for, if it fits the slot. -/
def resolve (x : Extensions) : Slot → String → Except Problem Extension
  | .filter, name => .filter <$> x.filter name
  | .comparator, name => .comparator <$> x.comparator name

variable {x : Extensions} {slot : Slot} {name : String} {module member : List Char}
  {members : List (String × Extension.Member)} {source : Extension.Source}

/-! ## Looking for a member -/

/-- The source that a member of a module is taken for. -/
def sourceOf : Extension.Member → Extension.Source
  | .source source => source
  | .group _ => .instance .inert

theorem leads_iff {names : List String} :
    Leads members names source ↔ (member? members names).map sourceOf = some source := by
  constructor
  · intro h
    induction h with
    | source found => rw [member?, found]; rfl
    | group found => rw [member?, found]; rfl
    | inside found more ih =>
      rw [member?, found]
      · exact ih
      · exact List.cons_ne_nil _ _
  · intro h
    fun_induction member? members names with
    | case1 => cases h
    | case2 members name =>
      obtain ⟨member, found, rfl⟩ := Option.map_eq_some_iff.1 h
      cases member with
      | source source => exact .source found
      | group inside => exact .group found
    | case3 members name rest some_ inside found ih =>
      obtain ⟨next, rest, rfl⟩ := List.exists_cons_of_ne_nil some_
      exact .inside found (ih h)
    | case4 => cases h

/-! ## Importing -/

theorem source_eq : x.source slot name =
    match (x.registered slot).lookup name with
    | some source => .ok source
    | none =>
      if x.allowImports then x.importSource slot name
      else .error (.failure (.notRegistered slot name)) := by
  cases slot <;> rfl

theorem startsWith_point : Text.startsWith (String.ofList module) "." = true ↔
    module.head? = some '.' := by
  unfold Text.startsWith
  rw [String.toList_ofList, String.toList_ofList]
  cases module with
  | nil => exact ⟨nofun, nofun⟩
  | cons c rest =>
    show (('.' == c) && true) = true ↔ some c = some '.'
    rw [Bool.and_true, beq_iff_eq, Option.some_inj]
    exact eq_comm

theorem source_of_unregistered (unregistered : (x.registered slot).lookup name = none)
    (allowed : x.allowImports = true) : x.source slot name = x.importSource slot name := by
  rw [source_eq, unregistered]
  exact if_pos allowed

/-- What a name that is cut in two imports. -/
theorem source_of_imports (imports : x.Imports slot name module member) :
    x.source slot name =
      if module.head? = some '.' then .error (.mishap (.relativeModule (String.ofList module)))
      else match x.modules.lookup (String.ofList module) with
        | none => .error (.failure (.noModule slot name (String.ofList module)))
        | some members =>
          match (member? members (steps member)).map sourceOf with
          | none =>
            .error (.failure (.noMember slot name (String.ofList module) (String.ofList member)))
          | some source => .ok source := by
  rw [source_of_unregistered imports.unregistered imports.allowed]
  unfold importSource
  rw [splitName_of_isCut imports.cut]
  dsimp only
  rw [List.isEmpty_eq_false_iff.2 imports.module_ne, List.isEmpty_eq_false_iff.2 imports.member_ne]
  refine (if_neg (by decide)).trans (if_congr startsWith_point rfl ?_)
  cases x.modules.lookup (String.ofList module) with
  | none => rfl
  | some members =>
    dsimp only
    unfold steps
    generalize member? members ((Text.splitOn '.' member).map String.ofList) = found
    rcases found with _ | _ | _ <;> rfl

/-- A name that nothing can be imported under is the name of no module with a member. -/
theorem source_of_uncut (unregistered : (x.registered slot).lookup name = none)
    (allowed : x.allowImports = true)
    (uncut : ∀ module member, ¬x.Imports slot name module member) :
    x.source slot name = .error (.failure (.notImportable slot name)) := by
  rw [source_of_unregistered unregistered allowed]
  unfold importSource
  generalize split : splitName name = parts
  obtain ⟨module, member⟩ := parts
  refine if_pos ?_
  by_contra both
  simp only [Bool.or_eq_true, List.isEmpty_iff, not_or] at both
  exact uncut module member ⟨unregistered, allowed, (splitName_eq_iff both.1).1 split,
    both.1, both.2⟩

theorem source_of_finds (finds : x.Finds slot name source) : x.source slot name = .ok source := by
  cases finds with
  | registered found => rw [source_eq, found]
  | imported imports absolute known leads =>
    rw [source_of_imports imports, if_neg absolute, known]
    dsimp only
    rw [leads_iff.1 leads]

/-! ## What comes of a name -/

/-- What comes of a source: the extension that it gives, if it fits the slot. -/
def fit (slot : Slot) (name : String) : Extension.Source → Except Problem Extension
  | .factory (.error reason) => .error (.failure (.notMade slot name reason))
  | .instance extension | .factory (.ok extension) =>
    match slot, extension with
    | .filter, .filter includes => .ok (.filter includes)
    | .comparator, .comparator compare => .ok (.comparator compare)
    | slot, _ => .error (.failure (.incapable slot name))

theorem resolve_eq : x.resolve slot name = x.source slot name >>= fit slot name := by
  cases slot with
  | filter =>
    show Extension.filter <$> (x.source .filter name >>= _ >>= _) = _
    rcases x.source .filter name with problem | (_ | _ | _) | _ | (_ | _ | _) <;> rfl
  | comparator =>
    show Extension.comparator <$> (x.source .comparator name >>= _ >>= _) = _
    rcases x.source .comparator name with problem | (_ | _ | _) | _ | (_ | _ | _) <;> rfl

theorem fit_of_takes {extension : Extension} (yields : Yields source extension)
    (takes : slot.Takes extension) : fit slot name source = .ok extension := by
  cases slot with
  | filter =>
    obtain ⟨includes, rfl⟩ := takes
    cases yields <;> rfl
  | comparator =>
    obtain ⟨compare, rfl⟩ := takes
    cases yields <;> rfl

theorem fit_of_not_takes {extension : Extension} (yields : Yields source extension)
    (unfit : ¬slot.Takes extension) :
    fit slot name source = .error (.failure (.incapable slot name)) := by
  cases slot <;> cases extension <;> cases yields <;>
    first | rfl | exact absurd ⟨_, rfl⟩ unfit

/-- What is said to come of a name comes of it. -/
theorem Resolves.resolve_eq {r : Except Problem Extension} (h : x.Resolves slot name r) :
    x.resolve slot name = r := by
  rw [Extensions.resolve_eq]
  cases h with
  | extension finds yields takes =>
    rw [source_of_finds finds]
    exact fit_of_takes yields takes
  | notRegistered unregistered closed =>
    rw [source_eq, unregistered, closed]
    rfl
  | notImportable unregistered allowed uncut =>
    rw [source_of_uncut unregistered allowed uncut]
    rfl
  | relative imports relative =>
    rw [source_of_imports imports, if_pos relative]
    rfl
  | noModule imports absolute unknown =>
    rw [source_of_imports imports, if_neg absolute, unknown]
    rfl
  | @noMember module member members imports absolute known lost =>
    have nowhere : (member? members (steps member)).map sourceOf = none :=
      Option.eq_none_iff_forall_ne_some.2 fun source leads => lost source (leads_iff.2 leads)
    rw [source_of_imports imports, if_neg absolute, known]
    dsimp only
    rw [nowhere]
    rfl
  | notMade finds =>
    rw [source_of_finds finds]
    rfl
  | incapable finds yields unfit =>
    rw [source_of_finds finds]
    exact fit_of_not_takes yields unfit

/-- Something comes of every name. -/
theorem exists_resolves (x : Extensions) (slot : Slot) (name : String) :
    ∃ r, x.Resolves slot name r := by
  by_cases found : ∃ source, x.Finds slot name source
  · obtain ⟨source, finds⟩ := found
    have given : ∀ extension, Yields source extension → ∃ r, x.Resolves slot name r := by
      intro extension yields
      by_cases takes : slot.Takes extension
      · exact ⟨_, .extension finds yields takes⟩
      · exact ⟨_, .incapable finds yields takes⟩
    match source with
    | .instance extension => exact given extension (.there extension)
    | .factory (.ok extension) => exact given extension (.made extension)
    | .factory (.error reason) => exact ⟨_, .notMade finds⟩
  · have unregistered : (x.registered slot).lookup name = none :=
      Option.eq_none_iff_forall_ne_some.2 fun source here => found ⟨source, .registered here⟩
    cases allowed : x.allowImports with
    | false => exact ⟨_, .notRegistered unregistered allowed⟩
    | true =>
      by_cases cut : ∃ module member, x.Imports slot name module member
      · obtain ⟨module, member, imports⟩ := cut
        by_cases relative : module.head? = some '.'
        · exact ⟨_, .relative imports relative⟩
        · cases known : x.modules.lookup (String.ofList module) with
          | none => exact ⟨_, .noModule imports relative known⟩
          | some members =>
            exact ⟨_, .noMember imports relative known fun source leads =>
              found ⟨source, .imported imports relative known leads⟩⟩
      · push Not at cut
        exact ⟨_, .notImportable unregistered allowed cut⟩

/-- What comes of a name is what is said to come of it, and nothing else. -/
theorem resolve_eq_iff {r : Except Problem Extension} :
    x.resolve slot name = r ↔ x.Resolves slot name r := by
  refine ⟨?_, Resolves.resolve_eq⟩
  obtain ⟨r', resolves⟩ := exists_resolves x slot name
  rintro rfl
  rwa [resolves.resolve_eq]

/-- The name of an extension starts with a point, and there is a module before the point or the
colon that cuts it: an import relative to nothing. -/
def IsRelative (x : Extensions) (slot : Slot) (name : String) : Prop :=
  ∃ module member, x.Imports slot name module member ∧ module.head? = some '.'

/-- Every failure tells the name. -/
theorem Resolves.name_eq {f : Failure} (h : x.Resolves slot name (.error (.failure f))) :
    f.name = name := by
  cases h <;> rfl

/-- The extension that comes of a name can do what it is needed for. -/
theorem Resolves.takes {extension : Extension} (h : x.Resolves slot name (.ok extension)) :
    slot.Takes extension := by
  cases h with
  | extension finds yields takes => exact takes

theorem Resolves.isRelative {m : Mishap} (h : x.Resolves slot name (.error (.mishap m))) :
    x.IsRelative slot name := by
  cases h with
  | relative imports relative => exact ⟨_, _, imports, relative⟩

/-- A relative name comes to a mishap. -/
theorem resolve_of_isRelative (h : x.IsRelative slot name) :
    ∃ module, x.resolve slot name = .error (.mishap (.relativeModule module)) := by
  obtain ⟨module, member, imports, relative⟩ := h
  exact ⟨String.ofList module, (Resolves.relative imports relative).resolve_eq⟩

/-- Names come to an extension that fits or to a failure that tells them, unless they are
relative. -/
theorem fits_or_fails_iff :
    ((∃ extension, x.resolve slot name = .ok extension ∧ slot.Takes extension) ∨
        ∃ f, x.resolve slot name = .error (.failure f) ∧ f.name = name) ↔
      ¬x.IsRelative slot name := by
  constructor
  · rintro answers relative
    obtain ⟨module, mishap⟩ := resolve_of_isRelative relative
    rw [mishap] at answers
    obtain ⟨_, h, -⟩ | ⟨_, h, -⟩ := answers <;> cases h
  · intro absolute
    have resolves : x.Resolves slot name (x.resolve slot name) := resolve_eq_iff.1 rfl
    cases h : x.resolve slot name with
    | ok extension => exact .inl ⟨extension, rfl, (h ▸ resolves).takes⟩
    | error problem =>
      cases problem with
      | failure f => exact .inr ⟨f, rfl, (h ▸ resolves).name_eq⟩
      | mishap m => exact absurd (h ▸ resolves).isRelative absolute

theorem error_of_map {α β ε : Type} {y : Except ε α} {f : α → β} {problem : ε}
    (h : f <$> y = .error problem) : y = .error problem := by
  cases y with
  | ok => cases h
  | error => exact congrArg Except.error (Except.error.inj h)

/-- The attribute that names an extension for a slot. -/
def Slot.attribute : Slot → String
  | filter => "filter"
  | comparator => "resourceComparator"

end Extensions

/-! ## Elements that name an extension -/

/-- What an element with a directory is called, and which attributes it has. -/
def Element.scan? : Element → Option (String × List String)
  | includeAll => some ("includeAll", SessionM.includeAllAttributes)
  | includeAllSql => some ("includeAllSql", SessionM.includeAllSqlAttributes)
  | _ => none

/-- Attributes name an extension for a slot, and what is read before it can be read: the path, the
depths and the ending, and, for a comparator, the filter. -/
structure Attributes.Names (a : Attributes) (e : Engine) (d : DocumentId) (element : String)
    (slot : Extensions.Slot) (name : String) (s : Session) : Prop where
  path : ∃ path, SessionM.expandPath d (a.get "path") "path" element s = (.ok path, s)
  minDepth : ∃ n, SessionM.expandDepth d (a.get "minDepth") "minDepth" element s = (.ok n, s)
  maxDepth : ∃ n, SessionM.expandDepth d (a.get "maxDepth") "maxDepth" element s = (.ok n, s)
  ending : ∃ v, SessionM.expand d (a.get "endsWithFilter") s = (.ok v, s)
  filter : slot = .comparator →
    ∃ includes, SessionM.namedFilter e d (a.get "filter") s = (.ok includes, s)
  given : a.given slot.attribute = true
  expands : SessionM.expand d (.text (a.get slot.attribute).print) s = (.ok (.text name), s)

namespace SessionM

variable {e : Engine} {compiler : Compiler} {d : DocumentId} {a : Attributes} {element : String}
  {slot : Extensions.Slot} {name : String} {problem : Extensions.Problem} {s : Session}

theorem namedFilter_of_error {v : Value} (given : v.isTruthy = true)
    (expands : expand d (.text v.print) s = (.ok (.text name), s))
    (bad : e.extensions.resolve .filter name = .error problem) :
    namedFilter e d v s = (.error (.ofExtension problem), s) := by
  have bad : e.extensions.filter name = .error problem := Extensions.error_of_map bad
  unfold namedFilter
  rw [if_pos given, Step.run_bind_of_ok expands, show (Value.text name).print = name from rfl, bad]
  rfl

theorem namedComparator_of_error {v : Value} (given : v.isTruthy = true)
    (expands : expand d (.text v.print) s = (.ok (.text name), s))
    (bad : e.extensions.resolve .comparator name = .error problem) :
    namedComparator e d v s = (.error (.ofExtension problem), s) := by
  have bad : e.extensions.comparator name = .error problem := Extensions.error_of_map bad
  unfold namedComparator
  rw [if_pos given, Step.run_bind_of_ok expands, show (Value.text name).print = name from rfl, bad]
  rfl

/-- A discovery that needs an extension of which nothing comes fails before it looks for files. -/
theorem discover_of_names (names : a.Names e d element slot name s)
    (bad : e.extensions.resolve slot name = .error problem) :
    discover e d a element s = (.error (.ofExtension problem), s) := by
  obtain ⟨path, hpath⟩ := names.path
  obtain ⟨least, hleast⟩ := names.minDepth
  obtain ⟨most, hmost⟩ := names.maxDepth
  obtain ⟨ending, hending⟩ := names.ending
  unfold discover
  rw [Step.run_bind_of_ok hpath]
  dsimp only
  rw [Step.run_bind_of_ok hleast, Step.run_bind_of_ok hmost, Step.run_bind_of_ok hending]
  cases slot with
  | filter => exact Step.run_bind_of_error (namedFilter_of_error names.given names.expands bad) _
  | comparator =>
    obtain ⟨includes, hincludes⟩ := names.filter rfl
    rw [Step.run_bind_of_ok hincludes]
    exact Step.run_bind_of_error (namedComparator_of_error names.given names.expands bad) _

/-- Attributes that are handed on name the same extension. -/
theorem names_only {names : List String} (shared : ∀ name ∈ discoveryAttributes, name ∈ names)
    (h : a.Names e d element slot name s) : (a.only names).Names e d element slot name s := by
  have get : ∀ name ∈ discoveryAttributes, (a.only names).get name = a.get name := fun name mem =>
    Attributes.get_only (shared name mem)
  have own : slot.attribute ∈ discoveryAttributes := by cases slot <;> decide
  have given := h.given
  have expands := h.expands
  unfold Attributes.given at given
  rw [← get _ own] at given expands
  refine ⟨?_, ?_, ?_, ?_, ?_, given, expands⟩
  · rw [get "path" (by decide)]
    exact h.path
  · rw [get "minDepth" (by decide)]
    exact h.minDepth
  · rw [get "maxDepth" (by decide)]
    exact h.maxDepth
  · rw [get "endsWithFilter" (by decide)]
    exact h.ending
  · rw [get "filter" (by decide)]
    exact h.filter

/-- An element with a directory that needs an extension of which nothing comes fails with just that,
whatever files there are and whether or not some are required, and changes nothing. -/
theorem act_of_names {x : Element} {allowed : List String}
    (scans : x.scan? = some (element, allowed))
    (valid : a.validate documentOwner element allowed = .ok ())
    (names : a.Names e d element slot name s)
    (bad : e.extensions.resolve slot name = .error problem) (positional : List Value) :
    act e compiler d x positional a s = (.error (.ofExtension problem), s) := by
  have checks := ofCheck_of_ok valid s
  unfold act
  cases x with
  | includeAll =>
    obtain ⟨rfl, rfl⟩ := Prod.mk.inj (Option.some.inj scans)
    refine Step.run_bind_of_error (Step.run_bind_of_error ?_ _) _
    exact (Step.run_bind_of_ok checks _).trans
      (Step.run_bind_of_error (discover_of_names names bad) _)
  | includeAllSql =>
    obtain ⟨rfl, rfl⟩ := Prod.mk.inj (Option.some.inj scans)
    refine Step.run_bind_of_error (Step.run_bind_of_error ?_ _) _
    have named := discover_of_names (names_only (fun _ mem => mem) names) bad
    exact (Step.run_bind_of_ok checks _).trans (Step.run_bind_of_error named _)
  | _ => cases scans

end SessionM

namespace Extensions

end Extensions

end Migration
