import Migration.Mishap
import Migration.Text.Blank
import Migration.Text.Order
import Migration.Value.Equality

/-!
# Settings

The settings of a compiler: what scripts are called and how they are encoded, how deep includes may
go, whether extensions may be imported, and what is logged. They come from the environment and from
the host; what the host says wins.

* `Settings.load` — the settings, or the names of those with a bad value
-/

namespace Migration

/-- The settings of a compiler. -/
structure Settings where
  debug : Bool := false
  /-- How the paths of scripts end; the case of letters does not count. -/
  scriptSuffix : String := ".py"
  scriptEncoding : String := "utf-8"
  /-- How many scripts may be open at once, the first one included. -/
  maxIncludeDepth : Nat := 64
  allowDottedExtensions : Bool := true
  structuredLogging : Bool := false
  logLevel : String := "INFO"
  /-- At least one script can be open. -/
  maxIncludeDepth_pos : 0 < maxIncludeDepth := by decide
  deriving DecidableEq, Repr

instance : Inhabited Settings := ⟨{}⟩

namespace Settings

/-! ## Values of settings -/

/-- The integer in a text: digits with single underscores between them and perhaps a sign; zeros
after a decimal point do not count. -/
def integerOfText? (s : String) : Option Int :=
  let cs := Text.trimChars s.toList
  let (whole, fraction) := cs.span (· != '.')
  if (fraction.drop 1).all (· == '0') && cs.all (·.toNat < 0x80) then
    if whole.any Text.isBlank then none else Integer.parseChars? whole
  else none

/-- The integer that a value gives. -/
def integer? (v : Value) : Option Int :=
  match v with
  | .decimal d => (Binary64.ofDecimal d).integer?
  | v => match v.asText? with
    | some s => integerOfText? s
    | none => v.integer?

/-- The suffix with a point in front. -/
def dotted (s : String) : String := if Text.startsWith s "." then s else "." ++ s

/-- Sets a setting to a value; nothing if there is no such setting or the value is bad. -/
def assign? (s : Settings) (name : String) (v : Value) : Option Settings :=
  match name with
  | "debug" => v.flag?.map fun b => { s with debug := b }
  | "script_suffix" => v.asText?.map fun t => { s with scriptSuffix := dotted t }
  | "script_encoding" => v.asText?.map fun t => { s with scriptEncoding := t }
  | "max_include_depth" => do
    let n ← integer? v
    if h : 0 < n.toNat then some { s with maxIncludeDepth := n.toNat, maxIncludeDepth_pos := h }
    else none
  | "allow_dotted_extensions" => v.flag?.map fun b => { s with allowDottedExtensions := b }
  | "structured_logging" => v.flag?.map fun b => { s with structuredLogging := b }
  | "log_level" => v.asText?.map fun t => { s with logLevel := t }
  | _ => none

/-- The names of the settings. -/
def names : List String :=
  ["debug", "script_suffix", "script_encoding", "max_include_depth", "allow_dotted_extensions",
    "structured_logging", "log_level"]

/-! ## Loading -/

/-- What the names of environment variables start with. -/
def environmentMark : String := "changelog_"

/-- The settings that the environment gives; the case of variable names does not count. -/
def ofEnvironment (environment : List (String × String)) : List (String × Value) :=
  names.filterMap fun name =>
    let found := environment.filter fun (key, _) =>
      Text.lower key == environmentMark ++ name
    found.getLast?.map fun (_, value) => (name, .text value)

/-- The settings of the environment, except those that the host gives. -/
def merged (overrides : List (String × Value)) (environment : List (String × String)) :
    List (String × Value) :=
  (ofEnvironment environment).filter (fun (name, _) => !overrides.any (·.1 == name)) ++ overrides

/-- Sets one setting after the other; the names with a bad value are collected. -/
def assignAll (s : Settings) : List (String × Value) → Settings × List String
  | [] => (s, [])
  | (name, v) :: rest =>
    match s.assign? name v with
    | some s => s.assignAll rest
    | none =>
      let (s, bad) := s.assignAll rest
      (s, name :: bad)

/-- The settings that the host and the environment give. -/
def load (overrides : List (String × Value)) (environment : List (String × String)) :
    Except Mishap Settings :=
  match assignAll {} (merged overrides environment) with
  | (s, []) => return s
  | (_, bad) => throw (.invalidRecord "Settings" (Text.sort bad))

end Settings
end Migration
