import Migration.Compile.Attributes

/-!
# Discovery

Which files an element that names a directory stands for: those under the directory, at the depths
asked for, with the ending asked for, and admitted by a filter of the host; in code point order, or
as a comparator of the host says.

* `SessionM.expandPath` — the path that an attribute gives
* `SessionM.discover` — the files in order
-/

namespace Migration

namespace SessionM

/-- A path after expansion: with slashes only and without white space around it. -/
def checkedPath (name element : String) (path : String) : Except ParseFailure String :=
  if path.toList.contains '$' then throw (.unresolvedPath path element)
  else
    let path := Text.trimChars (Path.slashed path.toList)
    if path.isEmpty then throw (.emptyPath name element) else return String.ofList path

/-- The path that an attribute gives. Every placeholder in it must have a value. -/
def expandPath (document : DocumentId) (v : Value) (name element : String) : SessionM String := do
  if v.isNull then reject (.noPath name element)
  else
    let path ← expand document (.text v.print)
    ofCheck (checkedPath name element path.print)

/-- Where a relative path starts: at the script of the document, if it is relative to that. -/
def startingPath (document : DocumentId) (relative : Bool) : SessionM (Option String) := do
  let d ← SessionM.document document
  return if relative then some d.physicalPath else none

/-- The depth that an attribute gives, if it gives one. -/
def expandDepth (document : DocumentId) (v : Value) (name element : String) :
    SessionM (Option Int) := do
  if v.isNull then return none
  else
    match Integer.parse? (← expand document v).print with
    | some n => return some n
    | none => reject (.invalidDepth v.print name element)

end SessionM

/-- What discovery asks of a file. -/
structure Selection where
  minDepth : Int
  maxDepth : Option Int
  /-- How the path must end; the case of letters does not count. -/
  ending : Option String
  includes : Option (String → Bool)

namespace Selection

/-- How deep a file lies under a directory; a file right inside it has depth one. -/
def depth (directory path : String) : Int :=
  ((Path.components path).length : Int) - (Path.components directory).length

/-- Whether a file is selected. -/
def selects (s : Selection) (directory path : String) : Bool :=
  let d := depth directory path
  s.minDepth ≤ d &&
    (match s.maxDepth with | some m => d ≤ m | none => true) &&
    (match s.ending with
      | some e => Text.endsWith (Text.lower path) (Text.lower e)
      | none => true) &&
    (match s.includes with | some includes => includes path | none => true)

end Selection

/-- Paths in the order of a comparator, or else in code point order. Paths that compare equal stay
in code point order. -/
def ordered (compare : Option (String → String → Int)) (paths : List String) : List String :=
  match compare with
  | some compare => paths.mergeSort fun a b => !(compare b a < 0)
  | none => Text.sort paths

namespace SessionM

/-- The filter of the host that an attribute names, if it names one. -/
def namedFilter (e : Engine) (document : DocumentId) (v : Value) :
    SessionM (Option (String → Bool)) := do
  if v.isTruthy then
    let name ← expand document (.text v.print)
    some <$> ofExtension (e.extensions.filter name.print)
  else return none

/-- The comparator of the host that an attribute names, if it names one. -/
def namedComparator (e : Engine) (document : DocumentId) (v : Value) :
    SessionM (Option (String → String → Int)) := do
  if v.isTruthy then
    let name ← expand document (.text v.print)
    some <$> ofExtension (e.extensions.comparator name.print)
  else return none

/-- The files under the directory that an element names. A missing directory is an error unless it
is tolerated. -/
def listing (e : Engine) (relativeTo : Option String) (path element : String) (required : Bool) :
    SessionM (String × List String) := do
  let directory ← ofResource (e.sources.resolve relativeTo path)
  match e.sources.list relativeTo path true with
  | .ok files => return (directory, files)
  | .error error =>
    if error.family != .notFound then throw (.resource error)
    else if required then throw (.resource (.noScan documentOwner element path directory))
    else
      warn (.noDirectory path element)
      return (directory, [])

/-- The files that an element with a directory stands for, in order. -/
def discover (e : Engine) (document : DocumentId) (a : Attributes) (element : String) :
    SessionM (List String) := do
  let path ← expandPath document (a.get "path") "path" element
  let relative := a.flag "relativeToChangelogFile" false
  let required := a.flag "errorIfMissingOrEmpty" true
  let minDepth ← expandDepth document (a.get "minDepth") "minDepth" element
  let maxDepth ← expandDepth document (a.get "maxDepth") "maxDepth" element
  let ending ← expand document (a.get "endsWithFilter")
  let includes ← namedFilter e document (a.get "filter")
  let compare ← namedComparator e document (a.get "resourceComparator")
  let relativeTo ← startingPath document relative
  let (directory, files) ← listing e relativeTo path element required
  let selection : Selection := {
    minDepth := match minDepth with | some n => if n = 0 then 1 else n | none => 1
    maxDepth, includes
    ending := if ending.isTruthy then some ending.print else none }
  let paths := ordered compare (files.filter (selection.selects directory))
  if paths.isEmpty then
    if required then throw (.resource (.emptyScan documentOwner element path directory))
    else warn (.nothingFound element path)
  return paths

end SessionM
end Migration
