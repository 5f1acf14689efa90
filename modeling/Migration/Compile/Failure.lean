import Migration.Extension
import Migration.Properties
import Migration.Record.Coerce
import Migration.Resource.Encoding
import Migration.Resource.Error
import Migration.Script.Language

/-!
# Failures to compile

Why a change log does not compile. Four families reach the host: a script that is no valid change
log, includes that go round or too deep, missing resources, and extensions that cannot be found. Two
more arise inside scripts and are turned into the first family when they leave a script: a name that
stands for nothing, and a mishap with a value. A script that ends the program is no failure of a
change log, and reaches the host as it is.

* `ParseFailure`, `InclusionFailure` — the causes of the first two families
* `Failure` — all families
-/

namespace Migration

open Text

/-- How an element was called with arguments that it does not take. -/
inductive ArgumentProblem where
  | tooMany
  | missing (name : String)
  | unexpected (name : String)
  | twice (name : String)
  deriving DecidableEq, Repr

/-- The message about arguments. -/
def ArgumentProblem.message : ArgumentProblem → String
  | tooMany => "too many positional arguments"
  | missing name => s!"missing a required argument: '{name}'"
  | unexpected name => s!"got an unexpected keyword argument '{name}'"
  | twice name => s!"multiple values for argument '{name}'"

/-- The block in which an element does not belong. Blocks inside change sets know the change set, as
it appears in messages, and the change. -/
inductive Surroundings where
  | script
  | changeLog
  | changeSet (owner : String)
  | rollback (owner : String)
  | change (owner change : String)
  | whereParams (owner change : String)
  | column (owner change : String)
  | preconditions (owner : String)
  | leaf (owner element : String)
  | modifySql (owner : String)
  deriving DecidableEq, Repr

/-- The owner of the elements outside change sets in messages. -/
def documentOwner : String := "DatabaseChangeLog"

/-- The message about an element that does not belong. -/
def Surroundings.misplaced (name : String) : Surroundings → String
  | script => s!"Unrecognized root element {name}"
  | changeLog =>
    s!"{documentOwner}: '{name}' is not a valid element of a DatabaseChangeLog"
  | changeSet owner => s!"{owner}: '{name}' is not a valid changeSet element"
  | rollback owner => s!"{owner}: '{name}' is not a valid element of a rollback"
  | change owner type => s!"{owner}: '{name}' is not a valid child element of {type} changes"
  | whereParams owner type =>
    s!"{owner}: '{name}' is not a valid child element of whereParams closures in {type} changes"
  | column owner type =>
    s!"{owner}: '{name}' is not a valid child element of constraint closures in {type} changes"
  | preconditions owner => s!"{owner}: '{name}' is not a valid precondition"
  | leaf owner element => s!"{owner}: '{name}' is not a valid child element of '{element}'"
  | modifySql owner => s!"{owner}: '{name}' is not a valid child element of modifySql closures."

/-- What an attribute was given for, when the attribute cannot be set. -/
inductive Target where
  | container
  | change (name : String)
  | column (change : String)
  | constraint (change : String)
  | whereParam (change : String)
  | precondition (name : String)
  | visitor (name : String)
  deriving DecidableEq, Repr

/-- The message about an attribute that cannot be set. -/
def Target.invalid (owner key : String) : Target → String
  | container => s!"{owner}: '{key}' is not a valid attribute for preConditions"
  | change name => s!"{owner}: '{key}' is not a valid attribute for '{name}' changes."
  | column type => s!"{owner}: '{key}' is not a valid column attribute for '{type}' changes."
  | constraint type =>
    s!"{owner}: '{key}' is not a valid constraint attribute for '{type}' changes."
  | whereParam type =>
    s!"{owner}: '{key}' is not a valid whereParams attribute for '{type}' changes."
  | precondition name => s!"{owner}: '{key}' is not a valid attribute for '{name}' preconditions."
  | visitor name => s!"{owner}: '{key}' is not a valid attribute for '{name}' modifySql elements."

/-- Why a script is no valid change log. -/
inductive ParseFailure where
  /-- The element does not belong where it stands. -/
  | misplaced (surroundings : Surroundings) (name : String)
  /-- The element does not take the arguments. -/
  | invalidArguments (owner element : String) (problem : ArgumentProblem)
  /-- The element no longer has the attribute. -/
  | removedAttribute (owner element key replacement : String)
  /-- The element does not have the attribute. -/
  | unsupportedAttribute (owner element key : String)
  /-- The attribute cannot be set, or not to that value. -/
  | invalidAttribute (owner key : String) (target : Target)
  | noPositional (owner element : String)
  | manyPositional (owner element : String)
  | givenTwice (owner element key : String)
  /-- Blocks are left in another order than they were opened. -/
  | outOfOrder (path : String)
  /-- Elements that need a block have none. -/
  | notOpened (path : String) (elements : List String)
  | unknownQuotingStrategy (owner : String) (ofChangeSet : Bool) (value : String)
  | unknownValidationOption (owner value : String)
  | invalidRunOrder (owner value : String)
  | propertyWithoutName (owner : String)
  | unreadableProperties (owner path : String) (problem : Properties.Malformed)
  | removalWithout (owner key : String)
  | removalOfUnknown (owner change : String)
  | columnsNotAllowed (owner change : String)
  | whereNotAllowed (owner change : String)
  | whereParamsNotAllowed (owner change : String)
  | rollbackOfBoth (owner : String)
  | rollbackWithoutId (owner : String)
  | rollbackOfUnknown (owner path id author : String)
  | noPath (key element : String)
  | unresolvedPath (path element : String)
  | emptyPath (key element : String)
  | invalidDepth (value key element : String)
  /-- No parser takes the file; inside a script the document is named. -/
  | noParser (included : Bool) (path : String)
  | undecodable (path : String) (fault : Encoding.Fault)
  | invalidSyntax (path : String) (fault : Script.SyntaxFault)
  /-- A mishap left the script. -/
  | crashed (path : String) (mishap : Mishap)

/-- The message about a script that is no valid change log. -/
def ParseFailure.message : ParseFailure → String
  | misplaced surroundings name => surroundings.misplaced name
  | invalidArguments owner element problem =>
    s!"{owner}: invalid arguments for '{element}': " ++ problem.message
  | removedAttribute owner element key replacement =>
    s!"{owner}: the {key} attribute of a {element} has been removed.  " ++
      s!"Please use '{replacement}' instead."
  | unsupportedAttribute owner element key =>
    s!"{owner}: '{key}' is not a supported attribute of the '{element}' element."
  | invalidAttribute owner key target => target.invalid owner key
  | noPositional owner element => s!"{owner}: '{element}' does not accept positional arguments."
  | manyPositional owner element => s!"{owner}: '{element}' accepts a single positional argument."
  | givenTwice owner element key =>
    s!"{owner}: '{element}' was given '{key}' twice."
  | outOfOrder path => s!"{path}: change log blocks were closed out of order"
  | notOpened path elements =>
    s!"{path}: '" ++ join ", " elements ++ "' must be used as a 'with' block"
  | unknownQuotingStrategy owner ofChangeSet value =>
    s!"{owner}: {value} is not a supported " ++ (if ofChangeSet then "ChangeSet " else "") ++
      "ObjectQuotingStrategy"
  | unknownValidationOption owner value =>
    s!"{owner}: {value} is not a supported onValidationFail option"
  | invalidRunOrder owner value =>
    s!"{owner}: runOrder must be 'first' or 'last', not '{value}'"
  | propertyWithoutName owner => s!"{owner}: a property requires a name or a file"
  | unreadableProperties owner path problem =>
    s!"{owner}: cannot read properties file {path}: " ++ problem.message
  | removalWithout owner key =>
    s!"{owner}: removeChangeSetProperty requires a {key} attribute"
  | removalOfUnknown owner change =>
    s!"{owner}: '{change}' is not a valid change for removeChangeSetProperty"
  | columnsNotAllowed owner change => s!"{owner}: columns are not allowed in '{change}' changes."
  | whereNotAllowed owner change =>
    s!"{owner}: a where clause is invalid for '{change}' changes."
  | whereParamsNotAllowed owner change =>
    s!"{owner}: whereParams are not allowed in '{change}' changes."
  | rollbackOfBoth owner =>
    s!"{owner}: a rollback accepts either SQL text or attributes, not both."
  | rollbackWithoutId owner => s!"{owner}: a rollback reference requires a changeSetId."
  | rollbackOfUnknown owner path id author =>
    s!"{owner}: Could not find changeSet to use for rollback: {path}::{id}::{author}"
  | noPath key element => s!"{documentOwner}: No {key} attribute for {element}"
  | unresolvedPath path element =>
    s!"{documentOwner}:  '{path}' contains an invalid property in an '{element}' element."
  | emptyPath key element =>
    s!"{documentOwner}: The {key} attribute of {element} is empty"
  | invalidDepth value key element =>
    s!"{documentOwner}: '{value}' is not a valid {key} for {element}"
  | noParser true path => s!"{documentOwner}: Cannot find a parser that supports {path}"
  | noParser false path => s!"Cannot find a parser that supports {path}"
  | undecodable path fault => s!"Error compiling {path}: " ++ fault.message
  | invalidSyntax path fault =>
    let line := fault.line.elim "None" fun n => String.ofList (numeral n)
    s!"Error compiling {path}: invalid syntax at line {line}: {fault.problem}"
  | crashed path mishap => s!"Error compiling {path}: " ++ mishap.describe

/-- Why a file is not included. -/
inductive InclusionFailure where
  /-- The file is being compiled already; the paths lead from the first script to the file. -/
  | circular (chain : List String)
  /-- As many scripts are open as may be. -/
  | tooDeep (limit : Nat) (path : String)
  deriving DecidableEq, Repr

/-- The message about a file that is not included. -/
def InclusionFailure.message : InclusionFailure → String
  | circular chain => s!"{documentOwner}: Circular include detected: " ++ join " -> " chain
  | tooDeep limit path =>
    let limit := String.ofList (numeral limit)
    s!"{documentOwner}: Include depth limit of {limit} reached at {path}"

/-- Why a change log does not compile. -/
inductive Failure where
  /-- The script is no valid change log; perhaps because a field could not be set. -/
  | parse (failure : ParseFailure) (cause : Option BindError := none)
  | inclusion (failure : InclusionFailure)
  | resource (error : ResourceError)
  | extension (failure : Extensions.Failure)
  /-- A name stands for nothing. -/
  | unbound (name : String)
  | mishap (mishap : Mishap)
  /-- A script ends the program. -/
  | exit (kind text : String)

namespace Failure

/-- The message about a failure. -/
def message : Failure → String
  | parse failure _ => failure.message
  | inclusion failure => failure.message
  | resource error => error.message
  | extension failure => failure.message
  | unbound name => s!"name '{name}' is not defined"
  | mishap m => m.text
  | exit _ text => text

/-- What is raised, as a failure. -/
def ofException (x : Script.Exception) : Failure :=
  if x.kind == "NameError" || x.kind == "UnboundLocalError" then unbound x.text
  else if Script.exitKinds.contains x.kind then exit x.kind x.text
  else mishap (.raised x.kind x.text)

/-- A name of an extension that stands for none, as a failure. -/
def ofExtension : Extensions.Problem → Failure
  | .failure failure => extension failure
  | .mishap m => mishap m

end Failure
end Migration
