import Migration.Filter.Expression
import Migration.Text.Quoted
import Migration.Text.Split

/-!
# Mishaps

What can go wrong with a value rather than with a change log: the wrong type of value, a malformed
filter met on the way, an undecodable text. A script that meets one fails to compile, and the
message names its kind.

* `Mishap.kind` — the kind, as messages name it
* `Mishap.text` — what happened
-/

namespace Migration

/-- Something that goes wrong with a value. -/
inductive Mishap where
  /-- A filter expression that cannot be read. -/
  | malformedFilter (filter : Filter.Malformed)
  /-- A value of this type was used as a list. -/
  | notIterable (type : String)
  /-- A value of this type was used as a name. -/
  | unhashable (type : String)
  /-- A value of this type was called as an element. -/
  | notCallable (type : String)
  /-- A value of this type was opened as a block. -/
  | notABlock (type : String)
  /-- A value of this type was asked to open or close. -/
  | noMember (type member : String)
  /-- No encoding has the name. -/
  | unknownEncoding (name : String)
  /-- Bytes that are no text in the encoding, and why. -/
  | undecodable (reason : String)
  /-- A record with values of the wrong type in the named fields. -/
  | invalidRecord (record : String) (fields : List String)
  /-- A function was given an argument twice. -/
  | argumentTwice (function argument : String)
  /-- A module name that starts with a point. -/
  | relativeModule (name : String)
  /-- What a script itself raises. -/
  | raised (kind text : String)
  deriving DecidableEq, Repr

namespace Mishap

/-- The kind of a mishap in messages. -/
def kind : Mishap → String
  | malformedFilter _ => "FilterExpressionError"
  | notIterable _ | unhashable _ | notCallable _ | notABlock _
  | argumentTwice .. | relativeModule _ =>
    "TypeError"
  | noMember .. => "AttributeError"
  | unknownEncoding _ => "LookupError"
  | undecodable _ => "UnicodeDecodeError"
  | invalidRecord .. => "ValidationError"
  | raised kind _ => kind

/-- What happened. -/
def text : Mishap → String
  | malformedFilter filter => filter.message
  | notIterable type => s!"'{type}' object is not iterable"
  | unhashable type => s!"unhashable type: '{type}'"
  | notCallable type => s!"'{type}' object is not callable"
  | notABlock type => s!"'{type}' object does not support the context manager protocol"
  | noMember type member => s!"'{type}' object has no attribute '{member}'"
  | unknownEncoding name => s!"unknown encoding: {name}"
  | undecodable reason => reason
  | invalidRecord record fields =>
    let count := fields.length
    let errors := if count = 1 then "error" else "errors"
    s!"{count} validation {errors} for {record}"
  | argumentTwice function argument =>
    s!"{function}() got multiple values for argument '{argument}'"
  | relativeModule name =>
    s!"the 'package' argument is required to perform a relative import for '{name}'"
  | raised _ text => text

/-- Kind and text in one line; a missing key is written in quotes. -/
def describe (m : Mishap) : String :=
  let text := if m.kind == "KeyError" then Text.quoted m.text else m.text
  m.kind ++ ": " ++ text

end Mishap
end Migration
