import Migration.Filter.Expression
import Migration.Text.Split

/-!
# Context filters

The context filter of a change set, an include or a parameter: a filter expression over the contexts
of the run. An empty one admits every run, and a run without contexts is admitted by every filter.
-/

namespace Migration

open Text

/-- A context filter: its text without surrounding white space, if one was given. -/
structure ContextFilter where
  source : Option String
  deriving DecidableEq, Repr, Inhabited

namespace ContextFilter

/-- The context filter that a text writes. -/
def ofText (s : String) : ContextFilter := ⟨if s.isEmpty then none else some (trim s)⟩

/-- The alternatives that top-level commas separate, as they are written. -/
def contexts (c : ContextFilter) : List String := commaList (c.source.getD "")

/-- Whether the filter has no alternatives. -/
def isEmpty (c : ContextFilter) : Bool := c.contexts.isEmpty

/-- The text of the filter. -/
def print (c : ContextFilter) : String := join "," c.contexts

/-- Whether the filter admits a run with the given contexts. -/
def admits (c : ContextFilter) (run : List String) : Except Filter.Malformed Bool :=
  let run := run.filter (!·.isEmpty)
  if c.isEmpty || run.isEmpty then return true else Filter.evaluate (c.source.getD "") run

end ContextFilter
end Migration
