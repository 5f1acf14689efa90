import Migration.Filter.Expression
import Migration.Text.Split

/-!
# Labels

Change sets and parameters carry labels; a run selects by an expression over them. What has no
labels is always selected, and an empty expression selects everything.
-/

namespace Migration

open Text

/-- The labels of a change set or a parameter. -/
structure Labels where
  labels : List String
  deriving DecidableEq, Repr, Inhabited

namespace Labels

/-- The labels of a list written with commas. -/
def ofText (s : String) : Labels := ⟨commaList s⟩

/-- The labels of separate texts, without white space around them. -/
def ofList (texts : List String) : Labels := ⟨(texts.map trim).filter (!·.isEmpty)⟩

/-- Whether there are no labels. -/
def isEmpty (l : Labels) : Bool := l.labels.isEmpty

/-- The text of the labels. -/
def print (l : Labels) : String := join "," l.labels

end Labels

/-- The expression by which a run selects labels: its text without surrounding white space, if one
was given. -/
structure LabelFilter where
  source : Option String
  deriving DecidableEq, Repr, Inhabited

namespace LabelFilter

/-- The label filter that a text writes. -/
def ofText (s : String) : LabelFilter := ⟨if s.isEmpty then none else some (trim s)⟩

/-- The text of the filter. -/
def print (f : LabelFilter) : String := f.source.getD ""

/-- Whether the filter selects everything. -/
def isEmpty (f : LabelFilter) : Bool := f.print.isEmpty

/-- Whether the filter selects what carries the labels, if any. -/
def selects (f : LabelFilter) (labels : Option Labels) : Except Filter.Malformed Bool :=
  match labels with
  | none => return true
  | some labels =>
    if f.isEmpty || labels.isEmpty then return true else Filter.evaluate f.print labels.labels

end LabelFilter
end Migration
