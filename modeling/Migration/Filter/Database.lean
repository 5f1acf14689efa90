import Migration.Text.Case
import Migration.Text.Order
import Migration.Text.Split

/-!
# Database filters

A set of database names restricts a change set or a parameter to some databases. `all` stands for
every database, `none` for no database, and `!name` leaves one out. Letter case does not count.
-/

namespace Migration.DatabaseFilter

open Text

/-- The names of a filter as they are compared: trimmed, in lower case, without empty ones. -/
def entries (names : List String) : List String :=
  (names.map trim).filter (!·.isEmpty) |>.map lower

/-- Whether the filter admits a database. No names admit every database, and every filter admits an
unknown one. -/
def admits (names : List String) (database : Option String) : Bool :=
  let entries := entries names
  match database with
  | none => true
  | some database =>
    let database := lower database
    let wanted := entries.filter (!startsWith · "!")
    if entries.isEmpty then true
    else if entries.contains "none" then false
    else if entries.contains ("!" ++ database) then false
    else wanted.isEmpty || wanted.contains "all" || wanted.contains database

end Migration.DatabaseFilter
