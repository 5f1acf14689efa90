/-!
# Choices

The enumerated options of change logs. A choice is a member of one of six families; scripts name
members in capitals.

* `Choice.ofName?` — the member of a family with a given name
* `Choice.text` — what a member stands for, which differs from its name for referential actions
-/

namespace Migration

/-- The families of options: how names are quoted, what happens after a changed checksum, a failed
and an erring precondition, what preconditions do while SQL is only written, and what becomes of
rows that refer to a deleted one. -/
inductive Choice.Kind where
  | quotingStrategy
  | validationFail
  | fail
  | error
  | sqlOutput
  | referentialAction
  deriving DecidableEq, Repr, Inhabited

namespace Choice.Kind

/-- The members of a family with what they stand for. -/
def meanings : Choice.Kind → List (String × String)
  | quotingStrategy => [("LEGACY", "LEGACY"), ("QUOTE_ALL_OBJECTS", "QUOTE_ALL_OBJECTS"),
      ("QUOTE_ONLY_RESERVED_WORDS", "QUOTE_ONLY_RESERVED_WORDS")]
  | validationFail => [("HALT", "HALT"), ("MARK_RAN", "MARK_RAN")]
  | fail | error => [("HALT", "HALT"), ("CONTINUE", "CONTINUE"), ("MARK_RAN", "MARK_RAN"),
      ("WARN", "WARN")]
  | sqlOutput => [("IGNORE", "IGNORE"), ("TEST", "TEST"), ("FAIL", "FAIL")]
  | referentialAction => [("importedKeyCascade", "CASCADE"), ("importedKeySetNull", "SET NULL"),
      ("importedKeySetDefault", "SET DEFAULT"), ("importedKeyRestrict", "RESTRICT"),
      ("importedKeyNoAction", "NO ACTION")]

/-- The names of the members of a family. -/
def members (kind : Choice.Kind) : List String := kind.meanings.map (·.1)

/-- The name of a family in messages. -/
def name : Choice.Kind → String
  | quotingStrategy => "ObjectQuotingStrategy"
  | validationFail => "ValidationFailOption"
  | fail => "FailOption"
  | error => "ErrorOption"
  | sqlOutput => "OnSqlOutputOption"
  | referentialAction => "ForeignKeyConstraintType"

/-- All families. -/
def all : List Choice.Kind :=
  [quotingStrategy, validationFail, fail, error, sqlOutput, referentialAction]

/-- The family with a name. -/
def ofName? (name : String) : Option Choice.Kind := all.find? (·.name == name)

end Choice.Kind

/-- A member of a family of options. -/
structure Choice where
  /-- The family. -/
  kind : Choice.Kind
  /-- The name of the member. -/
  member : String
  /-- The family has the member. -/
  mem : member ∈ kind.members
  deriving DecidableEq, Repr

namespace Choice

/-- The member of a family with a name; case counts. -/
def ofName? (kind : Choice.Kind) (member : String) : Option Choice :=
  if h : member ∈ kind.members then some ⟨kind, member, h⟩ else none

/-- What the member stands for. -/
def text (c : Choice) : String := (c.kind.meanings.lookup c.member).getD c.member

end Choice
end Migration
