import Migration.Settings

/-!
# Log levels

A level is a number; the higher it is, the more it matters. Six of the levels have names, two of
them a second one.

* `Log.levelOf?` — the level with a name
* `Log.levelName` — the name of a level
* `Log.Setup.ofSettings` — from which level on messages are logged, and in which form
-/

namespace Migration.Log

/-- The names of levels; of two names of a level the first one is written. -/
def levelNames : List (String × Int) :=
  [("CRITICAL", 50), ("ERROR", 40), ("WARNING", 30), ("INFO", 20), ("DEBUG", 10), ("NOTSET", 0),
    ("FATAL", 50), ("WARN", 30)]

/-- The level of everything that helps to find an error. -/
def debugLevel : Int := 10

/-- The level of what may be wrong. -/
def warningLevel : Int := 30

/-- The level of news. -/
def infoLevel : Int := 20

/-- The ASCII capital of a letter; the dotless i and the long s have one too. -/
def capital (c : Char) : Char := if c == 'ı' then 'I' else if c == 'ſ' then 'S' else c.toUpper

/-- The level with a name, in any letter case. -/
def levelOf? (name : String) : Option Int := levelNames.lookup (name.map capital)

/-- The name of a level, or its number. -/
def levelName (level : Int) : String :=
  match levelNames.find? (·.2 == level) with
  | some (name, _) => name
  | none => "Level " ++ Integer.print level

/-- How a message is written. -/
inductive Form where
  /-- In one readable line. -/
  | plain
  /-- As a JSON object. -/
  | structured
  deriving DecidableEq, Repr

/-- From which level on messages are logged, and in which form. -/
structure Setup where
  level : Int
  form : Form
  deriving DecidableEq, Repr

/-- The setup that the settings ask for; everything is logged if that is asked for. An unknown level
counts as the level of news. -/
def Setup.ofSettings (s : Settings) (verbose : Bool) : Setup where
  level := if verbose || s.debug then debugLevel else (levelOf? s.logLevel).getD infoLevel
  form := if s.structuredLogging then .structured else .plain

end Migration.Log
