import ContractHost.Fault
import ContractHost.Text.Case

/-!
# Levels of the log

A record has a level, and a log only takes records from its own level on. Levels have names, in whatever
case; a text without a meaning stands for the level of information. Two names are those of something
else, and no level at all.
-/

namespace ContractHost.Log

/-- The levels by name. A level has the first of its names. -/
def levels : List (String × Nat) :=
  [("CRITICAL", 50), ("FATAL", 50), ("ERROR", 40), ("WARNING", 30), ("WARN", 30), ("INFO", 20),
   ("DEBUG", 10), ("NOTSET", 0)]

/-- The level of information. -/
def information : Nat := 20

/-- The level of a log that was not set up. -/
def warning : Nat := 30

/-- The level of a name. -/
def levelOf? (name : String) : Option Nat := levels.lookup name

/-- The name of a level. -/
def levelName (level : Nat) : String :=
  match levels.find? (·.2 == level) with
  | some (name, _) => name
  | none => s!"Level {level}"

/-- The level that a text asks for. -/
def levelOfText (text : Text) : Except Fault Nat :=
  let name := String.ofList (Text.upper text.chars)
  if name = "BASIC_FORMAT" then .error .badValue
  else if name = "_STYLES" then .error .wrongType
  else .ok ((levelOf? name).getD information)

end ContractHost.Log
