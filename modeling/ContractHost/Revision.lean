import ContractHost.Fault
import ContractHost.Text.Blank
import ContractHost.Text.Case

/-!
# Rule sets

The rule sets an interpreter may be asked to follow, with their names and numbers. A name is looked up
without regard to case or to white space around it, and `-` may stand for `_`.
-/

namespace ContractHost

/-- A rule set. -/
inductive Revision
  | frontier | homestead | tangerineWhistle | spuriousDragon | byzantium | constantinople
  | petersburg | istanbul | berlin
  deriving DecidableEq, Repr

namespace Revision

/-- All rule sets, oldest first. -/
def all : List Revision :=
  [frontier, homestead, tangerineWhistle, spuriousDragon, byzantium, constantinople, petersburg,
   istanbul, berlin]

/-- The name of a rule set. -/
def name : Revision → String
  | frontier => "FRONTIER"
  | homestead => "HOMESTEAD"
  | tangerineWhistle => "TANGERINE_WHISTLE"
  | spuriousDragon => "SPURIOUS_DRAGON"
  | byzantium => "BYZANTIUM"
  | constantinople => "CONSTANTINOPLE"
  | petersburg => "PETERSBURG"
  | istanbul => "ISTANBUL"
  | berlin => "BERLIN"

/-- The number of a rule set. -/
def code : Revision → Int
  | frontier => 0
  | homestead => 1
  | tangerineWhistle => 2
  | spuriousDragon => 3
  | byzantium => 4
  | constantinople => 5
  | petersburg => 6
  | istanbul => 7
  | berlin => 8

/-- The rule set with a number. -/
def ofCode? (code : Int) : Option Revision := all.find? (·.code = code)

/-- The form in which a text is compared with the names. -/
def key (text : Text) : String :=
  String.ofList ((Text.upper (Text.strip text.chars)).map fun c => if c = '-' then '_' else c)

/-- The rule set that a text names. -/
def ofName (text : Text) : Except Fault Revision :=
  match all.find? (·.name = key text) with
  | some revision => .ok revision
  | none => .error (.revision text)

end Revision

end ContractHost
