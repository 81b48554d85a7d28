import RobotConsole.Decimal.Shortest
import RobotConsole.Dict
import RobotConsole.Text.Quoted

/-!
# Option values

The value of a command option: a truth value, a number, a text, or nothing at all.
-/

namespace RobotConsole.Command

/-- The value of an option. -/
inductive Setting where
  | absent
  | flag (b : Bool)
  | int (n : Int)
  | real (x : Float)
  | text (s : String)

/-- The word for a truth value in reports. -/
def flagText (b : Bool) : String :=
  if b then "True" else "False"

namespace Setting

/-- The plain text of a value. -/
def plain : Setting → String
  | .absent => "None"
  | .flag b => flagText b
  | .int n => toString n
  | .real x => Decimal.floatText x
  | .text s => s

/-- The text of a value inside a list of options: as it is, but texts in quotes. -/
def shown : Setting → String
  | .text s => Text.quoted s
  | v => v.plain

/-- Whether a value counts as given: neither nothing, nor false, nor zero, nor an empty text. -/
def isSet : Setting → Bool
  | .absent => false
  | .flag b => b
  | .int n => n != 0
  | .real x => x != 0.0
  | .text s => s != ""

end Setting

/-- Options with their values. -/
abbrev Options := Dict Setting

/-- Options as they are shown in reports. -/
def showOptions (options : Options) : String :=
  "\x7b" ++ String.intercalate ", "
    (options.map fun (key, value) => Text.quoted key ++ ": " ++ value.shown) ++ "\x7d"

end RobotConsole.Command
