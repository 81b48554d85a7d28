import RobotConsole.Decimal.Reading
import RobotConsole.Storage.Files

/-!
# Script errors

What can stop a script. Everything else that is wrong with a script is reported and skipped.
-/

namespace RobotConsole.Script

/-- An order between two values. -/
inductive Comparison where
  | eq
  | ne
  | ge
  | le
  | gt
  | lt
  deriving Repr, DecidableEq

/-- The sign of a comparison. -/
def Comparison.sign : Comparison → String
  | .eq => "=="
  | .ne => "!="
  | .ge => ">="
  | .le => "<="
  | .gt => ">"
  | .lt => "<"

/-- What stops a script. -/
inductive ScriptError where
  /-- A whole number has too many digits to be written out. -/
  | tooLongToWrite
  /-- A text is no number, or has too many digits. -/
  | number (cause : Decimal.ReadError)
  /-- A range does not advance. -/
  | zeroStep
  /-- A range has more values than can be held. -/
  | rangeTooLong
  /-- A range has more values than can be counted in a machine word. -/
  | rangeUncountable
  /-- A number and a text have no order. -/
  | unordered (sign : Comparison) (leftIsText : Bool)
  /-- A loop variable was gone at the end of the loop body. -/
  | unbound (name : String)
  /-- A line was asked for that is not there. -/
  | noSuchLine
  /-- A path could not be looked up. -/
  | file (cause : Storage.FileError)
  /-- A path holds the character that ends names. -/
  | embeddedNul
  deriving Repr, DecidableEq

/-- The wording of a script error. -/
def ScriptError.message : ScriptError → String
  | .tooLongToWrite => Decimal.tooLongMessage
  | .number cause => cause.message
  | .zeroStep => "range() arg 3 must not be zero"
  | .rangeTooLong => ""
  | .rangeUncountable => "Python int too large to convert to C ssize_t"
  | .unordered sign leftIsText =>
    let kinds := if leftIsText then "'str' and 'float'" else "'float' and 'str'"
    s!"'{sign.sign}' not supported between instances of " ++ kinds
  | .unbound name => Text.quoted name
  | .noSuchLine => "list index out of range"
  | .file cause => cause.message
  | .embeddedNul => "embedded null byte"

end RobotConsole.Script
