import RobotConsole.Decimal.Number
import RobotConsole.Script.Error

/-!
# Failures

What can cut an action short. Most failures are reported where they arise and end there; an
interrupt passes through such reports.
-/

namespace RobotConsole.Robot

/-- The kinds of fault that can come from outside. -/
inductive FaultKind where
  | general
  | value
  | system
  | key
  | interrupt
  deriving Repr, DecidableEq

/-- Why an action failed. -/
inductive Failure where
  /-- Something outside failed. -/
  | fault (kind : FaultKind) (message : String)
  /-- A calculation has no result. -/
  | calculation (cause : NumberError)
  /-- A text is no number. -/
  | number (cause : Decimal.ReadError)
  /-- Nothing was given where a number is needed. -/
  | missingNumber (wholeNumber : Bool)
  /-- A command has too few arguments. -/
  | missingArgument
  /-- A pause of no definite length. -/
  | pauseNaN
  /-- A pause beyond the range of the clock. -/
  | pauseTooLong
  /-- A pause into the past. -/
  | pauseNegative
  /-- No further task can be started. -/
  | taskRefused
  /-- A task was waited for that had never been started. -/
  | taskNotStarted
  /-- There is no client, and this member of it was asked for. -/
  | noClient (member : String)
  /-- A file cannot be found or read. -/
  | file (cause : Storage.FileError)
  /-- A file holds no sound. -/
  | notSound
  /-- The table of sounds cannot be read. -/
  | soundTable
  /-- A script was stopped. -/
  | script (cause : Script.ScriptError)
  /-- A blank command was looked at for its name. -/
  | blankCommand
  /-- A blank command was to be executed. -/
  | blankExecution
  deriving DecidableEq

namespace Failure

/-- Whether a failure is an interrupt, which reports let pass. -/
def isInterrupt : Failure → Bool
  | .fault .interrupt _ => true
  | _ => false

/-- The wording of a failure. -/
def message : Failure → String
  | .fault .key message => Text.quoted message
  | .fault _ message => message
  | .calculation cause => cause.message
  | .number cause => cause.message
  | .missingNumber true =>
    "int() argument must be a string, a bytes-like object or a real number, not 'NoneType'"
  | .missingNumber false => "float() argument must be a string or a real number, not 'NoneType'"
  | .missingArgument => "list index out of range"
  | .pauseNaN => "Invalid value NaN (not a number)"
  | .pauseTooLong => "timestamp out of range for platform time_t"
  | .pauseNegative => "sleep length must be non-negative"
  | .taskRefused => "can't start new thread"
  | .taskNotStarted => "cannot join thread before it is started"
  | .noClient member => s!"'NoneType' object has no attribute '{member}'"
  | .file cause => cause.message
  | .notSound => "file does not start with RIFF id"
  | .soundTable => "unclosed token: line 1, column 0"
  | .script cause => cause.message
  | .blankCommand => "'NoneType' object is not subscriptable"
  | .blankExecution => "cannot unpack non-iterable NoneType object"

end Failure

end RobotConsole.Robot
