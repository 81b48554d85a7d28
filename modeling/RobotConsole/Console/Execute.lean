import RobotConsole.Command.Parse
import RobotConsole.Robot.Connection
import RobotConsole.Robot.Lamps
import RobotConsole.Robot.Screen

/-!
# Executing commands

A command is announced and then carried out. Its arguments and options are read here; an option
that is not given has its default. The result tells whether the command succeeded.
-/

namespace RobotConsole.Console

open Command (Setting Options Verb)
open Robot

/-- The value of an option: as given, or its default. -/
def optionOf (verb : Verb) (options : Options) (key : String) : Setting :=
  ((Dict.get? options key).or (Dict.get? verb.signature.options key)).getD .absent

/-- The argument at a position. -/
def argumentAt (args : List String) (position : Nat) : Act String :=
  match args[position]? with
  | some arg => return arg
  | none => throw .missingArgument

/-- Reads a text as a whole number. -/
def wholeNumber (text : String) : Act Number :=
  match Decimal.readInt text with
  | .ok n => return .int n
  | .error cause => throw (.number cause)

/-- Reads a text as a double. -/
def realNumber (text : String) : Act Number :=
  match Decimal.readFloat text with
  | .ok x => return .real x
  | .error cause => throw (.number cause)

/-- The value of an option as a whole number. -/
def wholeSetting : Setting → Act Number
  | .absent => throw (.missingNumber true)
  | .flag b => return .int (if b then 1 else 0)
  | .int n => return .int n
  | .real x => do return .int (← calculate (Number.real x).toInt)
  | .text s => wholeNumber s

/-- The value of an option as a double. -/
def realSetting : Setting → Act Number
  | .absent => throw (.missingNumber false)
  | .flag b => return .real (if b then 1.0 else 0.0)
  | .int n => do return .real (← calculate (Number.int n).toReal)
  | .real x => return .real x
  | .text s => realNumber s

/-- The value of an option as a text, if it has one. -/
def textSetting? : Setting → Option String
  | .absent => none
  | value => some value.plain

/-- The value of an option as a double, if it has one. -/
def realSetting? (value : Setting) : Act (Option Number) := do
  match value with
  | .absent => return none
  | value => return some (← realSetting value)

/-- The head positions that have names. -/
def headPositions : List (String × Float) :=
  [("down", -0.44), ("bottom", -0.44), ("lower", -0.20), ("middle", 0.17), ("neutral", 0.17),
    ("center", 0.17), ("upper", 0.45), ("up", 0.78), ("top", 0.78)]

/-- The angle of the head for a name or a number, after saying which it is. -/
def headAngle (position : String) : Act Number := do
  match headPositions.lookup position with
  | some angle =>
    print s!"Head position: {position} ({Decimal.fixedText 2 angle} rad)"
    return .real angle
  | none =>
    let angle ← realNumber position
    let text ← calculate (angle.fixed 2)
    print s!"Head angle: {text} rad"
    return angle

/-- Shows the state of the robot. -/
def showStatus : Act Bool := do
  pause (.int 1)
  let status ← readStatus
  print (dashes 40)
  status.show
  print (dashes 40)
  return true

/-- Shows the battery in one of the ways there are, by default as a line of print. -/
def showBattery (mode : String) (duration : Number) : Act Bool := do
  let _ ← setHeadAngle (.real 0.17) false
  pause (.real 0.5)
  match mode with
  | "icon" => displayBatteryIcon duration
  | "voltage" => displayBatteryVoltage duration
  | "percent" => displayBatteryPercent duration
  | "text" => displayBatteryLines duration
  | _ =>
    let volts ← calculate ((← readBattery).fixed 2)
    print s!"  Battery: {volts}V"
    return true

/-- What to play, given the options of the command and its arguments: an argument is a file if
there is one of that name, and else the name of a sound. -/
def soundChoice (name file : Option String) (args : List String) :
    Act (Option String × Option String) := do
  match name, file, args with
  | none, none, arg :: _ =>
    let found ← handling (pathExists (Storage.Path.ofText arg)) fun _ => return false
    return if arg != "" && found then (none, some arg) else (some arg, none)
  | name, file, _ => return (name, file)

/-- Carries out a command. -/
def carryOut (verb : Verb) (args : List String) (options : Options) : Act Bool := do
  let option := optionOf verb options
  let async := (option "async").isSet
  match verb with
  | .connect => connect defaultRetries defaultDelay
  | .status => showStatus
  | .wait => waitForRobot
  | .sleep =>
    pause (← realNumber (← argumentAt args 0))
    return true
  | .say =>
    let speech : Speech :=
      { text := String.intercalate " " args
        volume := ← wholeSetting (option "volume")
        voice := (option "voice").plain
        speed := ← wholeSetting (option "speed")
        pitch := ← wholeSetting (option "pitch")
        amplitude := ← wholeSetting (option "amplitude")
        effect := (option "effect").plain }
    sayText speech async
  | .volume => setVolume (← wholeNumber (← argumentAt args 0))
  | .move =>
    let distance ← realNumber (← argumentAt args 0)
    moveForward distance (← realSetting (option "speed")) async
  | .turn => turnInPlace (← realNumber (← argumentAt args 0)) async
  | .goto =>
    let x ← realNumber (← argumentAt args 0)
    let y ← realNumber (← argumentAt args 1)
    let degrees ← calculate (← realSetting (option "angle")).toReal
    goToPose x y (.real (degrees * 3.14159 / 180.0))
  | .head =>
    let position := args.head?.getD (option "angle").plain
    setHeadAngle (← headAngle (Text.lower position)) async
  | .lift =>
    let speed ← realNumber (← argumentAt args 0)
    moveLift speed (← realSetting (option "duration")) async
  | .lights =>
    let colors := option "colors"
    if colors.isSet then
      setEachLight ((Text.splitOnChar ',' colors.plain.toList).map String.ofList)
    else setAllLights (option "color").plain
  | .ir => setHeadLight (option "enable").isSet
  | .cliff =>
    let _ ← setCliffReaction (option "reaction").plain
    enableCliffDetection (option "enable").isSet
  | .calibrate => calibrateMotors (option "head").isSet (option "lift").isSet
  | .animate =>
    let name ← argumentAt args 0
    playAnimation name async (← realSetting? (option "wait"))
  | .animGroup =>
    let name ← argumentAt args 0
    playGroup name async (← realSetting? (option "wait"))
  | .listAnims => listAnimations (textSetting? (option "search")) (option "duration").isSet
  | .listGroups => listGroups (textSetting? (option "search")) (option "duration").isSet
  | .listSounds => listSounds (textSetting? (option "search"))
  | .playSound =>
    let (name, file) ←
      soundChoice (textSetting? (option "name")) (textSetting? (option "file")) args
    playSound name file async
  | .camera =>
    match ← captureImage (option "output").plain with
    | some file =>
      print s!"  Saved to: {file}"
      return true
    | none => return false
  | .battery =>
    let duration ← realSetting (option "duration")
    showBattery (option "mode").plain duration
  | .screen =>
    let duration ← realSetting (option "duration")
    let size ← wholeSetting (option "size")
    let x ← wholeSetting (option "x")
    let y ← wholeSetting (option "y")
    displayText (String.intercalate " " args) duration size x y true

/-- Announces a command by name and carries it out; an unknown one counts as failed. -/
def executeNamed (name : String) (args : List String) (options : Options) : Act Bool := do
  print (s!"\n>>> {name} " ++ Text.bracketed (args.map Text.quoted) ++ " " ++
    Command.showOptions options)
  match Verb.ofName? name with
  | some verb => carryOut verb args options
  | none => return false

/-- Executes a command. -/
def execute (c : Command) : Act Bool :=
  executeNamed c.verb.name c.args c.options

end RobotConsole.Console
