import RobotConsole.Command.Setting

/-!
# The commands

Each command has a name, a summary, the names of its required arguments, and its options with
their defaults. The default fixes the kind of value an option takes. Some commands take any number
of further arguments.
-/

namespace RobotConsole.Command

/-- The commands of the console. -/
inductive Verb where
  | connect
  | status
  | wait
  | sleep
  | say
  | volume
  | move
  | turn
  | goto
  | head
  | lift
  | lights
  | ir
  | cliff
  | calibrate
  | animate
  | animGroup
  | listAnims
  | listGroups
  | listSounds
  | playSound
  | camera
  | battery
  | screen
  deriving Repr, DecidableEq

/-- What a command looks like. -/
structure Signature where
  name : String
  summary : String
  args : List String := []
  options : Options := []
  openEnded : Bool := false

/-- The signature of each command. -/
def Verb.signature : Verb → Signature
  | .connect => { name := "connect", summary := "Connect to robot" }
  | .status => { name := "status", summary := "Show robot status" }
  | .wait => { name := "wait", summary := "Wait for robot to stabilize" }
  | .sleep => { name := "sleep", summary := "Pause execution", args := ["duration"] }
  | .say =>
    { name := "say", summary := "Text-to-speech", args := ["text"], openEnded := true
      options := [("volume", .int 65535), ("voice", .text "en-us"), ("speed", .int 150),
        ("pitch", .int 50), ("amplitude", .int 100), ("async", .flag false),
        ("effect", .text "normal")] }
  | .volume => { name := "volume", summary := "Set volume", args := ["level"] }
  | .move =>
    { name := "move", summary := "Move forward/backward", args := ["distance"]
      options := [("speed", .int 100), ("async", .flag false)] }
  | .turn =>
    { name := "turn", summary := "Turn by angle", args := ["angle"]
      options := [("async", .flag false)] }
  | .goto =>
    { name := "goto", summary := "Go to position", args := ["x", "y"]
      options := [("angle", .int 0), ("async", .flag false)] }
  | .head =>
    { name := "head", openEnded := true
      summary := "Set head angle (aliases: down/bottom, middle/neutral, up/top, or radians)"
      options := [("angle", .text "middle"), ("async", .flag false)] }
  | .lift =>
    { name := "lift", summary := "Move lift", args := ["speed"]
      options := [("duration", .real 1.0), ("async", .flag false)] }
  | .lights =>
    { name := "lights", summary := "Set LED color(s)"
      options := [("color", .text "blue"), ("colors", .absent)] }
  | .ir => { name := "ir", summary := "IR head light", options := [("enable", .flag true)] }
  | .cliff =>
    { name := "cliff", summary := "Cliff detection settings"
      options := [("enable", .flag true), ("reaction", .text "backup")] }
  | .calibrate =>
    { name := "calibrate", summary := "Calibrate motors"
      options := [("head", .flag true), ("lift", .flag true)] }
  | .animate =>
    { name := "animate", summary := "Play animation", args := ["name"]
      options := [("async", .flag false), ("wait", .absent)] }
  | .animGroup =>
    { name := "anim-group", summary := "Play animation group", args := ["group"]
      options := [("async", .flag false), ("wait", .absent)] }
  | .listAnims =>
    { name := "list-anims", summary := "List available animations"
      options := [("search", .absent), ("duration", .flag false)] }
  | .listGroups =>
    { name := "list-groups", summary := "List available animation groups"
      options := [("search", .absent), ("duration", .flag false)] }
  | .listSounds =>
    { name := "list-sounds", summary := "List available sounds", options := [("search", .absent)] }
  | .playSound =>
    { name := "play-sound", summary := "Play sound by name or file", openEnded := true
      options := [("name", .absent), ("file", .absent), ("async", .flag false)] }
  | .camera =>
    { name := "camera", summary := "Capture image"
      options := [("output", .text "camera_capture.jpg")] }
  | .battery =>
    { name := "battery", summary := "Show battery"
      options := [("mode", .text "icon"), ("duration", .real 5.0)] }
  | .screen =>
    { name := "screen", summary := "Display text", args := ["text"], openEnded := true
      options := [("duration", .real 5.0), ("size", .int 12), ("x", .int 5), ("y", .int 10)] }

/-- Every command, in the order of the help text. -/
def Verb.all : List Verb :=
  [.connect, .status, .wait, .sleep, .say, .volume, .move, .turn, .goto, .head, .lift, .lights,
    .ir, .cliff, .calibrate, .animate, .animGroup, .listAnims, .listGroups, .listSounds,
    .playSound, .camera, .battery, .screen]

theorem Verb.mem_all (v : Verb) : v ∈ Verb.all := by
  cases v <;> decide

/-- The name of a command, as it is typed. -/
def Verb.name (v : Verb) : String :=
  v.signature.name

/-- The command with a given name. -/
def Verb.ofName? (name : String) : Option Verb :=
  Verb.all.find? fun v => v.name == name

end RobotConsole.Command
