import RobotConsole.Console.Program
import RobotConsole.Measure.Sample

/-!
# Workloads

Pieces of work that use every part of the console, for measuring it. Each returns a summary of what
it did, so that two runs can be compared. There is no robot: a client that accepts everything stands
in for one, there are no assets, and the sound tools write no files.
-/

namespace RobotConsole.Measure.Workload

open Robot
open Storage (Path Files)

/-- The directory that the workloads are done in. -/
def directory : Path :=
  Path.ofText "/work"

/-- A world without assets. -/
def world : World :=
  let absent : Fault := { message := "no assets" }
  let silent : Tool := { creates := false }
  { directory
    clock := 0
    faults := ["check_assets", "get_clip_metadata", "from_fb_file", "load_animation_groups"].map
      fun name => (name, absent)
    tools := ["espeak", "sox", "ffmpeg", "vgmstream-cli"].map fun name => (name, silent) }

/-- The system before any work, with some files. -/
def system (files : List (String × String)) : System :=
  let nodes := files.map fun (name, text) =>
    ((directory.join (Path.ofText name)).names, Storage.Node.bytes text.toUTF8.toList)
  { world, files := (directory.names, .directory) :: nodes }

/-- A system that is connected to a client. -/
def connectedSystem : System :=
  let s := system []
  { s with
    clients := #[world.clientAfter 0]
    controller := { s.controller with client := some 0, connected := true } }

/-- The result of an action, if it does not fail. -/
def outcome? {α : Type} (act : Act α) (s : System) : Option α :=
  match act.run s with
  | .ok result _ => some result
  | .error _ _ => none

/-- The first `n` items of a list that is repeated over and over. -/
def cycle {α : Type} (items : List α) (n : Nat) : List α :=
  (List.range n).filterMap fun i => items[i % items.length]?

/-! ## Reading commands -/

/-- An option value as a sample. -/
def settingSample : Command.Setting → Sample
  | .absent => .nothing
  | .flag b => .truth b
  | .int n => .int n
  | .real x => .real x
  | .text s => .text s

/-- A command as a sample. -/
def commandSample (c : Command) : Sample :=
  .tuple [.text c.verb.name, .list (c.args.map .text),
    .dict (c.options.map fun (key, value) => (.text key, settingSample value))]

/-- An optional sample. -/
def optionSample (s : Option Sample) : Sample :=
  s.getD .nothing

/-- A command line that can be read. -/
def readable? (line : String) : Option Command :=
  match Command.parse line with
  | .ok command => command
  | .error _ => none

/-- Command lines with arguments and options of every kind. -/
def variedLines : List String :=
  ["connect", "say \"Hello there\" speed=200", "goto 100 50 angle=90", "ir enable=off",
    "cliff reaction=stop", "calibrate lift=no", "anim-group DanceMambo async=yes", "list-anims",
    "list-groups search=dance", "list-sounds search=beep", "play-sound beep", "lights colors=red"]

/-- Command lines that are read again and again. -/
def commonLines : List String :=
  ["status", "move 100", "turn 90", "say Hello", "head up", "lift 0.5", "lights color=red",
    "battery", "volume 30000", "sleep 0.1", "animate anim_bored_01", "screen Hi", "camera", "wait"]

/-- Command lines that are refused. -/
def refusedLines : List String :=
  ["dance", "move", "turn 90 45", "move 100 height=2", "say hi speed=fast"]

/-- Reads command lines: how many were read, one of them with options, the last one, how many were
refused, and two truth values. -/
def readCommands (n : Nat) : Sample :=
  let read := (variedLines ++ commonLines ++ cycle commonLines n).filterMap readable?
  let refused := refusedLines.filter fun line => (readable? line).isNone
  let flags := ["yes", "off"].map fun word =>
    match Command.readFlag word with
    | .ok b => Sample.truth b
    | .error _ => .nothing
  .tuple [.int read.length,
    optionSample ((readable? "say a b async=true effect=cozmo voice=en").map commandSample),
    optionSample (read.getLast?.map commandSample), .int refused.length, .list flags]

/-! ## Executing commands -/

/-- Commands that are executed again and again. -/
def commonCommands : List String :=
  ["status", "wait", "sleep 0", "say Hello", "volume 30000", "move 100", "turn 90", "goto 100 50",
    "head up", "camera", "lift 0.5", "lights color=red", "ir", "cliff reaction=stop", "calibrate",
    "animate anim_bored_01", "anim-group DanceMambo", "battery", "screen Hi"]

/-- Commands with options of every kind. -/
def variedCommands : List String :=
  ["say hi async=true", "move 10 async=true", "turn -45 async=true", "head 0.3 async=true",
    "lift -1 async=true", "lights colors=red,green,blue,white,off", "battery mode=voltage",
    "battery mode=percent", "battery mode=text", "battery mode=plain", "play-sound beep",
    "list-sounds", "animate anim_bored_01 wait=0", "anim-group DanceMambo wait=1",
    "camera output=view.jpg", "ir enable=off", "cliff enable=off", "calibrate head=off",
    "goto 1 2 angle=90", "screen big size=24", "play-sound file=none.mp3",
    "lights colors=red,green"]

/-- Executes commands, and tells which succeeded. -/
def executeCommands (n : Nat) : Sample :=
  let commands := (cycle commonCommands n ++ variedCommands).filterMap readable?
  let work : Act (List Bool) := commands.mapM Console.execute
  .list (((outcome? work connectedSystem).getD []).map .truth)

/-! ## Using the controller -/

/-- Actions that all succeed. -/
def plainActions : List (Act Bool) :=
  [setHeadAngle (.real 0.17) false, moveLift (.real 0.5) (.real 1.0) false,
    driveWheels (.int 50) (.int 50) (.real 1.0) false, moveForward (.int 100) (.int 100) false,
    moveBackward (.int 100) (.int 100) false, turnInPlace (.int 90) false,
    turnToAngle (.real 1.0) (.real 3.0) (.real 10.0) (.real 0.05) false,
    goToPose (.int 100) (.int 0) (.real 0.0), waitForRobot, setAllLights "blue",
    setHeadLight true, calibrateMotors true true]

/-- The state of the robot as a sample. -/
def statusSample : Status → Sample
  | .offline => .dict [(.text "connected", .truth false), (.text "reason", .text offlineReason)]
  | .online serial battery headAngle loaded =>
    let number : Number → Sample
      | .truth b => .truth b
      | .int n => .int n
      | .real x => .real x
    .dict [(.text "connected", .truth true), (.text "serial_number", number serial),
      (.text "battery_voltage", number battery), (.text "head_angle", number headAngle),
      (.text "animations_loaded", .truth loaded)]

/-- One round of questions to the controller: a figure that sums them up, and the state. -/
def askController : Act (Float × Status) := do
  noteRobotState (some (.real 3.8)) (some (.real 0.25))
  let _ ← loadAnimations
  let names := ["anim_bored_01", "anim_dancing_mambo_01", "anim_petdetection_dog_01"]
  let animations ← names.mapM animationDuration
  let groups ← ["CodeLabBored", "DanceMambo", "FistBumpSuccess"].mapM groupDuration
  let percent ← calculate (batteryPercent (.real 4.5))
  let full ← calculate percent.toReal
  return ((animations ++ groups).foldl (· + ·) full, ← readStatus)

/-- Uses the controller directly. -/
def useController (n : Nat) : Act Sample := do
  let accepted ← setCliffReaction "stop"
  let refused ← setCliffReaction "jump"
  let rounds ← (List.replicate n askController).mapM id
  let done ← plainActions.mapM id
  launch .idle
  let tasks := (← controller).pool.tracked.length
  let detected ← takeCliffDetected
  let total := (rounds.map (·.1)).foldl (· + ·) 0.0
  return .tuple [.truth accepted, .truth refused, if n == 0 then .int 0 else .real total,
    .int (done.countP id), optionSample (rounds.getLast?.map fun round => statusSample round.2),
    .int tasks, .truth detected]

/-- Uses the controller directly, on a connected system. -/
def directControl (n : Nat) : Sample :=
  optionSample (outcome? (useController n) connectedSystem)

/-! ## Script files -/

/-- A plain script of four commands and `n` more. -/
def plainScript (n : Nat) : String :=
  String.join (["# plain", "status", "wait", "sleep 0", "battery"].map (· ++ "\n") ++
    (List.range n).map fun i => s!"say line {i}\n")

/-- A script that includes the plain one. -/
def richScript : String :=
  String.join (["set n 3", "for i in 1..$n", "turn $i", "endfor", "if $n > 2", "head up", "else",
    "head down", "endif", "include plain.txt", "lift 0.5"].map (· ++ "\n"))

/-- The exit status of the program as a sample. -/
def statusOf (s : System) (args : List String) : Sample :=
  match outcome? (Console.run args) s with
  | some (some status) => .int status
  | _ => .nothing

/-- Loads script files, and runs the program where it needs no robot. -/
def scriptFiles (n : Nat) : Sample :=
  let s := system [("plain.txt", plainScript n), ("rich.txt", richScript)]
  let around : Script.Surroundings := { files := s.files, directory }
  let path (name : String) : Path := Path.ofText name
  let commands (load : Script.Run (List String × List Path)) : List String :=
    match load.run {} with
    | .ok (commands, _) _ => commands
    | .error _ _ => []
  let visited := Path.resolve directory (path "plain.txt")
  let offline := { s with world := { s.world with faults := [] } }
  let unreachable : System := { s with
    world := { s.world with faults := [("Client", { message := "no robot" })] } }
  .tuple [.int (commands (Script.loadPlain around (path "plain.txt") [])).length,
    .int (commands (Script.loadScript around (path "rich.txt") none [])).length,
    .list ((commands (Script.loadPlain around (path "none.txt") [])).map .text),
    .list ((commands (Script.loadPlain around (path "plain.txt") [visited])).map .text),
    statusOf s [], statusOf s ["--script"], statusOf s ["--script", "none.txt"],
    statusOf s ["dance"], statusOf offline ["list-anims"], statusOf offline ["list-sounds"],
    statusOf unreachable ["status"]]

/-! ## The whole program -/

/-- The commands that were announced in a trace. -/
def announced (trace : Array Event) : Nat :=
  trace.toList.countP fun event =>
    match event with
    | .print text => "\n>>> ".toList.isPrefixOf text.toList
    | _ => false

/-- Runs the program with a robot and without one: the exit statuses, and how many commands were
executed. -/
def wholeProgram (n : Nat) : Sample :=
  let commands := variedCommands.take 18 ++ cycle commonCommands n
  let s := system []
  let unreachable : System := { s with
    world := { s.world with faults := [("Client", { message := "no robot" })] } }
  match (Console.run commands).run s with
  | .ok status s =>
    .tuple [optionSample (status.map .int), statusOf unreachable ["status"],
      .int (announced s.trace)]
  | .error _ _ => .nothing

/-! ## Interpreting scripts -/

/-- A script with every kind of line. -/
def longScript : List String :=
  ["def tail", "def inner", "volume $1", "enddef", "sleep 0.0", "enddef", "set angle 90 / 2",
    "turn $angle", "wait", "for n in 1..659", "say n $n", "if $n % 2 == 1", "head up", "else",
    "head down", "endif", "endfor", "set k 3", "while $k > 0", "set k $k - 1", "endwhile",
    "call tail 1000"]

/-- Conditions that hold and fail in turn. -/
def conditions : List String :=
  ["1 == 1", "1 != 1", "2 >= 1", "2 <= 1", "2 > 1", "2 < 1", "yes", "off", "abc == abc"]

/-- Interprets a script: how many commands it has, the first and the last of them, and some
conditions. -/
def interpretScript : Sample :=
  let around : Script.Surroundings := { files := (system []).files, directory }
  let commands := match (Script.preprocess around none longScript).run {} with
    | .ok commands _ => commands
    | .error _ _ => []
  let truths := conditions.map fun condition =>
    match (Script.evaluateCondition around.limits condition).run {} with
    | .ok holds _ => Sample.truth holds
    | .error _ _ => .nothing
  .tuple [.int commands.length, .list ((commands.take 3).map .text),
    .list ((commands.drop (commands.length - 3)).map .text), .list truths]

end RobotConsole.Measure.Workload
