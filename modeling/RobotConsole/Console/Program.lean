import RobotConsole.Command.Help
import RobotConsole.Console.Execute
import RobotConsole.Script.Expand

/-!
# The program

The program takes commands as arguments or from a script file. All commands are read before the
first is executed, so a mistake in any of them is found before the robot moves. A connection is
made only if some command needs one, and it is always ended.
-/

namespace RobotConsole.Console

open Command (Verb)
open Robot
open Storage (Path)

/-- The commands that work without a robot. -/
def worksOffline : Verb → Bool
  | .listAnims | .listGroups | .listSounds => true
  | _ => false

/-- Runs a script; what it prints becomes part of the trace, also when it is stopped. -/
def runScript {α : Type} (script : Script.Run α) : Act α := do
  match script.run {} with
  | .ok result s =>
    s.printed.toList.forM print
    return result
  | .error cause s =>
    s.printed.toList.forM print
    throw (.script cause)

/-- The command lines of a script file. -/
def scriptCommands (path : Path) : Act (List String) := do
  let files ← visibleFiles
  let w ← world
  let (commands, _) ← runScript (Script.loadScript ⟨files, w.directory, w.limits⟩ path none [])
  return commands

/-- Reads command lines; nothing, after a report, when one cannot be read. Blank lines give no
command. -/
def readCommands : List String → Act (Option (List (Option Command)))
  | [] => return some []
  | line :: rest => do
    match Command.parse line with
    | .error cause =>
      print s!"Error parsing '{line}': {cause.message}"
      return none
    | .ok command => return (← readCommands rest).map (command :: ·)

/-- Whether some command needs a robot. Looking at a blank command fails. -/
def needsRobot : List (Option Command) → Act Bool
  | [] => return false
  | none :: _ => throw .blankCommand
  | some c :: rest => if worksOffline c.verb then needsRobot rest else return true

/-- Executes a command; there is none on a blank line. -/
def executeEntry : Option Command → Act (Verb × Bool)
  | some c => return (c.verb, ← execute c)
  | none => throw .blankExecution

/-- Executes commands in order, and reports those that fail. -/
def executeAll (commands : List (Option Command)) : Act Unit :=
  commands.forM fun entry => do
    let (verb, success) ← executeEntry entry
    if !success then print s!"  Command failed: {verb.name}"

/-- Makes the directory that a controller works in. -/
def prepare : Act Unit :=
  modify fun s => { s with files := s.files.put s.world.speechDirectory.names .directory }

/-- Executes commands on the robot, and disconnects whatever happens. -/
def session (commands : List (Option Command)) : Act Unit := do
  tryCatch (executeAll commands) fun failure =>
    if failure.isInterrupt then print "\n\nInterrupted by user"
    else print s!"\nError: {failure.message}"
  print Command.rule
  print "Disconnecting..."
  disconnect

/-- Executes commands, with a connection if one is needed; the exit status. -/
def runCommands (commands : List (Option Command)) : Act Int := do
  if !(← needsRobot commands) then
    prepare
    commands.forM fun entry => do
      let _ ← executeEntry entry
    return 0
  print "Connecting to Cozmo..."
  prepare
  let _ ← connect defaultRetries defaultDelay
  if !(← controller).connected then
    print "Failed to connect!"
    return 1
  print "Connected! Executing commands..."
  print Command.rule
  session commands
  return 0

/-- Reads command lines and executes them; the exit status. -/
def runLines (lines : List String) : Act Int := do
  match ← readCommands lines with
  | none => return 1
  | some commands => runCommands commands

/-- Runs a script file; the exit status. -/
def runScriptFile (path : Path) : Act Int := do
  if !(← pathExists path) then
    print s!"Error: Script not found: {path.text}"
    return 1
  let lines ← scriptCommands path
  if lines.isEmpty then return 1 else runLines lines

/-- Runs the program with its arguments; the exit status, or nothing when only help was asked
for. -/
def run : List String → Act (Option Int)
  | [] => help
  | arg :: rest =>
    if ["-h", "--help", "help"].contains arg then help
    else if ["-s", "--script"].contains arg then
      match rest with
      | [] => do
        print "Error: --script requires a filename"
        return some 1
      | file :: _ => do return some (← runScriptFile (Path.ofText file))
    else do return some (← runLines (arg :: rest))
where
  help : Act (Option Int) := do
    Command.helpLines.forM print
    return none

/-- Starts the program: without the link to the robot it ends at once with status one, otherwise it
runs and leaves the status to the system. -/
def start (linkAvailable : Bool) (args : List String) : Act (Option Int) := do
  if !linkAvailable then
    print "Error: pycozmo not installed. Run: pip install --user pycozmo"
    return some 1
  let _ ← run args
  return none

end RobotConsole.Console
