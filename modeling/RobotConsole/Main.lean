import RobotConsole.Console.Program

/-!
# The command line

Reads the script files that the arguments lead to, runs the program on them, and shows what it did.
This build has no link to a robot, so every attempt to connect fails.
-/

namespace RobotConsole.CommandLine

open Storage (Path Files)

/-- The content of a file, if it can be read. -/
def readFile? (path : Path) : IO (Option ByteArray) := do
  try
    return some (← IO.FS.readBinFile path.text)
  catch _ => return none

/-- The files that a script includes, as its lines name them. -/
def includedFiles (path : Path) (content : List UInt8) : List Path :=
  match Storage.decodeUtf8 content with
  | .error _ => []
  | .ok cs =>
    (Storage.linesFrom [] cs).filterMap fun line =>
      (Script.argumentOf? "include" (Text.trim line)).map fun argument =>
        Path.resolve path.parent (Path.ofText (Script.unquote argument))

/-- Reads files, and those that they include, up to a number of files. -/
def gather : Nat → Files → List Path → IO Files
  | 0, files, _ => return files
  | _, files, [] => return files
  | fuel + 1, files, path :: rest => do
    if (files.lookup path.names).isSome then gather fuel files rest
    else
      match ← readFile? path with
      | none => gather fuel files rest
      | some bytes =>
        let content := bytes.toList
        gather fuel ((path.names, .bytes content) :: files) (rest ++ includedFiles path content)

/-- The most files that one run reads. -/
def maxFiles : Nat := 1000

/-- A world without a robot. -/
def unlinkedWorld (directory : Path) (clock : Nat) : Robot.World :=
  { directory, clock, faults := [("Client", { message := "no link to a robot" })] }

/-- A number of seconds in milliseconds. -/
def milliseconds (seconds : Number) : UInt32 :=
  match seconds.toReal with
  | .ok x => (x * 1000.0).toUInt32
  | .error _ => 0

/-- Shows an event: lines are printed and pauses are kept. -/
def replay : Robot.Event → IO Unit
  | .print text => IO.println text
  | .sleep seconds => IO.sleep (milliseconds seconds)
  | _ => return ()

/-- Runs the program with its arguments. -/
def runProgram (args : List String) : IO UInt32 := do
  let directory := Path.ofText (toString (← IO.currentDir))
  let clock := (← IO.monoMsNow) / 1000
  let scripts := (args.drop 1).map fun arg => Path.resolve directory (Path.ofText arg)
  let files ← gather maxFiles [(directory.names, .directory)] scripts
  let system : Robot.System := { world := unlinkedWorld directory clock, files }
  match (Console.start true args).run system with
  | .ok status s =>
    s.trace.toList.forM replay
    return if status == some 1 then 1 else 0
  | .error failure s =>
    s.trace.toList.forM replay
    IO.eprintln failure.message
    return 1

end RobotConsole.CommandLine

/-- The program. -/
def main (args : List String) : IO UInt32 :=
  RobotConsole.CommandLine.runProgram args
