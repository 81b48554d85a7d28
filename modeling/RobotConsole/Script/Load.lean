import RobotConsole.Script.Interpreter
import RobotConsole.Text.Blank

/-!
# Loading script files

A script file is a list of lines. Read plainly, its commands are the trimmed lines that are neither
blank nor comments. A file that has been visited is not read again.
-/

namespace RobotConsole.Script

open Storage (Path)

/-- The commands of a file that is read plainly. -/
def plainCommands (lines : List String) : List String :=
  (lines.map Text.trim).filter fun line => line != "" && line.toList.head? != some '#'

/-- The lines of a script file, with the path of the file; nothing, after a report, when it was
visited before or cannot be read. The file counts as visited in any case. -/
def openScript (around : Surroundings) (path : Path) (visited : List Path) :
    Run (Option (List String) × Path × List Path) := do
  if path.hasNul then throw .embeddedNul
  let file := Path.resolve around.directory path
  if visited.contains file then
    print s!"Warning: Skipping already included file: {file.text}"
    return (none, file, visited)
  match around.files.lines file with
  | .ok lines => return (some lines, file, visited ++ [file])
  | .error cause =>
    print s!"Error reading file {file.text}: {cause.message}"
    return (none, file, visited ++ [file])

/-- Loads a script file plainly. -/
def loadPlain (around : Surroundings) (path : Path) (visited : List Path) :
    Run (List String × List Path) := do
  let (lines, _, visited) ← openScript around path visited
  return (plainCommands (lines.getD []), visited)

end RobotConsole.Script
