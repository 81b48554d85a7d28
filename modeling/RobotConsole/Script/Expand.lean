import RobotConsole.Command.Words
import RobotConsole.Script.Block
import RobotConsole.Script.Evaluation
import RobotConsole.Script.Load

/-!
# Expanding scripts

A script is expanded to the list of its commands. The lines of a block are walked in order:
assignments change variables, loops and conditionals expand their bodies, calls expand
subroutines, includes insert the commands of a file, and every other line is a command.

Blocks nest at most 50 deep. What is allowed one level further down is a parameter of every step,
so a script is expanded by recursion on the levels left, and within a block by recursion on the
lines left.
-/

namespace RobotConsole.Script

open Arithmetic (Value)
open Storage (Path)

/-- Blocks may nest this deep. -/
def maxDepth : Nat := 50

/-- The levels left, that of the block included, for a block at a depth. -/
def levelsAt (depth : Int) : Nat :=
  (maxDepth + 1 - depth).toNat

/-- How the body of a block is expanded. -/
abbrev Expander := List String → Run (List String)

/-- Includes a file: its commands, read plainly. -/
def expandInclude (around : Surroundings) (base : Option Path) (line : String) :
    Run (List String) := do
  match argumentOf? "include" line with
  | none => return []
  | some argument =>
    let named := Path.ofText (unquote argument)
    let path := match base with
      | some directory => directory.join named
      | none => named
    match around.files.contains around.directory path with
    | .error cause => throw (.file cause)
    | .ok false =>
      print s!"Error: Include file not found: {path.text}"
      return []
    | .ok true => return (← loadPlain around path []).1

/-- Carries out an assignment. -/
def assign (limits : Limits) (line : String) : Run Unit := do
  match assignmentOf? line with
  | none => print s!"Error: Invalid set syntax: {line}"
  | some (name, text) =>
    let value ← evaluateExpression limits (unquote text)
    bind name value
    print s!"  [set {name} = {← valueText value}]"

/-- The bounds and the step of a range such as `1..10 step 2`. -/
def rangeOf? (s : String) : Option (String × String × Option String) := do
  let cs := s.toList
  let first := cs.takeWhile Text.isDecimalDigit
  match first.isEmpty, cs.dropWhile Text.isDecimalDigit with
  | false, '.' :: '.' :: cs =>
    let last := cs.takeWhile Text.isDecimalDigit
    if last.isEmpty then none
    else
      let (first, last) := (String.ofList first, String.ofList last)
      match cs.dropWhile Text.isDecimalDigit with
      | [] | ['\n'] => some (first, last, none)
      | cs =>
        let cs ← afterBlanks? cs
        if !"step".toList.isPrefixOf cs then none
        else
          let cs ← afterBlanks? (cs.drop 4)
          let step := cs.takeWhile Text.isDecimalDigit
          match step.isEmpty, cs.dropWhile Text.isDecimalDigit with
          | false, [] | false, ['\n'] => some (first, last, some (String.ofList step))
          | _, _ => none
  | _, _ => none

/-- Reads a whole number, or stops the script. -/
def readInt (s : String) : Run Int :=
  match Decimal.readInt s with
  | .ok n => return n
  | .error cause => throw (.number cause)

/-- How many numbers there are from `first` to `last` in steps. -/
def rangeLength (first last step : Int) : Nat :=
  ((last - first + step) / step).toNat

/-- The numbers from `first` to `last` in steps, at most `limit` of them. -/
def rangeValues (first last step : Int) (limit : Nat) : List Value :=
  (List.range (min (rangeLength first last step) limit)).map fun (i : Nat) =>
    .int (first + step * i)

/-- Steps from one number to another, up to one more than the limit on rounds. -/
def stepThrough (limits : Limits) (first last step : Int) : Run (List Value) := do
  if step == 0 then throw .zeroStep
  let length := rangeLength first last step
  if Decimal.twoTo 63 ≤ length then throw .rangeUncountable
  if limits.rangeLength ≤ length then throw .rangeTooLong
  return rangeValues first last step ((← get).maxIterations.toNat + 1)

/-- The values that a for loop goes through. -/
def loopValues (limits : Limits) (s : String) : Run (List Value) := do
  match rangeOf? s with
  | some (first, last, step) =>
    let first ← readInt first
    let last ← readInt last
    match step with
    | some step => stepThrough limits first last (← readInt step)
    | none => stepThrough limits first last 1
  | none => return (Command.splitWords s).map .text

/-- The lines from a position on. A position below zero counts from the end of the lines, and the
walk then goes on with the first of them. -/
def linesFrom (lines : List String) (position : Int) : Run (List String) :=
  let back := (-position).toNat
  if 0 ≤ position then return lines.drop position.toNat
  else if back ≤ lines.length then return lines.drop (lines.length - back) ++ lines
  else throw .noSuchLine

/-- The trimmed line at a position, and the lines after it. -/
def lineAt (lines : List String) (position : Int) : Run (String × List String) := do
  match ← linesFrom lines position with
  | [] => throw .noSuchLine
  | line :: rest => return (Text.trim line, rest)

/-- The body of a loop and the number of lines up to and with its end. -/
def loopBody (closing : String) (rest : List String) : Run (List String × Nat) := do
  let (length, found) := blockLength closing 0 rest
  if !found then print s!"Warning: No matching {closing} found"
  return (rest.take length, length + 1)

/-- One round of a for loop. The loop variable is given back the value it had. -/
def forRound (expand : Expander) (name : String) (body : List String) (value : Value) :
    Run (List String) := do
  let old ← valueOf? name
  bind name value
  let commands ← expand body
  if old.isNone && (← valueOf? name).isNone then throw (.unbound name)
  restore name old
  return commands

/-- The rounds of a for loop, as many as are left. -/
def forRounds (expand : Expander) (name : String) (body : List String) :
    Nat → List Value → Run (List String)
  | _, [] => return []
  | 0, _ :: _ => do
    print s!"Warning: For loop exceeded max iterations ({(← get).maxIterations})"
    return []
  | left + 1, value :: values => do
    let commands ← forRound expand name body value
    return commands ++ (← forRounds expand name body left values)

/-- Expands a for loop, given its first line and the lines after it: the commands, and how many of
the lines after it belong to it. -/
def expandFor (limits : Limits) (expand : Expander) (line : String) (rest : List String) :
    Run (List String × Nat) := do
  match forLoopOf? line with
  | none =>
    print s!"Error: Invalid for syntax: {line}"
    return ([], 0)
  | some (name, text) =>
    let values ← loopValues limits (← expandVariables text)
    let (body, length) ← loopBody "endfor" rest
    let commands ← forRounds expand name body (← get).maxIterations.toNat values
    return (commands, length)

/-- The rounds of a while loop, as many as are left. -/
def whileRounds (limits : Limits) (expand : Expander) (condition : String) (body : List String) :
    Nat → Run (List String)
  | 0 => do
    if ← evaluateCondition limits condition then
      print s!"Warning: While loop exceeded max iterations ({(← get).maxIterations})"
    return []
  | left + 1 => do
    if ← evaluateCondition limits condition then
      let commands ← expand body
      return commands ++ (← whileRounds limits expand condition body left)
    else return []

/-- Expands a while loop, as `expandFor` does a for loop. -/
def expandWhile (limits : Limits) (expand : Expander) (line : String) (rest : List String) :
    Run (List String × Nat) := do
  match argumentOf? "while" line with
  | none =>
    print s!"Error: Invalid while syntax: {line}"
    return ([], 0)
  | some condition =>
    let (body, length) ← loopBody "endwhile" rest
    let commands ← whileRounds limits.called expand condition body (← get).maxIterations.toNat
    return (commands, length)

/-- Expands a conditional that starts on the line at `position`, counted from zero. -/
def expandIf (limits : Limits) (expand : Expander) (position : Int) (line : String)
    (rest : List String) : Run (List String × Nat) := do
  match argumentOf? "if" line with
  | none =>
    print s!"Error: Invalid if syntax: {line}"
    return ([], 0)
  | some condition =>
    match branches? 0 false rest with
    | none =>
      print s!"Error: No matching endif for if at line {position + 1}"
      return ([], 0)
    | some parts =>
      let holds ← evaluateCondition limits.called condition
      let commands ← expand (if holds then parts.thenLines else parts.elseLines)
      return (commands, parts.length + 1)

/-- Binds the arguments of a call to the names `1`, `2` and so on, from `index` on. -/
def bindArguments (index : Nat) : List String → Run (List (String × Option Value))
  | [] => return []
  | argument :: rest => do
    let name := toString index
    let old ← valueOf? name
    bind name (.text argument)
    return (name, old) :: (← bindArguments (index + 1) rest)

/-- Expands a call. The names of the arguments are given back the values they had. -/
def expandCall (expand : Expander) (line : String) : Run (List String) := do
  match callOf? line with
  | none =>
    print s!"Error: Invalid call syntax: {line}"
    return []
  | some (name, text) =>
    match Dict.get? (← get).subroutines name with
    | none =>
      print s!"Error: Subroutine not found: {name}"
      return []
    | some body =>
      let old ← bindArguments 1 (Command.splitWords text)
      let commands ← expand body
      old.forM fun (name, value) => restore name value
      return commands

/-- Expands the trimmed line at `position`, given the lines after it: the commands, and how many of
the lines after it belong to it. -/
def expandLine (around : Surroundings) (base : Option Path) (expand : Expander) (position : Nat)
    (line : String) (rest : List String) : Run (List String × Nat) := do
  match classify line with
  | .skipped => return ([], 0)
  | .includeFile => return (← expandInclude around base line, 0)
  | .assignment =>
    assign around.limits line
    return ([], 0)
  | .forLoop => expandFor around.limits expand line rest
  | .whileLoop => expandWhile around.limits expand line rest
  | .conditional => expandIf around.limits expand position line rest
  | .call => return (← expandCall expand line, 0)
  | .stray =>
    print s!"Warning: Unexpected {line} at line {position + 1}"
    return ([], 0)
  | .command => return ([← expandVariables line], 0)

/-- Expands the lines of a block from `position` on. -/
def expandLines (around : Surroundings) (base : Option Path) (expand : Expander)
    (position : Nat) : List String → Run (List String)
  | [] => return []
  | raw :: rest => do
    let (commands, taken) ← expandLine around base expand position (Text.trim raw) rest
    let more ← expandLines around base expand (position + 1 + taken) (rest.drop taken)
    return commands ++ more
termination_by lines => lines.length
decreasing_by simp only [List.length_drop, List.length_cons]; omega

/-- Expands a block with the given number of levels left. -/
def expandBlock (around : Surroundings) (base : Option Path) (levels : Nat) (lines : List String) :
    Run (List String) :=
  match levels with
  | 0 => do
    print "Error: Maximum nesting depth exceeded"
    return []
  | levels + 1 => expandLines around base (expandBlock around.inner base levels) 0 lines

/-- Where the reader of definitions stands: outside, or in the definition of a subroutine with its
lines so far in reverse and the number of definitions still open. -/
inductive Definition where
  | outside
  | within (name : String) (lines : List String) (nested : Nat)

/-- Stores a subroutine. -/
def define (name : String) (lines : List String) : Run Unit :=
  modify fun s => { s with subroutines := Dict.put s.subroutines name lines }

/-- The name of the subroutine that a trimmed line starts to define. -/
def definedName? (line : String) : Option String :=
  if startsWith (Text.lower line) "def " then
    let rest := line.toList.dropWhile fun c => !Text.isBlank c
    some (String.ofList (Text.trimChars rest))
  else none

/-- Stores the subroutines that lines define, and returns the lines outside definitions. Inner
definitions stay in the body of the outer one. -/
def extractFrom (state : Definition) : List String → Run (List String)
  | [] =>
    match state with
    | .outside => return []
    | .within name lines _ => do
      define name lines.reverse
      return []
  | raw :: rest =>
    match state with
    | .outside =>
      match definedName? (Text.trim raw) with
      | some name => extractFrom (.within name [] 0) rest
      | none => do return raw :: (← extractFrom .outside rest)
    | .within name lines nested =>
      let normal := normalLine raw
      if startsWith normal "def " then extractFrom (.within name (raw :: lines) (nested + 1)) rest
      else if normal == "enddef" then
        match nested with
        | 0 => do
          define name lines.reverse
          extractFrom .outside rest
        | n + 1 => extractFrom (.within name (raw :: lines) n) rest
      else extractFrom (.within name (raw :: lines) nested) rest

/-- Stores the subroutines of a script, and returns the lines outside definitions. -/
def extractSubroutines (lines : List String) : Run (List String) :=
  extractFrom .outside lines

/-- Expands a script: first its definitions are stored, then the other lines are expanded. -/
def preprocess (around : Surroundings) (base : Option Path) (lines : List String) :
    Run (List String) := do
  let lines ← extractSubroutines lines
  expandBlock around base (levelsAt 0) lines

/-- Loads a script file and expands it. Includes are looked up in `base`, or in the directory of the
file. -/
def loadScript (around : Surroundings) (path : Path) (base : Option Path) (visited : List Path) :
    Run (List String × List Path) := do
  let (lines, file, visited) ← openScript around path visited
  match lines with
  | none => return ([], visited)
  | some lines =>
    let commands ← preprocess around (some (base.getD file.parent)) lines
    return (commands, visited)

end RobotConsole.Script
