import RobotConsole.Script.Directive

/-!
# Finding the ends of blocks

Blocks are found by counting the lines that open and close blocks. The body of a loop ends at the
first closing line of its own kind that no inner block claims. The two parts of a conditional are
found by counting conditionals alone.
-/

namespace RobotConsole.Script

/-- A line as the block finder sees it: trimmed and in lower case. -/
def normalLine (line : String) : String :=
  Text.lower (Text.trim line)

/-- Whether a normal line opens a block. -/
def opensBlock (line : String) : Bool :=
  startsWith line "for " || startsWith line "while " || startsWith line "if "

/-- Whether a normal line closes a block. -/
def closesBlock (line : String) : Bool :=
  line == "endfor" || line == "endwhile" || line == "endif"

/-- How far the body of a block goes: the number of its lines, and whether its end was found.
`nested` is the number of inner blocks still open; stray closing lines make it negative. -/
def blockLength (closing : String) (nested : Int) : List String → Nat × Bool
  | [] => (0, false)
  | line :: rest =>
    let normal := normalLine line
    let longer (nested : Int) : Nat × Bool :=
      let (n, found) := blockLength closing nested rest
      (n + 1, found)
    if opensBlock normal then longer (nested + 1)
    else if closesBlock normal then
      if nested == 0 && normal == closing then (0, true) else longer (nested - 1)
    else longer nested

/-- The parts of a conditional: the lines if the condition holds, the lines if it does not, and the
number of lines up to the closing one. -/
structure Branches where
  thenLines : List String
  elseLines : List String
  length : Nat

/-- Adds a line to the part it belongs to. -/
def Branches.add (inElse : Bool) (line : String) (b : Branches) : Branches :=
  if inElse then { b with elseLines := line :: b.elseLines, length := b.length + 1 }
  else { b with thenLines := line :: b.thenLines, length := b.length + 1 }

/-- Finds the parts of a conditional; nothing when it is not closed. Every `else` of the
conditional itself starts or goes on with the second part. -/
def branches? (nested : Nat) (inElse : Bool) : List String → Option Branches
  | [] => none
  | line :: rest =>
    let normal := normalLine line
    if startsWith normal "if " then (branches? (nested + 1) inElse rest).map (·.add inElse line)
    else if normal == "endif" then
      match nested with
      | 0 => some ⟨[], [], 0⟩
      | n + 1 => (branches? n inElse rest).map (·.add inElse line)
    else if normal == "else" && nested == 0 then
      (branches? nested true rest).map fun b => { b with length := b.length + 1 }
    else (branches? nested inElse rest).map (·.add inElse line)

end RobotConsole.Script
