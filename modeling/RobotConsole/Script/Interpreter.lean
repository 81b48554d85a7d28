import RobotConsole.Arithmetic.Value
import RobotConsole.Dict
import RobotConsole.Script.Error

/-!
# The state of a script

Variables, subroutines, the limit on loop rounds, and what has been printed so far. A run either
yields a result or stops with an error; in both cases the state keeps what has been done.
-/

namespace RobotConsole.Script

/-- What the machine allows a block: how deep operators may nest in an expression that the block
assigns, and how many numbers fit in a range. -/
structure Limits where
  nesting : Nat := 2978
  rangeLength : Nat := Decimal.twoTo 36

/-- The limits in a function that is called. Operators nest on the stack of the calls under way, and
a call takes the room of three of them. -/
def Limits.called (limits : Limits) : Limits :=
  { limits with nesting := limits.nesting - 3 }

/-- What a script sees of the outside. -/
structure Surroundings where
  files : Storage.Files
  directory : Storage.Path
  limits : Limits := {}

/-- The same with other limits. -/
def Surroundings.under (around : Surroundings) (limits : Limits) : Surroundings :=
  { around with limits }

/-- What a block inside another one sees, two calls further down. -/
def Surroundings.inner (around : Surroundings) : Surroundings :=
  around.under around.limits.called.called

/-- The state of a script. -/
structure Interpreter where
  bindings : Dict Arithmetic.Value := []
  subroutines : Dict (List String) := []
  maxIterations : Int := 1000
  printed : Array String := #[]

/-- A computation on the state of a script. -/
abbrev Run := EStateM ScriptError Interpreter

/-- Prints a line. -/
def print (line : String) : Run Unit :=
  modify fun s => { s with printed := s.printed.push line }

/-- Gives a variable a value. -/
def bind (name : String) (value : Arithmetic.Value) : Run Unit :=
  modify fun s => { s with bindings := Dict.put s.bindings name value }

/-- Takes a variable away. -/
def unbind (name : String) : Run Unit :=
  modify fun s => { s with bindings := Dict.remove s.bindings name }

/-- The value of a variable. -/
def valueOf? (name : String) : Run (Option Arithmetic.Value) := do
  return Dict.get? (← get).bindings name

/-- Gives a variable back the value it had, if it had one. -/
def restore (name : String) (old : Option Arithmetic.Value) : Run Unit :=
  match old with
  | some value => bind name value
  | none => unbind name

end RobotConsole.Script
