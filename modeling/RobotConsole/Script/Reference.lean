import RobotConsole.Script.Interpreter
import RobotConsole.Text.WordChar

/-!
# Variable references

A line may refer to variables as `${name}` and as `$name`. References in braces are replaced
first, and then plain ones in the result. A name is as long as possible; a variable without a
value stands for nothing.
-/

namespace RobotConsole.Script

open Arithmetic (Value)

/-- The text that a reference stands for. -/
def referenceText (bindings : Dict Value) (name : List Char) :
    Except ScriptError (List Char) :=
  match Dict.get? bindings (String.ofList name) with
  | none => .ok []
  | some value =>
    match value.text? with
    | some s => .ok s.toList
    | none => .error .tooLongToWrite

/-- How much of a reference in braces has been seen; the name is held in reverse. -/
inductive Braced where
  | outside
  | dollar
  | name (seen : List Char)

/-- The characters held back while a reference might be under way. -/
def Braced.held : Braced → List Char
  | .outside => []
  | .dollar => ['$']
  | .name seen => '$' :: '{' :: seen.reverse

/-- Replaces references in braces. -/
def expandBraced (bindings : Dict Value) (state : Braced) :
    List Char → Except ScriptError (List Char)
  | [] => .ok state.held
  | c :: rest => do
    let afresh : Except ScriptError (List Char) :=
      if c == '$' then return state.held ++ (← expandBraced bindings .dollar rest)
      else return state.held ++ c :: (← expandBraced bindings .outside rest)
    match state with
    | .outside => afresh
    | .dollar => if c == '{' then expandBraced bindings (.name []) rest else afresh
    | .name seen =>
      if Text.isWordChar c then expandBraced bindings (.name (c :: seen)) rest
      else if c == '}' && !seen.isEmpty then
        let value ← referenceText bindings seen.reverse
        return value ++ (← expandBraced bindings .outside rest)
      else afresh

/-- What a plain reference stands for; a dollar sign without a name stands for itself. -/
def plainText (bindings : Dict Value) (seen : List Char) : Except ScriptError (List Char) :=
  if seen.isEmpty then .ok ['$'] else referenceText bindings seen.reverse

/-- Replaces plain references. `seen` holds the name under way, in reverse, after a dollar sign. -/
def expandPlain (bindings : Dict Value) (seen : Option (List Char)) :
    List Char → Except ScriptError (List Char)
  | [] =>
    match seen with
    | none => .ok []
    | some name => plainText bindings name
  | c :: rest =>
    match seen with
    | none =>
      if c == '$' then expandPlain bindings (some []) rest
      else do return c :: (← expandPlain bindings none rest)
    | some name =>
      if Text.isWordChar c then expandPlain bindings (some (c :: name)) rest
      else do
        let value ← plainText bindings name
        if c == '$' then return value ++ (← expandPlain bindings (some []) rest)
        else return value ++ c :: (← expandPlain bindings none rest)

/-- Replaces every reference in a text. -/
def expandText (bindings : Dict Value) (s : String) : Except ScriptError String := do
  let braced ← expandBraced bindings .outside s.toList
  return String.ofList (← expandPlain bindings none braced)

/-- Replaces every reference in a text by the present values. -/
def expandVariables (s : String) : Run String := do
  match expandText (← get).bindings s with
  | .ok expanded => return expanded
  | .error e => throw e

end RobotConsole.Script
