import RobotConsole.Arithmetic.Reader
import RobotConsole.Script.Directive
import RobotConsole.Script.Reference

/-!
# Values and conditions

An expression is expanded and then calculated; what cannot be calculated stays a text. A condition
is split at the first comparison sign, looked for in a fixed order, and its two sides are compared:
as numbers when both are numbers, as texts when both are texts. A condition without a comparison
holds unless it is empty or one of the words for no.
-/

namespace RobotConsole.Script

open Arithmetic (Value)

/-- The value of an expression. -/
def evaluateExpression (limits : Limits) (s : String) : Run Value := do
  let expanded ← expandVariables s
  return (Arithmetic.evaluate? limits.nesting expanded).getD (.text expanded)

/-- One side of a comparison. -/
inductive Side where
  | number (x : Float)
  | text (s : String)

/-- The text of a side. -/
def Side.plain : Side → String
  | .number x => Decimal.floatText x
  | .text s => s

/-- The text of a value; too long a number stops the script. -/
def valueText (v : Value) : Run String :=
  match v.text? with
  | some s => return s
  | none => throw .tooLongToWrite

/-- Reads a value as a side: numbers, and texts with a point, must be readable as numbers; other
texts stay texts. Nothing when a number is required and there is none. -/
def sideOf? (v : Value) (text : String) : Option Side :=
  match v with
  | .int n => (Decimal.nearestInt? n).map .number
  | .real x => some (.number x)
  | _ =>
    if text.toList.contains '.' then
      match v, Decimal.readFloat text with
      | .text _, .ok x => some (.number x)
      | _, _ => none
    else some (.text text)

/-- The two sides of a comparison. When one side should be a number and is none, both are texts;
by then the left side may already have become a number. -/
def sides (left right : Value) : Run (Side × Side) := do
  let leftText ← valueText left
  match sideOf? left leftText with
  | none => return (.text leftText, .text (← valueText right))
  | some l =>
    let rightText ← valueText right
    match sideOf? right rightText with
    | some r => return (l, r)
    | none => return (.text l.plain, .text rightText)

/-- Compares two numbers. -/
def Comparison.holdsNumbers (c : Comparison) (x y : Float) : Bool :=
  match c with
  | .eq => x == y
  | .ne => x != y
  | .ge => x ≥ y
  | .le => x ≤ y
  | .gt => x > y
  | .lt => x < y

/-- Compares two texts by the code points of their characters. -/
def Comparison.holdsTexts (c : Comparison) (s t : String) : Bool :=
  match c with
  | .eq => s == t
  | .ne => s != t
  | .ge => decide (t ≤ s)
  | .le => decide (s ≤ t)
  | .gt => decide (t < s)
  | .lt => decide (s < t)

/-- Compares two sides. A number and a text differ, and have no order. -/
def compareSides (c : Comparison) : Side → Side → Except ScriptError Bool
  | .number x, .number y => .ok (c.holdsNumbers x y)
  | .text s, .text t => .ok (c.holdsTexts s t)
  | l, _ =>
    match c with
    | .eq => .ok false
    | .ne => .ok true
    | _ => .error (.unordered c (match l with
      | .text _ => true
      | .number _ => false))

/-- The comparisons in the order in which they are looked for. -/
def Comparison.all : List Comparison :=
  [.eq, .ne, .ge, .le, .gt, .lt]

/-- Splits a condition at the first comparison sign that occurs in it. -/
def splitComparison? (condition : String) : Option (Comparison × String × String) :=
  Comparison.all.findSome? fun c =>
    (Text.splitOnce? c.sign condition).map fun (left, right) => (c, left, right)

/-- Whether a condition without a comparison holds. -/
def isAffirmative (condition : String) : Bool :=
  condition != "" && Text.lower condition ∉ ["false", "0", "no", "off"]

/-- Whether a condition holds. -/
def evaluateCondition (limits : Limits) (condition : String) : Run Bool := do
  let condition ← expandVariables condition
  match splitComparison? condition with
  | none => return isAffirmative condition
  | some (c, left, right) =>
    let left ← evaluateExpression limits (Text.trim left)
    let right ← evaluateExpression limits (Text.trim right)
    let (l, r) ← sides left right
    match compareSides c l r with
    | .ok holds => return holds
    | .error e => throw e

end RobotConsole.Script
