import RobotConsole.Arithmetic.Operation

/-!
# Arithmetic terms

The tree of an arithmetic expression, its value, and how deep its operators nest.
-/

namespace RobotConsole.Arithmetic

/-- An arithmetic expression. -/
inductive Term where
  | int (n : Nat)
  | real (x : Float)
  | emptyTuple
  | ellipsis
  | negate (t : Term)
  | plus (t : Term)
  | binary (op : Operator) (left right : Term)

namespace Term

/-- The value of a term, when every operation in it has a result. -/
def value? : Term → Option Value
  | .int n => some (.int n)
  | .real x => some (.real x)
  | .emptyTuple => some .emptyTuple
  | .ellipsis => some .ellipsis
  | .negate t => t.value?.bind negate?
  | .plus t => t.value?.bind plus?
  | .binary op left right => do binary? op (← left.value?) (← right.value?)

/-- How many operators lie on the longest path through a term. -/
def nesting : Term → Nat
  | .negate t | .plus t => t.nesting + 1
  | .binary _ left right => max left.nesting right.nesting + 1
  | _ => 0

end Term

end RobotConsole.Arithmetic
