import RobotConsole.Arithmetic.Term
import RobotConsole.Arithmetic.Token

/-!
# Reading arithmetic

Operator-precedence reading of tokens. From loosest to tightest: sums, products, signs, powers.
Sums and products group to the left, powers to the right, and a sign binds more loosely than the
power on its right. The reader keeps what it has not finished as a stack of contexts, so it walks
the tokens once. How deep it may go is bounded: every operand lies under so many rules of the
grammar, and what is unfinished around it adds to them.
-/

namespace RobotConsole.Arithmetic

/-- How tightly an operator binds its operands. -/
def Operator.strength : Operator → Nat
  | .add | .sub => 1
  | .mul | .div | .floorDiv | .mod => 2
  | .pow => 4

/-- An unfinished part of an expression. -/
inductive Context where
  | bracket
  | negate
  | plus
  | left (op : Operator) (t : Term)

/-- Whether a context takes the operand on its right before an operator of the given strength. -/
def Context.yieldsTo (strength : Nat) : Context → Bool
  | .bracket => false
  | .negate | .plus => strength ≤ 3
  | .left .pow _ => strength < 4
  | .left op _ => strength ≤ op.strength

/-- Completes a context with the operand on its right. -/
def Context.complete (t : Term) : Context → Term
  | .bracket => t
  | .negate => .negate t
  | .plus => .plus t
  | .left op l => .binary op l t

/-- Completes the contexts that bind at least as tightly as an operator of the given strength. -/
def reduce (strength : Nat) (t : Term) : List Context → Term × List Context
  | [] => (t, [])
  | c :: stack =>
    if c.yieldsTo strength then reduce strength (c.complete t) stack else (t, c :: stack)

/-- The rules of the grammar that a context puts between an operand and what surrounds it. Inside a
bracket all levels of the grammar are gone through again. -/
def Context.depth : Context → Nat
  | .bracket => 28
  | .negate | .plus => 1
  | .left .pow _ => 2
  | .left _ _ => 0

/-- How many rules of the grammar an operand lies under. -/
def operandDepth : List Context → Nat
  | [] => 25
  | c :: stack => c.depth + operandDepth stack

/-- An operand may lie under so many rules. -/
def maxOperandDepth : Nat := 6000

/-- What the reader holds: either it waits for an operand, or it has one in hand. `opened` says
that the last token was an opening bracket. -/
inductive Reader where
  | wanting (opened : Bool) (stack : List Context)
  | holding (t : Term) (stack : List Context)

/-- Waits for an operand, unless it would lie too deep. -/
def Reader.want? (opened : Bool) (stack : List Context) : Option Reader :=
  if operandDepth stack ≤ maxOperandDepth then some (.wanting opened stack) else none

/-- One token. Nothing can be called, so a bracket after an operand is refused. -/
def Reader.step? : Reader → Token → Option Reader
  | .wanting _ stack, .int n => some (.holding (.int n) stack)
  | .wanting _ stack, .real x => some (.holding (.real x) stack)
  | .wanting _ stack, .ellipsis => some (.holding .ellipsis stack)
  | .wanting _ stack, .operator .add => want? false (.plus :: stack)
  | .wanting _ stack, .operator .sub => want? false (.negate :: stack)
  | .wanting _ stack, .opening => want? true (.bracket :: stack)
  | .wanting true (.bracket :: stack), .closing => some (.holding .emptyTuple stack)
  | .holding t stack, .operator op =>
    let (t, stack) := reduce op.strength t stack
    want? false (.left op t :: stack)
  | .holding t stack, .closing =>
    match reduce 0 t stack with
    | (t, .bracket :: stack) => some (.holding t stack)
    | _ => none
  | _, _ => none

/-- The term that a reader has read in full. -/
def Reader.finish? : Reader → Option Term
  | .holding t stack =>
    match reduce 0 t stack with
    | (t, []) => some t
    | _ => none
  | .wanting _ _ => none

/-- Reads an expression in which operators may nest so deep. -/
def read? (nesting : Nat) (s : String) : Option Term := do
  let tokens ← tokens? s
  let reader ← tokens.foldlM (fun r t => r.step? t) (Reader.wanting false [])
  let term ← reader.finish?
  if term.nesting ≤ nesting then some term else none

/-- The value of an expression. A double that is whole becomes a whole number; one that is not
finite is refused. -/
def evaluate? (nesting : Nat) (s : String) : Option Value := do
  match ← (← read? nesting s).value? with
  | .real x =>
    if !x.isFinite then none
    else if Decimal.isWhole x then some (.int (Decimal.truncate x))
    else some (.real x)
  | v => some v

end RobotConsole.Arithmetic
