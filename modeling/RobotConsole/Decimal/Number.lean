import RobotConsole.Decimal.Fixed
import RobotConsole.Decimal.Reading

/-!
# Numbers as commands pass them

A number is a truth value, a whole number of any size, or a double, and stays what it was written
as until a calculation makes a double of it. Numbers of all three kinds are compared by their exact
values. In a choice between two equal numbers the first stays. A whole number of more than 4300
digits cannot be written out.
-/

namespace RobotConsole

/-- A number. -/
inductive Number where
  | truth (b : Bool)
  | int (n : Int)
  | real (x : Float)

/-- Why a calculation has no result. -/
inductive NumberError where
  /-- A division by zero, among whole numbers or with a double. -/
  | divisionByZero (withReal : Bool)
  /-- The quotient of two whole numbers is beyond the doubles. -/
  | quotientTooLarge
  /-- A whole number is beyond the doubles. -/
  | tooLarge
  /-- A whole number has more digits than may be written. -/
  | tooLongToWrite
  /-- A double that is not finite has no whole part. -/
  | notFinite (isNaN : Bool)
  deriving Repr, DecidableEq

/-- The wording of a failed calculation. -/
def NumberError.message : NumberError → String
  | .divisionByZero false => "division by zero"
  | .divisionByZero true => "float division by zero"
  | .quotientTooLarge => "integer division result too large for a float"
  | .tooLarge => "int too large to convert to float"
  | .tooLongToWrite => Decimal.tooLongMessage
  | .notFinite true => "cannot convert float NaN to integer"
  | .notFinite false => "cannot convert float infinity to integer"

namespace Number

/-- A number that is no double as a whole number. -/
def whole? : Number → Option Int
  | .truth b => some (if b then 1 else 0)
  | .int n => some n
  | .real _ => none

/-- The plain text of a number, whatever its length. -/
def plain : Number → String
  | .truth b => if b then "True" else "False"
  | .int n => toString n
  | .real x => Decimal.floatText x

/-- Whether a number can be written: a whole number has at most so many digits. -/
def isWritable : Number → Bool
  | .int n => (Nat.toDigits 10 n.natAbs).length ≤ Decimal.maxIntDigits
  | _ => true

/-- The text of a number where it is written out. -/
def written (a : Number) : Except NumberError String :=
  if a.isWritable then .ok a.plain else .error .tooLongToWrite

/-- The double nearest to a number. -/
def toReal : Number → Except NumberError Float
  | .real x => .ok x
  | .truth b => .ok (if b then 1.0 else 0.0)
  | .int n =>
    match Decimal.nearestInt? n with
    | some x => .ok x
    | none => .error .tooLarge

/-- The whole part of a number, toward zero. -/
def toInt : Number → Except NumberError Int
  | .truth b => .ok (if b then 1 else 0)
  | .int n => .ok n
  | .real x => if x.isFinite then .ok (Decimal.truncate x) else .error (.notFinite x.isNaN)

/-- A number with a fixed number of places after the point. -/
def fixed (places : Nat) (a : Number) : Except NumberError String := do
  return Decimal.fixedText places (← a.toReal)

/-- The exact value of a finite double as a quotient. -/
def exactRatio (x : Float) : Int × Nat :=
  let (num, den) := (Decimal.magnitude x).ratio
  (if Decimal.isNegative x then -num else num, den)

/-- Whether a whole number is below a double. -/
def intBelow (n : Int) (x : Float) : Bool :=
  if x.isNaN then false
  else if x.isInf then 0.0 < x
  else
    let (num, den) := exactRatio x
    n * den < num

/-- Whether a double is below a whole number. -/
def realBelow (x : Float) (n : Int) : Bool :=
  if x.isNaN then false
  else if x.isInf then x < 0.0
  else
    let (num, den) := exactRatio x
    num < n * den

/-- Whether a number is below another. -/
def below (a b : Number) : Bool :=
  match a, b with
  | .real x, .real y => x < y
  | .real x, b => (b.whole?.map (realBelow x)).getD false
  | a, .real y => (a.whole?.map (intBelow · y)).getD false
  | a, b => a.whole?.getD 0 < b.whole?.getD 0

/-- The smaller of two numbers. -/
def least (a b : Number) : Number :=
  if b.below a then b else a

/-- The larger of two numbers. -/
def greatest (a b : Number) : Number :=
  if a.below b then b else a

/-- The number nearest to `x` between two bounds; the upper bound for no number at all. -/
def clamp (low high x : Number) : Number :=
  greatest low (least high x)

/-- Whether a number is above zero. -/
def isPositive (a : Number) : Bool :=
  (Number.int 0).below a

/-- Whether a number is zero. -/
def isZero : Number → Bool
  | .truth b => !b
  | .int n => n == 0
  | .real x => x == 0.0

/-- The negative of a number. -/
def negate : Number → Number
  | .real x => .real (-x)
  | .truth b => .int (if b then -1 else 0)
  | .int n => .int (-n)

/-- The magnitude of a number. -/
def size : Number → Number
  | .real x => .real x.abs
  | .truth b => .int (if b then 1 else 0)
  | .int n => .int n.natAbs

/-- The quotient of two numbers, rounded once. -/
def divide (a b : Number) : Except NumberError Float :=
  match a.whole?, b.whole? with
  | some m, some n =>
    if n == 0 then .error (.divisionByZero false)
    else
      match Decimal.nearestQuotient? ((m < 0) != (n < 0)) m.natAbs n.natAbs with
      | some x => .ok x
      | none => .error .quotientTooLarge
  | _, _ => do
    let x ← a.toReal
    let y ← b.toReal
    if y == 0.0 then throw (.divisionByZero true) else return x / y

end Number

end RobotConsole
