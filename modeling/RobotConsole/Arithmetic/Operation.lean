import RobotConsole.Arithmetic.Value

/-!
# Arithmetic on script values

Whole numbers are exact and of any size. Mixed arithmetic goes to doubles, and from there to
complex numbers. Division of whole numbers is rounded once; floor division and remainder follow the
sign of the divisor. An operation that has no result, such as a division by zero, gives nothing.
-/

namespace RobotConsole.Arithmetic

/-- The exact remainder of two doubles, with the sign of the dividend. -/
def remainder (x y : Float) : Float :=
  if x.isNaN || y.isNaN || x.isInf || y == 0.0 then 0.0 / 0.0
  else if y.isInf then x
  else
    let a := Decimal.magnitude x
    let b := Decimal.magnitude y
    let e := min a.exponent b.exponent
    let r := (a.significand * Decimal.twoTo (a.exponent - e).toNat) %
      (b.significand * Decimal.twoTo (b.exponent - e).toNat)
    let (num, den) := (Decimal.Binary.mk r e).ratio
    (Decimal.nearestQuotient? (Decimal.isNegative x) num den).getD x

/-- Zero with the sign of another double. -/
def zeroLike (x : Float) : Float :=
  if Decimal.isNegative x then -0.0 else 0.0

/-- The remainder with the sign of the divisor. -/
def floorMod (x y : Float) : Float :=
  let r := remainder x y
  if r == 0.0 then zeroLike y
  else if (y < 0.0) != (r < 0.0) then r + y
  else r

/-- The quotient rounded down. -/
def floorDiv (x y : Float) : Float :=
  let r := remainder x y
  let q := (x - r) / y
  let q := if r != 0.0 && (y < 0.0) != (r < 0.0) then q - 1.0 else q
  if q == 0.0 then zeroLike (x / y)
  else
    let f := q.floor
    if q - f > 0.5 then f + 1.0 else f

/-- Whether a double is an odd whole number. -/
def isOdd (x : Float) : Bool :=
  Decimal.isWhole x && Decimal.truncate x % 2 != 0

/-- The length of a plane vector, correctly rounded. -/
def hypotenuse (x y : Float) : Float :=
  if x.isInf || y.isInf then 1.0 / 0.0
  else if x.isNaN || y.isNaN then 0.0 / 0.0
  else
    let a := Decimal.magnitude x
    let b := Decimal.magnitude y
    let e := min a.exponent b.exponent
    let m := a.significand * Decimal.twoTo (a.exponent - e).toNat
    let n := b.significand * Decimal.twoTo (b.exponent - e).toNat
    -- Enough bits below the unit that the root rounds as the exact one does.
    let square := (m * m + n * n) * Decimal.twoTo 128
    let root := Nat.sqrt square
    let sticky := if root * root == square then 2 * root else 2 * root + 1
    let (num, den) := (Decimal.Binary.mk sticky (e - 65)).ratio
    (Decimal.nearestQuotient? false num den).getD (1.0 / 0.0)

/-- A complex number. -/
structure Complex where
  re : Float
  im : Float

namespace Complex

/-- The product, part by part. -/
def mul (a b : Complex) : Complex :=
  ⟨a.re * b.re - a.im * b.im, a.re * b.im + a.im * b.re⟩

/-- Division that scales by the larger part of the divisor; nothing when the divisor is zero. -/
def div? (a b : Complex) : Option Complex :=
  let absRe := b.re.abs
  let absIm := b.im.abs
  if absRe ≥ absIm then
    if absRe == 0.0 then none
    else
      let ratio := b.im / b.re
      let den := b.re + b.im * ratio
      some ⟨(a.re + a.im * ratio) / den, (a.im - a.re * ratio) / den⟩
  else if absIm ≥ absRe then
    let ratio := b.re / b.im
    let den := b.re * ratio + b.im
    some ⟨(a.re * ratio + a.im) / den, (a.im * ratio - a.re) / den⟩
  else some ⟨0.0 / 0.0, 0.0 / 0.0⟩

/-- A natural power by repeated squaring. -/
def natPow (fuel : Nat) (result base : Complex) (n : Nat) : Complex :=
  match fuel with
  | 0 => result
  | fuel + 1 =>
    if n == 0 then result
    else
      let result := if n % 2 == 1 then mul result base else result
      natPow fuel result (mul base base) (n / 2)

/-- Nothing when a part overflowed. -/
def finite? (c : Complex) : Option Complex :=
  if c.re.isInf || c.im.isInf then none else some c

/-- A complex power. Small whole exponents are multiplied out; others go through the polar form. -/
def pow? (a b : Complex) : Option Complex :=
  if b.im == 0.0 && b.re == b.re.floor && b.re.abs ≤ 100.0 then
    let n := Decimal.truncate b.re
    let p := natPow 8 ⟨1.0, 0.0⟩ a n.natAbs
    if 0 < n then finite? p else (div? ⟨1.0, 0.0⟩ p).bind finite?
  else if b.re == 0.0 && b.im == 0.0 then some ⟨1.0, 0.0⟩
  else if a.re == 0.0 && a.im == 0.0 then
    if b.im != 0.0 || b.re < 0.0 then none else some ⟨0.0, 0.0⟩
  else
    let size := hypotenuse a.re a.im
    let angle := Float.atan2 a.im a.re
    let length := size.pow b.re
    let phase := angle * b.re
    let (length, phase) :=
      if b.im != 0.0 then (length / (angle * b.im).exp, phase + b.im * size.log)
      else (length, phase)
    finite? ⟨length * phase.cos, length * phase.sin⟩

end Complex

/-- A real power. Nothing for zero to a negative power and for a result out of range; a negative
base with a fractional exponent has a complex power. -/
def realPow? (x y : Float) : Option Value :=
  let real (r : Float) : Option Value := some (.real r)
  if y == 0.0 then real 1.0
  else if x.isNaN then real x
  else if y.isNaN then real (if x == 1.0 then 1.0 else y)
  else if y.isInf then
    let size := x.abs
    if size == 1.0 then real 1.0
    else if (y > 0.0) == (size > 1.0) then real y.abs
    else real 0.0
  else if x.isInf then
    if y > 0.0 then real (if isOdd y then x else x.abs)
    else real (if isOdd y then zeroLike x else 0.0)
  else if x == 0.0 then
    if y < 0.0 then none else real (if isOdd y then x else 0.0)
  else if x < 0.0 && y != y.floor then
    (Complex.pow? ⟨x, 0.0⟩ ⟨y, 0.0⟩).map fun c => .complex c.re c.im
  else
    let negate := x < 0.0 && isOdd y
    let size := x.abs
    let r := if size == 1.0 then 1.0 else size.pow y
    if r.isInf then none else real (if negate then -r else r)

/-- A binary operation of script arithmetic. -/
inductive Operator where
  | add
  | sub
  | mul
  | div
  | floorDiv
  | mod
  | pow
  deriving Repr, DecidableEq

/-- An operation on whole numbers. -/
def intOp? (op : Operator) (a b : Int) : Option Value :=
  match op with
  | .add => some (.int (a + b))
  | .sub => some (.int (a - b))
  | .mul => some (.int (a * b))
  | .div =>
    if b == 0 then none
    else (Decimal.nearestQuotient? ((a < 0) != (b < 0)) a.natAbs b.natAbs).map .real
  | .floorDiv => if b == 0 then none else some (.int (Int.fdiv a b))
  | .mod => if b == 0 then none else some (.int (Int.fmod a b))
  | .pow =>
    if 0 ≤ b then some (.int (Int.pow a b.toNat))
    else do realPow? (← Decimal.nearestInt? a) (← Decimal.nearestInt? b)

/-- An operation on doubles. -/
def realOp? (op : Operator) (x y : Float) : Option Value :=
  match op with
  | .add => some (.real (x + y))
  | .sub => some (.real (x - y))
  | .mul => some (.real (x * y))
  | .div => if y == 0.0 then none else some (.real (x / y))
  | .floorDiv => if y == 0.0 then none else some (.real (floorDiv x y))
  | .mod => if y == 0.0 then none else some (.real (floorMod x y))
  | .pow => realPow? x y

/-- An operation on complex numbers; they have no floor division and no remainder. -/
def complexOp? (op : Operator) (a b : Complex) : Option Value :=
  let wrap (c : Complex) : Value := .complex c.re c.im
  match op with
  | .add => some (wrap ⟨a.re + b.re, a.im + b.im⟩)
  | .sub => some (wrap ⟨a.re - b.re, a.im - b.im⟩)
  | .mul => some (wrap (a.mul b))
  | .div => (a.div? b).map wrap
  | .floorDiv => none
  | .mod => none
  | .pow => (a.pow? b).map wrap

/-- The double that a real number stands for. -/
def Value.toReal? : Value → Option Float
  | .int n => Decimal.nearestInt? n
  | .real x => some x
  | _ => none

/-- The complex number that a number stands for. -/
def Value.toComplex? : Value → Option Complex
  | .complex re im => some ⟨re, im⟩
  | v => v.toReal?.map (⟨·, 0.0⟩)

/-- Whether a tuple can be repeated so often: the count must fit a signed machine word. -/
def countsRepeats (n : Int) : Bool :=
  -(Decimal.twoTo 63 : Int) ≤ n && n < Decimal.twoTo 63

/-- A binary operation. Empty tuples can be joined, and repeated by a whole number. -/
def binary? (op : Operator) : Value → Value → Option Value
  | .int a, .int b => intOp? op a b
  | .emptyTuple, .emptyTuple => if op = .add then some .emptyTuple else none
  | .emptyTuple, .int n => if op = .mul && countsRepeats n then some .emptyTuple else none
  | .int n, .emptyTuple => if op = .mul && countsRepeats n then some .emptyTuple else none
  | .complex re im, b => do complexOp? op ⟨re, im⟩ (← b.toComplex?)
  | a, .complex re im => do complexOp? op (← a.toComplex?) ⟨re, im⟩
  | a, b => do realOp? op (← a.toReal?) (← b.toReal?)

/-- The negative of a number. -/
def negate? : Value → Option Value
  | .int n => some (.int (-n))
  | .real x => some (.real (-x))
  | .complex re im => some (.complex (-re) (-im))
  | _ => none

/-- A number with a plus sign in front. -/
def plus? : Value → Option Value
  | .int n => some (.int n)
  | .real x => some (.real x)
  | .complex re im => some (.complex re im)
  | _ => none

end RobotConsole.Arithmetic
