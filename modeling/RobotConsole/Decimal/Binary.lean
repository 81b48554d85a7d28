/-!
# Exact values of binary floating-point numbers

A finite double is `m · 2^q` with whole `m` and `q`. This module takes a double apart into that
form and puts one together from it, and rounds quotients of whole numbers to the nearest double,
ties to even. Everything is done in whole-number arithmetic on the bits.
-/

namespace RobotConsole.Decimal

/-- A power of two. -/
def twoTo (n : Nat) : Nat :=
  Nat.pow 2 n

/-- A power of ten. -/
def tenTo (n : Nat) : Nat :=
  Nat.pow 10 n

/-- The magnitude `significand · 2^exponent`. -/
structure Binary where
  significand : Nat
  exponent : Int
  deriving Repr, DecidableEq

/-- Whether the sign bit is set; true also for `-0.0`. -/
def isNegative (x : Float) : Bool :=
  x.toBits >>> 63 == 1

/-- The magnitude of a finite double. -/
def magnitude (x : Float) : Binary :=
  let bits := x.toBits.toNat
  let fraction : Nat := bits % twoTo 52
  let field : Nat := bits / twoTo 52 % twoTo 11
  if field == 0 then ⟨fraction, -1074⟩ else ⟨twoTo 52 + fraction, (field : Int) - 1075⟩

namespace Binary

/-- The value as a quotient of whole numbers. -/
def ratio (b : Binary) : Nat × Nat :=
  if 0 ≤ b.exponent then (b.significand * twoTo b.exponent.toNat, 1)
  else (b.significand, twoTo (-b.exponent).toNat)

/-- The double with this magnitude, for a significand below `2^53` in lowest position: it has 53
bits, or the exponent is the least one. -/
def toFloat (negative : Bool) (b : Binary) : Float :=
  let sign := if negative then twoTo 63 else 0
  let field := if b.significand < twoTo 52 then 0 else (b.exponent + 1075).toNat
  Float.ofBits (UInt64.ofNat (sign + field * twoTo 52 + b.significand % twoTo 52))

end Binary

/-- Divides and rounds to the nearest whole number, a half to the even neighbour. -/
def roundDiv (num den : Nat) : Nat :=
  let q := num / den
  let r := num % den
  if 2 * r < den then q
  else if den < 2 * r then q + 1
  else q + q % 2

/-- The double nearest to `num / den`, ties to even, or nothing when it is out of range. -/
def nearestQuotient? (negative : Bool) (num den : Nat) : Option Float :=
  if num == 0 then some (Binary.toFloat negative ⟨0, -1074⟩)
  else
    -- The quotient lies between `2^(size - 1)` and `2^(size + 1)`.
    let size : Int := (Nat.log2 num : Int) - Nat.log2 den
    let scaled (e : Int) : Nat :=
      if 0 ≤ e then roundDiv num (den * twoTo e.toNat) else roundDiv (num * twoTo (-e).toNat) den
    let below : Bool :=
      if 0 ≤ size then num < den * twoTo size.toNat else num * twoTo (-size).toNat < den
    let top := if below then size - 1 else size
    let e := max (top - 52) (-1074)
    let m := scaled e
    let (m, e) := if m == twoTo 53 then (twoTo 52, e + 1) else (m, e)
    if 971 < e then none else some (Binary.toFloat negative ⟨m, e⟩)

/-- The double nearest to a whole number, or nothing when it is out of range. -/
def nearestInt? (n : Int) : Option Float :=
  nearestQuotient? (n < 0) n.natAbs 1

/-- The whole part of a finite double, toward zero. -/
def truncate (x : Float) : Int :=
  let (num, den) := (magnitude x).ratio
  let whole : Int := (num / den : Nat)
  if isNegative x then -whole else whole

/-- Whether a double is a finite whole number. -/
def isWhole (x : Float) : Bool :=
  x.isFinite &&
    let (num, den) := (magnitude x).ratio
    num % den == 0

end RobotConsole.Decimal
