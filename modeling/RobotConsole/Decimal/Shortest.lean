import RobotConsole.Decimal.Binary

/-!
# The shortest decimal that reads back

Of all decimals that round to a given double, the one with the fewest digits is written; of several
with that many digits the one nearest to the double, a tie going to the even last digit.

The text is positional while the value is at least `0.0001` and below `10^16`, with at least one
digit after the point; otherwise it is scientific, with a signed exponent of at least two digits.
-/

namespace RobotConsole.Decimal

/-- A decimal `0.d₁d₂… · 10^point`, with `digits` the whole number `d₁d₂…`. -/
structure Digits where
  digits : Nat
  point : Int
  deriving Repr, DecidableEq

/-- The least `p` with `num / den < 10^p`, searched upwards from `p`. -/
def pointFrom (num den : Nat) : Nat → Int → Int
  | 0, p => p
  | fuel + 1, p =>
    let fits : Bool :=
      if 0 ≤ p then num < den * tenTo p.toNat else num * tenTo (-p).toNat < den
    if fits then p else pointFrom num den fuel (p + 1)

/-- The position of the decimal point of a positive quotient: the least `p` with the quotient
below `10^p`. The binary size gives it up to one. -/
def pointOf (num den : Nat) : Int :=
  let size : Int := (Nat.log2 num : Int) - Nat.log2 den - 1
  pointFrom num den 4 (Int.fdiv (size * 30103) 100000)

/-- The decimals that round to a positive double: those between `low / den` and `high / den`, the
ends included when `closed`. -/
structure Interval where
  low : Nat
  high : Nat
  den : Nat
  closed : Bool

/-- The decimals that round to a double of the given magnitude, with the double itself as a
quotient over the same denominator. -/
def roundingInterval (b : Binary) : Nat × Interval :=
  let (num, den) := (Binary.mk b.significand (b.exponent - 2)).ratio
  let unit := num / b.significand
  -- Just above a power of two the doubles below lie twice as close.
  let lowGap := if b.significand == twoTo 52 && -1074 < b.exponent then unit else 2 * unit
  (4 * num, ⟨4 * num - lowGap, 4 * num + 2 * unit, den, b.significand % 2 == 0⟩)

/-- Whether `k · 10^scale` lies in an interval. -/
def Interval.holds (i : Interval) (k : Nat) (scale : Int) : Bool :=
  let (n, d) := if 0 ≤ scale then (k * tenTo scale.toNat, 1) else (k, tenTo (-scale).toNat)
  let x := n * i.den
  if i.closed then i.low * d ≤ x && x ≤ i.high * d else i.low * d < x && x < i.high * d

/-- Drops zeros at the end of a whole number, at most `fuel` of them. -/
def dropZeros : Nat → Nat → Nat
  | 0, n => n
  | fuel + 1, n => if n != 0 && n % 10 == 0 then dropZeros fuel (n / 10) else n

/-- The decimal `k · 10^(point - count)`, for `k` at most `10^count`. -/
def Digits.ofGrid (k count : Nat) (point : Int) : Digits :=
  if k == tenTo count then ⟨1, point + 1⟩ else ⟨dropZeros count k, point⟩

/-- Looks for a decimal with `count` digits that rounds to `num / i.den`, then with more, up to
`count + fuel`. On each grid only the two neighbours of the value can be nearest. -/
def shortestFrom (num : Nat) (i : Interval) (point : Int) : Nat → Nat → Digits
  | fuel, count =>
    let scale := point - count
    let (n, d) := if 0 ≤ scale then (num, i.den * tenTo scale.toNat)
      else (num * tenTo (-scale).toNat, i.den)
    let nearest := roundDiv n d
    let down := n / d
    let other := if nearest == down then down + 1 else down
    if i.holds nearest scale then .ofGrid nearest count point
    else if i.holds other scale then .ofGrid other count point
    else
      match fuel with
      | 0 => .ofGrid nearest count point
      | fuel + 1 => shortestFrom num i point fuel (count + 1)

/-- The shortest decimal that rounds to a positive double of the given magnitude. Seventeen digits
always suffice. -/
def shortest (b : Binary) : Digits :=
  let (num, i) := roundingInterval b
  shortestFrom num i (pointOf num i.den) 16 1

/-- Zeros in a row. -/
def zeros (n : Nat) : String :=
  String.ofList (List.replicate n '0')

/-- Lays out a positive decimal; `fraction` asks for a digit after the point of a whole number. -/
def Digits.layout (d : Digits) (fraction : Bool) : String :=
  let ds := Nat.toDigits 10 d.digits
  let n : Int := ds.length
  if -4 < d.point && d.point ≤ 16 then
    if d.point ≤ 0 then "0." ++ zeros (-d.point).toNat ++ String.ofList ds
    else if n ≤ d.point then
      String.ofList ds ++ zeros (d.point - n).toNat ++ (if fraction then ".0" else "")
    else
      String.ofList (ds.take d.point.toNat) ++ "." ++ String.ofList (ds.drop d.point.toNat)
  else
    let head := String.ofList (ds.take 1)
    let tail := if ds.length ≤ 1 then "" else "." ++ String.ofList (ds.drop 1)
    let e := d.point - 1
    let size := toString e.natAbs
    head ++ tail ++ (if e < 0 then "e-" else "e+") ++ zeros (2 - size.length) ++ size

/-- The text of a double without its sign. -/
def magnitudeText (fraction : Bool) (x : Float) : String :=
  if x.isNaN then "nan"
  else if x.isInf then "inf"
  else
    let b := magnitude x
    if b.significand == 0 then (if fraction then "0.0" else "0")
    else (shortest b).layout fraction

/-- Whether a sign is written: never for a value that is no number. -/
def showsMinus (x : Float) : Bool :=
  isNegative x && !x.isNaN

/-- The text of a double: the shortest decimal that reads back as it. -/
def floatText (x : Float) : String :=
  (if showsMinus x then "-" else "") ++ magnitudeText true x

end RobotConsole.Decimal
