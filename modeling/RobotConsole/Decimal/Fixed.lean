import RobotConsole.Decimal.Shortest

/-!
# Decimals with a fixed number of places or digits

The exact value of the double is rounded, a half going to the even neighbour.
-/

namespace RobotConsole.Decimal

/-- A quotient with the given number of places after the point. -/
def fixedQuotient (places num den : Nat) : String :=
  let scaled := roundDiv (num * tenTo places) den
  let whole := toString (scaled / tenTo places)
  if places == 0 then whole
  else
    let fraction := toString (scaled % tenTo places)
    whole ++ "." ++ zeros (places - fraction.length) ++ fraction

/-- A double with the given number of places after the point. -/
def fixedText (places : Nat) (x : Float) : String :=
  let body :=
    if x.isNaN then "nan"
    else if x.isInf then "inf"
    else
      let (num, den) := (magnitude x).ratio
      fixedQuotient places num den
  (if showsMinus x then "-" else "") ++ body

/-- Rounds to the nearest double that has at most `count` decimal digits; zeros lose their sign. -/
def roundToDigits (count : Nat) (x : Float) : Float :=
  if !x.isFinite then x
  else
    let (num, den) := (magnitude x).ratio
    if num == 0 then 0.0
    else
      let scale := pointOf num den - count
      let k := if 0 ≤ scale then roundDiv num (den * tenTo scale.toNat)
        else roundDiv (num * tenTo (-scale).toNat) den
      let (n, d) := if 0 ≤ scale then (k * tenTo scale.toNat, 1) else (k, tenTo (-scale).toNat)
      (nearestQuotient? (isNegative x) n d).getD x

/-- Rounds to the nearest double with at most `places` digits after the point. -/
def roundToPlaces (places : Nat) (x : Float) : Float :=
  if !x.isFinite then x
  else
    let (num, den) := (magnitude x).ratio
    (nearestQuotient? (isNegative x) (roundDiv (num * tenTo places) den) (tenTo places)).getD x

end RobotConsole.Decimal
