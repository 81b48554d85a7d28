import RobotConsole.Decimal.Fixed
import RobotConsole.Decimal.Reading

/-!
# Script values

A script variable holds a number, a text, or one of the two constants that can be written with
brackets and dots alone: the empty tuple and the ellipsis. Fractional powers of negative numbers
are complex.
-/

namespace RobotConsole.Arithmetic

/-- A value that a script can hold. -/
inductive Value where
  | int (n : Int)
  | real (x : Float)
  | complex (re im : Float)
  | text (s : String)
  | emptyTuple
  | ellipsis

/-- The text of a whole number, refused beyond the digit limit. -/
def intText? (n : Int) : Option String :=
  let digits := Nat.toDigits 10 n.natAbs
  if Decimal.maxIntDigits < digits.length then none
  else some (String.ofList (if n < 0 then '-' :: digits else digits))

/-- The text of a complex number. A real part of positive zero is left out, and whole parts show no
fraction. -/
def complexText (re im : Float) : String :=
  let imaginary := Decimal.magnitudeText false im ++ "j"
  if re == 0.0 && !Decimal.isNegative re then
    (if Decimal.showsMinus im then "-" else "") ++ imaginary
  else
    "(" ++ (if Decimal.showsMinus re then "-" else "") ++ Decimal.magnitudeText false re ++
      (if Decimal.showsMinus im then "-" else "+") ++ imaginary ++ ")"

/-- The text of a value; a whole number beyond the digit limit has none. -/
def Value.text? : Value → Option String
  | .int n => intText? n
  | .real x => some (Decimal.floatText x)
  | .complex re im => some (complexText re im)
  | .text s => some s
  | .emptyTuple => some "()"
  | .ellipsis => some "Ellipsis"

end RobotConsole.Arithmetic
