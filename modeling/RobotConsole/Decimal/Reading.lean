import RobotConsole.Decimal.Binary
import RobotConsole.Text.Blank
import RobotConsole.Text.Digit
import RobotConsole.Text.Quoted

/-!
# Reading numbers

Whole numbers and decimals as people write them: blanks around are ignored, digits of any script
count, and single underscores may group digits. Of the blanks below code point 128 only the space
and the five classic controls count. Whole numbers of more than 4300 digits are refused, because
converting them takes too long.
-/

namespace RobotConsole.Decimal

/-- The most digits a whole number may have when it is read or written. -/
def maxIntDigits : Nat := 4300

/-- What is said of a whole number that has too many digits to be written. -/
def tooLongMessage : String :=
  s!"Exceeds the limit ({maxIntDigits} digits) for integer string conversion; " ++
    "use sys.set_int_max_str_digits() to increase the limit"

/-- Why a text is no number. -/
inductive ReadError where
  | notInt (text : String)
  | notFloat (text : String)
  | tooManyDigits (count : Nat)
  deriving Repr, DecidableEq

/-- The wording of a reading error. -/
def ReadError.message : ReadError → String
  | .notInt text =>
    "invalid literal for int() with base 10: " ++
      String.ofList ((Text.quoted text).toList.take 200)
  | .notFloat text => "could not convert string to float: " ++ Text.quoted text
  | .tooManyDigits count =>
    s!"Exceeds the limit ({maxIntDigits} digits) for integer string conversion: value has " ++
      s!"{count} digits; use sys.set_int_max_str_digits() to increase the limit"

/-- A character of a number in plain form: digits and blanks of any script become ASCII, and
anything else beyond ASCII becomes a character that no number holds. -/
def plainChar (c : Char) : Char :=
  if c.toNat < 0x7f then c
  else if Text.isBlank c then ' '
  else
    match Text.digitValue? c with
    | some d => Char.ofNat (0x30 + d)
    | none => '?'

/-- The blanks that may surround a number in plain form. -/
def isNumberBlank (c : Char) : Bool :=
  c == ' ' || (0x09 ≤ c.toNat && c.toNat ≤ 0x0d)

/-- The plain form of a number's text, without blanks around it. -/
def plainText (s : String) : List Char :=
  let cs := (s.toList.map plainChar).dropWhile isNumberBlank
  (cs.reverse.dropWhile isNumberBlank).reverse

/-- The digits of a group such as `1_000`: no underscore at either end, and no two in a row. -/
def groupedDigits? : List Char → Option (List Char)
  | [] => none
  | [c] => if c.isDigit then some [c] else none
  | c :: '_' :: rest => if c.isDigit then (groupedDigits? rest).map (c :: ·) else none
  | c :: rest => if c.isDigit then (groupedDigits? rest).map (c :: ·) else none

/-- The value of ASCII digits. -/
def digitsValue (ds : List Char) : Nat :=
  ds.foldl (fun n c => 10 * n + (c.toNat - 0x30)) 0

/-- Takes an optional sign off the front; true means minus. -/
def takeSign : List Char → Bool × List Char
  | '-' :: rest => (true, rest)
  | '+' :: rest => (false, rest)
  | cs => (false, cs)

/-- Reads a whole number. The digits in front are counted before what follows them is looked at. -/
def readInt (s : String) : Except ReadError Int :=
  let (negative, body) := takeSign (plainText s)
  let lead := body.takeWhile fun c => c.isDigit || c == '_'
  match groupedDigits? lead with
  | none => .error (.notInt s)
  | some ds =>
    if maxIntDigits < ds.length then .error (.tooManyDigits ds.length)
    else if lead.length < body.length then .error (.notInt s)
    else
      let n : Int := digitsValue ds
      .ok (if negative then -n else n)

/-- Removes underscores between digits; nothing when one stands elsewhere. -/
def ungroup? (previous : Char) : List Char → Option (List Char)
  | [] => if previous == '_' then none else some []
  | c :: rest =>
    if c == '_' then
      if previous.isDigit then ungroup? c rest else none
    else if previous == '_' && !c.isDigit then none
    else (ungroup? c rest).map (c :: ·)

/-- The double nearest to `± mantissa · 10^exponent`; beyond the range it is infinite. -/
def ofDecimal (negative : Bool) (mantissa : Nat) (exponent : Int) : Float :=
  let size : Int := (Nat.toDigits 10 mantissa).length
  let infinite : Float := if negative then -(1.0 / 0.0) else 1.0 / 0.0
  if mantissa == 0 || exponent + size < -400 then Binary.toFloat negative ⟨0, -1074⟩
  else if 400 < exponent + size then infinite
  else
    let (num, den) := if 0 ≤ exponent then (mantissa * tenTo exponent.toNat, 1)
      else (mantissa, tenTo (-exponent).toNat)
    (nearestQuotient? negative num den).getD infinite

/-- Reads an exponent part such as `e-5`; nothing at all is the exponent zero. -/
def readExponent? : List Char → Option Int
  | [] => some 0
  | c :: rest =>
    if c == 'e' || c == 'E' then
      let (negative, ds) := takeSign rest
      if ds.isEmpty || !ds.all Char.isDigit then none
      else
        let n : Int := digitsValue ds
        some (if negative then -n else n)
    else none

/-- Reads an unsigned decimal: digits with an optional point, at least one digit, and an optional
exponent. -/
def readUnsigned? (negative : Bool) (cs : List Char) : Option Float :=
  let whole := cs.takeWhile Char.isDigit
  let rest := cs.dropWhile Char.isDigit
  let (fraction, rest) :=
    match rest with
    | '.' :: more => (more.takeWhile Char.isDigit, more.dropWhile Char.isDigit)
    | _ => ([], rest)
  if whole.isEmpty && fraction.isEmpty then none
  else
    (readExponent? rest).map fun e =>
      ofDecimal negative (digitsValue (whole ++ fraction)) (e - fraction.length)

/-- Reads a decimal, or one of the words for infinity and for no number. -/
def readFloat (s : String) : Except ReadError Float :=
  let parsed : Option Float := do
    let (negative, body) := takeSign (← ungroup? ' ' (plainText s))
    let word := String.ofList (body.map Char.toLower)
    if word == "nan" then some (0.0 / 0.0)
    else if word == "inf" || word == "infinity" then
      some (if negative then -(1.0 / 0.0) else 1.0 / 0.0)
    else readUnsigned? negative body
  match parsed with
  | some x => .ok x
  | none => .error (.notFloat s)

end RobotConsole.Decimal
