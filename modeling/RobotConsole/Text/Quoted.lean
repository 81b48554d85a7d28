import RobotConsole.Text.Printable

/-!
# Quoted text

Texts, and lists of texts, as they are shown in reports. A text stands between single quotes, or
between double quotes when it holds a single quote and no double quote. Inside, the backslash and
the quote in use are escaped, and characters that show nothing are written by their code.
-/

namespace RobotConsole.Text

/-- A number in lower-case hexadecimal, with at least `width` digits. -/
def hexText (width n : Nat) : String :=
  let digits := Nat.toDigits 16 n
  String.ofList (List.replicate (width - digits.length) '0' ++ digits)

/-- One character inside quotes. -/
def quoteChar (quote c : Char) : String :=
  if c == quote || c == '\\' then String.ofList ['\\', c]
  else if c == '\n' then "\\n"
  else if c == '\r' then "\\r"
  else if c == '\t' then "\\t"
  else if isPrintable c then String.ofList [c]
  else if c.toNat < 0x100 then "\\x" ++ hexText 2 c.toNat
  else if c.toNat < 0x10000 then "\\u" ++ hexText 4 c.toNat
  else "\\U" ++ hexText 8 c.toNat

/-- The quote that surrounds a text: single, unless that alone would need escaping. -/
def quoteFor (s : String) : Char :=
  if s.toList.contains '\'' && !s.toList.contains '"' then '"' else '\''

/-- A text in quotes. -/
def quoted (s : String) : String :=
  let quote := quoteFor s
  String.ofList [quote] ++ String.join (s.toList.map (quoteChar quote)) ++ String.ofList [quote]

/-- Items in square brackets. -/
def bracketed (items : List String) : String :=
  "[" ++ String.intercalate ", " items ++ "]"

end RobotConsole.Text
