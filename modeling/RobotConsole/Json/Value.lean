import RobotConsole.Decimal.Shortest
import RobotConsole.Dict
import RobotConsole.Text.Quoted

/-!
# JSON values and their text

Objects keep the order of their fields. The text of a value has one blank after each comma and each
colon, and every character outside ASCII is written by its UTF-16 code units.
-/

namespace RobotConsole

/-- A JSON value. Whole numbers and others are told apart. -/
inductive Json where
  | null
  | bool (b : Bool)
  | int (n : Int)
  | real (x : Float)
  | text (s : String)
  | array (items : List Json)
  | object (fields : List (String × Json))
  deriving Inhabited

namespace Json

/-- The value of a field of an object. -/
def field? (key : String) : Json → Option Json
  | .object fields => Dict.get? fields key
  | _ => none

/-- A UTF-16 code unit by its number. -/
def unitText (n : Nat) : String :=
  "\\u" ++ Text.hexText 4 n

/-- One character inside a JSON text. -/
def escapeChar (c : Char) : String :=
  match c with
  | '"' => "\\\""
  | '\\' => "\\\\"
  | '\n' => "\\n"
  | '\r' => "\\r"
  | '\t' => "\\t"
  | '\x08' => "\\b"
  | '\x0c' => "\\f"
  | c =>
    let n := c.toNat
    if 0x20 ≤ n && n < 0x7f then String.ofList [c]
    else if n < 0x10000 then unitText n
    else unitText (0xd800 + (n - 0x10000) / 0x400) ++ unitText (0xdc00 + (n - 0x10000) % 0x400)

/-- A text in double quotes. -/
def quotedText (s : String) : String :=
  "\"" ++ String.join (s.toList.map escapeChar) ++ "\""

/-- A number that is not whole. -/
def realText (x : Float) : String :=
  if x.isNaN then "NaN"
  else if x.isInf then (if x < 0 then "-Infinity" else "Infinity")
  else Decimal.floatText x

mutual

/-- The text of a value. -/
def render : Json → String
  | .null => "null"
  | .bool b => if b then "true" else "false"
  | .int n => toString n
  | .real x => realText x
  | .text s => quotedText s
  | .array items => "[" ++ String.intercalate ", " (renderItems items) ++ "]"
  | .object fields => "\x7b" ++ String.intercalate ", " (renderFields fields) ++ "\x7d"

/-- The texts of the items of an array. -/
def renderItems : List Json → List String
  | [] => []
  | item :: rest => render item :: renderItems rest

/-- The texts of the fields of an object. -/
def renderFields : List (String × Json) → List String
  | [] => []
  | (key, value) :: rest => (quotedText key ++ ": " ++ render value) :: renderFields rest

end

end Json

end RobotConsole
