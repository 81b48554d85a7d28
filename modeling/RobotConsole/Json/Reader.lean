import RobotConsole.Decimal.Reading
import RobotConsole.Json.Value

/-!
# Reading JSON

A reader for JSON texts that also takes `NaN`, `Infinity` and `-Infinity` for numbers. When a key
occurs twice in an object, the last value counts, at the place of the first. A fault is reported
with its line, its column and its offset.

The reader walks a cursor over the characters. Every step takes an allowance of steps; twice the
number of characters is enough, since two steps in a row take at least one character.
-/

namespace RobotConsole.Json

/-- What can be wrong with a JSON text. -/
inductive Fault where
  | value
  | key
  | colon
  | comma
  | extra
  | unterminated
  | control
  | escape
  | unit
  | mark
  deriving Repr, DecidableEq

/-- The wording of a fault. -/
def Fault.message : Fault → String
  | .value => "Expecting value"
  | .key => "Expecting property name enclosed in double quotes"
  | .colon => "Expecting ':' delimiter"
  | .comma => "Expecting ',' delimiter"
  | .extra => "Extra data"
  | .unterminated => "Unterminated string starting at"
  | .control => "Invalid control character at"
  | .escape => "Invalid \\escape"
  | .unit => "Invalid \\uXXXX escape"
  | .mark => "Unexpected UTF-8 BOM (decode using utf-8-sig)"

/-- Why a text cannot be read: a fault at a place, or a number with too many digits. -/
inductive ReadError where
  | fault (kind : Fault) (line column offset : Nat)
  | number (cause : Decimal.ReadError)
  deriving Repr, DecidableEq

/-- The wording of a reading error. -/
def ReadError.message : ReadError → String
  | .fault kind line column offset =>
    s!"{kind.message}: line {line} column {column} (char {offset})"
  | .number cause => cause.message

/-- The characters left, and the number of characters before them. -/
structure Cursor where
  rest : List Char
  offset : Nat

/-- A failure while reading: a fault at an offset, or a number with too many digits. -/
inductive Stop where
  | fault (kind : Fault) (offset : Nat)
  | number (cause : Decimal.ReadError)

/-- Skips a number of characters. -/
def Cursor.advance (c : Cursor) (n : Nat) : Cursor :=
  ⟨c.rest.drop n, c.offset + n⟩

/-- The blanks of JSON. -/
def isGap (c : Char) : Bool :=
  c == ' ' || c == '\t' || c == '\n' || c == '\r'

/-- Skips blanks. -/
def Cursor.skipGaps (c : Cursor) : Cursor :=
  c.advance (c.rest.takeWhile isGap).length

/-- The value of a hexadecimal digit. -/
def hexDigit? (c : Char) : Option Nat :=
  if '0' ≤ c && c ≤ '9' then some (c.toNat - 48)
  else if 'a' ≤ c && c ≤ 'f' then some (c.toNat - 87)
  else if 'A' ≤ c && c ≤ 'F' then some (c.toNat - 55)
  else none

/-- Reads four hexadecimal digits. -/
def hexUnit? (cs : List Char) : Option Nat :=
  if (cs.take 4).length < 4 then none
  else (cs.take 4).foldlM (fun n c => (hexDigit? c).map (16 * n + ·)) 0

/-- Whether a code unit is the first of a pair. -/
def isHighUnit (n : Nat) : Bool :=
  0xd800 ≤ n && n < 0xdc00

/-- Whether a code unit is the second of a pair. -/
def isLowUnit (n : Nat) : Bool :=
  0xdc00 ≤ n && n < 0xe000

/-- The character of a code unit; half a pair has none and gives the replacement character. -/
def unitChar (n : Nat) : Char :=
  if isHighUnit n || isLowUnit n then '\ufffd' else Char.ofNat n

/-- The character that a letter after a backslash stands for. -/
def escapedChar? : Char → Option Char
  | '"' => some '"'
  | '\\' => some '\\'
  | '/' => some '/'
  | 'b' => some '\x08'
  | 'f' => some '\x0c'
  | 'n' => some '\n'
  | 'r' => some '\r'
  | 't' => some '\t'
  | _ => none

/-- The second unit of a pair, when one is written next and something follows it. -/
def lowUnit? (offset : Nat) (cs : List Char) : Except Stop (Option Nat) :=
  match cs with
  | '\\' :: 'u' :: digits =>
    if (digits.take 5).length ≤ 4 then .ok none
    else
      match hexUnit? digits with
      | none => .error (.fault .unit (offset + 1))
      | some n => .ok (if isLowUnit n then some n else none)
  | _ => .ok none

/-- Reads the inside of a text up to its closing quote. `start` is the offset of the opening quote,
`done` holds the characters so far in reverse. -/
def readText (start : Nat) : Nat → List Char → Cursor → Except Stop (String × Cursor)
  | 0, _, _ => .error (.fault .unterminated start)
  | fuel + 1, done, c =>
    match c.rest with
    | [] => .error (.fault .unterminated start)
    | '"' :: _ => .ok (String.ofList done.reverse, c.advance 1)
    | ['\\'] => .error (.fault .unterminated start)
    | '\\' :: 'u' :: digits =>
      if (digits.take 5).length ≤ 4 then .error (.fault .unit (c.offset + 1))
      else
        match hexUnit? digits with
        | none => .error (.fault .unit (c.offset + 1))
        | some n =>
          if !isHighUnit n then readText start fuel (unitChar n :: done) (c.advance 6)
          else
            match lowUnit? (c.offset + 6) (digits.drop 4) with
            | .error stop => .error stop
            | .ok none => readText start fuel (unitChar n :: done) (c.advance 6)
            | .ok (some m) =>
              let point := 0x10000 + (n - 0xd800) * 0x400 + (m - 0xdc00)
              readText start fuel (Char.ofNat point :: done) (c.advance 12)
    | '\\' :: letter :: _ =>
      match escapedChar? letter with
      | none => .error (.fault .escape c.offset)
      | some char => readText start fuel (char :: done) (c.advance 2)
    | char :: _ =>
      if char.toNat ≤ 0x1f then .error (.fault .control c.offset)
      else readText start fuel (char :: done) (c.advance 1)

/-- Whether a character is a digit of a JSON number. -/
def isDigit (c : Char) : Bool :=
  '0' ≤ c && c ≤ '9'

/-- The whole part of a number: a lone zero, or digits that do not start with zero. -/
def wholePart? : List Char → Option (List Char)
  | '0' :: _ => some ['0']
  | cs =>
    let digits := cs.takeWhile isDigit
    if digits.isEmpty then none else some digits

/-- The fraction of a number, with its point; empty when there is none. -/
def fractionPart : List Char → List Char
  | '.' :: cs =>
    let digits := cs.takeWhile isDigit
    if digits.isEmpty then [] else '.' :: digits
  | _ => []

/-- The exponent of a number, with its letter; empty when there is none. -/
def exponentPart : List Char → List Char
  | e :: cs =>
    if e == 'e' || e == 'E' then
      let sign := (cs.take 1).filter fun c => c == '+' || c == '-'
      let digits := (cs.drop sign.length).takeWhile isDigit
      if digits.isEmpty then [] else e :: sign ++ digits
    else []
  | [] => []

/-- Reads a number. -/
def readNumber (c : Cursor) : Except Stop (Json × Cursor) :=
  let sign := (c.rest.take 1).filter (· == '-')
  match wholePart? (c.rest.drop sign.length) with
  | none => .error (.fault .value c.offset)
  | some whole =>
    let afterWhole := c.rest.drop (sign.length + whole.length)
    let fraction := fractionPart afterWhole
    let exponent := exponentPart (afterWhole.drop fraction.length)
    let length := sign.length + whole.length + fraction.length + exponent.length
    let text := String.ofList (sign ++ whole ++ fraction ++ exponent)
    if fraction.isEmpty && exponent.isEmpty then
      match Decimal.readInt text with
      | .ok n => .ok (.int n, c.advance length)
      | .error cause => .error (.number cause)
    else
      match Decimal.readFloat text with
      | .ok x => .ok (.real x, c.advance length)
      | .error cause => .error (.number cause)

/-- The values that are written as words. -/
def namedValues : List (String × Json) :=
  [("null", .null), ("true", .bool true), ("false", .bool false), ("NaN", .real (0.0 / 0.0)),
    ("Infinity", .real (1.0 / 0.0)), ("-Infinity", .real (-1.0 / 0.0))]

/-- Reads a value that is neither a text, an array nor an object. -/
def readScalar (c : Cursor) : Except Stop (Json × Cursor) :=
  match namedValues.find? fun entry => entry.1.toList.isPrefixOf c.rest with
  | some (word, value) => .ok (value, c.advance word.length)
  | none => readNumber c

mutual

/-- Reads one value. -/
def readValue : Nat → Cursor → Except Stop (Json × Cursor)
  | 0, c => .error (.fault .value c.offset)
  | fuel + 1, c =>
    match c.rest with
    | '"' :: _ => do
      let (s, c) ← readText c.offset fuel [] (c.advance 1)
      return (.text s, c)
    | '[' :: _ =>
      let c := (c.advance 1).skipGaps
      match c.rest with
      | ']' :: _ => .ok (.array [], c.advance 1)
      | _ => do
        let (items, c) ← readItems fuel c
        return (.array items, c)
    | '\x7b' :: _ =>
      let c := (c.advance 1).skipGaps
      match c.rest with
      | '\x7d' :: _ => .ok (.object [], c.advance 1)
      | _ => do
        let (fields, c) ← readFields fuel c
        return (.object (Dict.ofList fields), c)
    | _ => readScalar c

/-- Reads the items of an array up to its closing bracket. -/
def readItems : Nat → Cursor → Except Stop (List Json × Cursor)
  | 0, c => .error (.fault .value c.offset)
  | fuel + 1, c => do
    let (item, c) ← readValue fuel c
    let c := c.skipGaps
    match c.rest with
    | ']' :: _ => return ([item], c.advance 1)
    | ',' :: _ => do
      let (items, c) ← readItems fuel (c.advance 1).skipGaps
      return (item :: items, c)
    | _ => throw (.fault .comma c.offset)

/-- Reads the fields of an object up to its closing brace. -/
def readFields : Nat → Cursor → Except Stop (List (String × Json) × Cursor)
  | 0, c => .error (.fault .value c.offset)
  | fuel + 1, c =>
    match c.rest with
    | '"' :: _ => do
      let (key, c) ← readText c.offset fuel [] (c.advance 1)
      let c := c.skipGaps
      match c.rest with
      | ':' :: _ => do
        let (value, c) ← readValue fuel (c.advance 1).skipGaps
        let c := c.skipGaps
        match c.rest with
        | '\x7d' :: _ => return ([(key, value)], c.advance 1)
        | ',' :: _ => do
          let (fields, c) ← readFields fuel (c.advance 1).skipGaps
          return ((key, value) :: fields, c)
        | _ => throw (.fault .comma c.offset)
      | _ => throw (.fault .colon c.offset)
    | _ => throw (.fault .key c.offset)

end

/-- Reads one value that is all of the text, blanks around it apart. -/
def readAll (cs : List Char) : Except Stop Json := do
  if cs.head? == some '\ufeff' then throw (.fault .mark 0)
  let (value, c) ← readValue (2 * cs.length + 2) (Cursor.skipGaps ⟨cs, 0⟩)
  let c := c.skipGaps
  if c.rest.isEmpty then return value else throw (.fault .extra c.offset)

/-- The line and the column of an offset, both counted from one. -/
def placeOf (cs : List Char) (offset : Nat) : Nat × Nat :=
  let before := cs.take offset
  (before.count '\n' + 1, (before.reverse.takeWhile (· != '\n')).length + 1)

/-- Reads a JSON text. -/
def read (s : String) : Except ReadError Json :=
  let cs := s.toList
  match readAll cs with
  | .ok value => .ok value
  | .error (.number cause) => .error (.number cause)
  | .error (.fault kind offset) =>
    let (line, column) := placeOf cs offset
    .error (.fault kind line column offset)

end RobotConsole.Json
