import RobotConsole.Decimal.Number
import RobotConsole.Storage.Path
import RobotConsole.Text.Blank
import RobotConsole.Text.Quoted

/-!
# Samples

The values that benchmarks take and return: numbers, texts, bytes, collections, arrays of numbers,
and values that are known by their type and a text alone.
-/

namespace RobotConsole.Measure

/-- The three kinds of byte strings. -/
inductive BytesKind where
  | plain
  | mutable
  | view
  deriving Repr, DecidableEq

/-- A value of a benchmark. -/
inductive Sample where
  | nothing
  | truth (b : Bool)
  | int (n : Int)
  | real (x : Float)
  | complex (re im : Float)
  | text (s : String)
  | bytes (kind : BytesKind) (content : List UInt8)
  | list (items : List Sample)
  | tuple (items : List Sample)
  | set (frozen : Bool) (items : List Sample)
  | dict (entries : List (Sample × Sample))
  | pair (left right : Sample)
  | array (shape : List Nat) (format : String) (content : List UInt8)
  /-- A value of a named type that is told by a text. -/
  | other (type text : String)
  deriving Inhabited

namespace Sample

/-- The name of the type of a sample. -/
def typeName : Sample → String
  | .nothing => "NoneType"
  | .truth _ => "bool"
  | .int _ => "int"
  | .real _ => "float"
  | .complex _ _ => "complex"
  | .text _ => "str"
  | .bytes .plain _ => "bytes"
  | .bytes .mutable _ => "bytearray"
  | .bytes .view _ => "memoryview"
  | .list _ => "list"
  | .tuple _ => "tuple"
  | .set false _ => "set"
  | .set true _ => "frozenset"
  | .dict _ => "dict"
  | .pair _ _ => "Pair"
  | .array _ _ _ => "ndarray"
  | .other type _ => type

/-- The number that a sample is, if it is one. -/
def number? : Sample → Option Number
  | .truth b => some (.truth b)
  | .int n => some (.int n)
  | .real x => some (.real x)
  | _ => none

mutual

/-- Whether two samples count as the same in sets and as keys. Numbers are compared by value. -/
def same : Sample → Sample → Bool
  | .nothing, .nothing => true
  | .text s, .text t => s == t
  | .bytes _ s, .bytes _ t => s == t
  | .tuple xs, .tuple ys => sameAll xs ys
  | .other s t, .other u v => s == u && t == v
  | x, y =>
    match x.number?, y.number? with
    | some (.real a), some (.real b) => a == b
    | some a, some b => !a.below b && !b.below a
    | _, _ => false

/-- Whether two lists hold the same samples in the same order. -/
def sameAll : List Sample → List Sample → Bool
  | [], [] => true
  | x :: xs, y :: ys => same x y && sameAll xs ys
  | _, _ => false

end

/-- The set of some samples: each is kept once. -/
def setOf (frozen : Bool) (items : List Sample) : Sample :=
  .set frozen (items.foldl (fun kept x => if kept.any (same x) then kept else kept ++ [x]) [])

/-- Puts an entry into a dictionary: in place when the key is there, at the end otherwise. -/
def putEntry (key value : Sample) : List (Sample × Sample) → List (Sample × Sample)
  | [] => [(key, value)]
  | (k, v) :: rest =>
    if same key k then (k, value) :: rest else (k, v) :: putEntry key value rest

/-- The dictionary with some entries. -/
def dictOf (entries : List (Sample × Sample)) : Sample :=
  .dict (entries.foldl (fun d entry => putEntry entry.1 entry.2 d) [])

/-- A truth value as it is written. -/
def truthText (b : Bool) : String :=
  if b then "True" else "False"

mutual

/-- A sample as it is written in a listing. -/
def shown : Sample → String
  | .nothing => "None"
  | .truth b => truthText b
  | .int n => toString n
  | .real x => Decimal.floatText x
  | .text s => Text.quoted s
  | .list items => Text.bracketed (shownAll items)
  | .tuple [item] => "(" ++ shown item ++ ",)"
  | .tuple items => "(" ++ String.intercalate ", " (shownAll items) ++ ")"
  | .dict entries => "\x7b" ++ String.intercalate ", " (shownEntries entries) ++ "\x7d"
  | .other _ written => written
  | s => "<" ++ s.typeName ++ ">"

/-- Samples as they are written in a listing. -/
def shownAll : List Sample → List String
  | [] => []
  | item :: rest => shown item :: shownAll rest

/-- Entries as they are written in a listing. -/
def shownEntries : List (Sample × Sample) → List String
  | [] => []
  | (key, value) :: rest => (shown key ++ ": " ++ shown value) :: shownEntries rest

end

/-- A sample on its own: texts without quotes, all else as in a listing. -/
def plain : Sample → String
  | .text s => s
  | s => s.shown

end Sample

/-! ## Values known by a text -/

/-- A decimal number as it is written: with an exponent when it is large or has many leading
zeros. -/
def decimalText (negative : Bool) (coefficient : String) (exponent : Int) : String :=
  let count : Int := coefficient.length
  let adjusted := exponent + count - 1
  let sign := if negative then "-" else ""
  if exponent ≤ 0 && -6 ≤ adjusted then
    if exponent == 0 then sign ++ coefficient
    else
      let places := (-exponent).toNat
      let padded := Decimal.zeros (places + 1 - coefficient.length) ++ coefficient
      let whole := padded.toList.take (padded.length - places)
      let fraction := padded.toList.drop (padded.length - places)
      sign ++ String.ofList whole ++ "." ++ String.ofList fraction
  else
    let mantissa := match coefficient.toList with
      | [digit] => String.ofList [digit]
      | digit :: rest => String.ofList (digit :: '.' :: rest)
      | [] => ""
    sign ++ mantissa ++ "E" ++ (if 0 ≤ adjusted then "+" else "-") ++ toString adjusted.natAbs

/-- The words that stand for decimals without a finite value, as they are written. -/
def decimalWord? (word : String) : Option String :=
  let digits := word.toList.reverse.takeWhile Char.isDigit
  let start := String.ofList (word.toList.take (word.length - digits.length))
  let payload := String.ofList (digits.reverse.dropWhile (· == '0'))
  if start == "nan" then some ("NaN" ++ payload)
  else if start == "snan" then some ("sNaN" ++ payload)
  else if word == "inf" || word == "infinity" then some "Infinity"
  else none

/-- Reads a decimal number, and writes it again in its own form. -/
def canonicalDecimal (s : String) : String :=
  let cs := (Text.trim s).toList.filter (· != '_')
  let (negative, cs) := match cs with
    | '-' :: cs => (true, cs)
    | '+' :: cs => (false, cs)
    | cs => (false, cs)
  match decimalWord? (String.ofList (cs.map Char.toLower)) with
  | some word => (if negative then "-" else "") ++ word
  | none =>
    let whole := cs.takeWhile Char.isDigit
    let (fraction, cs) := match cs.dropWhile Char.isDigit with
      | '.' :: cs => (cs.takeWhile Char.isDigit, cs.dropWhile Char.isDigit)
      | cs => ([], cs)
    let exponent : Int := match cs with
      | _ :: digits => (String.ofList (digits.filter (· != '+'))).toInt?.getD 0
      | [] => 0
    let digits := (whole ++ fraction).dropWhile (· == '0')
    let digits := if digits.isEmpty then ['0'] else digits
    decimalText negative (String.ofList digits) (exponent - fraction.length)

/-- A decimal number. -/
def Sample.decimal (s : String) : Sample :=
  .other "Decimal" ("Decimal(" ++ Text.quoted (canonicalDecimal s) ++ ")")

/-- A fraction in lowest terms. -/
def Sample.fraction (num den : Int) : Sample :=
  let divisor : Int := Int.gcd num den
  let divisor := if den < 0 then -divisor else divisor
  .other "Fraction" s!"Fraction({num / divisor}, {den / divisor})"

/-- A date. -/
def Sample.date (year month day : Int) : Sample :=
  .other "date" s!"datetime.date({year}, {month}, {day})"

/-- A time of day; seconds and microseconds are written only as far as needed. -/
def Sample.time (hour minute second micro : Int) : Sample :=
  let parts := [hour, minute] ++
    (if micro != 0 then [second, micro] else if second != 0 then [second] else [])
  .other "time" ("datetime.time(" ++ String.intercalate ", " (parts.map toString) ++ ")")

/-- A span of time, with seconds and microseconds brought into their ranges. -/
def Sample.timeSpan (days seconds micros : Int) : Sample :=
  let seconds := seconds + Int.fdiv micros 1000000
  let micros := Int.fmod micros 1000000
  let days := days + Int.fdiv seconds 86400
  let seconds := Int.fmod seconds 86400
  let part (name : String) (n : Int) : List String := if n == 0 then [] else [s!"{name}={n}"]
  let parts := part "days" days ++ part "seconds" seconds ++ part "microseconds" micros
  let inside := if parts.isEmpty then "0" else String.intercalate ", " parts
  .other "timedelta" ("datetime.timedelta(" ++ inside ++ ")")

/-- A path. -/
def Sample.path (s : String) : Sample :=
  .other "PurePosixPath" ("PurePosixPath(" ++ Text.quoted (Storage.Path.ofText s).text ++ ")")

/-- A universally unique identifier of 32 hexadecimal digits. -/
def Sample.uuid (s : String) : Sample :=
  let digits := (s.toList.filter fun c => c != '-' && c != '\x7b' && c != '\x7d').map Char.toLower
  let part (start count : Nat) : String := String.ofList ((digits.drop start).take count)
  .other "UUID" (s!"UUID('{part 0 8}-{part 8 4}-{part 12 4}-{part 16 4}-{part 20 12}')")

/-- A value of a type that shows nothing but its type. -/
def Sample.typeOnly (place type : String) : Sample :=
  .other type s!"<{place}.{type}>"

/-- The bytes of a number in base 256, the lowest first. -/
def littleEndian : Nat → Nat → List UInt8
  | 0, _ => []
  | width + 1, n => UInt8.ofNat (n % 256) :: littleEndian width (n / 256)

/-- The bytes of a whole number in two's complement. -/
def intBytes (width : Nat) (n : Int) : List UInt8 :=
  littleEndian width (n % Nat.pow 256 width).toNat

/-- The bytes of a number in the format of an array. -/
def formatBytes (format : String) (n : Number) : List UInt8 :=
  let whole := n.whole?.getD 0
  let real := match n.toReal with
    | .ok x => x
    | .error _ => 0.0
  match format with
  | "|u1" => intBytes 1 whole
  | "<i2" => intBytes 2 whole
  | "<i4" => intBytes 4 whole
  | "<f4" => littleEndian 4 real.toFloat32.toBits.toNat
  | "<f8" => littleEndian 8 real.toBits.toNat
  | _ => intBytes 8 whole

/-- An array of numbers. -/
def Sample.arrayOf (shape : List Nat) (format : String) (items : List Number) : Sample :=
  .array shape format (items.flatMap (formatBytes format))

end RobotConsole.Measure
