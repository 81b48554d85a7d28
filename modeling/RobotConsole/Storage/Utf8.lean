import RobotConsole.Text.Quoted

/-!
# Reading text files

Files are read as UTF-8, in pieces of 8192 bytes; a character that a piece cuts in two is kept for
the next piece. The position of a fault is counted from the start of what is being decoded: the
kept bytes and the piece after them.
-/

namespace RobotConsole.Storage

/-- What is wrong with a byte sequence. -/
inductive Utf8Fault where
  | invalidStart
  | invalidContinuation
  | unexpectedEnd
  deriving Repr, DecidableEq

/-- A fault with the first byte at fault, its position, and how many bytes are at fault. -/
structure Utf8Error where
  fault : Utf8Fault
  byte : Nat
  position : Nat
  count : Nat
  deriving Repr, DecidableEq

/-- The wording of a decoding error. -/
def Utf8Error.message (e : Utf8Error) : String :=
  let place :=
    if e.count == 1 then s!"byte 0x{Text.hexText 2 e.byte} in position {e.position}"
    else s!"bytes in position {e.position}-{e.position + e.count - 1}"
  let reason := match e.fault with
    | .invalidStart => "invalid start byte"
    | .invalidContinuation => "invalid continuation byte"
    | .unexpectedEnd => "unexpected end of data"
  "'utf-8' codec can't decode " ++ place ++ ": " ++ reason

/-- The bytes that may follow the first byte of a sequence, each as a range; nothing when the first
byte starts no sequence. -/
def continuations? (first : Nat) : Option (List (Nat × Nat)) :=
  let tail := (0x80, 0xbf)
  if first < 0x80 then some []
  else if 0xc2 ≤ first && first ≤ 0xdf then some [tail]
  else if first == 0xe0 then some [(0xa0, 0xbf), tail]
  else if first == 0xed then some [(0x80, 0x9f), tail]
  else if 0xe1 ≤ first && first ≤ 0xef then some [tail, tail]
  else if first == 0xf0 then some [(0x90, 0xbf), tail, tail]
  else if first == 0xf4 then some [(0x80, 0x8f), tail, tail]
  else if 0xf1 ≤ first && first ≤ 0xf3 then some [tail, tail, tail]
  else none

/-- How far the bytes behind a first byte go on as they should: how many are good, and whether the
next one is bad, missing, or not needed. -/
def follow : List (Nat × Nat) → List UInt8 → Nat × Option Utf8Fault
  | [], _ => (0, none)
  | _ :: _, [] => (0, some .unexpectedEnd)
  | (low, high) :: more, b :: bytes =>
    if low ≤ b.toNat && b.toNat ≤ high then
      let (good, fault) := follow more bytes
      (good + 1, fault)
    else (0, some .invalidContinuation)

/-- The code point of a sequence. -/
def codePoint (first : Nat) (rest : List UInt8) : Nat :=
  let start := match rest.length with
    | 0 => first
    | 1 => first % 0x20
    | 2 => first % 0x10
    | _ => first % 0x08
  rest.foldl (fun n b => n * 0x40 + b.toNat % 0x40) start

/-- The size of the pieces in which files are read. -/
def pieceSize : Nat := 8192

/-- Decodes from byte `i` on. Decoding under way began at byte `base`, in the piece that ends at
byte `stop`. -/
def decodeFrom (i base stop : Nat) (out : List Char) : List UInt8 → Except Utf8Error (List Char)
  | [] => .ok out.reverse
  | b :: bytes =>
    -- The piece that holds the last byte looked at, and where decoding it began.
    let reach (last : Nat) : Nat × Nat :=
      if last < stop then (base, stop)
      else
        let start := last / pieceSize * pieceSize
        (min i start, start + pieceSize)
    match continuations? b.toNat with
    | none =>
      let (base, _) := reach i
      .error ⟨.invalidStart, b.toNat, i - base, 1⟩
    | some ranges =>
      match follow ranges bytes with
      | (good, none) =>
        let (base, stop) := reach (i + good)
        let c := Char.ofNat (codePoint b.toNat (bytes.take good))
        decodeFrom (i + good + 1) base stop (c :: out) (bytes.drop good)
      | (good, some .unexpectedEnd) => .error ⟨.unexpectedEnd, b.toNat, 0, good + 1⟩
      | (good, some fault) =>
        let (base, _) := reach (i + good + 1)
        -- A surrogate that a piece or the file cuts off after two bytes is kept for what follows.
        let cut := b == 0xed && good == 0 && (bytes.length == 1 || (i + 2) % pieceSize == 0) &&
          bytes.head?.any fun c => 0xa0 ≤ c && c ≤ 0xbf
        .error ⟨fault, b.toNat, if cut then 0 else i - base, good + 1⟩
termination_by bytes => bytes.length
decreasing_by simp only [List.length_drop, List.length_cons]; omega

/-- Decodes the bytes of a file. -/
def decodeUtf8 (bytes : List UInt8) : Except Utf8Error (List Char) :=
  decodeFrom 0 0 pieceSize [] bytes

/-- Cuts a text into lines. A line ends with a line feed, a carriage return, or both in that order;
what follows the last line end is a line if it is not empty. -/
def linesFrom (current : List Char) : List Char → List String
  | [] => if current.isEmpty then [] else [String.ofList current.reverse]
  | '\r' :: '\n' :: rest => String.ofList current.reverse :: linesFrom [] rest
  | '\r' :: rest => String.ofList current.reverse :: linesFrom [] rest
  | '\n' :: rest => String.ofList current.reverse :: linesFrom [] rest
  | c :: rest => linesFrom (c :: current) rest

end RobotConsole.Storage
