import RobotConsole.Arithmetic.Operation

/-!
# Tokens of arithmetic

Numbers, dots, operators and brackets. A whole number has no needless zero in front and at most
4300 digits; a number with a point may start with zeros. Spaces, tabs and form feeds separate
tokens. Line ends count as blanks inside brackets; outside they may only surround the expression,
which must start at the left margin of its line.
-/

namespace RobotConsole.Arithmetic

/-- A token of an arithmetic expression. -/
inductive Token where
  | int (n : Nat)
  | real (x : Float)
  | ellipsis
  | operator (op : Operator)
  | opening
  | closing

/-- Brackets may nest this deep. -/
def maxBrackets : Nat := 200

/-- Line ends in one form. -/
def unifyLineEnds : List Char → List Char
  | '\r' :: '\n' :: rest => '\n' :: unifyLineEnds rest
  | '\r' :: rest => '\n' :: unifyLineEnds rest
  | c :: rest => c :: unifyLineEnds rest
  | [] => []

/-- The characters that separate tokens on a line. -/
def isSpacing (c : Char) : Bool :=
  c == ' ' || c == '\t' || c == '\x0c'

/-- The token of a number with the given digits before and, if there is a point, after it. -/
def numberToken? (whole : List Char) (fraction : Option (List Char)) : Option Token :=
  match fraction with
  | some ds =>
    some (.real (Decimal.ofDecimal false (Decimal.digitsValue (whole ++ ds)) (-(ds.length : Int))))
  | none =>
    if whole.all (· == '0') then some (.int 0)
    else if whole.head? == some '0' || Decimal.maxIntDigits < whole.length then none
    else some (.int (Decimal.digitsValue whole))

/-- Scans a number at the front: its token and what follows. -/
def scanNumber? (cs : List Char) : Option (Token × List Char) :=
  let whole := cs.takeWhile Char.isDigit
  match cs.dropWhile Char.isDigit with
  | '.' :: rest =>
    (numberToken? whole (some (rest.takeWhile Char.isDigit))).map (·, rest.dropWhile Char.isDigit)
  | rest => (numberToken? whole none).map (·, rest)

/-- Whether the next line starts its text at the left margin. A line with spacing only counts when
it is ended; then it is skipped. -/
def atMargin : Nat → List Char → Bool
  | column, [] => column == 0
  | column, c :: rest =>
    if c == '\x0c' then atMargin 0 rest
    else if c == ' ' || c == '\t' then atMargin (column + 1) rest
    else c == '\n' || column == 0

/-- One step of the scanner: a token, or none for a blank, with what follows. -/
def scanStep? (cs : List Char) : Option (Option Token × List Char) :=
  match cs with
  | [] => none
  | '*' :: '*' :: rest => some (some (.operator .pow), rest)
  | '/' :: '/' :: rest => some (some (.operator .floorDiv), rest)
  | '+' :: rest => some (some (.operator .add), rest)
  | '-' :: rest => some (some (.operator .sub), rest)
  | '*' :: rest => some (some (.operator .mul), rest)
  | '/' :: rest => some (some (.operator .div), rest)
  | '%' :: rest => some (some (.operator .mod), rest)
  | '(' :: rest => some (some .opening, rest)
  | ')' :: rest => some (some .closing, rest)
  | '.' :: '.' :: '.' :: rest => some (some .ellipsis, rest)
  | c :: rest =>
    if isSpacing c then some (none, rest)
    else if c.isDigit || (c == '.' && (rest.head?.map Char.isDigit).getD false) then
      (scanNumber? cs).map fun (t, more) => (some t, more)
    else none

/-- Where the scanner stands: in front of the expression, in it with so many open brackets, or
behind the line end that closes it. -/
inductive ScanState where
  | before
  | inside (brackets : Nat)
  | after

/-- Scans tokens; `fuel` bounds the number of steps. -/
def scanFrom (state : ScanState) : Nat → List Char → Option (List Token)
  | _, [] => some []
  | 0, _ :: _ => none
  | fuel + 1, c :: rest =>
    if c == '\n' then
      match state with
      | .inside (n + 1) => scanFrom (.inside (n + 1)) fuel rest
      | .before => if atMargin 0 rest then scanFrom .before fuel rest else none
      | _ => if atMargin 0 rest then scanFrom .after fuel rest else none
    else
      match state, scanStep? (c :: rest) with
      | _, none => none
      | state, some (none, more) => scanFrom state fuel more
      | .after, some (some _, _) => none
      | state, some (some t, more) =>
        let brackets := match state with
          | .inside n => n
          | _ => 0
        match t with
        | .opening =>
          if brackets < maxBrackets then
            (scanFrom (.inside (brackets + 1)) fuel more).map (t :: ·)
          else none
        | .closing =>
          if brackets == 0 then none
          else (scanFrom (.inside (brackets - 1)) fuel more).map (t :: ·)
        | _ => (scanFrom (.inside brackets) fuel more).map (t :: ·)

/-- The tokens of an expression. Spaces and tabs in front of it do not count. -/
def tokens? (s : String) : Option (List Token) :=
  let cs := unifyLineEnds (s.toList.dropWhile fun c => c == ' ' || c == '\t')
  if atMargin 0 cs then scanFrom .before cs.length cs else none

end RobotConsole.Arithmetic
