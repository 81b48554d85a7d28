import RobotConsole.Text.Blank

/-!
# Splitting a command line into words

Words are separated by spaces, tabs and line ends. Quotes group characters: between single quotes
everything stands for itself, and between double quotes a backslash escapes a double quote or a
backslash. Outside quotes a backslash makes the next character stand for itself. A line whose
quotes do not close, or that ends in a backslash, is split at blanks instead.
-/

namespace RobotConsole.Command

/-- Where the splitter stands. -/
inductive Place where
  | between
  | word
  | single
  | double
  deriving Repr, DecidableEq

/-- The characters that separate words outside quotes. -/
def isSeparator (c : Char) : Bool :=
  c == ' ' || c == '\t' || c == '\r' || c == '\n'

/-- Splits the rest of a line; `word` is the word under way, in reverse. Nothing when a quote does
not close or nothing follows a backslash. -/
def splitFrom (place : Place) (word : List Char) : List Char → Option (List (List Char))
  | [] =>
    match place with
    | .between => some []
    | .word => some [word.reverse]
    | .single | .double => none
  | c :: rest =>
    match place with
    | .single =>
      if c == '\'' then splitFrom .word word rest else splitFrom .single (c :: word) rest
    | .double =>
      if c == '"' then splitFrom .word word rest
      else if c == '\\' then
        match rest with
        | [] => none
        | d :: rest =>
          if d == '"' || d == '\\' then splitFrom .double (d :: word) rest
          else splitFrom .double (d :: c :: word) rest
      else splitFrom .double (c :: word) rest
    | _ =>
      if isSeparator c then
        if place = .word then (splitFrom .between [] rest).map (word.reverse :: ·)
        else splitFrom .between [] rest
      else if c == '\'' then splitFrom .single word rest
      else if c == '"' then splitFrom .double word rest
      else if c == '\\' then
        match rest with
        | [] => none
        | d :: rest => splitFrom .word (d :: word) rest
      else splitFrom .word (c :: word) rest

/-- The words of a line whose quotes close. -/
def splitQuoted? (s : String) : Option (List String) :=
  (splitFrom .between [] s.toList).map (·.map String.ofList)

/-- The words of a line. -/
def splitWords (s : String) : List String :=
  (splitQuoted? s).getD (Text.words s)

end RobotConsole.Command
