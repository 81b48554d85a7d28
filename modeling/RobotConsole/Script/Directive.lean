import RobotConsole.Text.Blank
import RobotConsole.Text.Case
import RobotConsole.Text.Search
import RobotConsole.Text.WordChar

/-!
# Directives

The lines of a script that are not commands, and their parts. A directive is recognised by its
first word in any letter case. Its text must lie on one line: a line end may only stand where
blanks are skipped, or at the very end.
-/

namespace RobotConsole.Script

/-- What a trimmed line of a script is. -/
inductive LineKind where
  | skipped
  | includeFile
  | assignment
  | forLoop
  | whileLoop
  | conditional
  | call
  | stray
  | command
  deriving Repr, DecidableEq

/-- Whether a text starts with another one. -/
def startsWith (s start : String) : Bool :=
  start.toList.isPrefixOf s.toList

/-- Sorts a trimmed line. -/
def classify (line : String) : LineKind :=
  let lowered := Text.lower line
  if line == "" || startsWith line "#" then .skipped
  else if startsWith lowered "include " then .includeFile
  else if startsWith lowered "set " then .assignment
  else if startsWith lowered "for " then .forLoop
  else if startsWith lowered "while " then .whileLoop
  else if startsWith lowered "if " then .conditional
  else if startsWith lowered "call " then .call
  else if ["else", "endif", "endfor", "endwhile", "enddef"].contains lowered then .stray
  else .command

/-- Whether a character is a form of a lower-case letter: the letter itself, its capital, or one of
the three letters that differ from i and s in case alone. -/
def isFormOf (letter c : Char) : Bool :=
  c == letter || c.toLower == letter ||
    (letter == 'i' && (c == 'İ' || c == 'ı')) || (letter == 's' && c == 'ſ')

/-- Takes a keyword, in any letter case, off the front. -/
def afterKeyword? : List Char → List Char → Option (List Char)
  | [], cs => some cs
  | _ :: _, [] => none
  | letter :: keyword, c :: cs => if isFormOf letter c then afterKeyword? keyword cs else none

/-- Takes blanks, at least one, off the front. -/
def afterBlanks? (cs : List Char) : Option (List Char) :=
  match cs with
  | c :: _ => if Text.isBlank c then some (cs.dropWhile Text.isBlank) else none
  | [] => none

/-- The text up to the end of the line, which must end the whole text. -/
def restOfLine? (cs : List Char) : Option (List Char) :=
  match cs.dropWhile (· != '\n') with
  | [] => some cs
  | ['\n'] => some (cs.takeWhile (· != '\n'))
  | _ => none

/-- Whether blanks alone can be read as blanks followed by text: something other than a line end
must be left for the text. -/
def leavesText : List Char → Bool
  | '\n' :: c :: _ :: _ => c != '\n'
  | '\n' :: _ => false
  | _ :: _ :: _ => true
  | _ => false

/-- The text after a keyword and blanks, trimmed; it holds at least one character before it is
trimmed. -/
def argumentOf? (keyword : String) (line : String) : Option String := do
  let cs ← afterKeyword? keyword.toList line.toList
  let rest ← afterBlanks? cs
  if rest.isEmpty then
    if leavesText cs.reverse then some "" else none
  else
    let text ← restOfLine? rest
    some (String.ofList (Text.trimChars text))

/-- Takes a name off the front. -/
def takeName? (cs : List Char) : Option (String × List Char) :=
  let name := cs.takeWhile Text.isWordChar
  if name.isEmpty then none
  else some (String.ofList name, cs.dropWhile Text.isWordChar)

/-- The name and the value text of an assignment; an equals sign between them is optional. -/
def assignmentOf? (line : String) : Option (String × String) := do
  let cs ← afterBlanks? (← afterKeyword? "set".toList line.toList)
  let (name, cs) ← takeName? cs
  let cs := cs.dropWhile Text.isBlank
  let cs := (match cs with
    | '=' :: rest => rest
    | _ => cs).dropWhile Text.isBlank
  let value ← restOfLine? cs
  some (name, String.ofList (Text.trimChars value))

/-- The loop variable and the value text of a for loop. -/
def forLoopOf? (line : String) : Option (String × String) := do
  let cs ← afterBlanks? (← afterKeyword? "for".toList line.toList)
  let (name, cs) ← takeName? cs
  let cs ← afterKeyword? "in".toList (← afterBlanks? cs)
  let rest ← afterBlanks? cs
  if rest.isEmpty then
    if leavesText cs.reverse then some (name, "") else none
  else
    let text ← restOfLine? rest
    some (name, String.ofList (Text.trimChars text))

/-- The subroutine and the argument text of a call. -/
def callOf? (line : String) : Option (String × String) := do
  let cs ← afterBlanks? (← afterKeyword? "call".toList line.toList)
  let (name, cs) ← takeName? cs
  match cs with
  | [] => some (name, "")
  | _ =>
    let text ← restOfLine? (← afterBlanks? cs)
    some (name, String.ofList text)

/-- Whether a text starts and ends with a quote of the same kind. -/
def isQuoted (cs : List Char) : Bool :=
  (cs.head? == some '"' && cs.getLast? == some '"') ||
    (cs.head? == some '\'' && cs.getLast? == some '\'')

/-- Takes the quotes off a quoted text. -/
def unquote (s : String) : String :=
  if isQuoted s.toList then String.ofList (s.toList.drop 1).dropLast else s

end RobotConsole.Script
