/-!
# Finding one text inside another

Cutting a text at the first place where another one occurs, and what follows from it: containment,
and replacing every occurrence.
-/

namespace RobotConsole.Text

/-- Cuts at the first occurrence of `mark`: what stands before it, and what stands after it. -/
def cutAt? (mark : List Char) : List Char → Option (List Char × List Char)
  | [] => if mark.isEmpty then some ([], []) else none
  | c :: rest =>
    if mark.isPrefixOf (c :: rest) then some ([], (c :: rest).drop mark.length)
    else (cutAt? mark rest).map fun (before, after) => (c :: before, after)

/-- Whether `part` occurs somewhere in `whole`. -/
def occursIn (part whole : String) : Bool :=
  (cutAt? part.toList whole.toList).isSome

/-- Cuts a text at the first occurrence of a mark. -/
def splitOnce? (mark : String) (s : String) : Option (String × String) :=
  (cutAt? mark.toList s.toList).map fun (before, after) =>
    (String.ofList before, String.ofList after)

/-- Replaces a two-character mark by one character, from left to right. -/
def replacePair (first second replacement : Char) : List Char → List Char
  | c :: d :: rest =>
    if c == first && d == second then replacement :: replacePair first second replacement rest
    else c :: replacePair first second replacement (d :: rest)
  | cs => cs

/-- The pieces of a text between occurrences of one character. -/
def splitOnChar (mark : Char) : List Char → List (List Char)
  | [] => [[]]
  | c :: rest =>
    let pieces := splitOnChar mark rest
    if c == mark then [] :: pieces
    else
      match pieces with
      | [] => [[c]]
      | piece :: more => (c :: piece) :: more

/-- Pads with spaces on the right up to a width. -/
def padRight (width : Nat) (s : String) : String :=
  s ++ String.ofList (List.replicate (width - s.length) ' ')

/-- Pads with spaces on the left up to a width. -/
def padLeft (width : Nat) (s : String) : String :=
  String.ofList (List.replicate (width - s.length) ' ') ++ s

end RobotConsole.Text
