import RobotConsole.Text.Search

/-!
# Paths

A path is a root, if it is absolute, and the names on the way down. Empty names and single dots
drop out when a path is read; double dots stay, because what they mean depends on the directories
that exist.
-/

namespace RobotConsole.Storage

/-- A path; `root` is empty for a relative one. -/
structure Path where
  root : String
  names : List String
  deriving Repr, DecidableEq

namespace Path

/-- Reads a path. Exactly two slashes in front are a root of their own. -/
def ofText (s : String) : Path :=
  let slashes := (s.toList.takeWhile (· == '/')).length
  let root := if slashes == 0 then "" else if slashes == 2 then "//" else "/"
  let names := (Text.splitOnChar '/' s.toList).map String.ofList
  ⟨root, names.filter fun name => name != "" && name != "."⟩

/-- The text of a path; a relative path without names is a dot. -/
def text (p : Path) : String :=
  if p.root == "" && p.names.isEmpty then "."
  else p.root ++ String.intercalate "/" p.names

/-- Whether a path starts at a root. -/
def isAbsolute (p : Path) : Bool :=
  p.root != ""

/-- A path as seen from a directory. -/
def join (directory p : Path) : Path :=
  if p.isAbsolute then p else ⟨directory.root, directory.names ++ p.names⟩

/-- The directory that holds a path; a path without names holds itself. -/
def parent (p : Path) : Path :=
  { p with names := p.names.dropLast }

/-- The last name of a path. -/
def name (p : Path) : String :=
  p.names.getLast?.getD ""

/-- Removes double dots by going up, given the names so far in reverse. -/
def climb (above : List String) : List String → List String
  | [] => above.reverse
  | name :: rest => if name == ".." then climb above.tail rest else climb (name :: above) rest

/-- The absolute form of a path without dots, as seen from an absolute directory. -/
def resolve (directory p : Path) : Path :=
  let whole := directory.join p
  ⟨"/", climb [] whole.names⟩

/-- Whether a name has more than the 255 bytes that a name can have. -/
def isNameTooLong (name : String) : Bool :=
  255 < name.utf8ByteSize

/-- Whether a path has 4096 bytes or more, which is too long whatever it names. -/
def isTooLong (p : Path) : Bool :=
  4096 ≤ p.text.utf8ByteSize

/-- Whether a path holds the character that ends a name in the system's eyes. -/
def hasNul (p : Path) : Bool :=
  p.names.any fun name => name.toList.contains '\x00'

end Path

end RobotConsole.Storage
