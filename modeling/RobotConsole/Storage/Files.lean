import RobotConsole.Storage.Path
import RobotConsole.Storage.Utf8

/-!
# Files

The files that a program can see: directories, files with bytes, and sound clips that the sound
tools have written. Directories on the way to something exist with it.
-/

namespace RobotConsole.Storage

/-- What a path can name. -/
inductive Node where
  | directory
  | bytes (content : List UInt8)
  | clip (frames rate : Nat)

/-- What exists, each by the names on its way from the root. -/
abbrev Files := List (List String × Node)

/-- Why a path names nothing that can be read. -/
inductive FileError where
  | missing (path : String)
  | notDirectory (path : String)
  | isDirectory (path : String)
  | tooLong (path : String)
  deriving Repr, DecidableEq

/-- The wording of a file error. -/
def FileError.message : FileError → String
  | .missing path => "[Errno 2] No such file or directory: " ++ Text.quoted path
  | .notDirectory path => "[Errno 20] Not a directory: " ++ Text.quoted path
  | .isDirectory path => "[Errno 21] Is a directory: " ++ Text.quoted path
  | .tooLong path => "[Errno 36] File name too long: " ++ Text.quoted path

namespace Files

/-- What stands at a place: what was put there, or a directory on the way to something. -/
def at? (files : Files) (names : List String) : Option Node :=
  match files.lookup names with
  | some node => some node
  | none => if files.any fun entry => names.isPrefixOf entry.1 then some .directory else none

/-- Walks down from a directory, going up at double dots. The walk fails where a name is missing,
is too long, or leads through something that is no directory; `path` is named in the failure. -/
def walk (files : Files) (path : String) (here : List String) :
    List String → Except FileError (List String × Node)
  | [] =>
    match files.at? here with
    | some node => .ok (here, node)
    | none => .error (.missing path)
  | name :: rest =>
    match files.at? here with
    | some .directory =>
      if name == ".." then files.walk path here.dropLast rest
      else if Path.isNameTooLong name then .error (.tooLong path)
      else files.walk path (here ++ [name]) rest
    | some _ => .error (.notDirectory path)
    | none => .error (.missing path)

/-- What a path names, as seen from an absolute directory. -/
def find (files : Files) (directory path : Path) : Except FileError (List String × Node) :=
  if path.isTooLong then .error (.tooLong path.text)
  else files.walk path.text [] (directory.join path).names

/-- Whether a path names something; an overlong path cannot be looked up at all. -/
def contains (files : Files) (directory path : Path) : Except FileError Bool :=
  if path.hasNul then .ok false
  else
    match files.find directory path with
    | .ok _ => .ok true
    | .error (.tooLong name) => .error (.tooLong name)
    | .error _ => .ok false

/-- The files below a place, each by the names on its way from there. -/
def namesBelow (files : Files) (here : List String) : List (List String) :=
  files.filterMap fun (names, node) =>
    match node with
    | .directory => none
    | _ => if here.isPrefixOf names then some (names.drop here.length) else none

/-- Puts something at a place. -/
def put (files : Files) (names : List String) (node : Node) : Files :=
  files.filter (fun entry => entry.1 != names) ++ [(names, node)]

/-- Removes what stands at a place. -/
def remove (files : Files) (names : List String) : Files :=
  files.filter fun entry => entry.1 != names

end Files

/-- The bytes of a sound clip: a header of 44 bytes and two bytes for each frame. -/
def clipSize (frames : Nat) : Nat :=
  44 + 2 * frames

/-- Why a file cannot be read as text. -/
inductive ReadError where
  | file (cause : FileError)
  | text (cause : Utf8Error)
  deriving Repr, DecidableEq

/-- The wording of a reading error. -/
def ReadError.message : ReadError → String
  | .file cause => cause.message
  | .text cause => cause.message

/-- The lines of a text file at an absolute path. -/
def Files.lines (files : Files) (path : Path) : Except ReadError (List String) :=
  match files.find ⟨"/", []⟩ path with
  | .error cause => .error (.file cause)
  | .ok (_, .directory) => .error (.file (.isDirectory path.text))
  | .ok (_, .clip _ _) => .ok []
  | .ok (_, .bytes content) =>
    match decodeUtf8 content with
    | .error cause => .error (.text cause)
    | .ok cs => .ok (linesFrom [] cs)

end RobotConsole.Storage
