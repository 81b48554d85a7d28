import RobotConsole.Dict
import RobotConsole.Robot.Failure
import RobotConsole.Script.Interpreter
import RobotConsole.Storage.Files

/-!
# The outside world

What the console finds around it: how each client of the robot behaves, which calls fail, which
animations and sounds there are, what the sound tools do, and how background tasks get their time.
-/

namespace RobotConsole.Robot

open Storage (Path Node Files)

/-- A planned fault: calls fail from the given one on, except for those that are spared. -/
structure Fault where
  kind : FaultKind := .general
  message : String := "boom"
  skip : Int := 0
  /-- The calls that go well all the same, by the number of calls of their kind before them. -/
  spared : List Nat := []

/-- Whether a fault comes with a call that so many of its kind came before. -/
def Fault.isDue (fault : Fault) (count : Nat) : Bool :=
  fault.skip ≤ count && !fault.spared.contains count

/-- How a client behaves: what it reports of the robot, which of its calls fail, and whether it is
gone once it has connected. -/
structure Client where
  serial : Number := .int 12345
  battery : Number := .real 3.95
  faults : Dict Fault := []
  vanishes : Bool := false

/-- A clip of an animation file: its name and the times of its key frames in milliseconds. -/
structure Clip where
  name : String
  keyframes : List Number

/-- An entry of the table of sounds. -/
structure SoundEntry where
  id : Option String
  name : Option String
  path : Option String

/-- The table of sounds. -/
inductive SoundTable where
  | malformed
  | entries (sounds : List SoundEntry)

/-- What a sound tool does: its status and its complaints, and the file it writes, which may hold
no sound at all. -/
structure Tool where
  status : Int := 0
  stderr : String := ""
  creates : Bool := true
  garbled : Bool := false
  frames : Nat := 22050
  rate : Nat := 22050

/-- How background tasks get their time: at once, when first waited for, or never. -/
inductive Threading where
  | eager
  | deferred
  | hung
  deriving Repr, DecidableEq

/-- The outside world. -/
structure World where
  clients : List Client := []
  faults : Dict Fault := []
  /-- The animations, each with its file. -/
  animations : List (String × String) := []
  animationFiles : Dict (List Clip) := []
  groups : List (String × List String) := []
  sounds : Option SoundTable := none
  /-- The sound files, by their paths in the sound directory. -/
  soundFiles : List String := []
  tools : Dict Tool := []
  font : Bool := true
  camera : Bool := false
  threading : Threading := .eager
  /-- The time, in whole seconds. -/
  clock : Nat
  /-- The current directory, which also holds the assets and the home directory. -/
  directory : Path
  /-- What the scripts of the program are allowed. -/
  limits : Script.Limits := {}

namespace World

/-- The client that is created after `count` others; the last one planned repeats. -/
def clientAfter (w : World) (count : Nat) : Client :=
  (w.clients[min count (w.clients.length - 1)]?).getD {}

/-- A directory below the current one. -/
def place (w : World) (names : List String) : Path :=
  { w.directory with names := w.directory.names ++ names }

/-- Where animation files lie. -/
def animationDirectory (w : World) : Path :=
  w.place ["anims"]

/-- Where the assets lie. -/
def assetDirectory (w : World) : Path :=
  w.place ["assets"]

/-- Where the sounds lie. -/
def soundDirectory (w : World) : Path :=
  w.place ["assets", "cozmo_resources", "sound"]

/-- Where sounds are made. -/
def speechDirectory (w : World) : Path :=
  w.place ["home", ".cozmo", "tts"]

/-- The name of the table of sounds. -/
def soundTableName : String :=
  "SoundbanksInfo.xml"

/-- The files of the sound directory, which is there when a table of sounds is. -/
def soundNodes (w : World) : Files :=
  match w.sounds with
  | none => []
  | some _ =>
    let here := w.soundDirectory
    (here.names, .directory) :: ((here.names ++ [soundTableName]), .bytes []) ::
      w.soundFiles.map fun file => ((here.join (Path.ofText file)).names, .bytes [])

end World

end RobotConsole.Robot
