import RobotConsole.Robot.Event
import RobotConsole.Robot.Task

/-!
# Actions

The state of the controller, of the clients and of the world around them, and the actions on it.
An action yields a result or fails; either way the state keeps what has been done, and the trace
what has been done to the outside. Every event is in the trace before the fault that may come with
it.
-/

namespace RobotConsole.Robot

open Storage (Path Node Files)

/-- What happens at the edge of a table. -/
inductive CliffReaction where
  | stop
  | backup
  | animate
  | none
  deriving Repr, DecidableEq

namespace CliffReaction

/-- The name of a reaction. -/
def name : CliffReaction → String
  | .stop => "stop"
  | .backup => "backup"
  | .animate => "animate"
  | .none => "none"

/-- The reaction with a given name. -/
def ofName? : String → Option CliffReaction
  | "stop" => some .stop
  | "backup" => some .backup
  | "animate" => some .animate
  | "none" => some .none
  | _ => Option.none

end CliffReaction

/-- The state of the controller. -/
structure Controller where
  client : Option ClientId := none
  connected : Bool := false
  animationsLoaded : Bool := false
  batteryVoltage : Number := .real 0.0
  headAngle : Number := .real 0.0
  /-- The file of each known animation. -/
  clips : Dict String := []
  /-- The members of each known group of animations. -/
  groups : Dict (List String) := []
  pool : Pool := {}
  cliffEnabled : Bool := true
  cliffReaction : CliffReaction := .backup
  cliffDetected : Bool := false
  /-- The durations worked out so far, in seconds. -/
  durations : Dict Float := []

/-- The controller and all that it can reach. -/
structure System where
  world : World
  files : Files
  controller : Controller := {}
  clients : Array Client := #[]
  /-- How often each kind of call has been made. -/
  calls : Dict Nat := []
  /-- How many unique file names have been made. -/
  stamps : Nat := 0
  trace : Array Event := #[]

/-- An action. -/
abbrev Act := EStateM Failure System

/-- Adds an event to the trace. -/
def emit (event : Event) : Act Unit :=
  modify fun s => { s with trace := s.trace.push event }

/-- Prints a line. -/
def print (text : String) : Act Unit :=
  emit (.print text)

/-- Changes the controller. -/
def update (change : Controller → Controller) : Act Unit :=
  modify fun s => { s with controller := change s.controller }

/-- The controller. -/
def controller : Act Controller := do
  return (← get).controller

/-- The world. -/
def world : Act World := do
  return (← get).world

/-- The result of a calculation. -/
def calculate {α : Type} (result : Except NumberError α) : Act α :=
  match result with
  | .ok a => return a
  | .error cause => throw (.calculation cause)

/-- Does something, and handles a failure that is no interrupt. -/
def handling {α : Type} (body : Act α) (handle : Failure → Act α) : Act α :=
  tryCatch body fun failure => if failure.isInterrupt then throw failure else handle failure

/-- Does something, and passes over any failure, interrupts included. -/
def regardless (body : Act Unit) : Act Unit :=
  tryCatch body fun _ => return ()

/-- Does something; a failure that is no interrupt is reported. -/
def reporting (label : String) (body : Act Unit) : Act Unit :=
  handling body fun failure => print (label ++ failure.message)

/-- Does something that tells whether it succeeded; a failure that is no interrupt is reported and
counts as none. -/
def succeeding (label : String) (body : Act Bool) : Act Bool :=
  handling body fun failure => do
    print (label ++ failure.message)
    return false

/-- The failure of a planned fault. -/
def Fault.failure (f : Fault) : Failure :=
  .fault f.kind f.message

/-- Fails if a fault is planned for a call of this name, after counting the call. The world's
faults come before those of the client at hand. -/
def meetFault (name : String) (own : Dict Fault) : Act Unit := do
  let s ← get
  let count := (Dict.get? s.calls name).getD 0
  set { s with calls := Dict.put s.calls name (count + 1) }
  let due (faults : Dict Fault) : Option Fault :=
    (Dict.get? faults name).filter fun fault => fault.isDue count
  match (due s.world.faults).or (due own) with
  | some fault => throw fault.failure
  | none => return ()

/-- Why a pause of a given length fails, if it does. -/
def pauseFailure? : Number → Option Failure
  | .truth _ => none
  | .int n =>
    if Decimal.twoTo 63 < n.natAbs * Decimal.tenTo 9 then some .pauseTooLong
    else if n < 0 then some .pauseNegative
    else none
  | .real x =>
    if x.isNaN then some .pauseNaN
    else if x.abs * 1e9 > 9223372036854775808.0 then some .pauseTooLong
    else if x < 0.0 then some .pauseNegative
    else none

/-- Fails if an interrupt is planned for a step of this name. Faults of other kinds do not come with
such a step. -/
def meetInterrupt (name : String) : Act Unit :=
  handling (meetFault name []) fun _ => return ()

/-- Pauses for a number of seconds. A pause can be refused for its length, and interrupted. -/
def pause (seconds : Number) : Act Unit := do
  emit (.sleep seconds)
  match pauseFailure? seconds with
  | some failure => throw failure
  | none => meetInterrupt "sleep"

/-- The current client; fails when there is none, naming the member that was asked for. -/
def clientFor (member : String) : Act ClientId := do
  match (← controller).client with
  | some id => return id
  | none => throw (.noClient member)

/-- What is known of a client. -/
def clientState (id : ClientId) : Act Client := do
  return ((← get).clients[id]?).getD {}

/-- Makes a request to the current client. A client that vanishes leaves the controller without a
client as soon as it has connected. -/
def request (r : Request) : Act Unit := do
  let id ← clientFor r.name
  emit (.call id r)
  let client ← clientState id
  meetFault r.name client.faults
  match r with
  | .connect => if client.vanishes then update fun c => { c with client := none }
  | _ => return ()

/-- Sends a packet through the current client. -/
def send (packet : Packet) : Act Unit := do
  let id ← clientFor "conn"
  emit (.send id packet)
  meetFault "send" (← clientState id).faults

/-- Creates a client and makes it the current one. -/
def createClient : Act Unit := do
  emit (.create (← get).clients.size)
  meetFault "Client" []
  modify fun s =>
    { s with
      clients := s.clients.push (s.world.clientAfter s.clients.size)
      controller := { s.controller with client := some s.clients.size } }

/-- Asks for assets. -/
def askAssets (r : AssetRequest) : Act Unit := do
  emit (.asset r)
  meetFault r.name []

/-- The files that can be seen. -/
def visibleFiles : Act Files := do
  let s ← get
  return s.files ++ s.world.soundNodes

/-- Whether a path names something. -/
def pathExists (path : Path) : Act Bool := do
  match (← visibleFiles).contains (← world).directory path with
  | .ok found => return found
  | .error cause => throw (.file cause)

/-- Removes a file. -/
def removeFile (path : Path) : Act Unit := do
  let s ← get
  match s.files.find s.world.directory path with
  | .ok (names, _) => set { s with files := s.files.remove names }
  | .error cause => throw (.file cause)

/-- The size of a file in bytes. -/
def fileSize (path : Path) : Act Nat := do
  match (← visibleFiles).find (← world).directory path with
  | .ok (_, .clip frames _) => return Storage.clipSize frames
  | .ok (_, .bytes content) => return content.length
  | .ok (_, .directory) => return 4096
  | .error cause => throw (.file cause)

/-- The length of a sound file in seconds. -/
def soundLength (path : Path) : Act Float := do
  match (← visibleFiles).find (← world).directory path with
  | .ok (_, .clip frames rate) => calculate (Number.divide (.int frames) (.int rate))
  | .ok _ => throw .notSound
  | .error cause => throw (.file cause)

/-- The name of a sound tool, by which its behaviour and its faults are planned. -/
def toolName (program : String) : String :=
  (Path.ofText program).name

/-- What a garbled sound file holds: 23 bytes that are no sound. -/
def garbledSound : Node :=
  .bytes (List.replicate 23 0)

/-- Runs a sound tool that writes a file. -/
def runTool (command : List String) (output : Path) : Act Tool := do
  emit (.run command)
  let name := toolName (command.head?.getD "")
  meetFault name []
  let s ← get
  let tool := (Dict.get? s.world.tools name).getD {}
  if tool.creates then
    let node := if tool.garbled then garbledSound else .clip tool.frames tool.rate
    set { s with files := s.files.put (s.world.directory.join output).names node }
  return tool

/-- A name for a new file that no other file has. -/
def freshName (kind : String) : Act String := do
  let stamp := (← get).stamps + 1
  modify fun s => { s with stamps := stamp }
  let clock := (← world).clock
  return s!"{kind}_{clock}_{Text.hexText 8 stamp}"

/-- A file in the directory where sounds are made. -/
def speechFile (name : String) : Act Path := do
  return (← world).speechDirectory.join (Path.ofText name)

end RobotConsole.Robot
