import RobotConsole.Console.Execute
import RobotConsole.Proofs.Effects
import RobotConsole.Proofs.Robot.Limits

/-!
# What every command keeps

A contract on systems that the primitive steps keep is kept by every command, in the foreground and
in the background, whether it succeeds, fails or is interrupted (`keeps_carryOut`). `Admits` says
which steps these are, `AdmitsTasks` adds what is done to the pool of tasks, and `AdmitsLink` what
only connecting and disconnecting take. The library of animations, which is loaded and read a piece
at a time, has steps of its own (`AdmitsLibrary`), because a contract may relate it to the trace.
Two more are left to the contract, because only some commands take them: creating a client, and a
packet that starts a motor. Whatever is asked of an actuator is asked within its limits. Some
contracts hold of commands although not of every step: `AdmitsLocal` says what a command does on
this side, and `ActionsKeep` what is then left to be known of its actions.

The statements follow the modules of the console, from single actions up to `carryOut`; each proof
walks through its action once.
-/

namespace RobotConsole.Robot

open Contract
open Storage (Path)

variable {α : Type}
variable {name : String} {async : Bool} {wait : Option Number}

/-- Whether an event sets wheels or lift in motion. -/
def Event.startsMotors : Event → Bool
  | .send _ (.driveWheels _ _) => true
  | .send _ (.moveLift _) => true
  | _ => false

/-- Whether a request begins or ends the work with a client. -/
def Request.isLifecycle : Request → Bool
  | .start | .connect | .stop => true
  | _ => false

/-- Whether a request has the client load the animations. -/
def Request.isLoading : Request → Bool
  | .loadAnimations => true
  | _ => false

/-- Whether a table of the library is asked for. -/
def AssetRequest.isTable : AssetRequest → Bool
  | .clipTable _ | .groupTable _ => true
  | _ => false

/-- Whether an event begins or ends the work with a client. -/
def Event.isLifecycle : Event → Bool
  | .call _ r => r.isLifecycle
  | _ => false

/-- Whether an event only passes time or tells the user something. -/
def Event.isTelling : Event → Bool
  | .print _ | .sleep _ => true
  | _ => false

/-- Whether an event stays on this side: nothing is asked of the robot, the assets or a tool. -/
def Event.isLocal : Event → Bool
  | .print _ | .sleep _ | .startTask | .joinTask _ | .saveImage _ => true
  | _ => false

/-- Whether a failure is the look-up of something that is not there, by position or by key. -/
def Failure.isLookup : Failure → Bool
  | .missingArgument | .fault .key _ | .script (.unbound _) | .script .noSuchLine => true
  | _ => false

/-- Controllers with the same link to the robot. -/
structure Controller.SameLink (c d : Controller) : Prop where
  client : c.client = d.client
  connected : c.connected = d.connected
  cliffEnabled : c.cliffEnabled = d.cliffEnabled

/-- Controllers with the same library of animations. -/
structure Controller.SameLibrary (c d : Controller) : Prop where
  animationsLoaded : c.animationsLoaded = d.animationsLoaded
  clips : c.clips = d.clips
  groups : c.groups = d.groups
  durations : c.durations = d.durations

/-- Controllers that have noted the same of the robot. -/
structure Controller.SameReadings (c d : Controller) : Prop where
  batteryVoltage : c.batteryVoltage = d.batteryVoltage
  headAngle : c.headAngle = d.headAngle

/-- Controllers with the same link to the robot, the same library and readings, and the same
tasks. -/
structure Controller.SameWork (c d : Controller) : Prop extends c.SameLink d, c.SameLibrary d,
    c.SameReadings d where
  pool : c.pool = d.pool

/-- A contract that lines of print, pauses and failures keep. -/
class AdmitsTelling (c : Contract Failure System) : Prop where
  throw : ∀ {e : Failure}, e.isInterrupt = false → e.isLookup = false → ∀ s, c.fails e s s
  tell : ∀ {e : Event}, e.isTelling = true → c.Holds (emit e)
  meetInterrupt : c.Holds (meetInterrupt "sleep")

/-- A contract that steps keep that only concern this side: lines of print, pauses, failures, and
changes of the controller that leave link, library and tasks alone. -/
class AdmitsLocal (c : Contract Failure System) : Prop extends AdmitsTelling c where
  recovers : ∀ {e s t}, c.fails e s t → c.yields s t
  same : ∀ {s t : System}, t.world = s.world → t.clients = s.clients → t.trace = s.trace →
    t.controller.SameWork s.controller → c.yields s t

/-- A contract that what is done to the library of animations keeps. -/
class AdmitsLibrary (c : Contract Failure System) : Prop where
  loadAnimations : c.Holds loadAnimations
  askAssets : ∀ {r : AssetRequest}, r.isTable = false → c.Holds (askAssets r)
  readClipTable : c.Holds readClipTable
  readGroupTable : c.Holds readGroupTable
  keepDuration : ∀ key duration, c.Holds (keepDuration key duration)

/-- A contract that the primitive steps keep. A failure that was handled counts as a change like any
other, and what is done after a failure that is passed on counts to the failure. -/
class Admits (c : Contract Failure System) : Prop where
  recovers : ∀ {e s t}, c.fails e s t → c.yields s t
  fails_then : ∀ {e s t u}, c.fails e s t → c.yields t u → c.fails e s u
  same : ∀ {s t : System}, t.world = s.world → t.clients = s.clients → t.trace = s.trace →
    t.controller.client = s.controller.client → t.controller.connected = s.controller.connected →
    t.controller.pool = s.controller.pool → t.controller.SameLibrary s.controller →
    t.controller.SameReadings s.controller → c.yields s t
  throw : ∀ {e : Failure}, e.isInterrupt = false → ∀ s, c.fails e s s
  emit : ∀ {e : Event}, e.isLocal = true → c.Holds (emit e)
  request : ∀ {r : Request}, r.isLifecycle = false → r.isLoading = false → r.InRange →
    c.Holds (request r)
  send : ∀ {packet : Packet}, (∀ id, (Event.send id packet).startsMotors = false) →
    packet.InRange → c.Holds (send packet)
  runTool : ∀ {command}, ToolInRange command → ∀ output, c.Holds (runTool command output)
  meetFault : ∀ name, c.Holds (meetFault name [])
  loadAnimations : c.Holds loadAnimations

/-- A contract that what is done to the pool of tasks keeps, too. -/
class AdmitsTasks (c : Contract Failure System) : Prop extends Admits c where
  finish : ∀ id, c.Holds (update fun k => { k with pool := k.pool.finish id })
  sweep : c.Holds (update fun k => { k with pool := k.pool.sweep })
  startTask : ∀ job threading, c.Holds (startTask job threading)

/-- A contract that clients may also be started and stopped under. -/
class AdmitsLink (c : Contract Failure System) : Prop extends AdmitsTasks c, AdmitsLibrary c where
  lifecycle : ∀ {r : Request}, r.isLoading = false → r.InRange → c.Holds (Robot.request r)
  update : ∀ {change : Controller → Controller},
    (∀ k, (change k).pool = k.pool ∧ (change k).SameLibrary k ∧ (change k).SameReadings k) →
    c.Holds (update change)

/-- Two contracts that admit the steps admit them at once. -/
instance {c d : Contract Failure System} [AdmitsTasks c] [AdmitsTasks d] :
    AdmitsTasks (c.and d) where
  recovers h := ⟨Admits.recovers h.1, Admits.recovers h.2⟩
  fails_then h₁ h₂ := ⟨Admits.fails_then h₁.1 h₂.1, Admits.fails_then h₁.2 h₂.2⟩
  same hworld hclients htrace hclient hconnected hpool hlibrary hreadings :=
    ⟨Admits.same hworld hclients htrace hclient hconnected hpool hlibrary hreadings,
      Admits.same hworld hclients htrace hclient hconnected hpool hlibrary hreadings⟩
  throw he s := ⟨Admits.throw he s, Admits.throw he s⟩
  emit he := (Admits.emit he).and (Admits.emit he)
  request hr hload hrange := (Admits.request hr hload hrange).and (Admits.request hr hload hrange)
  send hpacket hrange := (Admits.send hpacket hrange).and (Admits.send hpacket hrange)
  runTool hrange output := (Admits.runTool hrange output).and (Admits.runTool hrange output)
  meetFault name := (Admits.meetFault name).and (Admits.meetFault name)
  loadAnimations := Admits.loadAnimations.and Admits.loadAnimations
  finish id := (AdmitsTasks.finish id).and (AdmitsTasks.finish id)
  sweep := AdmitsTasks.sweep.and AdmitsTasks.sweep
  startTask job threading :=
    (AdmitsTasks.startTask job threading).and (AdmitsTasks.startTask job threading)

section Handling

variable {body : Act α} {handle : Failure → Act α} {s t : System} {failure : Failure}

theorem run_handling_of_ok {a : α} (h : body.run s = .ok a t) :
    (handling body handle).run s = .ok a t := by
  unfold handling
  rw [run_tryCatch, h]

theorem run_handling_of_interrupt (h : body.run s = .error failure t)
    (hfailure : failure.isInterrupt = true) :
    (handling body handle).run s = .error failure t := by
  unfold handling
  rw [run_tryCatch, h]
  simp only [hfailure, if_true]
  rfl

theorem run_handling_of_failure (h : body.run s = .error failure t)
    (hfailure : failure.isInterrupt = false) :
    (handling body handle).run s = (handle failure).run t := by
  unfold handling
  rw [run_tryCatch, h]
  simp only [hfailure, Bool.false_eq_true, if_false]

end Handling

variable {c : Contract Failure System}

/-! ## Reading the state -/

theorem holds_controller : c.Holds controller :=
  holds_get.giving

theorem holds_world : c.Holds world :=
  holds_get.giving

theorem holds_clientState (id : ClientId) : c.Holds (clientState id) :=
  holds_get.giving

theorem holds_visibleFiles : c.Holds visibleFiles :=
  holds_get.giving

theorem holds_speechFile (name : String) : c.Holds (speechFile name) :=
  holds_world.giving

theorem holds_soundTablePath : c.Holds soundTablePath :=
  holds_world.giving

theorem holds_liveClient : c.Holds liveClient? := by
  unfold liveClient?
  refine holds_controller.bind fun c => ?_
  split
  · refine (holds_clientState _).bind fun client => ?_
    split <;> exact holds_pure _
  · exact holds_pure _

theorem holds_readBattery : c.Holds readBattery :=
  holds_liveClient.giving

theorem holds_readStatus : c.Holds readStatus := by
  unfold readStatus
  refine holds_liveClient.bind fun client => ?_
  split
  · exact holds_pure _
  · exact holds_controller.giving

theorem holds_whenConnected {body : Act Bool} (hbody : c.Holds body) :
    c.Holds (whenConnected body) := by
  unfold whenConnected
  refine holds_controller.bind fun c => ?_
  split
  · exact hbody
  · exact holds_pure false

theorem pauseFailure?_plain {seconds : Number} {failure : Failure}
    (h : pauseFailure? seconds = some failure) :
    failure.isInterrupt = false ∧ failure.isLookup = false := by
  unfold pauseFailure? at h
  split at h
  · cases h
  · split at h
    · cases h; exact ⟨rfl, rfl⟩
    split at h
    · cases h; exact ⟨rfl, rfl⟩
    · cases h
  · split at h
    · cases h; exact ⟨rfl, rfl⟩
    split at h
    · cases h; exact ⟨rfl, rfl⟩
    split at h
    · cases h; exact ⟨rfl, rfl⟩
    · cases h

/-! ## Telling and failing -/

/-- An interrupt passes a handler as the body left it; anything else is handled from there. -/
theorem holds_handling (recovers : ∀ {e s t}, c.fails e s t → c.yields s t) {body : Act α}
    {handle : Failure → Act α} (hbody : c.Holds body) (hhandle : ∀ e, c.Holds (handle e)) :
    c.Holds (handling body handle) := by
  refine hbody.tryCatch_of_outcomes ?_ ?_
  · intro e s t a u hfail hrun
    split at hrun
    · cases hrun
    · exact c.trans (recovers hfail) ((hhandle e t).yields hrun)
  · intro e s t e' u hfail hrun
    split at hrun
    · cases hrun
      exact hfail
    · exact c.fails_after (recovers hfail) ((hhandle e t).fails hrun)

theorem holds_meetInterrupt (recovers : ∀ {e s t}, c.fails e s t → c.yields s t)
    (hfault : c.Holds (meetFault name [])) : c.Holds (meetInterrupt name) :=
  holds_handling recovers hfault fun _ => holds_pure _

theorem holds_runTool {command : List String} {output : Path}
    (hemit : c.Holds (emit (.run command))) (hfault : ∀ name, c.Holds (meetFault name []))
    (hfiles : ∀ (s : System) (files : Storage.Files), c.yields s { s with files }) :
    c.Holds (runTool command output) := by
  unfold runTool
  refine hemit.bind fun _ => (hfault _).bind fun _ => holds_get_bind fun s => ?_
  dsimp only
  split
  · exact holdsAt_set_bind (hfiles s _) (holds_pure _ _)
  · exact holds_pure _ s

section Telling

variable [AdmitsTelling c]

theorem keeps_print (text : String) : c.Holds (print text) :=
  AdmitsTelling.tell rfl

theorem keeps_throw {failure : Failure} (h : failure.isInterrupt = false)
    (hlookup : failure.isLookup = false) : c.Holds (throw failure : Act α) :=
  holds_throw (AdmitsTelling.throw h hlookup)

theorem keeps_calculate (result : Except NumberError α) : c.Holds (calculate result) := by
  unfold calculate
  cases result with
  | ok a => exact holds_pure a
  | error cause => exact keeps_throw rfl rfl

theorem keeps_calculate_bind {β : Type} {result : Except NumberError α} {rest : α → Act β}
    (hrest : ∀ a, result = .ok a → c.Holds (rest a)) : c.Holds (calculate result >>= rest) := by
  intro s
  refine (keeps_calculate result s).bind fun a t hrun => ?_
  cases result with
  | ok b =>
    cases hrun
    exact hrest a rfl s
  | error cause => cases hrun

theorem keeps_show (status : Status) : c.Holds status.show :=
  holds_forM _ fun _ _ => (keeps_calculate _).bind fun _ => keeps_print _

theorem keeps_pause (seconds : Number) : c.Holds (pause seconds) := by
  unfold pause
  refine (AdmitsTelling.tell rfl).bind fun _ => ?_
  cases h : pauseFailure? seconds with
  | none => exact AdmitsTelling.meetInterrupt
  | some failure =>
    obtain ⟨hinterrupt, hlookup⟩ := pauseFailure?_plain h
    exact keeps_throw hinterrupt hlookup

theorem keeps_clientFor (member : String) : c.Holds (clientFor member) := by
  unfold clientFor
  refine holds_controller.bind fun c => ?_
  split
  · exact holds_pure _
  · exact keeps_throw rfl rfl

theorem keeps_reportConverter (program : String) (tool : Tool) :
    c.Holds (reportConverter program tool) :=
  (keeps_print _).bind fun _ => keeps_print _

end Telling

/-! ## Steps on this side -/

section Local

variable [AdmitsLocal c]

theorem yields_after {x : Act α} (hx : c.Holds x) (s : System) : c.yields s (after x s) := by
  cases hrun : x.run s with
  | ok a t =>
    rw [after_of_ok hrun]
    exact (hx s).yields hrun
  | error e t =>
    rw [after_of_error hrun]
    exact AdmitsLocal.recovers ((hx s).fails hrun)

theorem keeps_update {change : Controller → Controller}
    (h : ∀ controller, (change controller).SameWork controller) : c.Holds (update change) :=
  holds_modify fun s => AdmitsLocal.same rfl rfl rfl (h s.controller)

theorem keeps_update_bind {change : Controller → Controller} {rest : Unit → Act α}
    (h : ∀ controller, (change controller).SameWork controller) (hrest : c.Holds (rest ())) :
    c.Holds (update change >>= rest) :=
  (keeps_update h).bind fun _ => hrest

theorem keeps_handling {body : Act α} {handle : Failure → Act α} (hbody : c.Holds body)
    (hhandle : ∀ e, c.Holds (handle e)) : c.Holds (handling body handle) :=
  holds_handling AdmitsLocal.recovers hbody hhandle

theorem keeps_regardless {body : Act Unit} (hbody : c.Holds body) : c.Holds (regardless body) :=
  hbody.tryCatch AdmitsLocal.recovers fun _ => holds_pure _

theorem keeps_reporting {label : String} {body : Act Unit} (hbody : c.Holds body) :
    c.Holds (reporting label body) :=
  keeps_handling hbody fun _ => keeps_print _

theorem keeps_succeeding {label : String} {body : Act Bool} (hbody : c.Holds body) :
    c.Holds (succeeding label body) :=
  keeps_handling hbody fun _ => (keeps_print _).giving

/-! ## Files -/

theorem keeps_pathExists (path : Path) : c.Holds (pathExists path) := by
  unfold pathExists
  refine holds_visibleFiles.bind fun files => holds_world.bind fun w => ?_
  split
  · exact holds_pure _
  · exact keeps_throw rfl rfl

theorem keeps_fileSize (path : Path) : c.Holds (fileSize path) := by
  unfold fileSize
  refine holds_visibleFiles.bind fun files => holds_world.bind fun w => ?_
  split
  · exact holds_pure _
  · exact holds_pure _
  · exact holds_pure _
  · exact keeps_throw rfl rfl

theorem keeps_soundLength (path : Path) : c.Holds (soundLength path) := by
  unfold soundLength
  refine holds_visibleFiles.bind fun files => holds_world.bind fun w => ?_
  split
  · exact keeps_calculate _
  · exact keeps_throw rfl rfl
  · exact keeps_throw rfl rfl

theorem keeps_removeFile (path : Path) : c.Holds (removeFile path) := by
  unfold removeFile
  refine holds_get_bind fun s => ?_
  split
  · exact holdsAt_set
      (AdmitsLocal.same rfl rfl rfl ⟨⟨rfl, rfl, rfl⟩, ⟨rfl, rfl, rfl, rfl⟩, ⟨rfl, rfl⟩, rfl⟩)
  · exact keeps_throw rfl rfl s

theorem keeps_freshName (kind : String) : c.Holds (freshName kind) := by
  refine holds_get.bind fun s => Holds.bind ?_ fun _ => holds_world.giving
  exact holds_modify fun _ =>
    AdmitsLocal.same rfl rfl rfl ⟨⟨rfl, rfl, rfl⟩, ⟨rfl, rfl, rfl, rfl⟩, ⟨rfl, rfl⟩, rfl⟩

theorem keeps_printLines (lines : List α) (text : α → String) :
    c.Holds (lines.forM fun line => print (text line)) :=
  holds_forM lines fun line _ => keeps_print (text line)

theorem keeps_pauseIf (p : Prop) [Decidable p] (seconds : Number) :
    c.Holds (if p then pause seconds else pure PUnit.unit) := by
  split
  · exact keeps_pause seconds
  · exact holds_pure _

theorem keeps_readSoundTable : c.Holds readSoundTable := by
  unfold readSoundTable
  refine holds_world.bind fun w => ?_
  split
  · exact holds_pure _
  · exact keeps_throw rfl rfl

theorem keeps_listedSound (entry : SoundEntry) : c.Holds (listedSound entry) := by
  unfold listedSound
  dsimp only
  split
  · exact holds_pure _
  · exact holds_pure _
  · split
    · exact holds_pure _
    · exact keeps_throw rfl rfl

theorem keeps_listSounds (search : Option String) : c.Holds (listSounds search) := by
  unfold listSounds
  refine keeps_succeeding (holds_soundTablePath.bind fun table => ?_)
  refine (keeps_pathExists table).bind fun found => ?_
  split
  · exact (keeps_print _).giving
  · refine keeps_readSoundTable.bind fun sounds => ?_
    refine (holds_mapM sounds keeps_listedSound).bind fun sounds => ?_
    exact (keeps_print _).bind fun _ => (keeps_printLines _ _).giving

theorem keeps_setCliffReaction (name : String) : c.Holds (setCliffReaction name) := by
  unfold setCliffReaction
  dsimp only
  split
  · exact (keeps_print _).giving
  · exact keeps_update_bind (fun _ => ⟨⟨rfl, rfl, rfl⟩, ⟨rfl, rfl, rfl, rfl⟩, ⟨rfl, rfl⟩, rfl⟩) <|
      (keeps_print _).giving

end Local

instance [Admits c] : AdmitsLocal c where
  recovers := Admits.recovers
  same hworld hclients htrace hwork := Admits.same hworld hclients htrace hwork.client
    hwork.connected hwork.pool hwork.toSameLibrary hwork.toSameReadings
  throw hinterrupt _ := Admits.throw hinterrupt
  tell {e} he := Admits.emit (by cases e <;> first | rfl | cases he)
  meetInterrupt := holds_meetInterrupt Admits.recovers (Admits.meetFault "sleep")

section Work

variable [Admits c]

/-! ## Head, pose and lights -/

theorem keeps_setHeadAngle (angle : Number) (async : Bool) :
    c.Holds (setHeadAngle angle async) := by
  refine holds_whenConnected (keeps_succeeding ?_)
  refine (Admits.request rfl rfl (setHeadAngle_inRange angle)).bind fun _ => ?_
  dsimp only
  split
  · exact (keeps_pause _).giving
  · exact holds_pure _

theorem keeps_goToPose (x y angle : Number) : c.Holds (goToPose x y angle) :=
  holds_whenConnected (keeps_succeeding ((Admits.request rfl rfl (by trivial)).giving))

theorem keeps_waitForRobot : c.Holds waitForRobot :=
  holds_whenConnected (keeps_succeeding ((Admits.request rfl rfl (by trivial)).giving))

theorem keeps_calibrateMotors (head lift : Bool) : c.Holds (calibrateMotors head lift) :=
  holds_whenConnected (keeps_succeeding ((Admits.send (fun _ => rfl) (by trivial)).bind fun _ =>
    (keeps_print _).bind fun _ => (keeps_pause _).giving))

theorem keeps_setAllLights (color : String) : c.Holds (setAllLights color) :=
  holds_whenConnected (keeps_succeeding ((Admits.request rfl rfl (by trivial)).giving))

theorem keeps_setEachLight (colors : List String) : c.Holds (setEachLight colors) := by
  refine holds_whenConnected (keeps_succeeding ?_)
  split
  · exact (keeps_print _).giving
  · exact (Admits.request rfl rfl (by trivial)).giving

theorem keeps_setHeadLight (on : Bool) : c.Holds (setHeadLight on) :=
  holds_whenConnected (keeps_succeeding ((Admits.request rfl rfl (by trivial)).bind fun _ =>
    (keeps_print _).giving))

/-! ## Wheels and lift -/

theorem keeps_runMotors (duration : Number) (async : Bool) :
    c.Holds (runMotors duration async) := by
  unfold runMotors
  split
  · exact (keeps_pause _).bind fun _ => Admits.request rfl rfl (by trivial)
  · exact holds_pure _

theorem keeps_moveLift (hmove : ∀ {packet}, packet.InRange → c.Holds (send packet))
    (speed duration : Number) (async : Bool) : c.Holds (moveLift speed duration async) :=
  holds_whenConnected (keeps_succeeding ((keeps_calculate _).bind fun _ =>
    (hmove (by trivial)).bind fun _ => (keeps_runMotors _ _).giving))

theorem keeps_driveWheels (hmove : ∀ {packet}, packet.InRange → c.Holds (send packet))
    (left right duration : Number) (async : Bool) :
    c.Holds (driveWheels left right duration async) :=
  holds_whenConnected (keeps_succeeding ((keeps_calculate _).bind fun _ =>
    (keeps_calculate _).bind fun _ => (hmove (by trivial)).bind fun _ =>
      (keeps_runMotors _ _).giving))

theorem keeps_turnInPlace (hmove : ∀ {packet}, packet.InRange → c.Holds (send packet))
    (degrees : Number) (async : Bool) : c.Holds (turnInPlace degrees async) :=
  holds_whenConnected (keeps_succeeding ((keeps_calculate _).bind fun _ =>
    (keeps_calculate _).bind fun _ => (keeps_print _).bind fun _ =>
      (keeps_driveWheels hmove _ _ _ _).giving))

end Work

/-! ## Animations -/

section Library

/-- Loading the animations keeps what asking the client for it and noting it do. -/
theorem holds_loadAnimations [AdmitsLocal c] (hrequest : c.Holds (request .loadAnimations))
    (hnote : c.Holds (update fun k => { k with animationsLoaded := true })) :
    c.Holds loadAnimations := by
  unfold loadAnimations
  refine holds_controller.bind fun c => ?_
  split
  · exact (keeps_print _).giving
  · exact keeps_succeeding (hrequest.bind fun _ => hnote.bind fun _ =>
      (keeps_print _).giving)

/-- A contract keeps what is done to the library if it allows for any change of it, and for whatever
is asked of the assets. -/
theorem admitsLibrary_of_learning (hload : c.Holds loadAnimations)
    (hask : ∀ r, c.Holds (askAssets r))
    (hlearn : ∀ {change : Controller → Controller}, (∀ k, (change k).SameLink k) →
      (∀ k, (change k).pool = k.pool) → (∀ k, (change k).SameReadings k) →
      c.Holds (update change)) : AdmitsLibrary c where
  loadAnimations := hload
  askAssets _ := hask _
  readClipTable := (hask _).bind fun _ => holds_world.bind fun _ => (hask _).bind fun _ =>
    hlearn (fun _ => ⟨rfl, rfl, rfl⟩) (fun _ => rfl) fun _ => ⟨rfl, rfl⟩
  readGroupTable := holds_world.bind fun _ => (hask _).bind fun _ =>
    hlearn (fun _ => ⟨rfl, rfl, rfl⟩) (fun _ => rfl) fun _ => ⟨rfl, rfl⟩
  keepDuration key duration := by
    have hkeep : c.Holds (update fun k =>
        { k with durations := Dict.put k.durations key duration }) :=
      hlearn (fun _ => ⟨rfl, rfl, rfl⟩) (fun _ => rfl) fun _ => ⟨rfl, rfl⟩
    exact hkeep.giving

theorem holds_ensureLoaded (hload : c.Holds loadAnimations) : c.Holds ensureLoaded := by
  unfold ensureLoaded
  refine holds_controller.bind fun c => ?_
  split
  · exact hload.giving
  · exact holds_pure _

variable [AdmitsLocal c] [AdmitsLibrary c]

theorem keeps_measureAnimation (name : String) : c.Holds (measureAnimation name) := by
  unfold measureAnimation
  refine holds_controller.bind fun c => ?_
  refine holds_when (fun rest => AdmitsLibrary.readClipTable.bind fun _ => rest) ?_
  refine holds_controller.bind fun c => ?_
  split
  · exact holds_pure _
  · refine holds_world.bind fun w => ?_
    split
    · exact holds_pure _
    · refine (AdmitsLibrary.askAssets rfl).bind fun _ => ?_
      dsimp only
      split
      · exact holds_pure _
      · exact (keeps_calculate _).bind fun _ => AdmitsLibrary.keepDuration _ _

theorem keeps_animationDuration (name : String) : c.Holds (animationDuration name) := by
  unfold animationDuration
  refine holds_controller.bind fun c => ?_
  split
  · exact holds_pure _
  · exact keeps_handling (keeps_measureAnimation name) fun _ => holds_pure _

theorem keeps_memberDurations (names : List String) : c.Holds (memberDurations names) := by
  induction names with
  | nil => exact holds_pure _
  | cons name rest ih =>
    unfold memberDurations
    exact (keeps_animationDuration name).bind fun _ => ih.giving

theorem keeps_measureGroup (name : String) : c.Holds (measureGroup name) := by
  unfold measureGroup
  refine holds_controller.bind fun c => ?_
  refine holds_when (fun rest => (holds_ensureLoaded AdmitsLibrary.loadAnimations).bind fun _ =>
    AdmitsLibrary.readGroupTable.bind fun _ => rest) ?_
  refine holds_controller.bind fun c => ?_
  split
  · exact holds_pure _
  · refine (keeps_memberDurations _).bind fun durations => ?_
    split
    · exact holds_pure _
    · exact AdmitsLibrary.keepDuration _ _

theorem keeps_groupDuration (name : String) : c.Holds (groupDuration name) := by
  unfold groupDuration
  refine holds_controller.bind fun c => ?_
  split
  · exact holds_pure _
  · exact keeps_handling (keeps_measureGroup name) fun _ => holds_pure _

theorem keeps_listAnimations (search : Option String) (durations : Bool) :
    c.Holds (listAnimations search durations) := by
  unfold listAnimations
  refine keeps_succeeding (holds_controller.bind fun c => ?_)
  refine holds_when (fun rest => AdmitsLibrary.readClipTable.bind fun _ => rest) ?_
  refine holds_controller.bind fun c => (keeps_print _).bind fun _ => ?_
  dsimp only
  split
  · refine (keeps_print _).bind fun _ => (keeps_print _).bind fun _ => ?_
    refine (holds_forM _ fun name _ => ?_).giving
    exact (keeps_animationDuration name).bind fun _ => keeps_print _
  · exact (keeps_printLines _ _).giving

theorem keeps_listGroups (search : Option String) (durations : Bool) :
    c.Holds (listGroups search durations) := by
  unfold listGroups
  refine keeps_succeeding (holds_controller.bind fun c => ?_)
  refine holds_when (fun rest => (AdmitsLibrary.askAssets rfl).bind fun _ =>
    AdmitsLibrary.readGroupTable.bind fun _ => rest) ?_
  refine holds_controller.bind fun c => (keeps_print _).bind fun _ => ?_
  dsimp only
  split
  · refine (keeps_print _).bind fun _ => (keeps_print _).bind fun _ => ?_
    refine (holds_forM _ fun name _ => ?_).giving
    exact (keeps_groupDuration name).bind fun _ => holds_controller.bind fun _ => keeps_print _
  · exact (keeps_printLines _ _).giving

end Library

section Work

variable [Admits c]

theorem keeps_performAnimation (name : String) (wait : Number) :
    c.Holds (performAnimation name wait) :=
  keeps_reporting ((holds_ensureLoaded Admits.loadAnimations).bind fun _ =>
    (Admits.request rfl rfl (by trivial)).bind fun _ => keeps_pauseIf _ _)

theorem keeps_performGroup (name : String) (wait : Number) :
    c.Holds (performGroup name wait) :=
  keeps_reporting ((holds_ensureLoaded Admits.loadAnimations).bind fun _ =>
    (Admits.request rfl rfl (by trivial)).bind fun _ => keeps_pauseIf _ _)

/-! ## Speech and sounds -/

theorem keeps_setVolume (level : Number) : c.Holds (setVolume level) :=
  holds_whenConnected (keeps_succeeding (keeps_calculate_bind fun _ hlevel =>
    (Admits.send (fun _ => rfl) (setVolume_inRange hlevel)).bind fun _ =>
      (keeps_print _).giving))

theorem keeps_playFile (file : Path) {announce : Float → Act Unit}
    (hannounce : ∀ length, c.Holds (announce length)) :
    c.Holds (playFile file announce) :=
  (keeps_soundLength file).bind fun length => (Admits.request rfl rfl (by trivial)).bind fun _ =>
    (hannounce length).bind fun _ => keeps_pause _

theorem keeps_applyVoiceEffect (spoken changed : Path) :
    c.Holds (applyVoiceEffect spoken changed) := by
  unfold applyVoiceEffect
  refine (Admits.runTool (toolInRange_of_head (by decide)) _).bind fun tool => ?_
  refine (keeps_pathExists changed).bind fun found => ?_
  split
  · exact (keeps_removeFile spoken).bind fun _ => (keeps_print _).giving
  · exact (keeps_print _).giving

theorem keeps_performSpeech (speech : Speech) : c.Holds (performSpeech speech) := by
  unfold performSpeech
  refine keeps_reporting ((keeps_freshName _).bind fun name => ?_)
  refine (holds_speechFile _).bind fun spoken => (holds_speechFile _).bind fun changed => ?_
  refine (Admits.runTool (speechCommand_inRange speech spoken.text) _).bind fun tool => ?_
  split
  · exact (keeps_print _).giving
  · refine (keeps_pathExists spoken).bind fun made => ?_
    split
    · exact (keeps_print _).giving
    · -- from here on there is a file to be played
      have play (file : Path) (announce : Float → Act Unit) (text : Nat → String)
          (hannounce : ∀ length, c.Holds (announce length)) : c.Holds (do
            let _ ← setVolume speech.volume
            pause (.real 0.2)
            let size ← fileSize file
            print (text size)
            playFile file announce) :=
        (keeps_setVolume _).bind fun _ => (keeps_pause _).bind fun _ =>
          (keeps_fileSize file).bind fun _ => (keeps_print _).bind fun _ =>
            keeps_playFile file hannounce
      dsimp only
      split
      · exact (keeps_applyVoiceEffect spoken changed).bind fun file => play file _ _ fun _ =>
          (keeps_print _).bind fun _ => keeps_print _
      · exact (holds_pure spoken).bind fun file => play file _ _ fun _ =>
          (keeps_print _).bind fun _ => keeps_print _

theorem keeps_convert (source target : Path) : c.Holds (convert source target) :=
  Admits.runTool (toolInRange_of_head (by decide)) _

theorem keeps_locateSound (entry : SoundEntry) : c.Holds (locateSound entry) := by
  unfold locateSound
  refine holds_world.bind fun w => (keeps_pathExists _).bind fun named => ?_
  split
  · exact holds_pure _
  · refine (keeps_pathExists _).bind fun beside => ?_
    split
    · exact holds_pure _
    · refine holds_visibleFiles.bind fun files => ?_
      split <;> exact holds_pure _

theorem keeps_convertSound (name : String) (target : Path) :
    c.Holds (convertSound name target) := by
  unfold convertSound
  refine holds_soundTablePath.bind fun table => (keeps_pathExists table).bind fun found => ?_
  split
  · exact (keeps_print _).giving
  refine keeps_readSoundTable.bind fun sounds => ?_
  dsimp only
  split
  · exact (keeps_print _).giving
  refine (keeps_locateSound _).bind fun source => (keeps_pathExists source).bind fun found => ?_
  split
  · exact (keeps_print _).giving
  refine (keeps_freshName _).bind fun stamp => (holds_speechFile _).bind fun raw => ?_
  refine (Admits.runTool (toolInRange_of_head (by decide)) _).bind fun decoded => ?_
  split
  · exact (keeps_reportConverter _ _).giving
  refine (keeps_convert raw target).bind fun converted => (keeps_pathExists raw).bind fun kept => ?_
  refine holds_when (fun rest => (keeps_removeFile raw).bind fun _ => rest) ?_
  split
  · exact (keeps_reportConverter _ _).giving
  · exact (keeps_print _).giving

theorem keeps_convertFile (file : String) (target : Path) :
    c.Holds (convertFile file target) := by
  unfold convertFile
  refine (keeps_pathExists _).bind fun found => ?_
  split
  · exact (keeps_print _).giving
  refine (keeps_convert _ target).bind fun converted => ?_
  split
  · exact (keeps_reportConverter _ _).giving
  · exact holds_pure _

theorem keeps_performSound (name file : Option String) : c.Holds (performSound name file) := by
  have play (target : Path) (made : Bool) : c.Holds (do
      if !made then return
      if !(← pathExists target) then
        print "Error: converted file not created"
        return
      playFile target fun length =>
        print s!"Sound duration: {Decimal.fixedText 1 length}s") := by
    split
    · exact holds_pure _
    refine (keeps_pathExists target).bind fun found => ?_
    split
    · exact (keeps_print _).giving
    · exact keeps_playFile target fun _ => keeps_print _
  unfold performSound
  refine keeps_reporting ((keeps_freshName _).bind fun stamp => ?_)
  refine (holds_speechFile _).bind fun target => ?_
  dsimp only
  split
  · exact (keeps_convertFile _ target).bind fun made => play target made
  · exact (keeps_convertSound _ target).bind fun made => play target made
  · exact (keeps_print _).bind fun _ => (holds_pure false).bind fun made => play target made

/-! ## Work in the background -/

theorem keeps_perform_job (job : Job) : c.Holds job.perform := by
  cases job with
  | speech plan => exact keeps_performSpeech plan
  | animation name wait => exact keeps_performAnimation name wait
  | group name wait => exact keeps_performGroup name wait
  | sound name file => exact keeps_performSound name file
  | idle => exact Admits.meetFault _

theorem keeps_setupCliffDetection : c.Holds setupCliffDetection := by
  unfold setupCliffDetection
  refine holds_controller.bind fun c => ?_
  split
  · exact (Admits.request rfl rfl (by trivial)).bind fun _ =>
      Admits.send (fun _ => rfl) (by trivial)
  · exact holds_pure _

theorem keeps_clientReading (reading : Client → Number) (member : String) :
    c.Holds (clientReading reading member) :=
  (keeps_clientFor member).bind fun id => (holds_clientState id).giving

/-- A task that is interrupted is finished before the interrupt is passed on. -/
theorem keeps_runTask_of_finish {id : TaskId}
    (hfinish : c.Holds (update fun k => { k with pool := k.pool.finish id })) (job : Job) :
    c.Holds (runTask id job) := by
  refine Holds.bind ?_ fun _ => hfinish
  refine (keeps_reporting (keeps_perform_job job)).tryCatch_of_outcomes ?_ ?_
  · intro e s t a u _ hrun
    cases hrun
  · intro e s t e' u hfail hrun
    cases hrun
    exact Admits.fails_then hfail ((hfinish t).yields rfl)

/-- Waiting for a task does no more to the pool than to finish the task. -/
theorem keeps_join_of_finish {id : TaskId}
    (hfinish : c.Holds (update fun k => { k with pool := k.pool.finish id })) (timeout : Number) :
    c.Holds (join timeout id) := by
  unfold join
  refine (Admits.emit rfl).bind fun _ => holds_controller.bind fun c => ?_
  split
  · split
    · exact keeps_throw rfl rfl
    split
    · exact keeps_runTask_of_finish hfinish _
    · exact holds_pure _
  · exact holds_pure _

end Work

theorem holds_meetRefusal (recovers : ∀ {e s t}, c.fails e s t → c.yields s t)
    (hfault : c.Holds (meetFault "thread" [])) (hthrow : ∀ s, c.fails .taskRefused s s) :
    c.Holds meetRefusal :=
  holds_handling recovers hfault fun _ => holds_throw hthrow

/-- The start of a task, where every change of the pool is allowed. -/
theorem holds_startTask (hpool : ∀ change : Pool → Pool,
      c.Holds (update fun k => { k with pool := change k.pool }))
    (hemit : c.Holds (emit .startTask)) (hrefusal : c.Holds meetRefusal)
    (job : Job) (threading : Threading) : c.Holds (startTask job threading) := by
  unfold startTask
  refine (hpool Pool.sweep).bind fun _ => holds_controller.bind fun k => ?_
  refine (hpool fun p => p.enlist job threading).bind fun _ => hemit.bind fun _ => ?_
  exact hrefusal.bind fun _ => (hpool fun p => p.start k.pool.tasks.size).giving

section Background

variable (hprint : ∀ text, c.Holds (print text))
include hprint

theorem holds_sayText {speech : Speech}
    (hperform : c.Holds (perform (.speech speech) async)) : c.Holds (sayText speech async) := by
  unfold sayText
  refine holds_controller.bind fun c => ?_
  split
  · exact (hprint _).giving
  · exact holds_when (fun rest => (hprint _).bind fun _ => rest) hperform

theorem holds_waitOrMeasure {measure : Act Float}
    (hmeasure : wait = none → c.Holds measure) : c.Holds (waitOrMeasure wait measure) := by
  unfold waitOrMeasure
  split
  · exact holds_pure _
  · exact (hmeasure rfl).bind fun _ => (hprint _).giving

theorem holds_playAnimation
    (hduration : wait = none → c.Holds (animationDuration name))
    (hperform : ∀ time, c.Holds (perform (.animation name time) async)) :
    c.Holds (playAnimation name async wait) :=
  holds_whenConnected ((holds_waitOrMeasure hprint hduration).bind fun time =>
    (hprint _).bind fun _ => hperform time)

theorem holds_playGroup
    (hduration : wait = none → c.Holds (groupDuration name))
    (hperform : ∀ time, c.Holds (perform (.group name time) async)) :
    c.Holds (playGroup name async wait) :=
  holds_whenConnected ((holds_waitOrMeasure hprint hduration).bind fun time =>
    (hprint _).bind fun _ => hperform time)

theorem holds_playSound {name file : Option String}
    (hperform : c.Holds (perform (.sound name file) async)) :
    c.Holds (playSound name file async) := by
  unfold playSound
  refine holds_controller.bind fun c => ?_
  split
  · exact (hprint _).giving
  refine holds_when (fun rest => ?_) hperform
  split
  · exact (hprint _).bind fun _ => rest
  · exact (hprint _).bind fun _ => rest
  · exact rest

end Background

section Tasks

variable [AdmitsTasks c]

theorem keeps_runTask (id : TaskId) (job : Job) : c.Holds (runTask id job) :=
  keeps_runTask_of_finish (AdmitsTasks.finish id) job

theorem keeps_launch (job : Job) : c.Holds (launch job) := by
  unfold launch
  refine holds_world.bind fun w => (AdmitsTasks.startTask job _).bind fun id => ?_
  split
  · exact keeps_runTask _ job
  · exact holds_pure _

theorem keeps_join (timeout : Number) (id : TaskId) : c.Holds (join timeout id) :=
  keeps_join_of_finish (AdmitsTasks.finish id) timeout

theorem keeps_awaitTasks (timeout : Number) : c.Holds (awaitTasks timeout) := by
  unfold awaitTasks
  refine holds_controller.bind fun c => ?_
  dsimp only
  split
  · exact holds_pure _
  · exact (keeps_print _).bind fun _ =>
      (holds_forM _ fun id _ => keeps_join timeout id).bind fun _ => AdmitsTasks.sweep

theorem keeps_perform (job : Job) (async : Bool) : c.Holds (perform job async) := by
  unfold perform
  dsimp only
  split
  · exact (keeps_launch job).giving
  · exact (keeps_perform_job job).giving

theorem keeps_sayText (speech : Speech) (async : Bool) : c.Holds (sayText speech async) :=
  holds_sayText keeps_print (keeps_perform _ _)

theorem keeps_playAnimation
    (hduration : wait = none → c.Holds (animationDuration name)) (async : Bool) :
    c.Holds (playAnimation name async wait) :=
  holds_playAnimation keeps_print hduration fun _ => keeps_perform _ _

theorem keeps_playGroup
    (hduration : wait = none → c.Holds (groupDuration name)) (async : Bool) :
    c.Holds (playGroup name async wait) :=
  holds_playGroup keeps_print hduration fun _ => keeps_perform _ _

theorem keeps_playSound (name file : Option String) (async : Bool) :
    c.Holds (playSound name file async) :=
  holds_playSound keeps_print (keeps_perform _ _)

end Tasks

section Connecting

variable [AdmitsLink c]

/-! ## Connecting, and the edge of the table -/

theorem keeps_disconnect : c.Holds disconnect := by
  unfold disconnect
  refine (keeps_awaitTasks _).bind fun _ => holds_controller.bind fun c => ?_
  refine holds_when (fun rest => (keeps_regardless (AdmitsLink.lifecycle rfl (by trivial))).bind
    fun _ => rest) ?_
  exact (AdmitsLink.update fun _ =>
    ⟨by rfl, ⟨by rfl, by rfl, by rfl, by rfl⟩, by rfl, by rfl⟩).bind fun _ => keeps_print _

theorem keeps_examine : c.Holds examine := by
  unfold examine
  refine (keeps_pause _).bind fun _ => holds_controller.bind fun c => ?_
  split
  · exact (keeps_print _).giving
  refine (AdmitsLink.lifecycle rfl (by trivial)).bind fun _ => (keeps_pause _).bind fun _ => ?_
  refine (keeps_clientReading _ _).bind fun serial => ?_
  split
  · exact (keeps_print _).bind fun _ => keeps_disconnect.giving
  refine (keeps_clientReading _ _).bind fun battery => ?_
  split
  · exact (keeps_print _).bind fun _ => keeps_disconnect.giving
  refine (AdmitsLink.lifecycle rfl raisedHead_inRange).bind fun _ => ?_
  refine (keeps_pause _).bind fun _ => holds_controller.bind fun c => ?_
  exact holds_when (fun rest => keeps_setupCliffDetection.bind fun _ => rest) (holds_pure _)

theorem keeps_announce : c.Holds announce := by
  unfold announce
  refine (AdmitsLink.update fun _ =>
    ⟨by rfl, ⟨by rfl, by rfl, by rfl, by rfl⟩, by rfl, by rfl⟩).bind fun _ => ?_
  refine (keeps_print _).bind fun _ => ?_
  refine (keeps_clientReading _ _).bind fun serial => (keeps_calculate _).bind fun text => ?_
  refine (keeps_print _).bind fun _ => ?_
  refine (keeps_clientReading _ _).bind fun battery => (keeps_calculate _).bind fun text => ?_
  refine (keeps_print _).bind fun _ => holds_controller.bind fun c => ?_
  exact (keeps_print _).giving

theorem keeps_attemptConnection (hcreate : c.Holds createClient) :
    c.Holds attemptConnection := by
  have hconnect : c.Holds connectClient := hcreate.bind fun _ =>
    (AdmitsLink.lifecycle rfl (by trivial)).bind fun _ => AdmitsLink.lifecycle rfl (by trivial)
  refine hconnect.bind fun _ => keeps_examine.bind fun result => ?_
  cases result with
  | connected => exact keeps_announce
  | rejected => exact holds_pure _

theorem keeps_connectFrom (hcreate : c.Holds createClient) (total : Int) (delay : Number)
    (left : Nat) : ∀ number, c.Holds (connectFrom total delay number left) := by
  induction left with
  | zero => intro number; exact holds_pure false
  | succ left ih =>
    intro number
    unfold connectFrom
    refine (keeps_handling ((keeps_print _).bind fun _ =>
      keeps_attemptConnection hcreate) ?_).bind ?_
    · intro failure
      refine (keeps_print _).bind fun _ => ?_
      dsimp only
      split
      · exact (keeps_printLines _ _).giving
      · exact (keeps_pause _).giving
    · intro outcome
      cases outcome with
      | connected => exact holds_pure true
      | rejected => exact ih (number + 1)

theorem keeps_connect (hcreate : c.Holds createClient) (retries : Int) (delay : Number) :
    c.Holds (connect retries delay) :=
  keeps_connectFrom hcreate retries delay retries.toNat 1

end Connecting

section Work

variable [Admits c]

theorem keeps_enableCliffDetection (enable : Bool) :
    c.Holds (enableCliffDetection enable) := by
  have hset : c.Holds (update fun controller => { controller with cliffEnabled := enable }) :=
    holds_modify fun _ => Admits.same rfl rfl rfl rfl rfl rfl ⟨rfl, rfl, rfl, rfl⟩ ⟨rfl, rfl⟩
  exact holds_whenConnected (keeps_succeeding (hset.bind fun _ =>
    (Admits.send (fun _ => rfl) (by trivial)).bind fun _ => holds_controller.bind fun _ =>
      (keeps_print _).giving))

/-! ## Status, screen and camera -/

theorem keeps_loadFont_bind {size : Number} {rest : Option Font → Act α}
    (hrest : ∀ font, (∀ f ∈ font, f.size = size) → c.Holds (rest font)) :
    c.Holds (loadFont size >>= rest) := by
  unfold loadFont
  rw [bind_assoc]
  refine holds_world.bind fun w => ?_
  split
  · rw [bind_assoc]
    refine (Admits.meetFault _).bind fun _ => ?_
    rw [pure_bind]
    exact hrest _ fun f hf => by cases hf; rfl
  · rw [pure_bind]
    exact hrest none fun f hf => by cases hf

theorem keeps_displayText (text : String) (duration size x y : Number) (clearAfter : Bool) :
    c.Holds (displayText text duration size x y clearAfter) := by
  unfold displayText
  refine holds_whenConnected (keeps_succeeding (keeps_loadFont_bind fun font hfont => ?_))
  have hrange : (Request.displayImage [.text x y (unescape text) font]).InRange := by
    intro drawing hdrawing
    rw [List.mem_singleton.mp hdrawing]
    cases font with
    | none => trivial
    | some f =>
      show f.size.Within _ _
      rw [hfont f rfl]
      exact fontSize_within size
  have show_ (announce : String) : c.Holds (do
      print announce
      request (.displayImage [.text x y (unescape text) font])
      pause duration
      if clearAfter then request .clearScreen
      return true) := by
    refine (keeps_print _).bind fun _ => (Admits.request rfl rfl hrange).bind fun _ => ?_
    refine (keeps_pause _).bind fun _ => ?_
    exact holds_when (fun rest => (Admits.request rfl rfl (by trivial)).bind fun _ => rest)
      (holds_pure _)
  dsimp only
  split
  · exact show_ _
  · exact show_ _

theorem keeps_showPicture {picture : Picture} (hpicture : (Request.displayImage picture).InRange)
    {announce : Act Unit} (hannounce : c.Holds announce) (duration : Number) :
    c.Holds (showPicture picture announce duration) :=
  (Admits.request rfl rfl hpicture).bind fun _ => hannounce.bind fun _ =>
    (keeps_pause _).bind fun _ => (Admits.request rfl rfl (by trivial)).giving

theorem keeps_displayBatteryIcon (duration : Number) :
    c.Holds (displayBatteryIcon duration) := by
  refine holds_whenConnected (keeps_succeeding (holds_readBattery.bind fun voltage => ?_))
  refine (keeps_calculate _).bind fun percent => keeps_calculate_bind fun picture hpicture => ?_
  refine keeps_showPicture (batteryPicture_inRange hpicture) ?_ duration
  exact (keeps_calculate _).bind fun _ => (keeps_calculate _).bind fun _ => keeps_print _

theorem keeps_displayBatteryVoltage (duration : Number) :
    c.Holds (displayBatteryVoltage duration) :=
  holds_whenConnected (keeps_succeeding (holds_readBattery.bind fun _ =>
    (keeps_calculate _).bind fun _ =>
      keeps_showPicture (by simp [Request.InRange]) (keeps_print _) duration))

theorem keeps_displayBatteryPercent (duration : Number) :
    c.Holds (displayBatteryPercent duration) :=
  holds_whenConnected (keeps_succeeding (holds_readBattery.bind fun _ =>
    (keeps_calculate _).bind fun _ => (keeps_calculate _).bind fun _ =>
      keeps_showPicture (by simp [Request.InRange]) (keeps_print _) duration))

theorem keeps_displayBatteryLines (duration : Number) :
    c.Holds (displayBatteryLines duration) := by
  refine holds_whenConnected (keeps_succeeding (holds_readBattery.bind fun voltage => ?_))
  refine (keeps_calculate _).bind fun percent => (keeps_calculate _).bind fun volts => ?_
  refine (keeps_calculate _).bind fun share => ?_
  refine keeps_showPicture (by simp [Request.InRange]) ?_ duration
  exact (keeps_print _).bind fun _ => keeps_print _

theorem keeps_captureImage (output : String) : c.Holds (captureImage output) := by
  unfold captureImage
  refine holds_controller.bind fun c => ?_
  split
  · exact holds_pure _
  refine keeps_handling ?_ fun failure => (keeps_print _).giving
  refine (keeps_setHeadAngle _ _).bind fun _ => ?_
  refine (Admits.request rfl rfl (by trivial)).bind fun _ => ?_
  refine (keeps_pause _).bind fun _ => (Admits.request rfl rfl (by trivial)).bind fun _ => ?_
  refine holds_world.bind fun w => ?_
  refine holds_when (fun rest => (Admits.emit rfl).bind fun _ =>
    (Admits.meetFault _).bind fun _ => rest) ?_
  exact (keeps_pause _).giving

end Work

end RobotConsole.Robot

namespace RobotConsole.Console

open Contract Robot
open Command (Setting Options Verb)

variable {c : Contract Failure System}

/-! ## Reading values -/

section Telling

variable [AdmitsTelling c]

theorem keeps_wholeNumber (text : String) : c.Holds (wholeNumber text) := by
  unfold wholeNumber
  split
  · exact holds_pure _
  · exact keeps_throw rfl rfl

theorem keeps_realNumber (text : String) : c.Holds (realNumber text) := by
  unfold realNumber
  split
  · exact holds_pure _
  · exact keeps_throw rfl rfl

theorem keeps_wholeSetting (value : Setting) : c.Holds (wholeSetting value) := by
  cases value with
  | absent => exact keeps_throw rfl rfl
  | flag b => exact holds_pure _
  | int n => exact holds_pure _
  | real x => exact (keeps_calculate _).giving
  | text s => exact keeps_wholeNumber s

theorem keeps_realSetting (value : Setting) : c.Holds (realSetting value) := by
  cases value with
  | absent => exact keeps_throw rfl rfl
  | flag b => exact holds_pure _
  | int n => exact (keeps_calculate _).giving
  | real x => exact holds_pure _
  | text s => exact keeps_realNumber s

theorem keeps_realSetting? (value : Setting) : c.Holds (realSetting? value) := by
  unfold realSetting?
  split
  · exact holds_pure _
  · exact (keeps_realSetting _).giving

theorem keeps_headAngle (position : String) : c.Holds (headAngle position) := by
  unfold headAngle
  split
  · exact (keeps_print _).giving
  · exact (keeps_realNumber _).bind fun _ => (keeps_calculate _).bind fun _ =>
      (keeps_print _).giving

end Telling

section Local

variable [AdmitsLocal c]

theorem keeps_showStatus : c.Holds showStatus :=
  (keeps_pause _).bind fun _ => holds_readStatus.bind fun status => (keeps_print _).bind fun _ =>
    (keeps_show status).bind fun _ => (keeps_print _).giving

theorem keeps_soundChoice (name file : Option String) (args : List String) :
    c.Holds (soundChoice name file args) := by
  unfold soundChoice
  split
  · refine (keeps_handling (keeps_pathExists _) fun _ => holds_pure _).bind fun found => ?_
    split <;> exact holds_pure _
  · exact holds_pure _

/-! ## Commands -/

/-- Whether a command moves wheels or lift. -/
def movesMotors : Verb → Bool
  | .move | .turn | .lift => true
  | _ => false

/-- What is to be known of the actions of a command so that the command keeps a contract. -/
structure ActionsKeep (c : Contract Failure System) (verb : Verb) : Prop where
  connect : verb = .connect → c.Holds (connect defaultRetries defaultDelay)
  driveWheels : movesMotors verb = true → ∀ left right duration async,
    c.Holds (driveWheels left right duration async)
  turnInPlace : movesMotors verb = true → ∀ degrees async, c.Holds (turnInPlace degrees async)
  moveLift : movesMotors verb = true → ∀ speed duration async,
    c.Holds (moveLift speed duration async)
  waitForRobot : c.Holds waitForRobot
  setVolume : ∀ level, c.Holds (setVolume level)
  goToPose : ∀ x y angle, c.Holds (goToPose x y angle)
  setHeadAngle : ∀ angle async, c.Holds (setHeadAngle angle async)
  calibrateMotors : ∀ head lift, c.Holds (calibrateMotors head lift)
  setAllLights : ∀ color, c.Holds (setAllLights color)
  setEachLight : ∀ colors, c.Holds (setEachLight colors)
  setHeadLight : ∀ on, c.Holds (setHeadLight on)
  enableCliffDetection : ∀ enable, c.Holds (enableCliffDetection enable)
  displayText : ∀ text duration size x y clearAfter,
    c.Holds (displayText text duration size x y clearAfter)
  displayBatteryIcon : ∀ duration, c.Holds (displayBatteryIcon duration)
  displayBatteryVoltage : ∀ duration, c.Holds (displayBatteryVoltage duration)
  displayBatteryPercent : ∀ duration, c.Holds (displayBatteryPercent duration)
  displayBatteryLines : ∀ duration, c.Holds (displayBatteryLines duration)
  sayText : ∀ speech async, c.Holds (sayText speech async)
  playAnimation : ∀ name async wait, c.Holds (playAnimation name async wait)
  playGroup : ∀ name async wait, c.Holds (playGroup name async wait)
  playSound : ∀ name file async, c.Holds (playSound name file async)
  listAnimations : ∀ search durations, c.Holds (listAnimations search durations)
  listGroups : ∀ search durations, c.Holds (listGroups search durations)
  captureImage : ∀ output, c.Holds (captureImage output)

namespace ActionsKeep

variable {verb : Verb}

theorem moveForward (h : ActionsKeep c verb) (hverb : movesMotors verb = true)
    (distance speed : Number) (async : Bool) : c.Holds (moveForward distance speed async) :=
  (keeps_calculate _).bind fun _ => (keeps_calculate _).bind fun _ =>
    (keeps_calculate _).bind fun _ => (keeps_print _).bind fun _ => h.driveWheels hverb _ _ _ _

theorem showBattery (h : ActionsKeep c verb) (mode : String) (duration : Number) :
    c.Holds (showBattery mode duration) := by
  unfold Console.showBattery
  refine (h.setHeadAngle _ _).bind fun _ => (keeps_pause _).bind fun _ => ?_
  split
  · exact h.displayBatteryIcon duration
  · exact h.displayBatteryVoltage duration
  · exact h.displayBatteryPercent duration
  · exact h.displayBatteryLines duration
  · exact holds_readBattery.bind fun _ => (keeps_calculate _).bind fun _ => (keeps_print _).giving

/-- A command keeps what its actions keep, provided that its arguments are there or may be
missing. -/
theorem carryOut (h : ActionsKeep c verb) {args : List String} (options : Options)
    (hargs : ∀ position < verb.signature.args.length, c.Holds (argumentAt args position)) :
    c.Holds (carryOut verb args options) := by
  unfold Console.carryOut
  dsimp only
  cases verb with
  | connect => exact h.connect rfl
  | status => exact keeps_showStatus
  | wait => exact h.waitForRobot
  | sleep =>
    exact (hargs 0 (by decide)).bind fun _ => (keeps_realNumber _).bind fun _ =>
      (keeps_pause _).giving
  | say =>
    exact (keeps_wholeSetting _).bind fun _ => (keeps_wholeSetting _).bind fun _ =>
      (keeps_wholeSetting _).bind fun _ => (keeps_wholeSetting _).bind fun _ => h.sayText _ _
  | volume =>
    exact (hargs 0 (by decide)).bind fun _ => (keeps_wholeNumber _).bind fun _ => h.setVolume _
  | move =>
    exact (hargs 0 (by decide)).bind fun _ => (keeps_realNumber _).bind fun _ =>
      (keeps_realSetting _).bind fun _ => h.moveForward rfl _ _ _
  | turn =>
    exact (hargs 0 (by decide)).bind fun _ => (keeps_realNumber _).bind fun _ =>
      h.turnInPlace rfl _ _
  | goto =>
    refine (hargs 0 (by decide)).bind fun _ => (keeps_realNumber _).bind fun x => ?_
    refine (hargs 1 (by decide)).bind fun _ => (keeps_realNumber _).bind fun y => ?_
    exact (keeps_realSetting _).bind fun _ => (keeps_calculate _).bind fun _ => h.goToPose _ _ _
  | head => exact (keeps_headAngle _).bind fun _ => h.setHeadAngle _ _
  | lift =>
    exact (hargs 0 (by decide)).bind fun _ => (keeps_realNumber _).bind fun _ =>
      (keeps_realSetting _).bind fun _ => h.moveLift rfl _ _ _
  | lights =>
    dsimp only
    split
    · exact h.setEachLight _
    · exact h.setAllLights _
  | ir => exact h.setHeadLight _
  | cliff => exact (keeps_setCliffReaction _).bind fun _ => h.enableCliffDetection _
  | calibrate => exact h.calibrateMotors _ _
  | animate =>
    exact (hargs 0 (by decide)).bind fun _ => (keeps_realSetting? _).bind fun _ =>
      h.playAnimation _ _ _
  | animGroup =>
    exact (hargs 0 (by decide)).bind fun _ => (keeps_realSetting? _).bind fun _ =>
      h.playGroup _ _ _
  | listAnims => exact h.listAnimations _ _
  | listGroups => exact h.listGroups _ _
  | listSounds => exact keeps_listSounds _
  | playSound => exact (keeps_soundChoice _ _ args).bind fun _ => h.playSound _ _ _
  | camera =>
    refine (h.captureImage _).bind fun file => ?_
    split
    · exact (keeps_print _).giving
    · exact holds_pure _
  | battery => exact (keeps_realSetting _).bind fun _ => h.showBattery _ _
  | screen =>
    exact (keeps_realSetting _).bind fun _ => (keeps_wholeSetting _).bind fun _ =>
      (keeps_wholeSetting _).bind fun _ => (keeps_wholeSetting _).bind fun _ =>
        h.displayText _ _ _ _ _ _

end ActionsKeep

theorem Verb.ofName?_name (verb : Verb) : Verb.ofName? verb.name = some verb := by
  cases verb <;> decide

theorem holds_execute {command : Command}
    (hcarry : c.Holds (carryOut command.verb command.args command.options)) :
    c.Holds (execute command) := by
  unfold execute executeNamed
  rw [Verb.ofName?_name]
  exact (keeps_print _).bind fun _ => hcarry

end Local

/-- Most actions look whether there is a connection, and report what fails after that. -/
theorem actionsKeep_of_guarded {verb : Verb}
    (hguarded : ∀ label body, c.Holds (whenConnected (succeeding label body)))
    (hconnect : verb = .connect → c.Holds (connect defaultRetries defaultDelay))
    (hspeech : ∀ speech async, c.Holds (sayText speech async))
    (hanimation : ∀ name async wait, c.Holds (playAnimation name async wait))
    (hgroup : ∀ name async wait, c.Holds (playGroup name async wait))
    (hsound : ∀ name file async, c.Holds (playSound name file async))
    (hanimations : ∀ search durations, c.Holds (listAnimations search durations))
    (hgroups : ∀ search durations, c.Holds (listGroups search durations))
    (hcamera : ∀ output, c.Holds (captureImage output)) : ActionsKeep c verb where
  connect := hconnect
  driveWheels _ _ _ _ _ := hguarded _ _
  turnInPlace _ _ _ := hguarded _ _
  moveLift _ _ _ _ := hguarded _ _
  waitForRobot := hguarded _ _
  setVolume _ := hguarded _ _
  goToPose _ _ _ := hguarded _ _
  setHeadAngle _ _ := hguarded _ _
  calibrateMotors _ _ := hguarded _ _
  setAllLights _ := hguarded _ _
  setEachLight _ := hguarded _ _
  setHeadLight _ := hguarded _ _
  enableCliffDetection _ := hguarded _ _
  displayText _ _ _ _ _ _ := hguarded _ _
  displayBatteryIcon _ := hguarded _ _
  displayBatteryVoltage _ := hguarded _ _
  displayBatteryPercent _ := hguarded _ _
  displayBatteryLines _ := hguarded _ _
  sayText := hspeech
  playAnimation := hanimation
  playGroup := hgroup
  playSound := hsound
  listAnimations := hanimations
  listGroups := hgroups
  captureImage := hcamera

section Work

variable [Admits c]

theorem keeps_argumentAt (args : List String) (position : Nat) :
    c.Holds (argumentAt args position) := by
  unfold argumentAt
  split
  · exact holds_pure _
  · exact holds_throw (Admits.throw rfl)

end Work

section Tasks

variable [AdmitsTasks c]

/-- The actions keep what the primitive steps keep, and what connecting and moving take besides. -/
theorem actionsKeep [AdmitsLibrary c] {verb : Verb}
    (hconnect : verb = .connect → c.Holds (connect defaultRetries defaultDelay))
    (hmove : movesMotors verb = true → ∀ {packet}, packet.InRange → c.Holds (send packet)) :
    ActionsKeep c verb where
  connect := hconnect
  driveWheels hverb := keeps_driveWheels (hmove hverb)
  turnInPlace hverb := keeps_turnInPlace (hmove hverb)
  moveLift hverb := keeps_moveLift (hmove hverb)
  waitForRobot := keeps_waitForRobot
  setVolume := keeps_setVolume
  goToPose := keeps_goToPose
  setHeadAngle := keeps_setHeadAngle
  calibrateMotors := keeps_calibrateMotors
  setAllLights := keeps_setAllLights
  setEachLight := keeps_setEachLight
  setHeadLight := keeps_setHeadLight
  enableCliffDetection := keeps_enableCliffDetection
  displayText := keeps_displayText
  displayBatteryIcon := keeps_displayBatteryIcon
  displayBatteryVoltage := keeps_displayBatteryVoltage
  displayBatteryPercent := keeps_displayBatteryPercent
  displayBatteryLines := keeps_displayBatteryLines
  sayText := keeps_sayText
  playAnimation name async _ := keeps_playAnimation (fun _ => keeps_animationDuration name) async
  playGroup name async _ := keeps_playGroup (fun _ => keeps_groupDuration name) async
  playSound := keeps_playSound
  listAnimations := keeps_listAnimations
  listGroups := keeps_listGroups
  captureImage := keeps_captureImage

end Tasks

section Connecting

variable [AdmitsLink c]

/-- Every command keeps a contract that the primitive steps keep: those that any command may take,
and what connecting and moving take besides. -/
theorem keeps_carryOut (verb : Verb) (args : List String) (options : Options)
    (hcreate : verb = .connect → c.Holds createClient)
    (hmove : movesMotors verb = true → ∀ {packet}, packet.InRange → c.Holds (send packet)) :
    c.Holds (carryOut verb args options) :=
  (actionsKeep (fun hverb => keeps_connect (hcreate hverb) _ _) hmove).carryOut options
    fun position _ => keeps_argumentAt args position

theorem keeps_execute (command : Command)
    (hcreate : command.verb = .connect → c.Holds createClient)
    (hmove : movesMotors command.verb = true → ∀ {packet}, packet.InRange → c.Holds (send packet)) :
    c.Holds (execute command) :=
  holds_execute (keeps_carryOut _ _ _ hcreate hmove)

end Connecting

end RobotConsole.Console
