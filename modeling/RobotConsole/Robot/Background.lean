import RobotConsole.Robot.Animation
import RobotConsole.Robot.Sound

/-!
# Work in the background

Speech, animations and sounds can be handed to the background. The controller keeps track of its
tasks and can wait for them.
-/

namespace RobotConsole.Robot

/-- Does a job. -/
def Job.perform : Job → Act Unit
  | .speech plan => performSpeech plan
  | .animation name wait => performAnimation name wait
  | .group name wait => performGroup name wait
  | .sound name file => performSound name file
  | .idle => meetFault "task" []

/-- Does the job of a task, after which the task is finished. -/
def runTask (id : TaskId) (job : Job) : Act Unit := do
  let finish : Act Unit := update fun c => { c with pool := c.pool.finish id }
  tryCatch (reporting "Background task error: " job.perform) fun failure => do
    finish
    throw failure
  finish

/-- Has the system start a task, which it may refuse. An interrupt may fall in before. -/
def meetRefusal : Act Unit :=
  handling (meetFault "thread" []) fun _ => throw .taskRefused

/-- Makes a task of a job and starts it. The task is kept track of before its start, which may
fail. -/
def startTask (job : Job) (threading : Threading) : Act TaskId := do
  update fun c => { c with pool := c.pool.sweep }
  let id := (← controller).pool.tasks.size
  update fun c => { c with pool := c.pool.enlist job threading }
  emit .startTask
  meetRefusal
  update fun c => { c with pool := c.pool.start id }
  return id

/-- Hands a job to the background. -/
def launch (job : Job) : Act Unit := do
  let threading := (← world).threading
  let id ← startTask job threading
  if threading = .eager then runTask id job

/-- Waits for a task, which must have been started. -/
def join (timeout : Number) (id : TaskId) : Act Unit := do
  emit (.joinTask timeout)
  match (← controller).pool.tasks[id]? with
  | some task =>
    if !task.started then throw .taskNotStarted
    else if task.alive && task.threading = .deferred then runTask id task.job
    else return ()
  | none => return ()

/-- Waits for all tasks that are kept track of. -/
def awaitTasks (timeout : Number) : Act Unit := do
  let ids := (← controller).pool.tracked
  if ids.isEmpty then return
  print s!"Waiting for {ids.length} background task(s)..."
  ids.forM (join timeout)
  update fun c => { c with pool := c.pool.sweep }

/-- Does a job now or hands it to the background. -/
def perform (job : Job) (async : Bool) : Act Bool := do
  if async then launch job else job.perform
  return true

/-- Speaks a text. -/
def sayText (speech : Speech) (async : Bool) : Act Bool := do
  let c ← controller
  if !c.connected || c.client.isNone then
    print "Not connected to Cozmo"
    return false
  if async then print s!"Saying (async): {speech.text}"
  perform (.speech speech) async

/-- How long to wait for something to be over: as told, or as long as it takes. -/
def waitOrMeasure (wait : Option Number) (measure : Act Float) : Act Number := do
  match wait with
  | some wait => return wait
  | none =>
    let duration ← measure
    print s!"  (auto wait: {Decimal.fixedText 1 duration}s)"
    return .real duration

/-- Plays an animation. -/
def playAnimation (name : String) (async : Bool) (wait : Option Number) : Act Bool :=
  whenConnected do
    let wait ← waitOrMeasure wait (animationDuration name)
    print ((if async then "Playing animation (async): " else "Playing animation: ") ++ name)
    perform (.animation name wait) async

/-- Plays an animation of a group. -/
def playGroup (name : String) (async : Bool) (wait : Option Number) : Act Bool :=
  whenConnected do
    let wait ← waitOrMeasure wait (groupDuration name)
    print ((if async then "Playing animation group (async): " else "Playing animation group: ") ++
      name)
    perform (.group name wait) async

/-- Plays a local file or a sound of the assets. -/
def playSound (name file : Option String) (async : Bool) : Act Bool := do
  if !(← controller).connected then
    print "Not connected to robot"
    return false
  if async then
    match given? file, given? name with
    | some file, _ => print s!"Playing sound (async): {(Storage.Path.ofText file).name}"
    | none, some name => print s!"Playing sound (async): {name}"
    | none, none => pure ()
  perform (.sound name file) async

end RobotConsole.Robot
