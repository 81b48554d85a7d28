import RobotConsole.Robot.World

/-!
# Background tasks

A task is a job that has been handed to the background. The pool numbers all tasks, and keeps track
of those that may still be alive: a launch first sweeps out the dead, and so does the end of a wait.
A task that is alive is never dropped. It is kept track of before it is started, so a task whose
start fails stays in the list, dead, until the next launch.
-/

namespace RobotConsole.Robot

/-- What is to be spoken, and how. -/
structure Speech where
  text : String
  volume : Number := .int 65535
  voice : String := "en-us"
  speed : Number := .int 150
  pitch : Number := .int 50
  amplitude : Number := .int 100
  effect : String := "normal"

/-- Work that can be done in the background. -/
inductive Job where
  | speech (speech : Speech)
  | animation (name : String) (wait : Number)
  | group (name : String) (wait : Number)
  | sound (name file : Option String)
  | idle

/-- A background task. One that was never started cannot be waited for. -/
structure Task where
  job : Job
  threading : Threading
  started : Bool := false
  alive : Bool := false

/-- A task, by the number of tasks before it. -/
abbrev TaskId := Nat

/-- All tasks, and those that are kept track of. -/
structure Pool where
  tasks : Array Task := #[]
  tracked : List TaskId := []

namespace Pool

/-- Whether a task is alive. -/
def isAlive (p : Pool) (id : TaskId) : Bool :=
  match p.tasks[id]? with
  | some task => task.alive
  | none => false

/-- Stops keeping track of tasks that are no longer alive. -/
def sweep (p : Pool) : Pool :=
  { p with tracked := p.tracked.filter p.isAlive }

/-- Keeps track of a task that is yet to be started. -/
def enlist (p : Pool) (job : Job) (threading : Threading) : Pool :=
  { tasks := p.tasks.push { job, threading }
    tracked := p.tracked ++ [p.tasks.size] }

/-- Starts a task, which is alive from now on. -/
def start (p : Pool) (id : TaskId) : Pool :=
  { p with tasks := p.tasks.modify id fun task => { task with started := true, alive := true } }

/-- Marks a task as finished. -/
def finish (p : Pool) (id : TaskId) : Pool :=
  { p with tasks := p.tasks.modify id fun task => { task with alive := false } }

end Pool

end RobotConsole.Robot
