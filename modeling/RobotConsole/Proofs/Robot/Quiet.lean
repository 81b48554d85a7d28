import RobotConsole.Proofs.Robot.Growth

/-!
# Commands that leave the motors alone

`quiet` is the contract of the actions that start no motor. Every command but a movement keeps it,
in the foreground and in the background, whether it succeeds, fails or is interrupted.
-/

namespace RobotConsole.Robot

open Contract

variable {α : Type}

/-- The contract of actions that start no motor. -/
def quiet : Contract Failure System :=
  grows fun e => e.startsMotors = false

instance : AdmitsLink quiet :=
  admitsLink_grows fun _ hmotors _ _ => hmotors

theorem Grows.of_quiet {x : Act α} (hx : quiet.Holds x) (s : System) :
    Grows (fun e => e.startsMotors = false) s (after x s) :=
  Grows.of_holds hx s

theorem quiet_throw (failure : Failure) : quiet.Holds (throw failure : Act α) :=
  grows_throw failure

end RobotConsole.Robot

namespace RobotConsole.Console

open Robot
open Command (Options Verb)

theorem quiet_carryOut (verb : Verb) (args : List String) (options : Options)
    (hverb : movesMotors verb = false) : quiet.Holds (carryOut verb args options) := by
  refine keeps_carryOut verb args options (fun _ => grows_createClient fun _ => rfl) ?_
  intro hmoves
  rw [hverb] at hmoves
  cases hmoves

end RobotConsole.Console
