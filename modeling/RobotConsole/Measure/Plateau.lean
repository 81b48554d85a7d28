/-!
# Plateaus

A series of rounds has reached a plateau when several rounds in a row have brought no new best
value. Lower is better, and an equal value is no improvement.
-/

namespace RobotConsole.Measure

/-- The best value of a series so far, and the number of rounds since it was first reached. -/
structure Plateau where
  best : Int
  since : Nat
  deriving Repr, DecidableEq

/-- Takes one more round into account. -/
def Plateau.step (p : Plateau) (value : Int) : Plateau :=
  if value < p.best then ⟨value, 0⟩ else { p with since := p.since + 1 }

/-- The plateau of a series that starts with a value. -/
def plateauFrom (first : Int) (rest : List Int) : Plateau :=
  rest.foldl Plateau.step ⟨first, 0⟩

/-- The plateau of a series; an empty one has none. -/
def plateau? : List Int → Option Plateau
  | [] => none
  | first :: rest => some (plateauFrom first rest)

/-- So many rounds without improvement are a plateau. -/
def plateauLength : Nat := 3

/-- Whether there has been no improvement for long enough. -/
def Plateau.isReached (p : Plateau) : Bool :=
  plateauLength ≤ p.since

/-- The text that ends a series for want of improvement. -/
def Plateau.stopText (p : Plateau) : String :=
  s!"\n>>> STOP: repo_time converged (no improvement in {p.since} rounds; " ++
    s!"best {p.best} below). Finalize microbench.py now. <<<"

end RobotConsole.Measure
