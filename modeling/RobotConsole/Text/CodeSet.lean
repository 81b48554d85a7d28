/-!
# Sets of code points

A set of code points is stored as its switch points: the places, in increasing order, where
membership changes when the code points are walked from zero. A code point belongs to the set when
the number of switch points at or below it is odd.
-/

namespace RobotConsole.Text

/-- A set of code points, given by its switch points in increasing order. -/
structure CodeSet where
  switches : Array Nat

namespace CodeSet

/-- The number of switch points at or below `n`, known to lie between `low` and `high`. -/
def rank (s : CodeSet) (n low high : Nat) : Nat :=
  if low < high then
    let middle := (low + high) / 2
    if s.switches.getD middle 0 ≤ n then rank s n (middle + 1) high else rank s n low middle
  else low
termination_by high - low

/-- Whether a code point belongs to the set. -/
def contains (s : CodeSet) (n : Nat) : Bool :=
  s.rank n 0 s.switches.size % 2 == 1

end CodeSet

end RobotConsole.Text
