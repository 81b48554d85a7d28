import RobotConsole.Decimal.Number
import RobotConsole.Text.Case

/-!
# Lights and pictures

The colours of the lights on the robot's back, and the pictures for its screen of 128 by 32 points.
A picture is the list of what has been drawn on a dark screen.
-/

namespace RobotConsole.Robot

/-- The lights on the back. -/
inductive Light where
  | red
  | green
  | blue
  | white
  | off
  deriving Repr, DecidableEq

namespace Light

/-- The colour of a light in five bits for each of red, green and blue. -/
def color : Light → Nat
  | .red => 31744
  | .green => 992
  | .blue => 31
  | .white => 32767
  | .off => 0

/-- The light with a given name, in any letter case. -/
def ofName? (name : String) : Option Light :=
  match Text.lower name with
  | "red" => some .red
  | "green" => some .green
  | "blue" => some .blue
  | "white" => some .white
  | "off" => some .off
  | _ => none

end Light

/-- A font file at a size. -/
structure Font where
  file : String
  size : Number

/-- One drawing on a picture. Everything is drawn in light points but the inside of an outline. -/
inductive Drawing where
  /-- A box with a light border and a dark inside. -/
  | frame (left top right bottom : Int)
  /-- A light box. -/
  | box (left top right bottom : Int)
  /-- A text, in the given font or in the built-in one. -/
  | text (x y : Number) (text : String) (font : Option Font)

/-- A picture: its drawings, first to last. -/
abbrev Picture := List Drawing

end RobotConsole.Robot
