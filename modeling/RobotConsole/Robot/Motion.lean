import RobotConsole.Command.Setting
import RobotConsole.Robot.System

/-!
# Moving

Wheels, lift and head. A movement is a packet that starts the motors, a pause while they run, and a
request to stop them; an asynchronous movement leaves out the last two. When any step fails, the
failure is reported and the movement counts as failed.
-/

namespace RobotConsole.Robot

/-- Does something that needs a connection; without one it counts as failed. -/
def whenConnected (body : Act Bool) : Act Bool := do
  if (← controller).connected then body else return false

/-- Lets started motors run for a while and stops them, unless the movement is asynchronous. -/
def runMotors (duration : Number) (async : Bool) : Act Unit := do
  if !async then
    pause duration
    request .stopAllMotors

/-- Turns the head; the angle is brought into the range of the joint. -/
def setHeadAngle (angle : Number) (async : Bool) : Act Bool :=
  whenConnected <| succeeding "Error setting head angle: " do
    request (.setHeadAngle (Number.clamp (.real (-0.44)) (.real 0.78) angle))
    if !async then pause (.real 0.5)
    return true

/-- Moves the lift at a speed for a while. -/
def moveLift (speed duration : Number) (async : Bool) : Act Bool :=
  whenConnected <| succeeding "Error moving lift: " do
    send (.moveLift (← calculate speed.toReal))
    runMotors duration async
    return true

/-- Drives the wheels at two speeds for a while. -/
def driveWheels (left right duration : Number) (async : Bool) : Act Bool :=
  whenConnected <| succeeding "Error driving wheels: " do
    send (.driveWheels (← calculate left.toReal) (← calculate right.toReal))
    runMotors duration async
    return true

/-- Drives a distance forward. -/
def moveForward (distance speed : Number) (async : Bool) : Act Bool := do
  let duration ← calculate (distance.divide speed)
  let far ← calculate distance.written
  let fast ← calculate speed.written
  print s!"Moving forward {far}mm ({Decimal.fixedText 1 duration}s at {fast}mm/s)"
  driveWheels speed speed (.real duration) async

/-- Drives a distance backward. -/
def moveBackward (distance speed : Number) (async : Bool) : Act Bool := do
  let duration ← calculate (distance.divide speed)
  driveWheels speed.negate speed.negate (.real duration) async

/-- Turns on the spot, a quarter turn a second; a positive angle is a turn to the left. The turn
counts as done also when the wheels failed. -/
def turnInPlace (degrees : Number) (async : Bool) : Act Bool :=
  whenConnected <| succeeding "Error turning: " do
    let duration ← calculate (degrees.size.divide (.real 90.0))
    let angle ← calculate degrees.written
    print s!"Turning {angle} degrees ({Decimal.fixedText 1 duration}s)"
    let speed : Int := if degrees.isPositive then 100 else -100
    let _ ← driveWheels (.int (-speed)) (.int speed) (.real duration) async
    return true

/-- Turns to an angle and waits as long as that should take. -/
def turnToAngle (angle speed acceleration tolerance : Number) (async : Bool) : Act Bool :=
  whenConnected <| succeeding "Error turning to angle: " do
    send (.turnInPlace (← calculate angle.toReal) (← calculate speed.toReal)
      (← calculate acceleration.toReal) (← calculate tolerance.toReal))
    if !async then
      let time ← calculate (angle.size.divide speed)
      pause (.real (time + 0.5))
    return true

/-- Drives to a place and turns to an angle there. -/
def goToPose (x y angle : Number) : Act Bool :=
  whenConnected <| succeeding "Error going to pose: " do
    request (.goToPose x y angle)
    return true

/-- Waits until the robot is ready. -/
def waitForRobot : Act Bool :=
  whenConnected <| succeeding "Error waiting for robot: " do
    request .waitForRobot
    return true

/-- Lets the motors find their zero positions. -/
def calibrateMotors (head lift : Bool) : Act Bool :=
  whenConnected <| succeeding "Error calibrating motors: " do
    send (.calibrateMotors head lift)
    print s!"Calibrating motors: head={Command.flagText head}, lift={Command.flagText lift}"
    pause (.int 3)
    return true

end RobotConsole.Robot
