import RobotConsole.Robot.Background
import RobotConsole.Robot.Status

/-!
# Connecting, and the edge of the table

A connection is made in several attempts. An attempt is good when its client starts, connects and
reports a serial number and a battery voltage. Every disconnection first waits for the tasks in the
background.

The robot can be told to stop at the edge of a table; what else happens there is the reaction.
-/

namespace RobotConsole.Robot

/-- Ends the connection. -/
def disconnect : Act Unit := do
  awaitTasks (.real 30.0)
  if (← controller).client.isSome then regardless (request .stop)
  update fun c => { c with client := none, connected := false }
  print "Disconnected from Cozmo"

/-- Has the client report edges, and the robot stop at them. -/
def setupCliffDetection : Act Unit := do
  if (← controller).client.isSome then
    request (.addHandler .cliff)
    send (.stopOnCliff true)

/-- What one attempt to connect led to. -/
inductive Attempt where
  | connected
  | rejected
  deriving Repr, DecidableEq

/-- The client that an attempt to connect has made, once it has connected. -/
def clientReading (reading : Client → Number) (member : String) : Act Number := do
  return reading (← clientState (← clientFor member))

/-- Makes a client, starts it and asks it to connect. -/
def connectClient : Act Unit := do
  createClient
  request .start
  request .connect

/-- Examines the client, and rejects it unless there is a robot behind it. -/
def examine : Act Attempt := do
  pause (.int 3)
  if (← controller).client.isNone then
    print "✗ Connection failed: cli is None"
    return .rejected
  request (.addHandler .robotState)
  pause (.int 1)
  if (← clientReading (·.serial) "serial_number").isZero then
    print "✗ Connection failed: serial number is 0 (not really connected)"
    disconnect
    return .rejected
  if (← clientReading (·.battery) "battery_voltage").isZero then
    print "✗ Connection failed: battery voltage is 0.0V (robot state not received)"
    disconnect
    return .rejected
  request (.setHeadAngle (.real 0.17))
  pause (.real 0.5)
  if (← controller).cliffEnabled then setupCliffDetection
  return .connected

/-- Announces the connection, which is there from now on. -/
def announce : Act Attempt := do
  update fun c => { c with connected := true }
  print "✓ Connected to Cozmo!"
  let serial ← clientReading (·.serial) "serial_number"
  print s!"   Serial: {← calculate serial.written}"
  let battery ← clientReading (·.battery) "battery_voltage"
  print s!"   Battery: {← calculate (battery.fixed 2)}V"
  print s!"   Cliff detection: enabled (reaction={(← controller).cliffReaction.name})"
  return .connected

/-- Goes on after the examination of a client. -/
def conclude : Attempt → Act Attempt
  | .connected => announce
  | .rejected => return .rejected

/-- One attempt to connect. -/
def attemptConnection : Act Attempt := do
  connectClient
  conclude (← examine)

/-- What to check when no connection comes about. -/
def troubleshooting : List String :=
  ["\nTroubleshooting:", "1. Make sure Cozmo is on and displaying WiFi PSK",
    "2. Connect your computer to Cozmo's WiFi network",
    "3. Ensure firewall allows UDP traffic on port 5551"]

/-- Attempts to connect from the attempt `number` on, as many as are left. After a failure there is
a pause before the next attempt, and advice after the last. -/
def connectFrom (total : Int) (delay : Number) (number : Nat) : Nat → Act Bool
  | 0 => return false
  | left + 1 => do
    let attempt : Act Attempt := do
      print s!"Connecting to Cozmo... (attempt {number}/{total})"
      attemptConnection
    let outcome ← handling attempt fun failure => do
      print s!"✗ Connection failed: {failure.message}"
      if left == 0 then troubleshooting.forM print else pause delay
      return .rejected
    match outcome with
    | .connected => return true
    | .rejected => connectFrom total delay (number + 1) left

/-- Connects to the robot. -/
def connect (retries : Int) (delay : Number) : Act Bool :=
  connectFrom retries delay 1 retries.toNat

/-- How often a connection is attempted. -/
def defaultRetries : Int := 3

/-- The pause between two attempts, in seconds. -/
def defaultDelay : Number := .real 2.0

/-- Backs away from an edge. -/
def backUp : Act Unit := do
  print "Cliff reaction: backing up..."
  send (.driveWheels (-50.0) (-50.0))
  pause (.real 1.0)
  request .stopAllMotors
  print "Cliff reaction: backed up"

/-- Carries out the reaction to an edge. -/
def reactToCliff : Act Unit := do
  let reaction := (← controller).cliffReaction
  if reaction = .none then return
  regardless (request .stopAllMotors)
  match reaction with
  | .none => return ()
  | .stop => print "Cliff reaction: stopped"
  | .backup => backUp
  | .animate =>
    print "Cliff reaction: playing animation..."
    regardless do
      ensureLoaded
      request (.playGroup "ReactToCliff")
      pause (.real 2.0)

/-- Takes note of an edge, or of its end. -/
def noteCliff (atEdge : Bool) : Act Unit := do
  if atEdge then
    update fun c => { c with cliffDetected := true }
    print "\n⚠ CLIFF DETECTED!"
    reactToCliff

/-- Sets the reaction to an edge. -/
def setCliffReaction (name : String) : Act Bool := do
  let name := Text.lower name
  match CliffReaction.ofName? name with
  | none =>
    print s!"Invalid reaction: {name}. Valid: stop, backup, animate, none"
    return false
  | some reaction =>
    update fun c => { c with cliffReaction := reaction }
    print s!"Cliff reaction set to: {name}"
    return true

/-- Whether an edge was met since this was last asked. -/
def takeCliffDetected : Act Bool := do
  let detected := (← controller).cliffDetected
  update fun c => { c with cliffDetected := false }
  return detected

/-- Tells the robot whether to stop at edges. -/
def enableCliffDetection (enable : Bool) : Act Bool :=
  whenConnected <| succeeding "Error setting cliff detection: " do
    update fun c => { c with cliffEnabled := enable }
    send (.stopOnCliff enable)
    let state := if enable then "enabled" else "disabled"
    print s!"Cliff detection {state} (reaction={(← controller).cliffReaction.name})"
    return true

end RobotConsole.Robot
