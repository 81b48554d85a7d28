import RobotConsole.Command.Setting
import RobotConsole.Robot.System

/-!
# The state of the robot

What the controller knows of the robot. A controller counts as connected only while its client
reports a serial number and a battery voltage that are not zero.
-/

namespace RobotConsole.Robot

/-- The client of a controller that is connected to a robot. -/
def liveClient? : Act (Option Client) := do
  let c ← controller
  match c.client with
  | some id =>
    let client ← clientState id
    if c.connected && !client.serial.isZero && !client.battery.isZero then return some client
    else return none
  | none => return none

/-- Whether the controller is connected to a robot. -/
def isConnected : Act Bool := do
  return (← liveClient?).isSome

/-- The battery voltage, or zero without a robot. -/
def readBattery : Act Number := do
  return ((← liveClient?).map (·.battery)).getD (.real 0.0)

/-- A summary of the state of the robot. -/
inductive Status where
  | offline
  | online (serial battery headAngle : Number) (animationsLoaded : Bool)

/-- The state of the robot. -/
def readStatus : Act Status := do
  match ← liveClient? with
  | none => return .offline
  | some client =>
    let c ← controller
    return .online client.serial c.batteryVoltage c.headAngle c.animationsLoaded

/-- Why a robot counts as offline. -/
def offlineReason : String :=
  "Not connected or invalid robot state (serial=0 or battery<3V)"

/-- The entries of a summary, each with its text if that can be written. -/
def Status.entries : Status → List (String × Except NumberError String)
  | .offline => [("connected", .ok "False"), ("reason", .ok offlineReason)]
  | .online serial battery headAngle animationsLoaded =>
    [("connected", .ok "True"), ("serial_number", serial.written),
      ("battery_voltage", battery.written), ("head_angle", headAngle.written),
      ("animations_loaded", .ok (Command.flagText animationsLoaded))]

/-- Shows a summary, up to the first entry that cannot be written. -/
def Status.show (status : Status) : Act Unit :=
  status.entries.forM fun entry => do
    print s!"  {entry.1}: {← calculate entry.2}"

/-- Takes over what the robot reports of itself. -/
def noteRobotState (battery headAngle : Option Number) : Act Unit :=
  update fun c =>
    { c with
      batteryVoltage := battery.getD c.batteryVoltage
      headAngle := headAngle.getD c.headAngle }

end RobotConsole.Robot
