import RobotConsole.Robot.Motion
import RobotConsole.Robot.Status
import RobotConsole.Text.Search

/-!
# Screen and camera

Texts and battery displays on the robot's screen, and pictures from its camera.
-/

namespace RobotConsole.Robot

/-- The font for texts on the screen. -/
def fontFile : String :=
  "/usr/share/fonts/truetype/dejavu/DejaVuSansMono.ttf"

/-- Replaces the written escapes for line end, tab and carriage return by what they stand for. -/
def unescape (text : String) : String :=
  let cs := Text.replacePair '\\' 'n' '\n' text.toList
  let cs := Text.replacePair '\\' 't' '\t' cs
  String.ofList (Text.replacePair '\\' 'r' '\r' cs)

/-- Loads the font at a size, if it is there. -/
def loadFont (size : Number) : Act (Option Font) := do
  if (← world).font then
    meetFault "truetype" []
    return some ⟨fontFile, size⟩
  else return none

/-- Shows a text on the screen for a while. -/
def displayText (text : String) (duration size x y : Number) (clearAfter : Bool) : Act Bool :=
  whenConnected <| succeeding "Error displaying text: " do
    let size := Number.clamp (.int 8) (.int 24) size
    let text := unescape text
    let font ← loadFont size
    match font with
    | some _ => print s!"Displaying with font size {size.plain}: '{text}'"
    | none => print s!"Displaying with default font: '{text}'"
    request (.displayImage [.text x y text font])
    pause duration
    if clearAfter then request .clearScreen
    return true

/-- How full the battery is in percent: empty at 3.5 volts and full at 4.2. -/
def batteryPercent (voltage : Number) : Except NumberError Number := do
  let v ← voltage.toReal
  let percent := (v - 3.5) / (4.2 - 3.5) * 100.0
  return Number.clamp (.int 0) (.int 100) (.real percent)

/-- A picture of a battery that is full to a percentage. -/
def batteryPicture (percent : Number) : Except NumberError Picture := do
  let share ← percent.divide (.int 100)
  let width ← (Number.real (share * 86.0)).toInt
  let level : Picture := if 0 < width then [.box 12 10 (12 + width) 22] else []
  let whole ← percent.toInt
  return [.frame 10 8 100 24, .box 100 12 104 20] ++ level ++
    [.text (.int 110) (.int 10) s!"{whole}%" none]

/-- A line of text at a place, in the built-in font. -/
def plainLine (x y : Int) (text : String) : Drawing :=
  .text (.int x) (.int y) text none

/-- Shows a picture for a while; `announce` says what is shown. -/
def showPicture (picture : Picture) (announce : Act Unit) (duration : Number) : Act Bool := do
  request (.displayImage picture)
  announce
  pause duration
  request .clearScreen
  return true

/-- Shows the battery as a picture. -/
def displayBatteryIcon (duration : Number) : Act Bool :=
  whenConnected <| succeeding "Error displaying battery icon: " do
    let voltage ← readBattery
    let percent ← calculate (batteryPercent voltage)
    let picture ← calculate (batteryPicture percent)
    let announce : Act Unit := do
      let volts ← calculate (voltage.fixed 2)
      let share ← calculate (percent.fixed 0)
      print s!"Battery: {volts}V ({share}%)"
    showPicture picture announce duration

/-- Shows the voltage of the battery. -/
def displayBatteryVoltage (duration : Number) : Act Bool :=
  whenConnected <| succeeding "Error displaying voltage: " do
    let volts ← calculate ((← readBattery).fixed 2)
    showPicture [plainLine 20 8 (volts ++ "V")] (print s!"Voltage: {volts}V") duration

/-- Shows how full the battery is. -/
def displayBatteryPercent (duration : Number) : Act Bool :=
  whenConnected <| succeeding "Error displaying percentage: " do
    let percent ← calculate (batteryPercent (← readBattery))
    let share ← calculate (percent.fixed 0)
    showPicture [plainLine 35 8 (share ++ "%")] (print s!"Percentage: {share}%") duration

/-- Shows the voltage of the battery and how full it is. -/
def displayBatteryLines (duration : Number) : Act Bool :=
  whenConnected <| succeeding "Error displaying two lines: " do
    let voltage ← readBattery
    let percent ← calculate (batteryPercent voltage)
    let first := s!"BAT: {← calculate (voltage.fixed 2)}V"
    let second := s!"{← calculate (percent.fixed 0)}% CHARGED"
    let announce : Act Unit := do
      print s!"Line 1: {first}"
      print s!"Line 2: {second}"
    showPicture [plainLine 5 2 first, plainLine 5 17 second] announce duration

/-- Saves the next picture of the camera to a file; the path of the file if there was one. -/
def captureImage (output : String) : Act (Option String) := do
  if !(← controller).connected then return none
  let file := (Storage.Path.ofText output).text
  let capture : Act (Option String) := do
    let _ ← setHeadAngle (.real 0.17) false
    request .enableCamera
    pause (.real 2.0)
    request (.addHandler .cameraImage)
    let arrives := (← world).camera
    if arrives then
      emit (.saveImage file)
      meetFault "save" []
    pause (.int 1)
    return if arrives then some file else none
  handling capture fun failure => do
    print s!"Error capturing image: {failure.message}"
    return none

end RobotConsole.Robot
