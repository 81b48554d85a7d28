import RobotConsole.Robot.Motion

/-!
# Lights

The lights on the back, all at once or one by one, and the infrared light of the head.
-/

namespace RobotConsole.Robot

/-- Sets all lights to one colour; an unknown colour is blue. -/
def setAllLights (color : String) : Act Bool :=
  whenConnected <| succeeding "Error setting lights: " do
    request (.setAllLights ((Light.ofName? color).getD .blue))
    return true

/-- Sets the five lights one by one; an unknown colour is off. -/
def setEachLight (colors : List String) : Act Bool :=
  whenConnected <| succeeding "Error setting individual lights: " do
    if colors.length != 5 then
      print "Error: Must provide exactly 5 colors"
      return false
    request (.setLights (colors.map fun color => (Light.ofName? color).getD .off))
    return true

/-- Switches the infrared light. -/
def setHeadLight (on : Bool) : Act Bool :=
  whenConnected <| succeeding "Error setting head light: " do
    request (.setHeadLight on)
    print ("Head light (IR) turned " ++ if on then "on" else "off")
    return true

end RobotConsole.Robot
