import RobotConsole.Robot.Picture

/-!
# Events

Everything that the console does to the outside, in order, is an event: lines printed, pauses,
requests to a client of the robot, packets, tools run, assets loaded and background tasks. Clients
are told apart by the order in which they were created.
-/

namespace RobotConsole.Robot

/-- A client, by the number of clients created before it. -/
abbrev ClientId := Nat

/-- What a client can be asked to listen for. -/
inductive Handler where
  | robotState
  | cliff
  | cameraImage
  deriving Repr, DecidableEq

/-- A request to a client. -/
inductive Request where
  | start
  | connect
  | stop
  | setHeadAngle (angle : Number)
  | stopAllMotors
  | goToPose (x y angle : Number)
  | waitForRobot
  | setAllLights (light : Light)
  | setLights (lights : List Light)
  | setHeadLight (on : Bool)
  | displayImage (picture : Picture)
  | clearScreen
  | enableCamera
  | loadAnimations
  | playAnimation (name : String)
  | playGroup (name : String)
  | playAudio (file : String)
  | addHandler (handler : Handler)

/-- The name of a request, by which faults are planned. -/
def Request.name : Request → String
  | .start => "start"
  | .connect => "connect"
  | .stop => "stop"
  | .setHeadAngle _ => "set_head_angle"
  | .stopAllMotors => "stop_all_motors"
  | .goToPose _ _ _ => "go_to_pose"
  | .waitForRobot => "wait_for_robot"
  | .setAllLights _ => "set_all_backpack_lights"
  | .setLights _ => "set_backpack_lights"
  | .setHeadLight _ => "set_head_light"
  | .displayImage _ => "display_image"
  | .clearScreen => "clear_screen"
  | .enableCamera => "enable_camera"
  | .loadAnimations => "load_anims"
  | .playAnimation _ => "play_anim"
  | .playGroup _ => "play_anim_group"
  | .playAudio _ => "play_audio"
  | .addHandler _ => "add_handler"

/-- A packet for the robot. Speeds are in millimetres or radians a second, angles in radians. -/
inductive Packet where
  | setVolume (level : Int)
  | driveWheels (left right : Float)
  | moveLift (speed : Float)
  | turnInPlace (angle speed acceleration tolerance : Float)
  | calibrateMotors (head lift : Bool)
  | stopOnCliff (enable : Bool)

/-- A request for assets. -/
inductive AssetRequest where
  | check
  | clipTable (directory : String)
  | clipFile (file : String)
  | groupTable (directory : String)
  deriving Repr, DecidableEq

/-- The name of a request for assets, by which faults are planned. -/
def AssetRequest.name : AssetRequest → String
  | .check => "check_assets"
  | .clipTable _ => "get_clip_metadata"
  | .clipFile _ => "from_fb_file"
  | .groupTable _ => "load_animation_groups"

/-- Something done to the outside. -/
inductive Event where
  | print (text : String)
  | sleep (seconds : Number)
  | create (client : ClientId)
  | call (client : ClientId) (request : Request)
  | send (client : ClientId) (packet : Packet)
  | run (command : List String)
  | asset (request : AssetRequest)
  | startTask
  | joinTask (timeout : Number)
  | saveImage (file : String)

end RobotConsole.Robot
