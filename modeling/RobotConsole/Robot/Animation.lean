import RobotConsole.Robot.Motion
import RobotConsole.Text.Search

/-!
# Animations

Animations are clips in files; a group is a set of animations of which the robot plays any one.
The duration of an animation is the time of its last key frame, that of a group the mean of its
members'. Durations that were worked out are kept. When a duration cannot be worked out it is taken
to be two seconds.
-/

namespace RobotConsole.Robot

/-- What a duration is taken to be when nothing is known. -/
def unknownDuration : Float := 2.0

/-- Has the robot's client load the animations. -/
def loadAnimations : Act Bool := do
  let c ← controller
  if !c.connected || c.client.isNone then
    print "Not connected to Cozmo"
    return false
  succeeding "Error loading animations: " do
    request .loadAnimations
    update fun c => { c with animationsLoaded := true }
    print "✓ Animations loaded"
    return true

/-- Loads the animations unless that has been done. -/
def ensureLoaded : Act Unit := do
  if !(← controller).animationsLoaded then
    let _ ← loadAnimations

/-- Reads the table of animations. -/
def readClipTable : Act Unit := do
  askAssets .check
  let w ← world
  let directory := w.animationDirectory
  askAssets (.clipTable directory.text)
  let clips := Dict.ofList w.animations
  update fun c => { c with clips }

/-- Reads the table of groups. -/
def readGroupTable : Act Unit := do
  let w ← world
  askAssets (.groupTable w.assetDirectory.text)
  update fun c => { c with groups := Dict.ofList w.groups }

/-- The largest of some numbers; the first of equals. -/
def largest? : List Number → Option Number
  | [] => none
  | first :: rest => some (rest.foldl Number.greatest first)

/-- Keeps a duration. -/
def keepDuration (key : String) (duration : Float) : Act Float := do
  update fun c => { c with durations := Dict.put c.durations key duration }
  return duration

/-- Works out the duration of an animation from its file. -/
def measureAnimation (name : String) : Act Float := do
  if (← controller).clips.isEmpty then readClipTable
  match Dict.get? (← controller).clips name with
  | none => return unknownDuration
  | some file =>
    let w ← world
    match Dict.get? w.animationFiles file with
    | none => return unknownDuration
    | some clips =>
      askAssets (.clipFile (w.animationDirectory.text ++ "/" ++ file))
      let found := clips.find? fun clip => clip.name == name && !clip.keyframes.isEmpty
      match found.bind fun clip => largest? clip.keyframes with
      | none => return unknownDuration
      | some time => keepDuration name (← calculate (time.divide (.real 1000.0)))

/-- The duration of an animation in seconds. -/
def animationDuration (name : String) : Act Float := do
  match Dict.get? (← controller).durations name with
  | some duration => return duration
  | none => handling (measureAnimation name) fun _ => return unknownDuration

/-- The durations of animations, those that last no time left out. -/
def memberDurations : List String → Act (List Float)
  | [] => return []
  | name :: rest => do
    let duration ← animationDuration name
    let durations ← memberDurations rest
    return if duration > 0.0 then duration :: durations else durations

/-- The name under which the duration of a group is kept. -/
def groupKey (name : String) : String :=
  "group:" ++ name

/-- Works out the duration of a group from those of its members. -/
def measureGroup (name : String) : Act Float := do
  if (← controller).groups.isEmpty then
    ensureLoaded
    readGroupTable
  match Dict.get? (← controller).groups name with
  | none => return unknownDuration
  | some members =>
    let durations ← memberDurations members
    if durations.isEmpty then return unknownDuration
    let total := durations.foldl (· + ·) 0.0
    keepDuration (groupKey name) (total / Float.ofNat durations.length)

/-- The duration of a group in seconds. -/
def groupDuration (name : String) : Act Float := do
  match Dict.get? (← controller).durations (groupKey name) with
  | some duration => return duration
  | none => handling (measureGroup name) fun _ => return unknownDuration

/-- Plays an animation, and waits. -/
def performAnimation (name : String) (wait : Number) : Act Unit :=
  reporting "Error playing animation: " do
    ensureLoaded
    request (.playAnimation name)
    if wait.isPositive then pause wait

/-- Plays an animation of a group, and waits. -/
def performGroup (name : String) (wait : Number) : Act Unit :=
  reporting "Error playing animation group: " do
    ensureLoaded
    request (.playGroup name)
    if wait.isPositive then pause wait

/-- The names that hold a text, in any letter case, in order. All names, when no text is given. -/
def namesWith (search : Option String) (names : List String) : List String :=
  let names := names.mergeSort fun a b => decide (a ≤ b)
  match search with
  | none | some "" => names
  | some text =>
    let text := Text.lower text
    names.filter fun name => Text.occursIn text (Text.lower name)

/-- A line of dashes. -/
def dashes (n : Nat) : String :=
  String.ofList (List.replicate n '-')

/-- A duration in a column. -/
def durationCell (duration : Float) : String :=
  Text.padLeft 9 (Decimal.fixedText 1 duration) ++ "s"

/-- Lists the animations, on demand with their durations. -/
def listAnimations (search : Option String) (durations : Bool) : Act Bool :=
  succeeding "Error listing animations: " do
    if !(← controller).animationsLoaded then readClipTable
    let names := namesWith search ((← controller).clips.map (·.1))
    print s!"Available animations ({names.length} total):"
    if durations then
      print ("  " ++ Text.padRight 50 "Name" ++ " " ++ Text.padLeft 10 "Duration")
      print s!"  {dashes 50} {dashes 10}"
      names.forM fun name => do
        let duration ← animationDuration name
        print s!"  {Text.padRight 50 name} {durationCell duration}"
    else names.forM fun name => print s!"  {name}"
    return true

/-- Lists the groups, on demand with their durations and sizes. -/
def listGroups (search : Option String) (durations : Bool) : Act Bool :=
  succeeding "Error listing animation groups: " do
    if !(← controller).animationsLoaded then
      askAssets .check
      readGroupTable
    let groups := (← controller).groups
    let names := namesWith search (groups.map (·.1))
    print s!"Available animation groups ({names.length} total):"
    if durations then
      print ("  " ++ Text.padRight 50 "Name" ++ " " ++ Text.padLeft 10 "Avg Duration" ++ " " ++
        Text.padLeft 8 "Members")
      print s!"  {dashes 50} {dashes 10} {dashes 8}"
      names.forM fun name => do
        let duration ← groupDuration name
        let members := ((Dict.get? (← controller).groups name).getD []).length
        print (s!"  {Text.padRight 50 name} {durationCell duration} " ++
          Text.padLeft 8 (toString members))
    else names.forM fun name => print s!"  {name}"
    return true

end RobotConsole.Robot
