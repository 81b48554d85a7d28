import RobotConsole.Robot.Motion
import RobotConsole.Text.Search

/-!
# Speech and sounds

Speech is made by a speech tool, on demand changed to the robot's own voice by a sound tool, and
played through the robot's speaker. Sounds come from the assets, where a table names them, or from
local files; converters bring them into the form the robot plays.
-/

namespace RobotConsole.Robot

open Storage (Path)

/-- Sets the volume, brought into its range. -/
def setVolume (level : Number) : Act Bool :=
  whenConnected <| succeeding "Error setting volume: " do
    let level := Number.clamp (.int 0) (.int 65535) level
    send (.setVolume (← calculate level.toInt))
    print s!"Volume set to {level.plain}"
    return true

/-- The speech tool. -/
def speechTool : String :=
  "/usr/bin/espeak"

/-- Plays a sound file, and waits until it is over and half a second more. `announce` says what is
played, given the length of the sound. -/
def playFile (file : Path) (announce : Float → Act Unit) : Act Unit := do
  let length ← soundLength file
  request (.playAudio file.text)
  announce length
  pause (.real (length + 0.5))

/-- Changes spoken sound to the robot's voice; the file to be played from then on. -/
def applyVoiceEffect (spoken changed : Path) : Act Path := do
  let tool ← runTool ["sox", spoken.text, changed.text, "pitch", "600", "speed", "1.1", "gain", "2",
    "contrast", "30"] changed
  if tool.status == 0 && (← pathExists changed) then
    removeFile spoken
    print "Applied cozmo voice effect"
    return changed
  else
    print s!"Sox effect failed, using normal voice: {tool.stderr}"
    return spoken

/-- Speaks a text. -/
def performSpeech (speech : Speech) : Act Unit :=
  reporting "Error in TTS: " do
    let name ← freshName "speech"
    let spoken ← speechFile (name ++ ".wav")
    let changed ← speechFile (name ++ "_processed.wav")
    let speed := (Number.clamp (.int 80) (.int 450) speech.speed).plain
    let pitch := (Number.clamp (.int 0) (.int 99) speech.pitch).plain
    let amplitude := (Number.clamp (.int 0) (.int 200) speech.amplitude).plain
    let tool ← runTool [speechTool, "-v", speech.voice, "-s", speed, "-p", pitch, "-a", amplitude,
      "-w", spoken.text, speech.text] spoken
    if tool.status != 0 then
      print s!"Error generating TTS: {tool.stderr}"
      return
    if !(← pathExists spoken) then
      print s!"Error: WAV file not created: {spoken.text}"
      return
    let effect := Text.lower speech.effect
    let file ← if effect == "cozmo" then applyVoiceEffect spoken changed else pure spoken
    let _ ← setVolume speech.volume
    pause (.real 0.2)
    let size ← fileSize file
    let suffix := if effect != "normal" then s!" ({speech.effect})" else ""
    print (s!"Generated audio: {size} bytes (voice={speech.voice}, speed={speed}, " ++
      s!"pitch={pitch})" ++ suffix)
    playFile file fun length => do
      print s!"Saying: {speech.text}"
      print s!"Audio duration: {Decimal.fixedText 1 length}s"

/-- The sounds of the table; fails when the table cannot be read. -/
def readSoundTable : Act (List SoundEntry) := do
  match (← world).sounds with
  | some (.entries sounds) => return sounds
  | _ => throw .soundTable

/-- The path of the table of sounds. -/
def soundTablePath : Act Path := do
  return (← world).soundDirectory.join (Path.ofText World.soundTableName)

/-- A sound as it is listed. -/
structure ListedSound where
  id : Int
  name : String

/-- Reads the number of a sound; no number, or an empty one, is zero. -/
def listedSound (entry : SoundEntry) : Act ListedSound := do
  let name := entry.name.getD ""
  match entry.id with
  | none | some "" => return ⟨0, name⟩
  | some text =>
    match Decimal.readInt text with
    | .ok id => return ⟨id, name⟩
    | .error cause => throw (.number cause)

/-- Lists the sounds by name, those whose name or number holds a text if one is given. -/
def listSounds (search : Option String) : Act Bool :=
  succeeding "Error listing sounds: " do
    let table ← soundTablePath
    if !(← pathExists table) then
      print s!"Sound info not found: {table.text}"
      return false
    let sounds ← (← readSoundTable).mapM listedSound
    let sounds := sounds.mergeSort fun a b => decide (a.name ≤ b.name)
    let sounds := match search with
      | none | some "" => sounds
      | some text =>
        let text := Text.lower text
        sounds.filter fun sound =>
          Text.occursIn text (Text.lower sound.name) || Text.occursIn text (toString sound.id)
    print s!"Available sounds ({sounds.length} total):"
    sounds.forM fun sound => print s!"  {Text.padLeft 10 (toString sound.id)} | {sound.name}"
    return true

/-- Converts a file to the form that the robot plays. -/
def convert (source target : Path) : Act Tool :=
  runTool ["ffmpeg", "-y", "-i", source.text, "-acodec", "pcm_s16le", "-ar", "22050", "-ac", "1",
    target.text] target

/-- Reports what a converter complained about. -/
def reportConverter (program : String) (tool : Tool) : Act Unit := do
  print s!"Error converting with {program}:"
  let complaint := String.ofList (tool.stderr.toList.take 300)
  print (if tool.stderr == "" then program ++ " failed" else complaint)

/-- The directories of a tree with their files, each directory before those below it. A storage may
list the directories of one level in any order; here they come by name. Only the names below `here`
are given. -/
def directoriesBelow (files : List (List String)) : Nat → List String → List (List String)
  | 0, here => [here]
  | depth + 1, here =>
    let inside := files.filterMap fun names =>
      if here.isPrefixOf names then
        match names.drop here.length with
        | name :: _ :: _ => some name
        | _ => none
      else none
    let names := (inside.mergeSort fun a b => decide (a ≤ b)).eraseReps
    here :: names.flatMap fun name => directoriesBelow files depth (here ++ [name])

/-- The last place, walking down the directories in order, where a file of this name lies. -/
def lastFileNamed? (files : List (List String)) (name : String) : Option (List String) :=
  let depth := (files.map List.length).foldl max 0
  let places := (directoriesBelow files depth []).map (· ++ [name])
  (places.filter files.contains).getLast?

/-- The file of a sound: where its table entry says, or beside the table, or anywhere below. -/
def locateSound (entry : SoundEntry) : Act Path := do
  let directory := (← world).soundDirectory
  let name := entry.id.getD "None" ++ ".wem"
  let named := directory.join (Path.ofText (entry.path.getD ""))
  if ← pathExists named then return named
  let beside := directory.join (Path.ofText name)
  if ← pathExists beside then return beside
  match lastFileNamed? ((← visibleFiles).namesBelow directory.names) name with
  | some names => return { directory with names := directory.names ++ names }
  | none => return beside

/-- Makes a file that the robot can play from a sound of the assets; tells whether it was made. -/
def convertSound (name : String) (target : Path) : Act Bool := do
  if !(← pathExists (← soundTablePath)) then
    print "Sound assets info not found"
    return false
  let sounds ← readSoundTable
  let wanted := Text.lower name
  let holds (entry : SoundEntry) : Bool :=
    Text.occursIn wanted (Text.lower (entry.name.getD ""))
  match sounds.find? holds with
  | none =>
    print s!"Sound not found: {name}"
    return false
  | some entry =>
    let source ← locateSound entry
    if !(← pathExists source) then
      print ("WEM file not found for sound " ++ entry.id.getD "None")
      return false
    let raw ← speechFile ((← freshName "sound") ++ "_raw.wav")
    let decoded ← runTool ["vgmstream-cli", "-o", raw.text, source.text] raw
    if decoded.status != 0 then
      reportConverter "vgmstream-cli" decoded
      return false
    let converted ← convert raw target
    if ← pathExists raw then removeFile raw
    if converted.status != 0 then
      reportConverter "ffmpeg" converted
      return false
    print ("Playing sound: " ++ entry.name.getD "")
    return true

/-- Makes a file that the robot can play from a local file; tells whether it was made. -/
def convertFile (file : String) (target : Path) : Act Bool := do
  let source := Path.ofText file
  if !(← pathExists source) then
    print s!"File not found: {file}"
    return false
  let converted ← convert source target
  if converted.status != 0 then
    reportConverter "ffmpeg" converted
    return false
  return true

/-- A text that was given and is not empty. -/
def given? (text : Option String) : Option String :=
  text.filter (· != "")

/-- Plays a local file or, when none is given, a sound of the assets. -/
def performSound (name file : Option String) : Act Unit :=
  reporting "Error playing sound: " do
    let target ← speechFile ((← freshName "sound") ++ ".wav")
    let made ← match given? file, given? name with
      | some file, _ => convertFile file target
      | none, some name => convertSound name target
      | none, none => do
        print "Error: specify name= or file="
        pure false
    if !made then return
    if !(← pathExists target) then
      print "Error: converted file not created"
      return
    playFile target fun length => print s!"Sound duration: {Decimal.fixedText 1 length}s"

end RobotConsole.Robot
