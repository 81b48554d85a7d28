import RobotConsole.Command.Table
import RobotConsole.Text.Search

/-!
# The help text
-/

namespace RobotConsole.Command

/-- The line of one command in the help text. -/
def Verb.helpLine (v : Verb) : String :=
  let s := v.signature
  let args := String.intercalate " " (s.args.map fun arg => "<" ++ arg ++ ">")
  let options := String.intercalate " " (s.options.filterMap fun (key, value) =>
    match value with
    | .absent => none
    | value => some ("[" ++ key ++ "=" ++ value.plain ++ "]"))
  "  " ++ Text.padRight 12 s.name ++ " " ++ Text.padRight 20 args ++ " " ++
    Text.padRight 30 options ++ " - " ++ s.summary

/-- A line of sixty equals signs. -/
def rule : String :=
  String.ofList (List.replicate 60 '=')

/-- How to use the console, line by line. -/
def helpLines : List String :=
  [
    "Cozmo Robot Controller",
    rule,
    "",
    "USAGE:",
    "  python3 cozmo_controller.py <command1> [command2] ...",
    "  python3 cozmo_controller.py --script <script.txt>",
    "",
    "COMMANDS:"] ++
  Verb.all.map Verb.helpLine ++ [
    "",
    "EXAMPLES:",
    "  python3 cozmo_controller.py \"say Hello\" \"move 100\" \"turn 90\"",
    "  python3 cozmo_controller.py \"lights color=red\"",
    "  python3 cozmo_controller.py \"battery mode=voltage\"",
    "  python3 cozmo_controller.py \"goto 200 100 angle=0\"",
    "  python3 cozmo_controller.py \"ir enable=false\"",
    "  python3 cozmo_controller.py \"calibrate head=true lift=true\"",
    "  python3 cozmo_controller.py \"say Guten Tag voice=de speed=120\"",
    "  python3 cozmo_controller.py \"say Hello effect=cozmo\"",
    "  python3 cozmo_controller.py \"animate anim_bored_01\"",
    "  python3 cozmo_controller.py \"anim-group CodeLabChicken\"",
    "  python3 cozmo_controller.py \"list-anims duration=true\"",
    "  python3 cozmo_controller.py \"list-groups search=dance duration=true\"",
    "  python3 cozmo_controller.py \"head up\" \"head middle\" \"head down\"",
    "  python3 cozmo_controller.py \"list-sounds search=meow\"",
    "  python3 cozmo_controller.py \"play-sound name=meow\"",
    "  python3 cozmo_controller.py \"play-sound file=music.mp3\"",
    "  python3 cozmo_controller.py \"play-sound file=\\\"path with spaces/audio.mp3\\\"\"",
    "  python3 cozmo_controller.py --script dance_sequence.txt",
    "",
    "SCRIPT FILE FORMAT:",
    "  - One command per line",
    "  - Lines starting with # are comments",
    "  - Blank lines are ignored",
    "  - Use 'include \"filename\"' to include another script",
    "  - Include paths are relative to the current script's directory",
    "",
    "SCRIPTING FEATURES:",
    "",
    "  VARIABLES:",
    "    set name value        # Set variable",
    "    set count=5           # Alternative syntax",
    "    say Hello $name       # Use variable with $var",
    "    say $\x7bname\x7d there     # Use variable with $\x7bvar\x7d",
    "",
    "  FOR LOOPS:",
    "    for i in 1..5         # Loop 1 to 5",
    "      say Count $i",
    "    endfor",
    "    for i in 1..10 step 2 # Step by 2",
    "    for item in a b c     # Loop over list",
    "",
    "  WHILE LOOPS:",
    "    while $count > 0",
    "      say Count is $count",
    "      set count $count-1",
    "    endwhile",
    "",
    "  CONDITIONS:",
    "    if $count > 5",
    "      say High count",
    "    else",
    "      say Low count",
    "    endif",
    "    # Operators: == != > < >= <=",
    "",
    "  SUBROUTINES:",
    "    def greet",
    "      say Hello!",
    "      lights color=blue",
    "    enddef",
    "    call greet           # Call subroutine",
    "    call greet extra     # Pass argument as $1",
    "",
    "EXAMPLE SCRIPT (dance.txt):",
    "  # Dance sequence with loops",
    "  set name Cozmo",
    "  for i in 1..3",
    "    say Round $i for $name",
    "    anim-group DanceMambo async=true",
    "    play-sound name=music async=true",
    "  endfor",
    "",
    "NOTES:",
    "  - Commands execute in order (async commands run in parallel)",
    "  - Boolean values: true/false, yes/no, on/off, 1/0",
    "  - Distance in mm, angles in degrees, speed in mm/s",
    "  - Head: down/bottom, middle/neutral, up/top, or radians (-0.44 to 0.78)",
    "  - Voice: en-us (default), en-gb, de, fr, es, it, and many more",
    "  - Text can have spaces (no quotes needed inside command)",
    "  - Animations: anim_bored_01, anim_dancing_mambo_02, anim_greeting_01",
    "  - Anim groups: CodeLabBored, CodeLabChicken, DanceMambo, FistBumpSuccess",
    "  - Use quotes for paths with spaces: file=\"path with spaces/file.mp3\"",
    ""]

end RobotConsole.Command
