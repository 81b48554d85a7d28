import RobotConsole.Command.Table
import RobotConsole.Command.Words
import RobotConsole.Decimal.Reading
import RobotConsole.Text.Case
import RobotConsole.Text.Search

/-!
# Parsing commands

A command line is a command name followed by arguments and options in any order. A word with an
equals sign is an option; its value is read by the kind of the option's default. The last value
given for an option counts, and options that are not given take their defaults.
-/

namespace RobotConsole

open Command (Verb Options)

/-- A command ready to be executed. -/
structure Command where
  verb : Verb
  args : List String
  options : Options

namespace Command

/-- Why a command line is refused. -/
inductive ParseError where
  | unknownCommand (name : String)
  | unknownOption (key : String) (verb : Verb)
  | notBoolean (text : String)
  | notNumber (cause : Decimal.ReadError)
  | tooManyArguments (verb : Verb)
  | missingArguments (verb : Verb)
  deriving Repr, DecidableEq

/-- The wording of a refusal. -/
def ParseError.message : ParseError → String
  | .unknownCommand name => s!"Unknown command: {name}"
  | .unknownOption key verb => s!"Unknown option '{key}' for command '{verb.name}'"
  | .notBoolean text => s!"Cannot parse '{text}' as boolean"
  | .notNumber cause => cause.message
  | .tooManyArguments verb => s!"Too many arguments for command '{verb.name}'"
  | .missingArguments verb =>
    let args := verb.signature.args
    s!"Command '{verb.name}' requires {args.length} arguments: " ++
      Text.bracketed (args.map Text.quoted)

/-- Reads a truth value, in any letter case. -/
def readFlag (s : String) : Except ParseError Bool :=
  let word := Text.lower s
  if ["true", "yes", "on", "1"].contains word then .ok true
  else if ["false", "no", "off", "0"].contains word then .ok false
  else .error (.notBoolean word)

/-- Reads the value of an option by the kind of its default. -/
def readSetting (default : Setting) (s : String) : Except ParseError Setting :=
  match default with
  | .flag _ => (readFlag s).map .flag
  | .int _ => ((Decimal.readInt s).mapError .notNumber).map .int
  | .real _ => ((Decimal.readFloat s).mapError .notNumber).map .real
  | .text _ | .absent => .ok (.text s)

/-- Takes one word after the command name. -/
def take (c : Command) (word : String) : Except ParseError Command :=
  let signature := c.verb.signature
  match Text.splitOnce? "=" word with
  | some (key, value) =>
    match Dict.get? signature.options key with
    | none => .error (.unknownOption key c.verb)
    | some default => do
      return { c with options := Dict.put c.options key (← readSetting default value) }
  | none =>
    if c.args.length < signature.args.length || signature.openEnded then
      .ok { c with args := c.args ++ [word] }
    else .error (.tooManyArguments c.verb)

/-- Adds the defaults of the options that were not given. -/
def withDefaults (c : Command) : Command :=
  { c with options := c.options ++
      c.verb.signature.options.filter fun (key, _) => !Dict.has c.options key }

/-- Parses the words of a command line; a line without words is no command. -/
def parseWords : List String → Except ParseError (Option Command)
  | [] => .ok none
  | name :: words =>
    match Verb.ofName? name with
    | none => .error (.unknownCommand name)
    | some verb => do
      let c ← words.foldlM take ⟨verb, [], []⟩
      if c.args.length < verb.signature.args.length then .error (.missingArguments verb)
      else return some c.withDefaults

/-- Parses a command line. -/
def parse (line : String) : Except ParseError (Option Command) :=
  parseWords (splitWords line)

end Command

end RobotConsole
