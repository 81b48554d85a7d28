import RobotConsole.Dict
import RobotConsole.Measure.Sample

/-!
# Benchmarks

A benchmark is set up with parameters and then run. What it does is planned: the values it returns,
one after another, the profile of each run, and the errors it meets. A suite is a module of named
benchmarks; its benchmarks are the entries whose names say so.
-/

namespace RobotConsole.Measure

/-- An error that a benchmark meets. -/
structure BenchError where
  kind : String
  message : String

/-- The wording of an error; a missing key is named in quotes. -/
def BenchError.text (e : BenchError) : String :=
  if e.kind == "KeyError" then Text.quoted e.message else e.message

/-- An error with its kind. -/
def BenchError.described (e : BenchError) : String :=
  e.kind ++ ": " ++ e.text

/-- What a profiler reports of a run: the seconds spent in each file, and in all. -/
structure Profile where
  frames : List (String × Float) := []
  total : Float := 0.0

/-- What a benchmark does for one set of parameters. -/
structure Plan where
  returns : Option (List Sample) := none
  profile : Option Profile := none
  setupError : Option BenchError := none
  runError : Option BenchError := none
  timesOut : Bool := false

/-- Parameters by name. -/
abbrev Parameters := List (String × Sample)

/-- A benchmark: what it does in general, and for particular parameters. One that is direct gives
its value when it is set up. -/
structure Bench where
  general : Plan
  direct : Bool := false
  parameters : List Parameters := []
  cases : Dict Plan := []

/-- A module of benchmarks; an entry that cannot be called holds none. -/
structure Suite where
  entries : List (String × Option Bench) := []
  importError : Option BenchError := none

/-- What can be seen of benchmarks being run. -/
inductive BenchEvent where
  | setup (name tag : String)
  | run (name tag : String)
  | limit (seconds : Nat)
  | traceback

/-- The state while benchmarks are run: how often each was run, the profile of the run that was set
up last, and what has been seen. -/
structure BenchState where
  runs : Dict Nat := []
  profile : Profile := {}
  trace : Array BenchEvent := #[]

/-- A computation that runs benchmarks. -/
abbrev BenchRun := EStateM BenchError BenchState

/-- Adds an event to what has been seen. -/
def note (event : BenchEvent) : BenchRun Unit :=
  modify fun s => { s with trace := s.trace.push event }

/-- Does something, and tells whether it met an error. -/
def attempt {α : Type} (act : BenchRun α) : BenchRun (Except BenchError α) :=
  tryCatch (Except.ok <$> act) fun e => return .error e

/-- Parameters on one line, in the order of their names. -/
def tagOf (parameters : Parameters) : String :=
  String.intercalate "," <|
    (Dict.sorted parameters).map fun (key, value) => key ++ "=" ++ value.plain

namespace Bench

/-- What a benchmark does for parameters: the plan for their tag, if there is one, which takes the
values and the profile of the general one unless it has its own. -/
def planFor (b : Bench) (tag : String) : Plan :=
  match Dict.get? b.cases tag with
  | none => b.general
  | some plan =>
    { plan with
      returns := plan.returns.or b.general.returns
      profile := plan.profile.or b.general.profile }

end Bench

/-- The value of a run, by the number of runs before; the last one planned repeats. -/
def Plan.valueAfter (plan : Plan) (count : Nat) : Sample :=
  let values := plan.returns.getD []
  (values[min count (values.length - 1)]?).getD .nothing

/-- The error of a run that takes too long. -/
def timeoutError : BenchError :=
  ⟨"TimeoutError", "timed out"⟩

/-- Sets a benchmark up and runs it; its value. -/
def Bench.measure (b : Bench) (name : String) (parameters : Parameters) : BenchRun Sample := do
  let tag := tagOf parameters
  let plan := b.planFor tag
  note (.setup name tag)
  modify fun s => { s with profile := plan.profile.getD {} }
  match plan.setupError with
  | some e => throw e
  | none => pure ()
  if b.direct then return plan.valueAfter 0
  note (.run name tag)
  match plan.runError with
  | some e => throw e
  | none => pure ()
  if plan.timesOut then throw timeoutError
  let count := (Dict.get? (← get).runs name).getD 0
  modify fun s => { s with runs := Dict.put s.runs name (count + 1) }
  return plan.valueAfter count

/-- The benchmarks of a suite, by name. -/
def Suite.benches (suite : Suite) : List (String × Bench) :=
  let named := suite.entries.filterMap fun (name, bench) => bench.map (name, ·)
  let named := named.filter fun (name, _) => "bench_".toList.isPrefixOf name.toList
  Dict.sorted (Dict.ofList named)

/-- Does something with each benchmark in turn. -/
def Suite.forEach {α : Type} (suite : Suite) (act : String → Bench → BenchRun α) :
    BenchRun (List (String × α)) :=
  suite.benches.mapM fun (name, bench) => return (name, ← act name bench)

/-! ## Where time is spent -/

/-- A path without empty names and dots, and with double dots taken away. -/
def normalPath (file : String) : List String :=
  (Storage.Path.resolve ⟨"/", []⟩ (Storage.Path.ofText file)).names

/-- Whether a directory holds code that is not the repository's own. -/
def isForeignDirectory (name : String) : Bool :=
  name == "build" || name == "vendor" || name == "site-packages" ||
    ".egg-info".toList.isSuffixOf name.toList

/-- Whether a file belongs to the measuring itself. -/
def isMeasuringFile (name : String) : Bool :=
  name == "microbench.py" || "_pti_".toList.isPrefixOf name.toList

/-- Whether a file is code of the repository at `root`. -/
def isOwnCode (root : List String) (file : String) : Bool :=
  file.toList.head? == some '/' &&
    let names := normalPath file
    root.isPrefixOf names && root.length < names.length &&
      let inside := names.drop root.length
      !(inside.dropLast.any isForeignDirectory) && !isMeasuringFile (inside.getLast?.getD "")

/-- Whether a frame is compiled code. -/
def isCompiled (file : String) : Bool :=
  file == "~" || ".so".toList.isSuffixOf file.toList || ".pyd".toList.isSuffixOf file.toList

/-- The seconds spent in some of the files, added up in their order. -/
def Profile.spentIn (p : Profile) (select : String → Bool) : Float :=
  (p.frames.filter fun frame => select frame.1).foldl (fun sum frame => sum + frame.2) 0.0

/-- A part of the total time; nothing when there is no time at all. -/
def Profile.share (p : Profile) (seconds : Float) : Float :=
  if p.total == 0.0 then 0.0 else seconds / p.total

end RobotConsole.Measure
