import RobotConsole.Json.Value
import RobotConsole.Measure.Bench
import RobotConsole.Measure.Fingerprint

/-!
# Self-checks

A self-check tells of each benchmark whether its results can be trusted: what it returns, whether
two runs return the same, how the result depends on the parameters, and how much of the time is
spent in the code to be measured. Each run has a time limit.
-/

namespace RobotConsole.Measure

/-- What is found of one benchmark. -/
structure Finding where
  type : String := "?"
  prints : List String := []
  printsByTag : Dict String := []
  ownTime : Dict Float := []
  ownShare : Dict Float := []
  compiledShare : Dict Float := []
  parameterPrints : List String := []

/-- A finding as JSON. -/
def Finding.toJson (f : Finding) : Json :=
  let texts (items : List String) : Json := .array (items.map .text)
  let reals (d : Dict Float) : Json := .object (d.map fun (key, x) => (key, .real x))
  .object [("ret_type", .text f.type), ("fp_stable", texts f.prints),
    ("fp_by_param", .object (f.printsByTag.map fun (key, print) => (key, .text print))),
    ("repo_tt_ms", reals f.ownTime), ("repo_frac", reals f.ownShare),
    ("ext_frac", reals f.compiledShare), ("param_fps", texts f.parameterPrints)]

/-- The seconds that one run may take. -/
def timeLimit : Nat := 20

/-- Runs a benchmark under the time limit. -/
def limitedRun (bench : Bench) (name : String) (parameters : Parameters) : BenchRun Sample := do
  note (.limit timeLimit)
  let value ← tryCatch (bench.measure name parameters) fun e => do
    note (.limit 0)
    throw e
  note (.limit 0)
  return value

/-- Adds the times of the last run to a finding. -/
def Finding.addTimes (f : Finding) (root : List String) (key : String) (p : Profile) : Finding :=
  let own := p.spentIn (isOwnCode root)
  let compiled := p.spentIn isCompiled
  { f with
    ownTime := Dict.put f.ownTime key (Decimal.roundToPlaces 3 (own * 1000.0))
    ownShare := Dict.put f.ownShare key (Decimal.roundToPlaces 3 (p.share own))
    compiledShare := Dict.put f.compiledShare key (Decimal.roundToPlaces 3 (p.share compiled)) }

/-- How a benchmark is checked: what fingerprints put for what they leave out, where the code to be
measured lies, and whether only results are of interest. -/
structure CheckMode where
  marks : Marks
  root : List String
  resultsOnly : Bool := false

/-- Adds the times of the last run, if times are of interest. -/
def CheckMode.times (mode : CheckMode) (f : Finding) (key : String) : BenchRun Finding := do
  if mode.resultsOnly then return f else return f.addTimes mode.root key (← get).profile

/-- One run with the default parameters. -/
def CheckMode.defaultRun (mode : CheckMode) (bench : Bench) (name : String) (f : Finding) :
    BenchRun Finding := do
  let value ← limitedRun bench name []
  let f := { f with type := value.typeName, prints := f.prints ++ [fingerprint mode.marks value] }
  mode.times f "<default>"

/-- One run with given parameters. -/
def CheckMode.parameterRun (mode : CheckMode) (bench : Bench) (name : String) (f : Finding)
    (parameters : Parameters) : BenchRun Finding := do
  let value ← limitedRun bench name parameters
  let tag := tagOf parameters
  let key := if tag == "" then "-" else tag
  let f := { f with
    printsByTag := Dict.put f.printsByTag key (fingerprint mode.marks value)
    parameterPrints := f.parameterPrints ++
      parameters.map fun (_, value) => fingerprint mode.marks value }
  mode.times f key

/-- Goes through the steps of a check. An error ends the check: the finding so far is kept, and its
type names the error. -/
def checkSteps (f : Finding) : List (Finding → BenchRun Finding) → BenchRun Finding
  | [] => return f
  | step :: rest => do
    match ← attempt (step f) with
    | .ok f => checkSteps f rest
    | .error e =>
      note .traceback
      return { f with type := s!"<{e.kind}>" }

/-- Checks a benchmark: twice with its default parameters, or once when only results are of
interest, and once with each set of parameters. -/
def CheckMode.check (mode : CheckMode) (name : String) (bench : Bench) : BenchRun Finding :=
  let defaults := List.replicate (if mode.resultsOnly then 1 else 2) (mode.defaultRun bench name)
  let others := bench.parameters.map fun parameters f =>
    mode.parameterRun bench name f parameters
  checkSteps {} (defaults ++ others)

/-- The report of a module that cannot be imported. -/
def importReport (e : BenchError) : Json :=
  .object [("_import_error", .text e.described)]

/-- Checks all benchmarks of a suite: the report, and the exit status if the program ends early. -/
def selfCheck (mode : CheckMode) (suite : Suite) : BenchRun (Json × Option Int) := do
  match suite.importError with
  | some e => return (importReport e, some 0)
  | none =>
    let findings ← suite.forEach mode.check
    let rows := findings.map fun (name, f) => (name, f.toJson)
    return (.object [("semcheck", .object rows)], none)

end RobotConsole.Measure
