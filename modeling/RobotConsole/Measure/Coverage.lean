import RobotConsole.Json.Reader
import RobotConsole.Measure.Bench

/-!
# Coverage runs

Every benchmark of a suite is run once under a coverage tool. The tool's report is then marked with
the number of benchmarks and the errors they met, and summed up in one line.
-/

namespace RobotConsole.Measure

/-- What can be seen of a coverage run. -/
inductive CoverageEvent where
  | tool (source : String) (excluded : Json)
  | start
  | bench (event : BenchEvent)
  | stop
  | report (file : String)
  | print (line : String)

/-- Why a coverage run fails. -/
inductive CoverageError where
  | json (cause : Json.ReadError)
  | missing (key : String)
  deriving DecidableEq

/-- The wording of a failed coverage run. -/
def CoverageError.message : CoverageError → String
  | .json cause => cause.message
  | .missing key => Text.quoted key

/-- The state of a coverage run: what has been seen, and the report file. -/
structure CoverageState where
  trace : Array CoverageEvent := #[]
  file : Option String := none

/-- A coverage run. -/
abbrev CoverageRun := EStateM CoverageError CoverageState

/-- Adds an event to what has been seen. -/
def record (event : CoverageEvent) : CoverageRun Unit :=
  modify fun s => { s with trace := s.trace.push event }

/-- Reads a JSON text, or fails. -/
def readJson (text : String) : CoverageRun Json :=
  match Json.read text with
  | .ok value => return value
  | .error cause => throw (.json cause)

/-- The value of a key, or a failure. -/
def require (value : Json) (key : String) : CoverageRun Json :=
  match value.field? key with
  | some found => return found
  | none => throw (.missing key)

/-- Runs one benchmark for coverage; the error it met. -/
def coverBench (name : String) (bench : Bench) : BenchRun (Option BenchError) := do
  match ← attempt (bench.measure name []) with
  | .ok _ => return none
  | .error e =>
    note .traceback
    return some e

/-- Runs all benchmarks of a suite: how many there are, and the errors met. -/
def coverSuite (suite : Suite) : BenchRun (Nat × List (String × BenchError)) := do
  match suite.importError with
  | some e =>
    note .traceback
    return (0, [("<import>", e)])
  | none =>
    let outcomes ← suite.forEach coverBench
    return (outcomes.length, outcomes.filterMap fun (name, e) => e.map (name, ·))

/-- A report with its number of benchmarks and their errors. -/
def markReport (report : Json) (count : Nat) (errors : List (String × BenchError)) : Json :=
  match report with
  | .object fields =>
    let marks := match Dict.get? fields "meta" with
      | some (.object marks) => marks
      | _ => []
    let told := errors.map fun (name, e) => (name, Json.text e.described)
    let marks := Dict.put marks "_pti_bench_errors" (.object told)
    let marks := Dict.put marks "_pti_n_benches" (.int count)
    .object (Dict.put fields "meta" (.object marks))
  | other => other

/-- A number of a report as it is written. -/
def numberText : Json → String
  | .int n => toString n
  | .real x => Decimal.floatText x
  | other => other.render

/-- A number of a report with a fixed number of places. -/
def fixedNumber (places : Nat) : Json → String
  | .int n => Decimal.fixedText places ((Decimal.nearestInt? n).getD 0.0)
  | .real x => Decimal.fixedText places x
  | other => other.render

/-- Runs a suite under the coverage tool. `source` is the directory whose code is covered, `file`
where the report goes, `excluded` the JSON text of the files left out, and `report` what the tool
writes. -/
def coverageRun (suite : Suite) (source file excluded report : String) : CoverageRun Unit := do
  let excluded ← readJson excluded
  record (.tool source excluded)
  record .start
  let (count, errors) ← match (coverSuite suite).run {} with
    | .ok outcome s => do
      s.trace.toList.forM fun event => record (.bench event)
      pure outcome
    | .error _ _ => pure (0, [])
  record .stop
  record (.report file)
  modify fun s => { s with file := some report }
  let marked := markReport (← readJson report) count errors
  modify fun s => { s with file := some marked.render }
  let totals ← require marked "totals"
  let percent ← require totals "percent_covered"
  let covered ← require totals "covered_lines"
  let statements ← require totals "num_statements"
  record (.print (s!"coverage: {fixedNumber 1 percent}% ({numberText covered}/" ++
    s!"{numberText statements} stmts, {count} benches, {errors.length} errors)"))

end RobotConsole.Measure
