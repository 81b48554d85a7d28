import RobotConsole.Decimal.Fixed
import RobotConsole.Json.Value
import RobotConsole.Text.Search

/-!
# Verdicts

What a self-check's finding of a benchmark says about it: whether the benchmark can be trusted, and
if not, what is to be mended first.
-/

namespace RobotConsole.Measure

/-- A verdict on a benchmark. -/
inductive Verdict where
  | ok
  | okUnparameterised
  | error
  | returnsNone
  | unstable
  | returnsInput
  | lowRepoTime
  | tooFast
  | paramInvariant
  | repoModified
  deriving Repr, DecidableEq

namespace Verdict

/-- The name of a verdict. -/
def name : Verdict → String
  | .ok => "ok"
  | .okUnparameterised => "ok-unparam"
  | .error => "error"
  | .returnsNone => "returns-none"
  | .unstable => "unstable"
  | .returnsInput => "returns-input"
  | .lowRepoTime => "low-repo-time"
  | .tooFast => "too-fast"
  | .paramInvariant => "param-invariant"
  | .repoModified => "repo-modified"

/-- Whether a benchmark can be trusted. -/
def isOk (v : Verdict) : Bool :=
  v = .ok || v = .okUnparameterised

end Verdict

/-- The number that a JSON value is. -/
def jsonReal? : Json → Option Float
  | .int n => Decimal.nearestInt? n
  | .real x => some x
  | _ => none

/-- A reported row on a benchmark, as far as verdicts need it. -/
structure Row where
  type : Option String
  prints : List String
  printsByTag : List String
  times : List Float
  shares : List Float
  parameterPrints : List String

namespace Row

/-- Reads a row. -/
def ofJson (j : Json) : Row :=
  let texts (value : Option Json) : List String := match value with
    | some (.array items) => items.filterMap fun item => match item with
      | .text s => some s
      | _ => none
    | _ => []
  let values (key : String) : List Json := match j.field? key with
    | some (.object fields) => fields.map (·.2)
    | _ => []
  { type := match j.field? "ret_type" with
      | some (.text s) => if s == "" then none else some s
      | _ => none
    prints := texts (j.field? "fp_stable")
    printsByTag := (values "fp_by_param").map Json.render
    times := (values "repo_tt_ms").filterMap jsonReal?
    shares := (values "repo_frac").filterMap jsonReal?
    parameterPrints := texts (j.field? "param_fps") }

/-- The smallest share of time in the measured code. -/
def leastShare? (r : Row) : Option Float :=
  match r.shares with
  | [] => none
  | first :: rest => some (rest.foldl (fun a b => if b < a then b else a) first)

/-- The middle of the times, or the mean of the two in the middle. -/
def medianTime? (r : Row) : Option Float :=
  let times := r.times.mergeSort fun a b => decide (a ≤ b)
  let half := times.length / 2
  if times.isEmpty then none
  else if times.length % 2 == 1 then times[half]?
  else
    match times[half - 1]?, times[half]? with
    | some a, some b => some ((a + b) / 2.0)
    | _, _ => none

/-- What is known of the type that a benchmark returns. -/
def typeText (r : Row) : String :=
  r.type.getD "?"

/-- Whether all of some texts are equal. -/
def allEqual : List String → Bool
  | [] => true
  | first :: rest => rest.all (· == first)

/-- The verdict on a row. -/
def verdict (r : Row) : Verdict :=
  if r.typeText == "?" || r.typeText.toList.head? == some '<' then .error
  else if r.typeText == "NoneType" then .returnsNone
  else if r.prints.isEmpty || !allEqual r.prints then .unstable
  else if r.prints.any r.parameterPrints.contains then .returnsInput
  else if r.leastShare?.any (fun x => x < 0.5) then .lowRepoTime
  else if r.medianTime?.any (fun x => x < 1.0) then .tooFast
  else if 2 ≤ r.printsByTag.length && allEqual r.printsByTag then .paramInvariant
  else if r.printsByTag.length < 2 then .okUnparameterised
  else .ok

/-- The verdict in a repository: where files have been changed, nothing else counts. -/
def verdictIn (r : Row) (modified : Bool) : Verdict :=
  if modified then .repoModified else r.verdict

/-- A line on a benchmark. -/
def line (r : Row) (name : String) (v : Verdict) : String :=
  let mark := if v.isOk then " " else "*"
  let share := Decimal.fixedText 0 (r.leastShare?.getD 0.0 * 100.0)
  let time := Decimal.fixedText 1 (r.medianTime?.getD 0.0)
  s!"  {mark} {Text.padRight 32 name} {Text.padRight 16 v.name} " ++
    s!"({r.typeText}, repo {share}%) {time}ms"

end Row

/-- What to do about verdicts. -/
def verdictHints : List String :=
  ["  returns-none: run() has no return — collect and return the call results",
    "  unstable: seed RNG in setup; avoid time/uuid/id in the return",
    "  returns-input: return repo output, not the parameter value",
    "  low-repo-time: <50% of run() time is in repo code — move glue to setup",
    "  param-invariant: return something derived from run()'s work, not setup",
    "  repo-modified: revert edits to repo files (git checkout -- <path>)"]

end RobotConsole.Measure
