import RobotConsole.Json.Reader
import RobotConsole.Measure.Bench
import RobotConsole.Measure.Plateau
import RobotConsole.Measure.Verdict
import RobotConsole.Text.WordChar

/-!
# Measuring rounds

A round measures the coverage of a suite of benchmarks, their time shares and their self-checks,
each by a program of its own, reports on them, and adds a line to the checkpoint file. When enough
code is covered and the time shares no longer improve, the round says so.
-/

namespace RobotConsole.Measure

/-- How a program ended. -/
structure ProcessResult where
  status : Int := 0
  stdout : String := ""
  stderr : String := ""
  raised : Option BenchError := none

/-- What a round finds. -/
structure RoundWorld where
  report : Option String := none
  benches : Option String := none
  checkpoint : Option String := none
  readOnly : Bool := false
  coverage : ProcessResult := {}
  timeShares : Option ProcessResult := none
  selfCheck : Option ProcessResult := none
  changes : ProcessResult := {}
  started : Float := 0.0
  ended : Float := 1.5
  now : Float

/-- What can be seen of a round. -/
inductive RoundEvent where
  | run (command : List String) (directory : Option String) (timeout : Option Nat)
  | print (text : String)

/-- Why a round fails. -/
inductive RoundError where
  | process (cause : BenchError)
  | json (cause : Json.ReadError)

/-- The state of a round: what has been seen, what was written to the error stream, and the
checkpoint file. -/
structure RoundState where
  trace : Array RoundEvent := #[]
  stderr : String := ""
  checkpoint : Option String := none

/-- A computation of a round. -/
abbrev RoundRun := EStateM RoundError RoundState

namespace Round

/-- The directory of the repository. -/
def repository : String :=
  "/repo"

/-- The report of the coverage tool. -/
def reportFile : String :=
  "/repo/_pti_coverage.json"

/-- The wording of a failed round. -/
def errorMessage : RoundError → String
  | .process cause => cause.text
  | .json cause => cause.message

/-- Prints a text. -/
def print (text : String) : RoundRun Unit :=
  modify fun s => { s with trace := s.trace.push (.print text) }

/-- Writes to the error stream. -/
def complain (text : String) : RoundRun Unit :=
  modify fun s => { s with stderr := s.stderr ++ text }

/-- Runs a program. -/
def launch (command : List String) (directory : Option String) (timeout : Option Nat)
    (result : ProcessResult) : RoundRun ProcessResult := do
  modify fun s => { s with trace := s.trace.push (.run command directory timeout) }
  match result.raised with
  | some e => throw (.process e)
  | none => return result

/-- The files that coverage leaves out. -/
def uncovered : List String :=
  ["*/microbench.py", "*/_pti_*.py", "*/setup.py", "*/conftest.py", "*/test_*.py", "*/*_test.py",
    "*/tests/*", "*/test/*", "*/__tests__/*", "*/__fixtures__/*", "*/_version.py"]

/-- The command that measures coverage. -/
def coverageCommand : List String :=
  ["python3", "/repo/_pti_cov_runner.py", repository, "microbench", reportFile,
    (Json.array (uncovered.map .text)).render]

/-- The command that finds changed files. -/
def changesCommand : List String :=
  ["git", "-C", repository, "status", "--porcelain", "--", ".", ":!microbench.py", ":!_pti_*",
    ":!.pti_*", ":!.coverage"]

/-- The lines of a text. -/
def linesOf (text : String) : List String :=
  (Text.splitOnChar '\n' text.toList).map String.ofList

/-- The last line of an output that is not blank. -/
def lastLine? (output : String) : Option String :=
  (linesOf (Text.trim output)).getLast?.filter (· != "")

/-- The kind of a JSON value, as error texts name it. -/
def kindName : Json → String
  | .null => "NoneType"
  | .bool _ => "bool"
  | .int _ => "int"
  | .real _ => "float"
  | .text _ => "str"
  | .array _ => "list"
  | .object _ => "dict"

/-- The report of a program: the fields of the JSON object on the last line of its output. -/
def reportFields (output : String) : Except BenchError (List (String × Json)) :=
  match lastLine? output with
  | none => .ok []
  | some line =>
    match Json.read line with
    | .error cause => .error ⟨"JSONDecodeError", cause.message⟩
    | .ok (.object fields) => .ok fields
    | .ok other => .error ⟨"AttributeError", s!"'{kindName other}' object has no attribute 'get'"⟩

/-- A reported number. -/
def reportedNumber : Json → Except BenchError Float
  | .int n =>
    match Decimal.nearestInt? n with
    | some x => .ok x
    | none => .error ⟨"OverflowError", "int too large to convert to float"⟩
  | .real x => .ok x
  | .bool b => .ok (if b then 1.0 else 0.0)
  | .text s =>
    match Decimal.readFloat s with
    | .ok x => .ok x
    | .error cause => .error ⟨"ValueError", cause.message⟩
  | other => .error ⟨"TypeError",
      s!"float() argument must be a string or a real number, not '{kindName other}'"⟩

/-- The fields of an object, or none. -/
def objectFields : Option Json → List (String × Json)
  | some (.object fields) => fields
  | _ => []

/-- Runs one of the reporting programs, if it is there, and reads its report. Whatever goes wrong is
written to the error stream, and the report counts as empty. -/
def reportOf {α : Type} (label : String) (program : String) (timeout : Nat)
    (result : Option ProcessResult) (empty : α)
    (read : List (String × Json) → Except BenchError α) : RoundRun α := do
  match result with
  | none => return empty
  | some result =>
    let failed (e : BenchError) : RoundRun α := do
      complain s!"[{label} runner: {e.described}]\n"
      return empty
    let finish : RoundRun α := do
      let ended ← launch ["python3", program] (some repository) (some timeout) result
      complain ended.stderr
      match reportFields ended.stdout >>= read with
      | .ok found => return found
      | .error e => failed e
    tryCatch finish fun error =>
      match error with
      | .process e => failed e
      | other => throw other

/-- The time shares of benchmarks, and where else their time goes. -/
structure Shares where
  percents : List (String × Float) := []
  elsewhere : List (String × Json) := []

/-- Reads the report on time shares. -/
def readShares (fields : List (String × Json)) : Except BenchError Shares := do
  let percents ← (objectFields (Dict.get? fields "repo_time_pct")).mapM fun (name, value) => do
    return (name, ← reportedNumber value)
  return ⟨percents, objectFields (Dict.get? fields "hot_ext")⟩

/-- Reads the report on self-checks; what is no row is left out. -/
def readRows (fields : List (String × Json)) : Except BenchError (List (String × Row)) :=
  .ok ((objectFields (Dict.get? fields "semcheck")).filterMap fun (name, value) =>
    match value with
    | .object _ => some (name, Row.ofJson value)
    | _ => none)

/-- The changed files that a listing shows, each after two marks and a blank. -/
def changedFiles (result : ProcessResult) : List String :=
  ((linesOf result.stdout).filter fun line => Text.trim line != "").map fun line =>
    String.ofList (line.toList.drop 3)

/-- Finds the changed files; when that fails there are none. -/
def findChanges (result : ProcessResult) : RoundRun (List String) :=
  tryCatch (do return changedFiles (← launch changesCommand none (some 30) result)) fun error =>
    match error with
    | .process _ => return []
    | other => throw other

/-! ## The table of coverage -/

/-- A file of the coverage report. -/
structure FileCoverage where
  name : String
  statements : Int
  missing : Int
  percent : Float
  missingLines : List Json

/-- A path as seen from the repository. -/
def relativeName (file : String) : String :=
  let directory := Storage.Path.ofText repository
  let root := directory.names
  let names := (Storage.Path.resolve directory (Storage.Path.ofText file)).names
  let shared := ((root.zip names).takeWhile fun (a, b) => a == b).length
  let parts := List.replicate (root.length - shared) ".." ++ names.drop shared
  if parts.isEmpty then "." else String.intercalate "/" parts

/-- A whole number of a report, zero when there is none. -/
def wholeField (j : Json) (key : String) : Int :=
  match j.field? key with
  | some (.int n) => n
  | _ => 0

/-- Reads the coverage of a file. -/
def fileCoverage (file : String) (entry : Json) : FileCoverage :=
  let summary := (entry.field? "summary").getD .null
  { name := String.ofList ((relativeName file).toList.take 60)
    statements := wholeField summary "num_statements"
    missing := wholeField summary "missing_lines"
    percent := ((summary.field? "percent_covered").bind jsonReal?).getD 0.0
    missingLines := match entry.field? "missing_lines" with
      | some (.array lines) => lines
      | _ => [] }

/-- Whether a file comes before another: the one that is covered less, and of equals the one with
more statements. -/
def comesBefore (a b : FileCoverage) : Bool :=
  a.percent < b.percent || (a.percent == b.percent && a.statements ≥ b.statements)

/-- The numbers of a row of the table. -/
def tableNumbers (statements missing : Int) (percent : Float) : String :=
  s!"  {Text.padLeft 5 (toString statements)}  {Text.padLeft 4 (toString missing)}" ++
    s!"  {Text.padLeft 4 (Decimal.fixedText 0 percent)}%"

/-- The first missing lines. -/
def missingText (lines : List Json) : String :=
  String.intercalate "," ((lines.take 12).map Json.render) ++ if 12 < lines.length then "…" else ""

/-- A row of the table. -/
def tableRow (width : Nat) (f : FileCoverage) : String :=
  Text.padRight width f.name ++ tableNumbers f.statements f.missing f.percent ++ "  " ++
    missingText f.missingLines

/-- The totals of a coverage report. -/
structure Totals where
  percent : Json
  covered : Int
  statements : Int

/-- Reads the totals of a coverage report. -/
def readTotals (report : Json) : Totals :=
  let totals := (report.field? "totals").getD .null
  { percent := (totals.field? "percent_covered").getD (.real 0.0)
    covered := wholeField totals "covered_lines"
    statements := wholeField totals "num_statements" }

/-- The covered share in percent. -/
def Totals.share (t : Totals) : Float :=
  (jsonReal? t.percent).getD 0.0

/-- The table shows this many files. -/
def maxRows : Nat := 120

/-- The lines of the table. -/
def tableLines (report : Json) : List String :=
  let entries := objectFields (report.field? "files")
  let files := (entries.map fun (file, entry) => fileCoverage file entry).mergeSort comesBefore
  let width := (files.map (·.name.length)).foldl max 4
  let rule := String.ofList (List.replicate (width + 42) '-')
  let totals := readTotals report
  [Text.padRight width "Name" ++ "  Stmts  Miss  Cover  Missing", rule] ++
    (files.take maxRows).map (tableRow width) ++
    [rule, Text.padRight width "TOTAL" ++
      tableNumbers totals.statements (totals.statements - totals.covered) totals.share]

/-! ## The report of a round -/

/-- The errors of benchmarks that a coverage report was marked with. -/
def benchErrors (report : Json) : List (String × Json) :=
  objectFields ((report.field? "meta").bind (·.field? "_pti_bench_errors"))

/-- A text of a report as it is. -/
def plainText : Json → String
  | .text s => s
  | other => other.render

/-- Reports the errors of benchmarks, the first eight by name. -/
def printErrors (errors : List (String × Json)) : RoundRun Unit := do
  if !errors.isEmpty then
    print s!"\n{errors.length} bench error(s):"
    (errors.take 8).forM fun (name, text) => print s!"  {name}: {plainText text}"

/-- Time shares below this are too low. -/
def lowShare : Float := 45.0

/-- Whether a time share is too low; there is none after an error. -/
def isLow (percent : Float) : Bool :=
  0.0 ≤ percent && percent < lowShare

/-- Where else the time of a benchmark goes, in one text. -/
def elsewhereText (places : List Json) : String :=
  String.intercalate " " (places.map fun place =>
    match place with
    | .array [percent, label] =>
      s!"{plainText label} {Decimal.fixedText 0 ((jsonReal? percent).getD 0.0)}%"
    | other => other.render)

/-- A line on a time share. -/
def shareLine (shares : Shares) (name : String) (percent : Float) : String :=
  let mark := if isLow percent then "*" else " "
  let shown := Decimal.fixedText 1 (if percent < 0.0 then 0.0 else percent)
  let tail :=
    if percent < 0.0 then "  <error>"
    else
      match isLow percent, Dict.get? shares.elsewhere name with
      | true, some (.array (place :: places)) => s!" (hot: {elsewhereText (place :: places)})"
      | _, _ => ""
  s!"  {mark} {Text.padRight 32 name} {Text.padLeft 5 shown}%" ++ tail

/-- The time shares that were measured. -/
def Shares.measured (shares : Shares) : List Float :=
  (shares.percents.map (·.2)).filter (0.0 ≤ ·)

/-- How many time shares are too low; nothing when none was measured. -/
def Shares.lowCount? (shares : Shares) : Option Nat :=
  if shares.measured.isEmpty then none else some (shares.measured.countP isLow)

/-- Reports the time shares, the lowest first. -/
def printShares (shares : Shares) : RoundRun Unit := do
  if !shares.percents.isEmpty then
    print "\nrepo_time (target 50%; * = below 45%):"
    let sorted := shares.percents.mergeSort fun a b => decide (a.2 ≤ b.2)
    sorted.forM fun (name, percent) => print (shareLine shares name percent)

/-- Reports changed files, the first ten by name. -/
def printChanges (files : List String) : RoundRun Unit := do
  if !files.isEmpty then
    print (s!"\n** repo modified ({files.length} file(s)) — revert these; " ++
      "only microbench.py is yours to edit:")
    (files.take 10).forM fun file => print s!"   {file}"

/-- Reports the changed files and the verdicts, those that need work first. -/
def printVerdicts (changes : List String) (rows : List (String × Row × Verdict)) :
    RoundRun Unit := do
  if !rows.isEmpty then
    printChanges changes
    print "\nself-check (* = fix needed):"
    verdictHints.forM print
    let (good, bad) := rows.partition fun (_, _, v) => v.isOk
    (bad ++ good).forM fun (name, row, v) => print (row.line name v)

/-- Whether a line of code starts the definition of a benchmark. -/
def definesBench (line : String) : Bool :=
  if !"def ".toList.isPrefixOf line.toList then false
  else
    let rest := (line.toList.drop 4).dropWhile Text.isBlank
    if !"bench_".toList.isPrefixOf rest then false
    else
      let name := (rest.drop 6).takeWhile Text.isWordChar
      let after := ((rest.drop 6).dropWhile Text.isWordChar).dropWhile Text.isBlank
      !name.isEmpty && after.head? == some '('

/-- How many benchmarks a file of code defines. -/
def countBenches (code : Option String) : Nat :=
  (linesOf (code.getD "")).countP definesBench

/-! ## The checkpoint file -/

/-- What earlier rounds have left: how many there were, the time of the last one, how many time
shares were too low in each, and whether all their lines could be read. -/
structure History where
  rounds : Nat := 0
  lastTime : Option Float := none
  low : List Int := []
  readable : Bool := true

/-- The fields of a line of the checkpoint file. -/
def checkpointFields? (line : String) : Option (List (String × Json)) :=
  match Json.read line with
  | .ok (.object fields) => some fields
  | _ => none

/-- Whether a JSON value is a number. Truth values are numbers as well. -/
def isNumber : Json → Bool
  | .int _ | .real _ | .bool _ => true
  | _ => false

/-- The whole number that a JSON value is. -/
def count? : Json → Option Int
  | .int n => some n
  | .bool b => some (if b then 1 else 0)
  | _ => none

/-- Takes one more line of the checkpoint file into account. Nothing is taken from the first line
that cannot be read, or whose coverage is no number, and from the lines after it. -/
def History.add (h : History) (line : String) : History :=
  if !h.readable then h
  else
    match checkpointFields? line with
    | none => { h with readable := false }
    | some fields =>
      if (Dict.get? fields "coverage_pct").all isNumber then
        { h with low := h.low ++ ((Dict.get? fields "n_below_repo_time").bind count?).toList }
      else { h with readable := false }

/-- Reads the checkpoint file, its last line first. -/
def readHistory (checkpoint : Option String) : History :=
  let lines := (linesOf (checkpoint.getD "")).filter fun line => Text.trim line != ""
  match lines.getLast? with
  | none => {}
  | some last =>
    match checkpointFields? last with
    | none => { rounds := lines.length, readable := false }
    | some fields =>
      let lastTime := (Dict.get? fields "ts").bind jsonReal?
      lines.foldl History.add { rounds := lines.length, lastTime }

/-- The line that a round adds to the checkpoint file. -/
def checkpointLine (w : RoundWorld) (history : History) (totals : Totals) (benches errors : Nat)
    (shares : Shares) (verdicts : List (String × Verdict)) : Json :=
  let wall := match history.lastTime with
    | some last => Decimal.roundToPlaces 2 (w.now - last)
    | none => 0.0
  .object [("round", .int (history.rounds + 1)), ("ts", .real w.now),
    ("wall_since_prev_s", .real wall), ("coverage_pct", totals.percent),
    ("covered_lines", .int totals.covered), ("num_statements", .int totals.statements),
    ("n_bench_fns", .int benches), ("n_bench_errors", .int errors),
    ("cov_measure_s", .real (Decimal.roundToPlaces 3 (w.ended - w.started))),
    ("repo_time_pct", .object (shares.percents.map fun (name, x) => (name, .real x))),
    ("n_below_repo_time", match shares.lowCount? with
      | some n => .int n
      | none => .null),
    ("semcheck", .object (verdicts.map fun (name, v) => (name, .text v.name))),
    ("n_not_self_checking", .int (verdicts.countP fun (_, v) => !v.isOk))]

/-- Adds a line to the checkpoint file, unless that cannot be done. -/
def writeCheckpoint (w : RoundWorld) (history : History) (line : Json) : RoundRun Unit := do
  if history.readable && !w.readOnly then
    modify fun s => { s with checkpoint := some (s.checkpoint.getD "" ++ line.render ++ "\n") }

/-- The coverage that is enough. -/
def enoughCoverage : Float := 60.0

/-- Says when there is nothing more to gain. -/
def printStop (history : History) (totals : Totals) (shares : Shares) : RoundRun Unit := do
  match shares.lowCount? with
  | none => return
  | some low =>
    if enoughCoverage ≤ totals.share then
      if low == 0 then
        print "\n>>> STOP: repo_time converged (0 below). Finalize microbench.py now. <<<"
      else
        match plateau? (history.low ++ [(low : Int)]) with
        | none => return
        | some p => if p.isReached then print p.stopText

/-- The line that sums a round up. -/
def summary (w : RoundWorld) (history : History) (totals : Totals) (benches : Nat)
    (shares : Shares) (verdicts : List (String × Verdict)) : String :=
  let failing := verdicts.countP fun (_, v) => !v.isOk
  let parts := [s!"{benches} benches", s!"{Decimal.fixedText 1 totals.share}% covered"] ++
    (if shares.percents.isEmpty then []
      else [s!"{shares.lowCount?.getD 0}/{shares.measured.length} below repo_time 45%"]) ++
    (if verdicts.isEmpty then []
      else [s!"{failing}/{verdicts.length} not self-checking"]) ++
    [s!"measured in {Decimal.fixedText 1 (w.ended - w.started)}s"]
  s!"\n[round {history.rounds + 1}: " ++ String.intercalate ", " parts ++ "]"

/-- Reads the report of the coverage tool. -/
def readReport (text : String) : RoundRun Json :=
  match Json.read text with
  | .ok report => return report
  | .error cause => throw (.json cause)

/-- Goes through a round after others; the exit status if it ends early. -/
def runAfter (history : History) (w : RoundWorld) : RoundRun (Option Int) := do
  let coverage ← launch coverageCommand (some repository) none w.coverage
  complain coverage.stderr
  match w.report.filter fun _ => coverage.status == 0 with
  | none =>
    print s!"coverage measurement failed (exit {coverage.status})\n{coverage.stdout}"
    return some (if coverage.status == 0 then 1 else coverage.status)
  | some text =>
    let report ← readReport text
    let shares ← reportOf "repotime" "/repo/_pti_repotime.py" 120 w.timeShares {} readShares
    let changes ← if w.selfCheck.isSome then findChanges w.changes else pure []
    let rows ← reportOf "semcheck" "/repo/_pti_semcheck.py" 300 w.selfCheck [] readRows
    let verdicts := rows.map fun (name, row) => (name, row, row.verdictIn !changes.isEmpty)
    let named := verdicts.map fun (name, _, v) => (name, v)
    let errors := benchErrors report
    let totals := readTotals report
    let benches := countBenches w.benches
    writeCheckpoint w history
      (checkpointLine w history totals benches errors.length shares named)
    (tableLines report).forM print
    printErrors errors
    printShares shares
    printVerdicts changes verdicts
    print (summary w history totals benches shares named)
    printStop history totals shares
    return none

/-- Runs a round. -/
def run (w : RoundWorld) : RoundRun (Option Int) :=
  runAfter (readHistory w.checkpoint) w

end Round

end RobotConsole.Measure
