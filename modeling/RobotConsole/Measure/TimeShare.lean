import RobotConsole.Measure.SelfCheck

/-!
# Time shares

The share of its time that a benchmark spends in the code to be measured, in percent, and the two
places outside that code where it spends most. Each benchmark runs once with its defaults.
-/

namespace RobotConsole.Measure

/-- The share of one benchmark, and where else its time goes. -/
structure TimeShare where
  percent : Float
  elsewhere : List (Float × String)

/-- A share in percent, with one place. -/
def percentOf (p : Profile) (seconds : Float) : Float :=
  Decimal.roundToPlaces 1 (100.0 * p.share seconds)

/-- A file name without its last ending. -/
def stem (name : String) : String :=
  let reversed := name.toList.reverse
  match reversed.dropWhile (· != '.') with
  | '.' :: (c :: rest) =>
    if (reversed.takeWhile (· != '.')).isEmpty then name else String.ofList (c :: rest).reverse
  | _ => name

/-- What a place outside the measured code is called; some places are left out. -/
def placeLabel? (file : String) : Option String :=
  if file == "~" then some "builtins"
  else if file.toList.head? == some '<' then none
  else
    let label := stem (Storage.Path.ofText file).name
    if label == "microbench" then none else some label

/-- Adds up the seconds under each label, in order of first appearance. -/
def secondsByLabel (entries : List (String × Float)) : Dict Float :=
  entries.foldl (fun d (label, seconds) =>
    Dict.put d label ((Dict.get? d label).getD 0.0 + seconds)) []

/-- How many places outside the measured code are told. -/
def placesTold : Nat := 2

/-- The shares of a profile. -/
def Profile.timeShare (root : List String) (p : Profile) : TimeShare :=
  let outside := p.frames.filterMap fun (file, seconds) =>
    if isOwnCode root file then none else (placeLabel? file).map (·, seconds)
  let places := (secondsByLabel outside).mergeSort fun a b => a.2 ≥ b.2
  { percent := percentOf p (p.spentIn (isOwnCode root))
    elsewhere := (places.take placesTold).map fun (label, seconds) => (percentOf p seconds, label) }

/-- The shares of a benchmark; an error is told in their place. -/
def benchShare (root : List String) (name : String) (bench : Bench) : BenchRun TimeShare := do
  match ← attempt (bench.measure name []) with
  | .ok _ => return (← get).profile.timeShare root
  | .error e =>
    note .traceback
    return ⟨-1.0, [(0.0, s!"<{e.kind}>")]⟩

/-- Finds the shares of all benchmarks of a suite: the report, and the exit status if the program
ends early. -/
def timeShares (root : List String) (suite : Suite) : BenchRun (Json × Option Int) := do
  match suite.importError with
  | some e => return (importReport e, some 0)
  | none =>
    let shares ← suite.forEach (benchShare root)
    let percents := shares.map fun (name, share) => (name, Json.real share.percent)
    let places := shares.map fun (name, share) =>
      (name, Json.array (share.elsewhere.map fun (percent, label) =>
        .array [.real percent, .text label]))
    return (.object [("repo_time_pct", .object percents), ("hot_ext", .object places)], none)

end RobotConsole.Measure
