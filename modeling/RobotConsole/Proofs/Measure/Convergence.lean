import RobotConsole.Measure.Round
import RobotConsole.Proofs.Effects
import RobotConsole.Proofs.Measure.Records

/-!
# When a series of rounds stops for want of improvement

A round that has measured enough code and some time shares that are too low says to stop when the
last rounds have brought nothing new. The plateau decides that, and a round says so exactly if none
of the last three rounds has set a record (`plateau_stop_iff_no_recent_record`).

A round prints much else before that. `ComesTo` says that a computation goes on as another one after
having said nothing of the kind, and a whole round comes to its last step in this way
(`comesTo_printStop`). That what a round prints before is another text each time is seen from its
first character, from its last one or from a percent sign (`Ordinary`).
-/

namespace RobotConsole.Measure.Round

variable {α β : Type}
variable {text : String} {c : Char} {report : Json}

/-! ## The text that ends a series -/

/-- The event that ends a series for want of improvement. -/
def IsPlateauStop (e : RoundEvent) : Prop :=
  ∃ p : Plateau, e = .print p.stopText

/-- A text that does not end a series for want of improvement. -/
def Ordinary (text : String) : Prop :=
  ∀ p : Plateau, text ≠ p.stopText

theorem Ordinary.not_isPlateauStop (h : Ordinary text) :
    ¬ IsPlateauStop (.print text) := by
  rintro ⟨p, heq⟩
  exact h p (RoundEvent.print.inj heq)

theorem head?_append {s : String} (h : s.toList.head? = some c) (t : String) :
    (s ++ t).toList.head? = some c := by
  rw [String.toList_append, List.head?_append, h]
  rfl

theorem getLast?_append (s : String) {t : String} (h : t.toList.getLast? = some c) :
    (s ++ t).toList.getLast? = some c := by
  rw [String.toList_append, List.getLast?_append, h]
  rfl

theorem head?_stopText (p : Plateau) : p.stopText.toList.head? = some '\n' := by
  unfold Plateau.stopText
  iterate 3 apply head?_append
  rfl

theorem getLast?_stopText (p : Plateau) : p.stopText.toList.getLast? = some '<' :=
  getLast?_append _ (getLast?_append _ rfl)

theorem percent_notMem_natText (n : Nat) : '%' ∉ (toString n).toList := fun hmem => by
  have hdigit : '%'.isDigit = true :=
    Nat.isDigit_of_mem_toDigits (by decide) (by decide) (Nat.toList_repr ▸ hmem)
  cases hdigit

theorem percent_notMem_intText (n : Int) : '%' ∉ (toString n).toList := by
  cases n with
  | ofNat n => exact percent_notMem_natText n
  | negSucc n =>
    show '%' ∉ ("-" ++ toString (n + 1)).toList
    rw [String.toList_append, List.mem_append, not_or]
    exact ⟨by decide, percent_notMem_natText (n + 1)⟩

theorem percent_notMem_stopText (p : Plateau) : '%' ∉ p.stopText.toList := by
  unfold Plateau.stopText
  simp only [String.toList_append, List.mem_append, not_or]
  refine ⟨⟨⟨?_, percent_notMem_natText p.since⟩, ?_⟩, ⟨?_, percent_notMem_intText p.best⟩, ?_⟩ <;>
    decide

theorem ordinary_of_head? (h : text.toList.head? = some c)
    (hc : c ≠ '\n') : Ordinary text := by
  rintro p rfl
  rw [head?_stopText] at h
  exact hc (Option.some.inj h).symm

theorem ordinary_of_blank (h : text.toList.head? = some ' ') : Ordinary text :=
  ordinary_of_head? h (by decide)

theorem ordinary_of_getLast? (h : text.toList.getLast? = some c)
    (hc : c ≠ '<') : Ordinary text := by
  rintro p rfl
  rw [getLast?_stopText] at h
  exact hc (Option.some.inj h).symm

theorem ordinary_of_percent (h : '%' ∈ text.toList) : Ordinary text := by
  rintro p rfl
  exact percent_notMem_stopText p h

/-! ## Coming to the last step -/

/-- Nothing has been seen meanwhile that ends a series for want of improvement. -/
def Continues (s t : RoundState) : Prop :=
  ∃ events : List RoundEvent, t.trace.toList = s.trace.toList ++ events ∧
    ∀ e ∈ events, ¬ IsPlateauStop e

namespace Continues

variable {s t u : RoundState}

theorem of_same (h : t.trace = s.trace) : Continues s t :=
  ⟨[], by rw [h, List.append_nil], by simp⟩

theorem push {e : RoundEvent} (h : t.trace = s.trace.push e) (he : ¬ IsPlateauStop e) :
    Continues s t :=
  ⟨[e], by rw [h, Array.toList_push], by simpa using he⟩

theorem trans (hst : Continues s t) (htu : Continues t u) : Continues s u := by
  obtain ⟨events, hevents, hnone⟩ := hst
  obtain ⟨events', hevents', hnone'⟩ := htu
  refine ⟨events ++ events', by rw [hevents', hevents, List.append_assoc], fun e he => ?_⟩
  rcases List.mem_append.mp he with he | he
  · exact hnone e he
  · exact hnone' e he

end Continues

/-- From every state, a computation goes on as another one, and has ended no series for want of
improvement until then. -/
def ComesTo (x y : RoundRun α) : Prop :=
  ∀ s, ∃ t, Continues s t ∧ x.run s = y.run t

namespace ComesTo

theorem refl (x : RoundRun α) : ComesTo x x :=
  fun s => ⟨s, .of_same rfl, rfl⟩

theorem bind {x : RoundRun α} {a : α} {f : α → RoundRun β} {y : RoundRun β}
    (hx : ComesTo x (pure a)) (hf : ComesTo (f a) y) : ComesTo (x >>= f) y := by
  intro s
  obtain ⟨t, hst, hrun⟩ := hx s
  obtain ⟨u, htu, hrun'⟩ := hf t
  refine ⟨u, hst.trans htu, ?_⟩
  rw [EStateM.run_bind, hrun, ← hrun']
  rfl

theorem forM {f : α → RoundRun PUnit} {xs : List α} (h : ∀ a ∈ xs, ComesTo (f a) (pure ⟨⟩)) :
    ComesTo (xs.forM f) (pure ⟨⟩) := by
  induction xs with
  | nil => exact refl _
  | cons a xs ih =>
    have hrest : ComesTo (xs.forM f) (pure ⟨⟩) := ih fun b hb => h b (List.mem_cons_of_mem a hb)
    exact (h a List.mem_cons_self).bind hrest

theorem when {p : Prop} [Decidable p] {x : RoundRun PUnit} (h : ComesTo x (pure ⟨⟩)) :
    ComesTo (if p then x else pure ⟨⟩) (pure ⟨⟩) := by
  split
  · exact h
  · exact refl _

theorem either {p : Prop} [Decidable p] {x x' : RoundRun α} {a a' : α} {f : α → RoundRun β}
    {y : RoundRun β} (hx : ComesTo x (pure a)) (hx' : ComesTo x' (pure a'))
    (hf : ∀ a, ComesTo (f a) y) : ComesTo (if p then x >>= f else x' >>= f) y := by
  split
  · exact hx.bind (hf a)
  · exact hx'.bind (hf a')

theorem bind_throw {x : RoundRun α} {e : RoundError} {f : α → RoundRun β}
    (hx : ComesTo x (throw e)) : ComesTo (x >>= f) (throw e) := by
  intro s
  obtain ⟨t, hst, hrun⟩ := hx s
  refine ⟨t, hst, ?_⟩
  rw [EStateM.run_bind, hrun]
  rfl

theorem tryCatch_pure {x : RoundRun α} {a : α} {handle : RoundError → RoundRun α}
    (hx : ComesTo x (pure a)) : ComesTo (tryCatch x handle) (pure a) := by
  intro s
  obtain ⟨t, hst, hrun⟩ := hx s
  refine ⟨t, hst, ?_⟩
  rw [run_tryCatch, hrun]
  rfl

theorem tryCatch_throw {x y : RoundRun α} {e : RoundError} {handle : RoundError → RoundRun α}
    (hx : ComesTo x (throw e)) (hhandle : ComesTo (handle e) y) :
    ComesTo (tryCatch x handle) y := by
  intro s
  obtain ⟨t, hst, hrun⟩ := hx s
  obtain ⟨u, htu, hrun'⟩ := hhandle t
  refine ⟨u, hst.trans htu, ?_⟩
  rw [run_tryCatch, hrun, ← hrun']
  rfl

end ComesTo

theorem comesTo_print (h : Ordinary text) : ComesTo (print text) (pure ⟨⟩) :=
  fun s => ⟨{ s with trace := s.trace.push (.print text) }, .push rfl h.not_isPlateauStop, rfl⟩

theorem comesTo_complain (text : String) : ComesTo (complain text) (pure ⟨⟩) :=
  fun s => ⟨{ s with stderr := s.stderr ++ text }, .of_same rfl, rfl⟩

section Launching

variable {command : List String} {directory : Option String} {timeout : Option Nat}
  {result : ProcessResult}

theorem continues_launched (command : List String) (directory : Option String)
    (timeout : Option Nat) (s : RoundState) :
    Continues s { s with trace := s.trace.push (.run command directory timeout) } := by
  refine .push rfl ?_
  rintro ⟨_, h⟩
  cases h

theorem comesTo_launch (h : result.raised = none) :
    ComesTo (launch command directory timeout result) (pure result) := by
  intro s
  refine ⟨_, continues_launched command directory timeout s, ?_⟩
  unfold launch
  rw [h]
  rfl

theorem comesTo_launch_raised {e : BenchError} (h : result.raised = some e) :
    ComesTo (launch command directory timeout result) (throw (.process e)) := by
  intro s
  refine ⟨_, continues_launched command directory timeout s, ?_⟩
  unfold launch
  rw [h]
  rfl

end Launching

/-- What is reported: nothing if there is no report, or none that can be read. -/
def reported (result : Option ProcessResult) (empty : α)
    (read : List (String × Json) → Except BenchError α) : α :=
  match result with
  | none => empty
  | some result =>
    match result.raised with
    | some _ => empty
    | none =>
      match reportFields result.stdout >>= read with
      | .ok found => found
      | .error _ => empty

theorem comesTo_reportOf (label program : String) (timeout : Nat) (result : Option ProcessResult)
    (empty : α) (read : List (String × Json) → Except BenchError α) :
    ComesTo (reportOf label program timeout result empty read)
      (pure (reported result empty read)) := by
  unfold reportOf reported
  cases result with
  | none => exact .refl _
  | some result =>
    -- whatever goes wrong is complained about, and the report counts as empty
    have hfailed (e : BenchError) : ComesTo (do
        complain s!"[{label} runner: {e.described}]\n"
        return empty) (pure empty) := (comesTo_complain _).bind (.refl _)
    dsimp only
    cases hraised : result.raised with
    | some e => exact .tryCatch_throw (comesTo_launch_raised hraised).bind_throw (hfailed e)
    | none =>
      refine .tryCatch_pure ((comesTo_launch hraised).bind ((comesTo_complain _).bind ?_))
      cases reportFields result.stdout >>= read with
      | ok found => exact .refl _
      | error e => exact hfailed e

theorem comesTo_findChanges (result : ProcessResult) :
    ∃ files, ComesTo (findChanges result) (pure files) := by
  unfold findChanges
  cases hraised : result.raised with
  | some e => exact ⟨[], .tryCatch_throw (comesTo_launch_raised hraised).bind_throw (.refl _)⟩
  | none =>
    exact ⟨changedFiles result, .tryCatch_pure ((comesTo_launch hraised).bind (.refl _))⟩

theorem comesTo_writeCheckpoint (w : RoundWorld) (history : History) (line : Json) :
    ComesTo (writeCheckpoint w history line) (pure ⟨⟩) :=
  .when fun s =>
    ⟨{ s with checkpoint := some (s.checkpoint.getD "" ++ line.render ++ "\n") }, .of_same rfl, rfl⟩

/-! ## What a round prints -/

theorem percent_mem_tableNumbers (statements missing : Int) (percent : Float) :
    '%' ∈ (tableNumbers statements missing percent).toList := by
  unfold tableNumbers
  simp only [String.toList_append, List.mem_append]
  exact .inr (.inr (by decide))

theorem ordinary_rule (length : Nat) :
    Ordinary (String.ofList (List.replicate (length + 1) '-')) :=
  ordinary_of_head? (by rw [String.toList_ofList]; rfl) (by decide)

theorem ordinary_tableLines {line : String} (h : line ∈ tableLines report) :
    Ordinary line := by
  unfold tableLines at h
  simp only [List.mem_append, List.mem_cons, List.not_mem_nil, or_false] at h
  rcases h with ((rfl | rfl) | hrow) | rfl | rfl
  · exact ordinary_of_getLast? (getLast?_append _ (show _ = some 'g' by rfl)) (by decide)
  · exact ordinary_rule _
  · obtain ⟨file, _, rfl⟩ := List.mem_map.mp hrow
    refine ordinary_of_percent ?_
    unfold tableRow
    simp only [String.toList_append, List.mem_append]
    exact .inl (.inl (.inr (percent_mem_tableNumbers ..)))
  · exact ordinary_rule _
  · refine ordinary_of_percent ?_
    rw [String.toList_append]
    exact List.mem_append_right _ (percent_mem_tableNumbers ..)

theorem ordinary_shareLine (shares : Shares) (name : String) (percent : Float) :
    Ordinary (shareLine shares name percent) := by
  refine ordinary_of_blank ?_
  unfold shareLine
  iterate 7 apply head?_append
  rfl

theorem ordinary_line (row : Row) (name : String) (v : Verdict) : Ordinary (row.line name v) := by
  refine ordinary_of_blank ?_
  unfold Row.line
  iterate 7 apply head?_append
  rfl

theorem ordinary_verdictHints {hint : String} (h : hint ∈ verdictHints) : Ordinary hint := by
  have hall : (verdictHints.all fun hint => hint.toList.head? == some ' ') = true := by
    decide +kernel
  have hhead := List.all_eq_true.mp hall hint h
  exact ordinary_of_blank (beq_iff_eq.mp hhead)

theorem comesTo_printErrors (errors : List (String × Json)) :
    ComesTo (printErrors errors) (pure ⟨⟩) := by
  refine .when ((comesTo_print ?_).bind (.forM fun entry _ => comesTo_print ?_))
  · exact ordinary_of_getLast? (getLast?_append _ (show _ = some ':' by rfl)) (by decide)
  · refine ordinary_of_blank ?_
    iterate 3 apply head?_append
    rfl

theorem comesTo_printShares (shares : Shares) : ComesTo (printShares shares) (pure ⟨⟩) := by
  refine .when ((comesTo_print ?_).bind (.forM fun entry _ => comesTo_print ?_))
  · exact ordinary_of_getLast? (show _ = some ':' by rfl) (by decide)
  · exact ordinary_shareLine shares _ _

theorem comesTo_printChanges (files : List String) : ComesTo (printChanges files) (pure ⟨⟩) := by
  refine .when ((comesTo_print ?_).bind (.forM fun file _ => comesTo_print ?_))
  · exact ordinary_of_getLast? (getLast?_append _ (show _ = some ':' by rfl)) (by decide)
  · exact ordinary_of_blank (head?_append rfl _)

theorem comesTo_printVerdicts (changes : List String) (rows : List (String × Row × Verdict)) :
    ComesTo (printVerdicts changes rows) (pure ⟨⟩) := by
  refine .when ((comesTo_printChanges changes).bind ((comesTo_print ?_).bind
    ((ComesTo.forM fun hint h => comesTo_print ?_).bind (.forM fun entry _ => comesTo_print ?_))))
  · exact ordinary_of_getLast? (show _ = some ':' by rfl) (by decide)
  · exact ordinary_verdictHints h
  · exact ordinary_line _ _ _

theorem ordinary_summary (w : RoundWorld) (history : History) (totals : Totals) (benches : Nat)
    (shares : Shares) (verdicts : List (String × Verdict)) :
    Ordinary (summary w history totals benches shares verdicts) :=
  ordinary_of_getLast? (getLast?_append _ (show _ = some ']' by rfl)) (by decide)

/-! ## The last step of a round -/

/-- A round for which coverage could be measured, with its report. -/
structure Covered (w : RoundWorld) (report : Json) : Prop where
  launched : w.coverage.raised = none
  succeeded : w.coverage.status = 0
  reads : ∃ text, w.report = some text ∧ Json.read text = .ok report

/-- The time shares that a round finds. -/
def sharesOf (w : RoundWorld) : Shares :=
  reported w.timeShares {} readShares

theorem comesTo_readReport (h : Json.read text = .ok report) :
    ComesTo (readReport text) (pure report) := by
  unfold readReport
  rw [h]
  exact .refl _

/-- A round that has measured coverage comes to its last step, whatever else goes wrong in it. -/
theorem comesTo_printStop {w : RoundWorld} (h : Covered w report) (history : History) :
    ComesTo (runAfter history w) (do
      printStop history (readTotals report) (sharesOf w)
      return none) := by
  obtain ⟨text, htext, hread⟩ := h.reads
  have hfound : (w.report.filter fun _ => w.coverage.status == 0) = some text := by
    rw [htext, h.succeeded]
    rfl
  refine (comesTo_launch h.launched).bind ((comesTo_complain _).bind ?_)
  rw [hfound]
  refine (comesTo_readReport hread).bind ((comesTo_reportOf _ _ _ _ _ _).bind ?_)
  -- programs that fail from here on are none of the round's own failures
  obtain ⟨changes, hchanges⟩ := comesTo_findChanges w.changes
  refine .either hchanges (.refl (pure [])) fun changes => ?_
  refine (comesTo_reportOf _ _ _ _ _ _).bind ((comesTo_writeCheckpoint _ _ _).bind ?_)
  refine (ComesTo.forM fun line hline => comesTo_print (ordinary_tableLines hline)).bind ?_
  refine (comesTo_printErrors _).bind ((comesTo_printShares _).bind ?_)
  refine (comesTo_printVerdicts _ _).bind ?_
  exact (comesTo_print (ordinary_summary _ _ _ _ _ _)).bind (.refl _)

/-- The events that end a series of rounds for want of improvement: one, which names the least value
and the number of rounds after the first one that had it, if none of the last three rounds has set a
record, and none otherwise. -/
def EndsOnPlateau (series : List Int) (events : List RoundEvent) : Prop :=
  ∃ p : Plateau, p.Measures series ∧
    (NoRecordInLast 3 series → events = [.print p.stopText]) ∧
    (¬ NoRecordInLast 3 series → events = [])

theorem EndsOnPlateau.stops_iff {series : List Int} {events : List RoundEvent}
    (h : EndsOnPlateau series events) :
    (∃ e ∈ events, IsPlateauStop e) ↔ NoRecordInLast 3 series := by
  obtain ⟨p, -, hyes, hno⟩ := h
  constructor
  · rintro ⟨e, he, -⟩
    by_cases hnone : NoRecordInLast 3 series
    · exact hnone
    · rw [hno hnone] at he
      exact absurd he List.not_mem_nil
  · intro hnone
    rw [hyes hnone]
    exact ⟨_, List.mem_singleton_self _, p, rfl⟩

section LastStep

variable {totals : Totals} {shares : Shares} (henough : enoughCoverage ≤ totals.share)
  (hlow : shares.measured.countP isLow ≠ 0)
include henough hlow

/-- The last step, when coverage is enough and some of the measured time shares are too low. -/
theorem run_printStop {history : History} {p : Plateau}
    (hp : plateau? (history.low ++ [(shares.measured.countP isLow : Int)]) = some p)
    (s : RoundState) :
    (printStop history totals shares).run s = .ok ⟨⟩
      (if p.isReached then { s with trace := s.trace.push (.print p.stopText) } else s) := by
  have hcount : shares.lowCount? = some (shares.measured.countP isLow) := by
    unfold Shares.lowCount?
    rw [if_neg]
    intro hnil
    rw [List.isEmpty_iff.mp hnil] at hlow
    exact hlow rfl
  unfold printStop
  rw [hcount]
  dsimp only
  rw [if_pos henough, if_neg (by simpa using hlow), hp]
  dsimp only
  split <;> rfl

/-- The last step ends a series for want of improvement exactly if none of the last rounds has set a
record. -/
theorem printStop_ends (history : History) (s : RoundState) :
    ∃ t events, (printStop history totals shares).run s = .ok ⟨⟩ t ∧
      t.trace.toList = s.trace.toList ++ events ∧
      EndsOnPlateau (history.low ++ [(shares.measured.countP isLow : Int)]) events := by
  obtain ⟨p, hp, hmeasures⟩ :=
    exists_plateau (List.append_ne_nil_of_right_ne_nil history.low (List.cons_ne_nil
      (shares.measured.countP isLow : Int) []))
  have hreached : p.isReached = true ↔ NoRecordInLast 3
      (history.low ++ [(shares.measured.countP isLow : Int)]) :=
    decide_eq_true_iff.trans (hmeasures.le_since_iff plateauLength)
  refine ⟨_, if p.isReached then [.print p.stopText] else [],
    run_printStop henough hlow hp s, ?_, p, hmeasures, fun hnone => ?_, fun hsome => ?_⟩
  · split
    · exact Array.toList_push
    · exact (List.append_nil _).symm
  · rw [if_pos (hreached.mpr hnone)]
  · rw [if_neg fun hyes => hsome (hreached.mp hyes)]

end LastStep

/-- The detector of plateaus measures what it says. For every series of rounds its walk ends with
the least value and the number of rounds after the first one that had it. When coverage is enough
and some of the measured time shares are too low, the last step of a round ends the series for want
of improvement exactly if none of the last three rounds has set a record, the present one included,
and names these two numbers. So does a whole round, whatever rounds it comes after, since nothing
that it prints before could be taken for that. -/
theorem plateau_stop_iff_no_recent_record :
    (∀ (earlier : List Int) (low : Int),
      ∃ p, plateau? (earlier ++ [low]) = some p ∧ p.Measures (earlier ++ [low])) ∧
    (∀ (history : History) (totals : Totals) (shares : Shares) (s : RoundState),
      enoughCoverage ≤ totals.share → shares.measured.countP isLow ≠ 0 →
      ∃ t events, (printStop history totals shares).run s = .ok ⟨⟩ t ∧
        t.trace.toList = s.trace.toList ++ events ∧
        EndsOnPlateau (history.low ++ [(shares.measured.countP isLow : Int)]) events) ∧
    ∀ (history : History) (w : RoundWorld) (report : Json) (s : RoundState), Covered w report →
      enoughCoverage ≤ (readTotals report).share → (sharesOf w).measured.countP isLow ≠ 0 →
      ∃ t before events, (runAfter history w).run s = .ok none t ∧
        t.trace.toList = s.trace.toList ++ before ++ events ∧ (∀ e ∈ before, ¬ IsPlateauStop e) ∧
        EndsOnPlateau (history.low ++ [((sharesOf w).measured.countP isLow : Int)]) events := by
  refine ⟨fun earlier low => exists_plateau (by simp), fun history totals shares s henough hlow =>
    printStop_ends henough hlow history s, ?_⟩
  intro history w report s hcovered henough hlow
  -- what was seen before the last step ends no series, so only the last step counts
  obtain ⟨t, ⟨before, hbefore, hnone⟩, hrun⟩ := comesTo_printStop hcovered history s
  obtain ⟨u, events, hlast, hevents, hends⟩ := printStop_ends henough hlow history t
  refine ⟨u, before, events, ?_, by rw [hevents, hbefore], hnone, hends⟩
  rw [hrun, EStateM.run_bind, hlast]
  rfl

/-- A coverage report of three quarters. -/
def threeQuarters : Json :=
  .object [("totals", .object [("percent_covered", .int 75)])]

/-- A report on three benchmarks: one failed, and two spend too little time where they should. -/
def twoLow : ProcessResult where
  stdout := "\x7b\"repo_time_pct\": \x7b\"a\": 10, \"b\": 20.5, \"c\": -1\x7d\x7d\n"

/-- A round that finds these reports. -/
def lowRound : RoundWorld where
  report := some "\x7b\"totals\": \x7b\"percent_covered\": 75\x7d\x7d"
  timeShares := some twoLow
  now := 0

theorem covered_lowRound : Covered lowRound threeQuarters :=
  ⟨rfl, rfl, _, rfl, rfl⟩

theorem countP_lowRound : (sharesOf lowRound).measured.countP isLow = 2 := by
  decide +kernel

/-- Four rounds after the best one the series ends, and says so. Two rounds after it the series goes
on, also if they had the same value. -/
theorem old_record_stops_and_fresh_tie_does_not :
    (∃ t, (runAfter { low := [5, 1, 4, 3, 2] } lowRound).run {} = .ok none t ∧
      RoundEvent.print (Plateau.stopText ⟨1, 4⟩) ∈ t.trace.toList) ∧
    ∃ t, (runAfter { low := [2, 2] } lowRound).run {} = .ok none t ∧
      ¬ ∃ e ∈ t.trace.toList, IsPlateauStop e := by
  have henough : enoughCoverage ≤ (readTotals threeQuarters).share := by decide +kernel
  have hlow : (sharesOf lowRound).measured.countP isLow ≠ 0 := by
    rw [countP_lowRound]
    decide
  constructor
  · obtain ⟨t, before, events, hrun, htrace, -, p, hmeasures, hstops, -⟩ :=
      plateau_stop_iff_no_recent_record.2.2 { low := [5, 1, 4, 3, 2] } lowRound threeQuarters {}
        covered_lowRound henough hlow
    rw [countP_lowRound] at hmeasures hstops
    have hplateau : (⟨1, 4⟩ : Plateau).Measures [5, 1, 4, 3, 2, 2] :=
      measures_plateauFrom 5 [1, 4, 3, 2, 2]
    refine ⟨t, hrun, ?_⟩
    rw [htrace, hstops ((hplateau.le_since_iff 3).mp (by decide)), hmeasures.unique hplateau]
    simp
  · obtain ⟨t, before, events, hrun, htrace, hnone, hends⟩ :=
      plateau_stop_iff_no_recent_record.2.2 { low := [2, 2] } lowRound threeQuarters {}
        covered_lowRound henough hlow
    rw [countP_lowRound] at hends
    have hplateau : (⟨2, 2⟩ : Plateau).Measures [2, 2, 2] := measures_plateauFrom 2 [2, 2]
    refine ⟨t, hrun, ?_⟩
    rintro ⟨e, he, hstop⟩
    rw [htrace] at he
    rcases List.mem_append.mp he with he | he
    · exact hnone e (by simpa using he) hstop
    · have hfew := (hplateau.le_since_iff 3).mpr (hends.stops_iff.mp ⟨e, he, hstop⟩)
      exact absurd hfew (by decide)

end RobotConsole.Measure.Round
