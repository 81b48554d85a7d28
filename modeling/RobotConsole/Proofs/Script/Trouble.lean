import RobotConsole.Proofs.Command.Rendering
import RobotConsole.Proofs.Script.Conditions
import RobotConsole.Proofs.Script.Written

/-!
# Lines that stop a script

What else can be wrong with a line is a range that does not advance or has too many values
(`RangeTrouble`), and a value that is too long to write. `LineTrouble` says, for each kind of line,
which of these causes can stand in it, without running anything: of the line, of the lines after it
and of what the variables hold. Reading a line that includes no file stops with an error exactly if
that error has its cause there (`stops_prepare`).
-/

namespace RobotConsole.Text

variable {limits : Limits}

theorem not_blank_of_isDecimalDigit {c : Char} (h : isDecimalDigit c = true) :
    isBlank c = false := by
  have hcodes : ∀ n ∈ blankCodes, isDecimalDigit (Char.ofNat n) = false := by decide +kernel
  by_contra hblank
  have hdigit := hcodes _ (toNat_mem_blankCodes (Bool.not_eq_false _ ▸ hblank))
  rw [Char.ofNat_toNat, h] at hdigit
  cases hdigit

theorem toNat_of_isDigit {c : Char} (h : c.isDigit = true) : 48 ≤ c.toNat ∧ c.toNat ≤ 57 := by
  simpa [Char.isDigit, UInt32.le_iff_toNat_le] using h

theorem digitValue?_lt {c : Char} {d : Nat} (h : digitValue? c = some d) : d < 10 := by
  unfold digitValue? at h
  dsimp only at h
  split at h
  · split at h
    · rename_i hdigit
      have hrange := toNat_of_isDigit hdigit
      cases h
      omega
    · cases h
  · obtain ⟨start, hstart, rfl⟩ := Option.map_eq_some_iff.mp h
    have hnear := Array.find?_some hstart
    simp only [Bool.and_eq_true, decide_eq_true_eq] at hnear
    omega

/-- The number that a text of decimal digits stands for. -/
def numeral (s : String) : Nat :=
  s.toList.foldl (fun n c => 10 * n + (digitValue? c).getD 0) 0

end RobotConsole.Text

namespace RobotConsole.Decimal

open Text (isDecimalDigit digitValue? numeral)

/-- The plain form of a decimal digit is the digit with its value. -/
theorem plainChar_of_digitValue? {c : Char} {d : Nat} (h : digitValue? c = some d) :
    (plainChar c).isDigit = true ∧ (plainChar c).toNat = 0x30 + d := by
  have hblank := Text.not_blank_of_isDecimalDigit (c := c) (by rw [isDecimalDigit, h]; rfl)
  by_cases hascii : c.toNat < 0x80
  · have hdigit : c.isDigit = true ∧ c.toNat - 0x30 = d := by
      simpa [digitValue?, hascii] using h
    have hrange := Text.toNat_of_isDigit hdigit.1
    rw [(plainChar_of_isDigit hdigit.1).1]
    exact ⟨hdigit.1, by omega⟩
  · have hlt := Text.digitValue?_lt h
    have hplain : plainChar c = Char.ofNat (0x30 + d) := by
      unfold plainChar
      rw [if_neg (by omega), if_neg (by simp [hblank]), h]
    have hall : ∀ d < 10, (Char.ofNat (0x30 + d)).isDigit = true ∧
        (Char.ofNat (0x30 + d)).toNat = 0x30 + d := by decide
    rw [hplain]
    exact hall d hlt

/-- A text that is made of decimal digits. -/
structure IsNumeral (s : String) : Prop where
  nonempty : s.toList ≠ []
  digits : ∀ c ∈ s.toList, isDecimalDigit c = true

namespace IsNumeral

variable {s : String}

theorem plain_isDigit (h : IsNumeral s) : ∀ c ∈ s.toList.map plainChar, c.isDigit = true := by
  intro c hc
  obtain ⟨d, hd, rfl⟩ := List.mem_map.mp hc
  obtain ⟨value, hvalue⟩ := Option.isSome_iff_exists.mp (h.digits d hd)
  exact (plainChar_of_digitValue? hvalue).1

theorem plainText_eq (h : IsNumeral s) : plainText s = s.toList.map plainChar :=
  plainText_of_no_blank fun c hc => (plainChar_of_isDigit (h.plain_isDigit c hc)).2

theorem digitsValue_eq (h : IsNumeral s) : digitsValue (s.toList.map plainChar) = numeral s := by
  have hstep : ∀ cs : List Char, (∀ c ∈ cs, isDecimalDigit c = true) → ∀ n,
      (cs.map plainChar).foldl (fun n c => 10 * n + (c.toNat - 0x30)) n =
        cs.foldl (fun n c => 10 * n + (digitValue? c).getD 0) n := by
    intro cs
    induction cs with
    | nil => exact fun _ _ => rfl
    | cons c cs ih =>
      intro hcs n
      obtain ⟨value, hvalue⟩ := Option.isSome_iff_exists.mp (hcs c List.mem_cons_self)
      rw [List.map_cons, List.foldl_cons, List.foldl_cons,
        ih fun c hc => hcs c (List.mem_cons_of_mem _ hc)]
      rw [(plainChar_of_digitValue? hvalue).2, hvalue, Option.getD_some, Nat.add_sub_cancel_left]
  exact hstep s.toList h.digits 0

/-- A text of decimal digits is read as what it stands for, unless it has too many of them. -/
theorem readInt_eq (h : IsNumeral s) : readInt s =
    if maxIntDigits < s.length then .error (.tooManyDigits s.length) else .ok (numeral s) := by
  have hsign : takeSign (s.toList.map plainChar) = (false, s.toList.map plainChar) := by
    unfold takeSign
    split
    · rename_i rest heq
      cases h.plain_isDigit '-' (by rw [heq]; exact List.mem_cons_self)
    · rename_i rest heq
      cases h.plain_isDigit '+' (by rw [heq]; exact List.mem_cons_self)
    · rfl
  -- all of it is digits, so nothing is left after them
  have hlead : (s.toList.map plainChar).takeWhile (fun c => c.isDigit || c == '_') =
      s.toList.map plainChar := by
    rw [List.takeWhile_eq_self_iff]
    intro c hc
    rw [h.plain_isDigit c hc]
    rfl
  have hne : s.toList.map plainChar ≠ [] := by
    rw [Ne, List.map_eq_nil_iff]
    exact h.nonempty
  unfold readInt
  rw [h.plainText_eq, hsign]
  dsimp only
  rw [hlead, groupedDigits?_of_isDigit hne h.plain_isDigit]
  dsimp only
  rw [if_neg (Nat.lt_irrefl _), h.digitsValue_eq, List.length_map, String.length_toList]
  rfl

end IsNumeral

end RobotConsole.Decimal

namespace RobotConsole.Script

open Arithmetic (Value)
open Storage (Path)
open Decimal (IsNumeral maxIntDigits)

variable {α : Type} {s : Interpreter} {e : ScriptError}

/-! ## Ranges -/

theorem isNumeral_takeWhile {cs : List Char}
    (h : (cs.takeWhile Text.isDecimalDigit).isEmpty = false) :
    IsNumeral (String.ofList (cs.takeWhile Text.isDecimalDigit)) where
  nonempty := by simpa using h
  digits := by
    rw [String.toList_ofList]
    exact fun c hc => List.mem_takeWhile_imp hc

theorem isNumeral_of_rangeOf? {text first last : String} {step : Option String}
    (h : rangeOf? text = some (first, last, step)) :
    ∀ n ∈ first :: last :: step.toList, IsNumeral n := by
  unfold rangeOf? at h
  dsimp only at h
  split at h
  · rename_i hfirst _
    have hfirst := isNumeral_takeWhile hfirst
    split at h
    · cases h
    rename_i hlast
    have hlast := isNumeral_takeWhile (by simpa using hlast)
    split at h
    · cases h
      simpa using ⟨hfirst, hlast⟩
    · cases h
      simpa using ⟨hfirst, hlast⟩
    · obtain ⟨cs, _, h⟩ := Option.bind_eq_some_iff.mp h
      split at h
      · cases h
      obtain ⟨cs, _, h⟩ := Option.bind_eq_some_iff.mp h
      split at h
      · rename_i hstep _
        cases h
        simpa using ⟨hfirst, hlast, isNumeral_takeWhile hstep⟩
      · rename_i hstep _
        cases h
        simpa using ⟨hfirst, hlast, isNumeral_takeWhile hstep⟩
      · cases h
  · cases h

/-- What can be wrong with the numbers of a range: a step of zero, or too many values. -/
inductive AdvanceTrouble (limits : Limits) (step : Int) (count : Nat) : ScriptError → Prop
  | standsStill : step = 0 → AdvanceTrouble limits step count .zeroStep
  | uncountable : step ≠ 0 → Decimal.twoTo 63 ≤ count →
      AdvanceTrouble limits step count .rangeUncountable
  | tooLong : step ≠ 0 → limits.rangeLength ≤ count → count < Decimal.twoTo 63 →
      AdvanceTrouble limits step count .rangeTooLong

/-- The step of a range; a range that names none advances by one. -/
def stride (step : Option String) : Nat :=
  step.elim 1 Text.numeral

/-- What can be wrong with a range: a part has too many digits, of which the first one counts, or
the numbers are wrong that the parts stand for. -/
inductive RangeTrouble (limits : Limits) (first last : String) (step : Option String) :
    ScriptError → Prop
  | digits {n : String} :
      (first :: last :: step.toList).find? (fun n => maxIntDigits < n.length) = some n →
      RangeTrouble limits first last step (.number (.tooManyDigits n.length))
  | numbers {e : ScriptError} : (∀ n ∈ first :: last :: step.toList, n.length ≤ maxIntDigits) →
      AdvanceTrouble limits (stride step)
        (rangeLength (Text.numeral first) (Text.numeral last) (stride step)) e →
      RangeTrouble limits first last step e

theorem stops_guard {p : Prop} [Decidable p] {e' : ScriptError} {rest : Run α} :
    Stops (if p then throw e' >>= fun _ : PUnit => rest else rest) s e ↔
      p ∧ e = e' ∨ ¬ p ∧ Stops rest s e := by
  split
  · rename_i hp
    simp [hp, stops_bind, stops_throw]
  · rename_i hp
    simp [hp]

theorem stops_stepThrough {first last step : Int} :
    Stops (stepThrough limits first last step) s e ↔
      AdvanceTrouble limits step (rangeLength first last step) e := by
  have hvalues : ¬ Stops (do
      return rangeValues first last step ((← get).maxIterations.toNat + 1)) s e := by
    rintro ⟨t, ht⟩
    cases ht
  refine stops_guard.trans ?_
  rw [beq_iff_eq]
  constructor
  · rintro (⟨hstep, rfl⟩ | ⟨hstep, h⟩)
    · exact .standsStill hstep
    rcases stops_guard.mp h with ⟨hcount, rfl⟩ | ⟨hcount, h⟩
    · exact .uncountable hstep hcount
    rcases stops_guard.mp h with ⟨hlong, rfl⟩ | ⟨_, h⟩
    · exact .tooLong hstep hlong (Nat.not_le.mp hcount)
    · exact absurd h hvalues
  · intro h
    cases h with
    | standsStill hstep => exact .inl ⟨hstep, rfl⟩
    | uncountable hstep hcount => exact .inr ⟨hstep, stops_guard.mpr (.inl ⟨hcount, rfl⟩)⟩
    | tooLong hstep hlong hcount =>
      refine .inr ⟨hstep, stops_guard.mpr (.inr ⟨Nat.not_le.mpr hcount, ?_⟩)⟩
      exact stops_guard.mpr (.inl ⟨hlong, rfl⟩)

theorem stops_readInt_bind {n : String} (hn : IsNumeral n) {f : Int → Run α} :
    Stops (readInt n >>= f) s e ↔
      maxIntDigits < n.length ∧ e = .number (.tooManyDigits n.length) ∨
        n.length ≤ maxIntDigits ∧ Stops (f (Text.numeral n)) s e := by
  unfold readInt
  rw [hn.readInt_eq]
  by_cases hlong : maxIntDigits < n.length
  · simp only [hlong, if_true, true_and, Nat.not_le.mpr hlong, false_and, or_false]
    rw [stops_bind, stops_throw, or_iff_left]
    rintro ⟨a, t, h, _⟩
    cases h
  · simp only [hlong, if_false, false_and, false_or, Nat.not_lt.mp hlong, true_and]
    exact stops_bind_of_ok rfl

/-- The parts of a range are read in order, and the first one with too many digits stops. -/
theorem rangeTrouble_iff {first last : String} {step : Option String} :
    RangeTrouble limits first last step e ↔
      maxIntDigits < first.length ∧ e = .number (.tooManyDigits first.length) ∨
      first.length ≤ maxIntDigits ∧
        (maxIntDigits < last.length ∧ e = .number (.tooManyDigits last.length) ∨
        last.length ≤ maxIntDigits ∧
          ((∃ n, step = some n ∧ maxIntDigits < n.length ∧ e = .number (.tooManyDigits n.length)) ∨
          (∀ n, step = some n → n.length ≤ maxIntDigits) ∧ AdvanceTrouble limits (stride step)
            (rangeLength (Text.numeral first) (Text.numeral last) (stride step)) e)) := by
  constructor
  · intro h
    cases h with
    | @digits n h =>
      by_cases hfirst : maxIntDigits < first.length
      · obtain rfl : first = n := by simpa [hfirst] using h
        exact .inl ⟨hfirst, rfl⟩
      refine .inr ⟨Nat.not_lt.mp hfirst, ?_⟩
      by_cases hlast : maxIntDigits < last.length
      · obtain rfl : last = n := by simpa [hfirst, hlast] using h
        exact .inl ⟨hlast, rfl⟩
      refine .inr ⟨Nat.not_lt.mp hlast, .inl ⟨n, ?_⟩⟩
      cases step with
      | none => simp [hfirst, hlast] at h
      | some m =>
        obtain ⟨hm, rfl⟩ : maxIntDigits < m.length ∧ m = n := by
          simpa [hfirst, hlast] using h
        exact ⟨rfl, hm, rfl⟩
    | numbers hshort h =>
      exact .inr ⟨hshort first (by simp), .inr ⟨hshort last (by simp),
        .inr ⟨fun n hn => hshort n (by simp [hn]), h⟩⟩⟩
  · rintro (⟨hfirst, rfl⟩ | ⟨hfirst, ⟨hlast, rfl⟩ | ⟨hlast, ⟨n, rfl, hn, rfl⟩ | ⟨hstep, h⟩⟩⟩)
    · exact .digits (by simp [hfirst])
    · exact .digits (by simp [Nat.not_lt.mpr hfirst, hlast])
    · exact .digits (by simp [Nat.not_lt.mpr hfirst, Nat.not_lt.mpr hlast, hn])
    · refine .numbers ?_ h
      simpa using ⟨hfirst, hlast, hstep⟩

theorem stops_loopValues {text : String} : Stops (loopValues limits text) s e ↔
    ∃ first last step, rangeOf? text = some (first, last, step) ∧
      RangeTrouble limits first last step e := by
  unfold loopValues
  cases hrange : rangeOf? text with
  | none => simp [stops_pure]
  | some parts =>
    obtain ⟨first, last, step⟩ := parts
    have hnumeral := isNumeral_of_rangeOf? hrange
    have hparts : (∃ first' last' step', some (first, last, step) = some (first', last', step') ∧
        RangeTrouble limits first' last' step' e) ↔ RangeTrouble limits first last step e := by
      constructor
      · rintro ⟨_, _, _, hsame, h⟩
        cases hsame
        exact h
      · exact fun h => ⟨_, _, _, rfl, h⟩
    rw [hparts, rangeTrouble_iff]
    dsimp only
    rw [stops_readInt_bind (hnumeral first (by simp)),
      stops_readInt_bind (hnumeral last (by simp))]
    refine or_congr_right (and_congr_right fun _ => or_congr_right (and_congr_right fun _ => ?_))
    cases step with
    | none =>
      refine stops_stepThrough.trans ?_
      simp [stride]
    | some n =>
      refine (stops_readInt_bind (hnumeral n (by simp))).trans ?_
      rw [stops_stepThrough]
      simp [stride]

/-! ## Lines -/

/-- What can be wrong with the value text of an assignment: a reference, or the value. -/
inductive AssignmentTrouble (limits : Limits) (bindings : Dict Value) (text : String) :
    ScriptError → Prop
  | reference : Overlong bindings text → AssignmentTrouble limits bindings text .tooLongToWrite
  | value {v : Value} : Evaluates limits bindings text v → Unwritable v →
      AssignmentTrouble limits bindings text .tooLongToWrite

/-- What can be wrong with the value text of a for loop: a reference, or the range. -/
inductive LoopTrouble (limits : Limits) (bindings : Dict Value) (text : String) :
    ScriptError → Prop
  | reference : Overlong bindings text → LoopTrouble limits bindings text .tooLongToWrite
  | range {expanded first last : String} {step : Option String} {e : ScriptError} :
      expandText bindings text = .ok expanded → rangeOf? expanded = some (first, last, step) →
      RangeTrouble limits first last step e → LoopTrouble limits bindings text e

/-- What can be wrong with a line that includes no file, given the lines after it. The condition of
a conditional without an end is not looked at, nor is that of a while loop when the line is read. -/
def LineTrouble (limits : Limits) (bindings : Dict Value) (line : String) (rest : List String)
    (e : ScriptError) : Prop :=
  match classify line with
  | .command => e = .tooLongToWrite ∧ Overlong bindings line
  | .assignment => ∃ name text, assignmentOf? line = some (name, text) ∧
      AssignmentTrouble limits bindings (unquote text) e
  | .forLoop => ∃ name text, forLoopOf? line = some (name, text) ∧
      LoopTrouble limits bindings text e
  | .conditional => ∃ condition parts, argumentOf? "if" line = some condition ∧
      branches? 0 false rest = some parts ∧ ConditionTrouble limits.called bindings condition e
  | _ => False

theorem stops_print (line : String) : ¬ Stops (print line) s e := by
  rintro ⟨t, ht⟩
  cases ht

theorem stops_loopBody (closing : String) (rest : List String) :
    ¬ Stops (loopBody closing rest) s e := by
  unfold loopBody
  cases blockLength closing 0 rest with
  | mk length found =>
    cases found with
    | true => exact stops_pure _
    | false => exact stops_print_pure _ _

theorem stops_bindArguments (index : Nat) (args : List String) :
    ¬ Stops (bindArguments index args) s e := by
  rintro ⟨t, ht⟩
  obtain ⟨old, u, hrun, _⟩ := run_bindArguments index args s
  rw [hrun] at ht
  cases ht

theorem stops_assign {line : String} : Stops (assign limits line) s e ↔
    ∃ name text, assignmentOf? line = some (name, text) ∧
      AssignmentTrouble limits s.bindings (unquote text) e := by
  unfold assign
  cases assignmentOf? line with
  | none => simp [stops_print]
  | some parts =>
    obtain ⟨name, text⟩ := parts
    have hbind (v : Value) : (bind name v).run s = .ok () (s.lend name v) := rfl
    dsimp only
    rw [stops_bind, stops_evaluateExpression]
    constructor
    · rintro (⟨rfl, h⟩ | ⟨v, t, hrun, h⟩)
      · exact ⟨name, text, rfl, .reference h⟩
      · obtain ⟨hv, rfl⟩ := run_evaluateExpression_ok.mp hrun
        rw [stops_bind_of_ok (hbind v), stops_bind, stops_valueText] at h
        rcases h with ⟨rfl, h⟩ | ⟨_, _, _, h⟩
        · exact ⟨name, text, rfl, .value hv h⟩
        · exact absurd h (stops_print _)
    · rintro ⟨_, _, hsame, h⟩
      cases hsame
      cases h with
      | reference h => exact .inl ⟨rfl, h⟩
      | @value v hv h =>
        refine .inr ⟨v, s, run_evaluateExpression_ok.mpr ⟨hv, rfl⟩, ?_⟩
        rw [stops_bind_of_ok (hbind v), stops_bind]
        exact .inl (stops_valueText.mpr ⟨rfl, h⟩)

/-- The values of a for loop, and whatever cannot stop after them. -/
theorem stops_values_bind {text : String} {f : List Value → Run α}
    (hf : ∀ values t, ¬ Stops (f values) t e) :
    Stops (do f (← loopValues limits (← expandVariables text))) s e ↔
      LoopTrouble limits s.bindings text e := by
  rw [stops_bind, stops_expandVariables]
  constructor
  · rintro (⟨rfl, h⟩ | ⟨expanded, t, hrun, h⟩)
    · exact .reference h
    · rw [run_expandVariables, still_eq_ok] at hrun
      obtain ⟨hexpanded, rfl⟩ := hrun
      rcases stops_bind.mp h with h | ⟨values, t, _, h⟩
      · obtain ⟨first, last, step, hrange, h⟩ := stops_loopValues.mp h
        exact .range hexpanded hrange h
      · exact absurd h (hf values t)
  · intro h
    cases h with
    | reference h => exact .inl ⟨rfl, h⟩
    | range hexpanded hrange h =>
      refine .inr ⟨_, s, by rw [run_expandVariables, hexpanded]; rfl, ?_⟩
      exact stops_bind.mpr (.inl (stops_loopValues.mpr ⟨_, _, _, hrange, h⟩))

/-- Reading a line that includes no file stops with an error exactly if that is wrong with the
line. -/
theorem stops_prepare {around : Surroundings} {base : Option Path} {position : Nat} {line : String}
    {rest : List String} (hinclude : classify line ≠ .includeFile) :
    Stops (prepare around base position line rest) s e ↔
      LineTrouble around.limits s.bindings line rest e := by
  unfold prepare LineTrouble
  cases hkind : classify line with
  | includeFile => exact absurd hkind hinclude
  | skipped => exact iff_of_false (stops_pure _) id
  | assignment => exact stops_bind_pure.trans stops_assign
  | forLoop =>
    cases forLoopOf? line with
    | none => exact iff_of_false (stops_print_pure _ _) (by simp)
    | some parts =>
      obtain ⟨name, text⟩ := parts
      -- finding the body comes after the values, and never fails
      refine (stops_values_bind fun values t =>
        stops_bind_pure.not.mpr (stops_loopBody _ _)).trans ?_
      simp only [Option.some.injEq, Prod.mk.injEq]
      constructor
      · exact fun h => ⟨name, text, ⟨rfl, rfl⟩, h⟩
      · rintro ⟨_, _, ⟨rfl, rfl⟩, h⟩
        exact h
  | whileLoop =>
    refine iff_of_false ?_ id
    cases argumentOf? "while" line with
    | none => exact stops_print_pure _ _
    | some condition => exact stops_bind_pure.not.mpr (stops_loopBody _ _)
  | conditional =>
    cases argumentOf? "if" line with
    | none => exact iff_of_false (stops_print_pure _ _) (by simp)
    | some condition =>
      cases branches? 0 false rest with
      | none => exact iff_of_false (stops_print_pure _ _) (by simp)
      | some parts =>
        refine stops_bind_pure.trans (stops_evaluateCondition.trans ?_)
        simp
  | call =>
    refine iff_of_false ?_ id
    cases callOf? line with
    | none => exact stops_print_pure _ _
    | some parts =>
      have hget : (get : Run Interpreter).run s = .ok s s := rfl
      dsimp only
      rw [stops_bind_of_ok hget]
      cases Dict.get? s.subroutines parts.1 with
      | none => exact stops_print_pure _ _
      | some body => exact stops_bind_pure.not.mpr (stops_bindArguments _ _)
  | stray => exact iff_of_false (stops_print_pure _ _) id
  | command => exact stops_bind_pure.trans stops_expandVariables

end RobotConsole.Script
