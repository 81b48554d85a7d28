import RobotConsole.Proofs.Script.Stopping

/-!
# What a script puts out

A script puts out commands, and on the way it prints messages. Of both it can be said at which point
of the expansion they come up. `Unfolds` says once what an expansion consists of: what the point
itself puts out, then what the one or two points put out that it leads to. From it follows, by
induction on what is left to do, that the commands of a script are those of the command lines that
it reaches (`mem_commands_iff_reached`), and that it warns of an unexpected line exactly if it
reaches that line, whether it comes to its end or stops (`warned_iff_reached`).
-/

namespace RobotConsole.Script

open Arithmetic (Value)
open Storage (Path)
open Contract

variable {line message : String}

/-! ## Warnings of unexpected lines -/

/-- How the warning of an unexpected line starts. -/
def unexpectedStart : String := "Warning: Unexpected "

/-- The warning of an unexpected line at a position, counted from zero. -/
def unexpectedWarning (line : String) (position : Nat) : String :=
  s!"Warning: Unexpected {line} at line {position + 1}"

/-- A message starts like such a warning. -/
def SoundsUnexpected (message : String) : Prop :=
  startsWith message unexpectedStart = true

/-- Two texts have different characters at the same place. -/
def diverge (xs ys : List Char) : Bool :=
  (xs.zip ys).any fun pair => pair.1 != pair.2

theorem diverge_append {xs ys : List Char} (h : diverge xs ys = true) (more : List Char) :
    diverge xs (ys ++ more) = true := by
  induction xs generalizing ys with
  | nil => cases h
  | cons x xs ih =>
    cases ys with
    | nil => cases h
    | cons y ys =>
      simp only [diverge, List.zip_cons_cons, List.any_cons, List.cons_append,
        Bool.or_eq_true] at h ⊢
      exact h.imp_right fun hrest => ih hrest

theorem isPrefixOf_eq_false_of_diverge {xs ys : List Char} (h : diverge xs ys = true) :
    xs.isPrefixOf ys = false := by
  induction xs generalizing ys with
  | nil => cases h
  | cons x xs ih =>
    cases ys with
    | nil => rfl
    | cons y ys =>
      simp only [diverge, List.zip_cons_cons, List.any_cons, Bool.or_eq_true, bne_iff_ne] at h
      rw [List.isPrefixOf, Bool.and_eq_false_iff]
      exact h.imp (fun hne => beq_eq_false_iff_ne.mpr hne) fun hrest => ih hrest

/-- A message starts in another way. -/
def SoundsOtherwise (message : String) : Prop :=
  diverge unexpectedStart.toList message.toList = true

theorem SoundsOtherwise.append {start : String} (h : SoundsOtherwise start) (more : String) :
    SoundsOtherwise (start ++ more) := by
  unfold SoundsOtherwise
  rw [String.toList_append]
  exact diverge_append h _

theorem SoundsOtherwise.ne {other : String} (h : SoundsOtherwise message)
    (hother : SoundsUnexpected other) : message ≠ other := by
  rintro rfl
  have hstart := isPrefixOf_eq_false_of_diverge h
  unfold SoundsUnexpected startsWith at hother
  rw [hstart] at hother
  cases hother

theorem soundsUnexpected_warning (line : String) (position : Nat) :
    SoundsUnexpected (unexpectedWarning line position) := by
  show unexpectedStart.toList.isPrefixOf (unexpectedWarning line position).toList = true
  rw [List.isPrefixOf_iff_prefix]
  refine ⟨(line ++ " at line " ++ toString (position + 1)).toList, ?_⟩
  rw [← String.toList_append]
  refine congrArg String.toList ?_
  show unexpectedStart ++ (line ++ " at line " ++ toString (position + 1)) =
    unexpectedStart ++ line ++ " at line " ++ toString (position + 1)
  simp only [String.append_assoc]

/-! ## Reading a line -/

section Prepare

variable {c : Contract ScriptError Interpreter}
  (hfails : ∀ e s, (∀ name, e ≠ .unbound name) → c.fails e s s)
  (hbind : ∀ name value, c.Holds (bind name value))
  (hprint : ∀ message, SoundsOtherwise message → c.Holds (print message))

include hbind in
theorem holds_bindArguments (index : Nat) (args : List String) :
    c.Holds (bindArguments index args) := by
  induction args generalizing index with
  | nil => exact holds_pure _
  | cons arg args ih =>
    unfold bindArguments
    refine (holds_get.giving).bind fun old => ?_
    exact (hbind _ _).bind fun _ => (ih _).giving

include hprint in
theorem holds_loopBody (closing : String) (rest : List String) :
    c.Holds (loopBody closing rest) := by
  have hmissing : SoundsOtherwise "Warning: No matching " := rfl
  unfold loopBody
  refine holds_when (fun hrest => ?_) (holds_pure _)
  exact (hprint _ ((hmissing.append _).append _)).bind fun _ => hrest

include hfails hbind hprint

theorem holds_assign {limits : Limits} (line : String) : c.Holds (assign limits line) := by
  have hinvalid : SoundsOtherwise "Error: Invalid set syntax: " := rfl
  have hset : SoundsOtherwise "  [set " := rfl
  unfold assign
  split
  · exact hprint _ (hinvalid.append _)
  · refine (holds_evaluateExpression hfails _).bind fun value => (hbind _ value).bind fun _ => ?_
    refine (holds_valueText hfails value).bind fun text => ?_
    exact hprint _ ((((hset.append _).append _).append _).append _)

/-- Reading a line that includes nothing keeps every contract that allows the variables to change,
and allows what is printed on the way. Only for an unexpected line this may be a warning of it. -/
theorem holds_prepare {around : Surroundings} {base : Option Path} {position : Nat}
    (hinclude : classify line ≠ .includeFile)
    (hstray : classify line = .stray → c.Holds (print (unexpectedWarning line position)))
    (rest : List String) : c.Holds (prepare around base position line rest) := by
  have hfor : SoundsOtherwise "Error: Invalid for syntax: " := rfl
  have hwhile : SoundsOtherwise "Error: Invalid while syntax: " := rfl
  have hif : SoundsOtherwise "Error: Invalid if syntax: " := rfl
  have hendif : SoundsOtherwise "Error: No matching endif for if at line " := rfl
  have hcall : SoundsOtherwise "Error: Invalid call syntax: " := rfl
  have hmissing : SoundsOtherwise "Error: Subroutine not found: " := rfl
  have hreport {message : String} (h : SoundsOtherwise message) :
      c.Holds (do print message; return ((.finished [], 0) : Task × Nat)) :=
    (hprint message h).giving
  unfold prepare
  cases hkind : classify line with
  | skipped => exact holds_pure _
  | includeFile => exact absurd hkind hinclude
  | assignment => exact (holds_assign hfails hbind hprint line).giving
  | forLoop =>
    cases forLoopOf? line with
    | none => exact hreport (hfor.append _)
    | some pieces =>
      refine (holds_expandVariables hfails _).bind fun text => ?_
      refine (holds_loopValues hfails text).bind fun values => ?_
      exact (holds_loopBody hprint _ rest).giving
  | whileLoop =>
    cases argumentOf? "while" line with
    | none => exact hreport (hwhile.append _)
    | some condition => exact (holds_loopBody hprint _ rest).giving
  | conditional =>
    cases argumentOf? "if" line with
    | none => exact hreport (hif.append _)
    | some condition =>
      cases branches? 0 false rest with
      | none => exact hreport (hendif.append _)
      | some branches =>
        exact (holds_evaluateCondition hfails condition).giving
  | call =>
    cases callOf? line with
    | none => exact hreport (hcall.append _)
    | some pieces =>
      refine holds_get.bind fun s => ?_
      cases Dict.get? s.subroutines pieces.1 with
      | none => exact hreport (hmissing.append _)
      | some body => exact (holds_bindArguments hbind 1 _).giving
  | stray => exact (hstray hkind).giving
  | command => exact (holds_expandVariables hfails line).giving

end Prepare

/-- Reading a line leaves the subroutines and the limit on rounds alone. -/
theorem scope_prepare {around : Surroundings} {base : Option Path} {position : Nat}
    (hinclude : classify line ≠ .includeFile) (rest : List String) :
    scope.Holds (prepare around base position line rest) :=
  holds_prepare keeping_fails scope_bind (fun _ _ => keeping_print _) hinclude
    (fun _ => keeping_print _) rest

/-- The contract of what does not print a message. -/
def withholding (message : String) : Contract ScriptError Interpreter where
  yields s t := message ∈ t.printed ↔ message ∈ s.printed
  fails _ s t := message ∈ t.printed ↔ message ∈ s.printed
  refl _ := Iff.rfl
  trans h₁ h₂ := h₂.trans h₁
  fails_after h₁ h₂ := h₂.trans h₁

theorem withholding_print (h : line ≠ message) :
    (withholding message).Holds (print line) := by
  refine holds_modify fun s => ?_
  show message ∈ s.printed.push line ↔ _
  rw [Array.mem_push, or_iff_left (Ne.symm h)]

theorem withholding_prepare (hmessage : SoundsUnexpected message)
    {around : Surroundings} {base : Option Path} {position : Nat}
    (hinclude : classify line ≠ .includeFile) (hstray : classify line ≠ .stray)
    (rest : List String) :
    (withholding message).Holds (prepare around base position line rest) := by
  refine holds_prepare (fun _ _ _ => Iff.rfl) (fun _ _ => holds_modify fun _ => Iff.rfl) ?_ hinclude
    (fun hkind => absurd hkind hstray) rest
  exact fun other hother => withholding_print (hother.ne hmessage)

/-! ## What a point puts out itself -/

/-- The line that is next at a point. -/
def Point.next? (p : Point) : Option String :=
  match p.place with
  | .walk _ _ (raw :: _) => some raw
  | _ => none

/-- The line that is next is a command, with these references replaced. -/
def Point.Gives (p : Point) (command : String) : Prop :=
  ∃ raw, p.next? = some raw ∧ classify (Text.trim raw) = .command ∧
    expandText p.state.bindings (Text.trim raw) = .ok command

/-- The line that is next is unexpected there, and this is the warning. -/
def Point.Warns (p : Point) (message : String) : Prop :=
  match p.place with
  | .walk _ position (raw :: _) =>
    classify (Text.trim raw) = .stray ∧ message = unexpectedWarning (Text.trim raw) position
  | _ => False

/-- These are the commands of a point itself. -/
def Point.Makes (p : Point) (own : List String) : Prop :=
  ∀ command, command ∈ own ↔ p.Gives command

/-- Up to this state a point has printed, of all warnings of unexpected lines, its own. -/
def Point.Tells (p : Point) (t : Interpreter) : Prop :=
  ∀ message, SoundsUnexpected message →
    (message ∈ t.printed ↔ message ∈ p.state.printed ∨ p.Warns message)

/-- What comes of an expansion from a point on. -/
def Point.outcome (around : Surroundings) (base : Option Path) (p : Point) :
    Outcome (List String) :=
  (p.place.expand (around.under p.limits) base).run p.state

/-- One expansion after another. -/
def Outcome.followed (r : Outcome (List String)) (rest : Interpreter → Outcome (List String)) :
    Outcome (List String) :=
  match r with
  | .ok commands t => Outcome.map (commands ++ ·) (rest t)
  | .error e t => .error e t

theorem run_append (x y : Run (List String)) (s : Interpreter) :
    (do return (← x) ++ (← y)).run s = Outcome.followed (x.run s) y.run := by
  rw [EStateM.run_bind]
  cases x.run s with
  | error e t => rfl
  | ok commands t => exact run_bind_pure _ _ _

/-- What the expansion from a point on consists of. -/
inductive Unfolds (around : Surroundings) (base : Option Path) (p : Point) : Prop
  /-- The point stops the script. -/
  | stops {e : ScriptError} {t : Interpreter} : p.outcome around base = .error e t → p.Tells t →
      (∀ q, ¬ Leads around base p q) → Unfolds around base p
  /-- Nothing comes after the point. -/
  | ends {own : List String} {t : Interpreter} : p.outcome around base = .ok own t →
      p.Makes own → p.Tells t → (∀ q, ¬ Leads around base p q) → Unfolds around base p
  /-- What the point puts out is followed by what the next one does. -/
  | goesOn {own : List String} {q : Point} :
      p.outcome around base = Outcome.map (own ++ ·) (q.outcome around base) →
      p.Makes own → p.Tells q.state → (∀ r, Leads around base p r ↔ r = q) → Unfolds around base p
  /-- The script stops within what the point asks for. -/
  | stopsWithin {q : Point} {e : ScriptError} {t : Interpreter} :
      q.outcome around base = .error e t → p.outcome around base = .error e t →
      p.Tells q.state → (∀ r, Leads around base p r ↔ r = q) → Unfolds around base p
  /-- What the point asks for is followed by what the next one puts out. -/
  | within {q q' : Point} {commands : List String} {t : Interpreter} :
      q.outcome around base = .ok commands t → q'.state.printed = t.printed →
      p.outcome around base = Outcome.map (commands ++ ·) (q'.outcome around base) →
      p.Makes [] → p.Tells q.state → (∀ r, Leads around base p r ↔ r = q ∨ r = q') →
      Unfolds around base p

section Unfolding

variable {around : Surroundings} {base : Option Path} {p : Point} {s t : Interpreter} {l : Limits}

theorem makes_nil_of_next? (h : p.next? = none) : p.Makes [] := by
  intro command
  refine iff_of_false List.not_mem_nil ?_
  rintro ⟨raw, hraw, -⟩
  rw [h] at hraw
  cases hraw

theorem not_warns_of_next? (h : p.next? = none) (message : String) : ¬ p.Warns message := by
  obtain ⟨place, s, l⟩ := p
  cases place with
  | walk levels position lines =>
    cases lines with
    | nil => exact id
    | cons raw rest => cases h
  | block levels lines => exact id
  | forRounds levels left name values body => exact id
  | whileRounds levels left condition body => exact id

/-- A point that does not warn, and a step from it that prints no warning. -/
theorem tells_of_withholding (hwarns : ∀ message, ¬ p.Warns message)
    (h : ∀ message, SoundsUnexpected message → (withholding message).yields p.state t) :
    p.Tells t := by
  intro message hmessage
  rw [or_iff_left (hwarns message)]
  exact h message hmessage

theorem tells_of_printed (hnext : p.next? = none) (h : t.printed = p.state.printed) :
    p.Tells t :=
  tells_of_withholding (not_warns_of_next? hnext) fun message _ => by
    show message ∈ t.printed ↔ _
    rw [h]

theorem unfolds_message (message : String) (hnext : p.next? = none)
    (hmessage : SoundsOtherwise message)
    (hrun : p.outcome around base =
      .ok [] { p.state with printed := p.state.printed.push message })
    (hleads : ∀ q, ¬ Leads around base p q) : Unfolds around base p := by
  refine .ends hrun (makes_nil_of_next? hnext) ?_ hleads
  refine tells_of_withholding (not_warns_of_next? hnext) fun other hother => ?_
  exact (withholding_print (hmessage.ne hother) p.state).yields rfl

theorem unfolds_block (levels : Nat) (lines : List String) (s : Interpreter) :
    Unfolds around base ⟨.block levels lines, s, l⟩ := by
  cases levels with
  | zero =>
    refine unfolds_message "Error: Maximum nesting depth exceeded" rfl rfl rfl ?_
    intro q hleads
    cases hleads
  | succ levels =>
    refine @Unfolds.goesOn _ _ _ [] ⟨.walk levels 0 lines, s, l⟩ ?_ (makes_nil_of_next? rfl)
      (tells_of_printed rfl rfl) ?_
    · show (expandLines (around.under l) base (expandBlock (around.under l).inner base levels) 0
        lines).run s = _
      unfold Point.outcome Place.expand
      cases (expandLines (around.under l) base (expandBlock (around.under l).inner base levels) 0
        lines).run s <;> rfl
    · intro r
      constructor
      · intro hleads
        cases hleads
        rfl
      · rintro rfl
        exact .enter

/-- A point that asks for something to be expanded at `q`, and goes on at a point that depends on
the state in which that ends. -/
theorem unfolds_through {q : Point} {rest : Interpreter → Point} (hmakes : p.Makes [])
    (htells : p.Tells q.state) (hprinted : ∀ t, (rest t).state.printed = t.printed)
    (hrun : p.outcome around base =
      (q.outcome around base).followed fun t => (rest t).outcome around base)
    (hleads : ∀ r, Leads around base p r ↔
      r = q ∨ ∃ commands t, q.outcome around base = .ok commands t ∧ r = rest t) :
    Unfolds around base p := by
  cases hq : q.outcome around base with
  | error e t =>
    rw [hq] at hrun
    refine .stopsWithin hq hrun htells fun r => ?_
    rw [hleads, or_iff_left]
    rintro ⟨commands, u, hu, -⟩
    rw [hq] at hu
    cases hu
  | ok commands t =>
    rw [hq] at hrun
    refine .within hq (hprinted t) hrun hmakes htells fun r => ?_
    rw [hleads]
    refine or_congr_right ⟨?_, ?_⟩
    · rintro ⟨others, u, hu, rfl⟩
      rw [hq] at hu
      cases hu
      rfl
    · rintro rfl
      exact ⟨commands, t, hq, rfl⟩

theorem unfolds_forRounds (levels left : Nat) (name : String) (values : List Value)
    (body : List String) (s : Interpreter) :
    Unfolds around base ⟨.forRounds levels left name values body, s, l⟩ := by
  cases values with
  | nil =>
    have hrun :
        (forRounds (expandBlock (around.under l).inner base levels) name body left []).run s =
          .ok [] s := by
      unfold forRounds
      rfl
    refine .ends hrun (makes_nil_of_next? rfl) (tells_of_printed rfl rfl) fun q hleads => ?_
    cases hleads
  | cons value values =>
    cases left with
    | zero =>
      have hlimit : SoundsOtherwise "Warning: For loop exceeded max iterations (" := rfl
      refine unfolds_message _ rfl ((hlimit.append _).append _) rfl fun q hleads => ?_
      cases hleads
    | succ left =>
      let back (t : Interpreter) : Interpreter :=
        { t with bindings := restored t.bindings name (Dict.get? s.bindings name) }
      refine @unfolds_through around base _ ⟨.block levels body, s.lend name value, l.called.called⟩
        (fun t => ⟨.forRounds levels left name values body, back t, l⟩) (makes_nil_of_next? rfl)
        (tells_of_printed rfl rfl) (fun _ => rfl) ?_ fun r => ⟨?_, ?_⟩
      · show (forRounds _ name body (left + 1) (value :: values)).run s = _
        rw [forRounds, forRound_eq_lending (scope_expandBlock _ base levels body), run_append,
          run_lending]
        unfold Point.outcome Place.expand
        show _ = Outcome.followed
          ((expandBlock (around.under l).inner base levels body).run (s.lend name value)) _
        cases (expandBlock (around.under l).inner base levels body).run (s.lend name value) <;> rfl
      · intro hleads
        cases hleads with
        | forBody => exact .inl rfl
        | forNext hrun => exact .inr ⟨_, _, hrun, rfl⟩
      · rintro (rfl | ⟨commands, t, hrun, rfl⟩)
        · exact .forBody
        · exact .forNext hrun

/-- What only reads leaves the state as it is. -/
def resting : Contract ScriptError Interpreter where
  yields s t := t = s
  fails _ s t := t = s
  refl _ := rfl
  trans h₁ h₂ := h₂.trans h₁
  fails_after h₁ h₂ := h₂.trans h₁

theorem after_evaluateCondition (limits : Limits) (condition : String) (s : Interpreter) :
    after (evaluateCondition limits condition) s = s := by
  have hrests : resting.HoldsAt s (evaluateCondition limits condition) :=
    holds_evaluateCondition (fun _ _ _ => rfl) condition s
  cases hrun : (evaluateCondition limits condition).run s with
  | ok holds t => exact (after_of_ok hrun).trans (hrests.yields hrun)
  | error e t => exact (after_of_error hrun).trans (hrests.fails hrun)

theorem decided_of_leads {levels left : Nat} {condition : String} {body : List String} {q : Point}
    (h : Leads around base ⟨.whileRounds levels left condition body, s, l⟩ q) :
    ∃ t, (evaluateCondition l.called condition).run s = .ok true t := by
  cases h with
  | whileBody hholds => exact ⟨_, hholds⟩
  | whileNext hholds _ => exact ⟨_, hholds⟩

theorem unfolds_whileRounds (levels left : Nat) (condition : String) (body : List String)
    (s : Interpreter) : Unfolds around base ⟨.whileRounds levels left condition body, s, l⟩ := by
  have hstate := after_evaluateCondition l.called condition s
  let expand := expandBlock (around.under l).inner base levels
  have hrun : (Point.mk (.whileRounds levels left condition body) s l).outcome around base =
      (whileRounds l.called expand condition body left).run s := rfl
  cases hdecide : (evaluateCondition l.called condition).run s with
  | error e t =>
    rw [after_of_error hdecide] at hstate
    have hstops : (whileRounds l.called expand condition body left).run s =
        .error e t := by
      cases left <;> rw [whileRounds, EStateM.run_bind, hdecide]
    refine .stops (hrun.trans hstops) (tells_of_printed rfl (by rw [hstate])) fun q hleads => ?_
    obtain ⟨u, hu⟩ := decided_of_leads hleads
    rw [hdecide] at hu
    cases hu
  | ok holds t =>
    rw [after_of_ok hdecide] at hstate
    cases holds with
    | false =>
      have hends : (whileRounds l.called expand condition body left).run s =
          .ok [] t := by
        cases left <;> rw [whileRounds, EStateM.run_bind, hdecide] <;> rfl
      refine .ends (hrun.trans hends) (makes_nil_of_next? rfl)
        (tells_of_printed rfl (by rw [hstate])) fun q hleads => ?_
      obtain ⟨u, hu⟩ := decided_of_leads hleads
      rw [hdecide] at hu
      cases hu
    | true =>
      subst hstate
      cases left with
      | zero =>
        have hlimit : SoundsOtherwise "Warning: While loop exceeded max iterations (" := rfl
        refine unfolds_message
          s!"Warning: While loop exceeded max iterations ({t.maxIterations})" rfl
          ((hlimit.append _).append _) ?_ fun q hleads => ?_
        · rw [hrun, whileRounds, EStateM.run_bind, hdecide]
          rfl
        · cases hleads
      | succ left =>
        refine @unfolds_through around base _ ⟨.block levels body, t, l.called.called⟩
          (fun u => ⟨.whileRounds levels left condition body, u, l⟩) (makes_nil_of_next? rfl)
          (tells_of_printed rfl rfl) (fun _ => rfl) ?_ fun r => ⟨?_, ?_⟩
        · rw [hrun, whileRounds, EStateM.run_bind, hdecide]
          exact run_append _ _ _
        · intro hleads
          cases hleads with
          | whileBody hholds =>
            rw [hdecide] at hholds
            cases hholds
            exact .inl rfl
          | whileNext hholds hround =>
            rw [hdecide] at hholds
            cases hholds
            exact .inr ⟨_, _, hround, rfl⟩
        · rintro (rfl | ⟨commands, u, hround, rfl⟩)
          · exact .whileBody hdecide
          · exact .whileNext hdecide hround

/-! ## Walking the lines of a block -/

/-- The commands of a task that is finished. -/
def Task.commands : Task → List String
  | .finished commands => commands
  | _ => []

/-- What a run yields is of a kind. -/
def Results {α : Type} (P : α → Prop) (x : Run α) : Prop :=
  ∀ s a t, x.run s = .ok a t → P a

theorem results_pure {α : Type} {P : α → Prop} {a : α} (h : P a) : Results P (pure a) := by
  intro s b t hrun
  cases hrun
  exact h

theorem Results.bind {α β : Type} {P : α → Prop} {Q : β → Prop} {x : Run α} {f : α → Run β}
    (hx : Results P x) (hf : ∀ a, P a → Results Q (f a)) : Results Q (x >>= f) := by
  intro s b t hrun
  obtain ⟨a, u, ha, hrun⟩ := run_of_bind_ok hrun
  exact hf a (hx s a u ha) u b t hrun

theorem results_bind {α β : Type} {P : β → Prop} {x : Run α} {f : α → Run β}
    (hf : ∀ a, Results P (f a)) : Results P (x >>= f) :=
  Results.bind (fun _ _ _ _ => trivial) fun a _ => hf a

/-- What a line of a kind, if it is no command, may ask for: it has no commands of its own, and if
it is no call either, only lines after it are to be expanded. -/
structure Task.Plain (kind : LineKind) (rest : List String) (task : Task) : Prop where
  commands : task.commands = []
  body : kind ≠ .call → task.body ⊆ rest

theorem results_loopBody (closing : String) (rest : List String) :
    Results (fun part => part.1 ⊆ rest) (loopBody closing rest) := by
  unfold loopBody
  dsimp only
  split
  · exact results_bind fun _ => results_pure (List.take_subset _ rest)
  · exact results_pure (List.take_subset _ rest)

theorem results_prepare (hinclude : classify line ≠ .includeFile)
    (hcommand : classify line ≠ .command) (position : Nat) (rest : List String) :
    Results (fun result => result.1.Plain (classify line) rest)
      (prepare around base position line rest) := by
  have hnone (kind : LineKind) : Task.Plain kind rest (.finished []) :=
    ⟨rfl, fun _ => List.nil_subset rest⟩
  have hreport (kind : LineKind) (message : String) :
      Results (fun result : Task × Nat => result.1.Plain kind rest)
        (do print message; return (.finished [], 0)) :=
    results_bind fun _ => results_pure (hnone kind)
  unfold prepare
  cases hkind : classify line with
  | skipped => exact results_pure (hnone _)
  | includeFile => exact absurd hkind hinclude
  | assignment => exact results_bind fun _ => results_pure (hnone _)
  | forLoop =>
    cases forLoopOf? line with
    | none => exact hreport _ _
    | some pieces =>
      refine results_bind fun text => results_bind fun values => ?_
      exact (results_loopBody "endfor" rest).bind fun part hpart =>
        results_pure ⟨rfl, fun _ => hpart⟩
  | whileLoop =>
    cases argumentOf? "while" line with
    | none => exact hreport _ _
    | some condition =>
      exact (results_loopBody "endwhile" rest).bind fun part hpart =>
        results_pure ⟨rfl, fun _ => hpart⟩
  | conditional =>
    cases argumentOf? "if" line with
    | none => exact hreport _ _
    | some condition =>
      cases hbranches : branches? 0 false rest with
      | none => exact hreport _ _
      | some branches =>
        obtain ⟨hthen, helse⟩ := branches_subset hbranches
        refine results_bind fun holds => results_pure ⟨rfl, fun _ => ?_⟩
        cases holds with
        | true => exact hthen
        | false => exact helse
  | call =>
    cases callOf? line with
    | none => exact hreport _ _
    | some pieces =>
      refine results_bind fun s => ?_
      cases Dict.get? s.subroutines pieces.1 with
      | none => exact hreport _ _
      | some body => exact results_bind fun _ => results_pure ⟨rfl, fun h => absurd rfl h⟩
  | stray => exact hreport _ _
  | command => exact absurd hkind hcommand

section Line

variable {levels position taken : Nat} {raw : String} {rest lines : List String} {task : Task}

/-- The commands of a line itself are those that reading it gives. -/
theorem makes_prepare (hinclude : classify (Text.trim raw) ≠ .includeFile)
    (hread : (prepare around base position (Text.trim raw) rest).run s = .ok (task, taken) t) :
    (Point.mk (.walk levels position (raw :: rest)) s l).Makes task.commands := by
  intro command
  by_cases hcommand : classify (Text.trim raw) = .command
  · unfold prepare at hread
    rw [hcommand] at hread
    obtain ⟨text, u, htext, hread⟩ := run_of_bind_ok hread
    rw [run_expandVariables, still_eq_ok] at htext
    cases hread
    rw [Task.commands, List.mem_singleton]
    constructor
    · rintro rfl
      exact ⟨raw, rfl, hcommand, htext.1⟩
    · rintro ⟨other, hother, -, hgiven⟩
      cases hother
      rw [htext.1] at hgiven
      cases hgiven
      rfl
  · rw [(results_prepare hinclude hcommand position rest s _ t hread).commands]
    refine iff_of_false List.not_mem_nil ?_
    rintro ⟨other, hother, hkind, -⟩
    cases hother
    exact hcommand hkind

/-- Reading a line warns of it if it is unexpected, and of nothing else. -/
theorem tells_prepare (hinclude : classify (Text.trim raw) ≠ .includeFile) :
    (Point.mk (.walk levels position (raw :: rest)) s l).Tells
      (after (prepare around base position (Text.trim raw) rest) s) := by
  by_cases hstray : classify (Text.trim raw) = .stray
  · intro message _
    have hread : after (prepare around base position (Text.trim raw) rest) s =
        { s with printed := s.printed.push (unexpectedWarning (Text.trim raw) position) } := by
      unfold prepare
      rw [hstray]
      rfl
    rw [hread]
    show message ∈ s.printed.push _ ↔ message ∈ s.printed ∨ classify (Text.trim raw) = .stray ∧ _
    rw [Array.mem_push, and_iff_right hstray]
  · refine tells_of_withholding (fun message hwarns => hstray hwarns.1) fun message hmessage => ?_
    have hholds :=
      @withholding_prepare _ message hmessage around base position hinclude hstray rest s
    cases hread : (prepare around base position (Text.trim raw) rest).run s with
    | ok result t =>
      rw [after_of_ok hread]
      exact hholds.yields hread
    | error e t =>
      rw [after_of_error hread]
      exact hholds.fails hread

/-- The state after a task, given the state after what it expands. -/
def Task.settled (task : Task) (t : Interpreter) : Interpreter :=
  match task with
  | .once _ old => { t with bindings := restoredAll t.bindings old }
  | _ => t

theorem printed_settled (task : Task) (t : Interpreter) : (task.settled t).printed = t.printed := by
  cases task <;> rfl

/-- The outcome with another state, if there is a result. -/
def Outcome.settle {α : Type} (f : Interpreter → Interpreter) : Outcome α → Outcome α
  | .ok a t => .ok a (f t)
  | .error e t => .error e t

theorem run_perform {place : Place} (h : task.place? levels s.maxIterations.toNat = some place) :
    (perform l (expandBlock (around.under l).inner base levels) task).run s =
      Outcome.settle task.settled ((place.expand (around.under (task.limits l)) base).run s) := by
  cases task with
  | finished commands => cases h
  | once body old =>
    cases h
    unfold perform
    rw [EStateM.run_bind]
    show _ = Outcome.settle _ ((expandBlock (around.under l).inner base levels body).run s)
    cases (expandBlock (around.under l).inner base levels body).run s with
    | error e t => rfl
    | ok commands t =>
      dsimp only
      rw [EStateM.run_bind, run_restoreAll]
      rfl
  | forEach name values body =>
    cases h
    let rounds := forRounds (expandBlock (around.under l).inner base levels) name body
      s.maxIterations.toNat values
    show rounds.run s = Outcome.settle _ (rounds.run s)
    cases rounds.run s <;> rfl
  | whileHolds condition body =>
    cases h
    let rounds := whileRounds l.called (expandBlock (around.under l).inner base levels) condition
      body s.maxIterations.toNat
    show rounds.run s = Outcome.settle _ (rounds.run s)
    cases rounds.run s <;> rfl

theorem run_expandLine
    (hread : (prepare (around.under l) base position (Text.trim raw) rest).run s =
      .ok (task, taken) t) :
    (expandLine (around.under l) base (expandBlock (around.under l).inner base levels) position
        (Text.trim raw) rest).run s =
      Outcome.map (·, taken)
        ((perform l (expandBlock (around.under l).inner base levels) task).run t) := by
  rw [expandLine_eq_perform, EStateM.run_bind, hread]
  exact run_bind_pure _ _ _

/-- The walk does a line and then the lines after those that it took. -/
theorem outcome_walk
    (hread : (prepare (around.under l) base position (Text.trim raw) rest).run s =
      .ok (task, taken) t) :
    (Point.mk (.walk levels position (raw :: rest)) s l).outcome around base =
      Outcome.followed
        ((perform l (expandBlock (around.under l).inner base levels) task).run t) fun u =>
        (Point.mk (.walk levels (position + 1 + taken) (rest.drop taken)) u l).outcome
          around base := by
  show (expandLines (around.under l) base (expandBlock (around.under l).inner base levels) position
    (raw :: rest)).run s = _
  rw [expandLines, EStateM.run_bind, run_expandLine hread]
  cases (perform l (expandBlock (around.under l).inner base levels) task).run t with
  | error e u => rfl
  | ok commands u => exact run_bind_pure _ _ _

theorem unfolds_unread (hinclude : classify (Text.trim raw) ≠ .includeFile) {e : ScriptError}
    (hread : (prepare (around.under l) base position (Text.trim raw) rest).run s = .error e t) :
    Unfolds around base ⟨.walk levels position (raw :: rest), s, l⟩ := by
  have hstops : (expandLine (around.under l) base (expandBlock (around.under l).inner base levels)
      position (Text.trim raw) rest).run s = .error e t := by
    rw [expandLine_eq_perform, EStateM.run_bind, hread]
  have hrun : (expandLines (around.under l) base (expandBlock (around.under l).inner base levels)
      position (raw :: rest)).run s = .error e t := by
    rw [expandLines, EStateM.run_bind, hstops]
  have htells := @tells_prepare (around.under l) base s l levels position raw rest hinclude
  rw [after_of_error hread] at htells
  refine .stops hrun htells fun q hleads => ?_
  cases hleads with
  | asks hread' _ =>
    rw [hread] at hread'
    cases hread'
  | next hrun' =>
    rw [hstops] at hrun'
    cases hrun'

/-- A line that asks for nothing to be expanded is followed by the next one. -/
theorem unfolds_finished (hinclude : classify (Text.trim raw) ≠ .includeFile) {own : List String}
    (hread : (prepare (around.under l) base position (Text.trim raw) rest).run s =
      .ok (.finished own, taken) t) :
    Unfolds around base ⟨.walk levels position (raw :: rest), s, l⟩ := by
  have hexpand := @run_expandLine around base s t l levels position taken raw rest _ hread
  have htells := @tells_prepare (around.under l) base s l levels position raw rest hinclude
  rw [after_of_ok hread] at htells
  refine .goesOn (outcome_walk hread) (makes_prepare hinclude hread) htells fun r => ⟨?_, ?_⟩
  · intro hleads
    cases hleads with
    | asks hread' hplace =>
      rw [hread] at hread'
      cases hread'
      cases hplace
    | next hrun' =>
      rw [hexpand] at hrun'
      cases hrun'
      rfl
  · rintro rfl
    exact .next hexpand

/-- A line that asks for something to be expanded is followed by that and then by the next one. -/
theorem unfolds_asks (hinclude : classify (Text.trim raw) ≠ .includeFile) {place : Place}
    (hread : (prepare (around.under l) base position (Text.trim raw) rest).run s =
      .ok (task, taken) t)
    (hplace : task.place? levels t.maxIterations.toNat = some place) :
    Unfolds around base ⟨.walk levels position (raw :: rest), s, l⟩ := by
  have hexpand := @run_expandLine around base s t l levels position taken raw rest _ hread
  have htells := @tells_prepare (around.under l) base s l levels position raw rest hinclude
  have hmakes :=
    @makes_prepare (around.under l) base s t l levels position taken raw rest task hinclude hread
  have hrun := @outcome_walk around base s t l levels position taken raw rest task hread
  rw [after_of_ok hread] at htells
  rw [run_perform hplace] at hexpand hrun
  have hown : task.commands = [] := by
    cases task with
    | finished own => cases hplace
    | once body old => rfl
    | forEach name values body => rfl
    | whileHolds condition body => rfl
  rw [hown] at hmakes
  refine @unfolds_through around base _ ⟨place, t, task.limits l⟩
    (fun u => ⟨.walk levels (position + 1 + taken) (rest.drop taken), task.settled u, l⟩)
    hmakes htells (printed_settled task) ?_ fun r => ⟨?_, ?_⟩
  · rw [hrun]
    unfold Point.outcome
    cases (place.expand (around.under (task.limits l)) base).run t <;> rfl
  · intro hleads
    cases hleads with
    | asks hread' hplace' =>
      rw [hread] at hread'
      cases hread'
      rw [hplace] at hplace'
      cases hplace'
      exact .inl rfl
    | next hrun' =>
      rw [hexpand] at hrun'
      unfold Point.outcome
      cases houtcome : (place.expand (around.under (task.limits l)) base).run t with
      | error e u =>
        rw [houtcome] at hrun'
        cases hrun'
      | ok commands u =>
        rw [houtcome] at hrun'
        cases hrun'
        exact .inr ⟨_, u, rfl, rfl⟩
  · rintro (rfl | ⟨commands, u, houtcome, rfl⟩)
    · exact .asks hread hplace
    · unfold Point.outcome at houtcome
      rw [houtcome] at hexpand
      exact .next hexpand

theorem unfolds_walk {lines : List String}
    (hlines : ∀ raw ∈ lines, classify (Text.trim raw) ≠ .includeFile) :
    Unfolds around base ⟨.walk levels position lines, s, l⟩ := by
  cases lines with
  | nil =>
    have hrun : (expandLines (around.under l) base (expandBlock (around.under l).inner base levels)
        position []).run s =
        .ok [] s := by
      rw [expandLines]
      rfl
    refine .ends hrun (makes_nil_of_next? rfl) (tells_of_printed rfl rfl) fun q hleads => ?_
    cases hleads
  | cons raw rest =>
    have hinclude := hlines raw List.mem_cons_self
    cases hread : (prepare (around.under l) base position (Text.trim raw) rest).run s with
    | error e t => exact unfolds_unread hinclude hread
    | ok result t =>
      obtain ⟨task, taken⟩ := result
      cases hplace : task.place? levels t.maxIterations.toNat with
      | some place => exact unfolds_asks hinclude hread hplace
      | none =>
        cases task with
        | finished own => exact unfolds_finished hinclude hread
        | once body old => cases hplace
        | forEach name values body => cases hplace
        | whileHolds condition body => cases hplace

end Line

/-- Every expansion consists of what its first point puts out and of what the points put out that it
leads to. -/
theorem unfolds {given : List String}
    (hgiven : ∀ raw ∈ given, classify (Text.trim raw) ≠ .includeFile) (hp : p.Within given) :
    Unfolds around base p := by
  obtain ⟨place, s, l⟩ := p
  cases place with
  | block levels lines => exact unfolds_block levels lines s
  | walk levels position lines => exact unfolds_walk fun raw hraw => hgiven raw (hp.lines hraw)
  | forRounds levels left name values body => exact unfolds_forRounds levels left name values body s
  | whileRounds levels left condition body => exact unfolds_whileRounds levels left condition body s

end Unfolding

/-! ## What comes up along the way -/

section Reached

variable {around : Surroundings} {base : Option Path} {p : Point} {given : List String}

/-- What is at a point that is reached is there at once, or is reached from a point that comes
next. -/
theorem exists_reached_iff {P : Point → Prop} :
    (∃ r, Reaches around base p r ∧ P r) ↔
      P p ∨ ∃ q, Leads around base p q ∧ ∃ r, Reaches around base q r ∧ P r := by
  constructor
  · rintro ⟨r, hreaches, hr⟩
    rcases Relation.ReflTransGen.cases_head hreaches with rfl | ⟨q, hleads, hreaches⟩
    · exact .inl hr
    · exact .inr ⟨q, hleads, r, hreaches, hr⟩
  · rintro (hp | ⟨q, hleads, r, hreaches, hr⟩)
    · exact ⟨p, .refl, hp⟩
    · exact ⟨r, .head hleads hreaches, hr⟩

/-- What is put in front of the commands does not touch the state. -/
theorem after_of_map {q : Point} {own : List String}
    (h : p.outcome around base = Outcome.map (own ++ ·) (q.outcome around base)) :
    after (p.place.expand (around.under p.limits) base) p.state =
      after (q.place.expand (around.under q.limits) base) q.state := by
  cases hq : q.outcome around base with
  | ok commands t =>
    rw [hq] at h
    exact (after_of_ok h).trans (after_of_ok hq).symm
  | error e t =>
    rw [hq] at h
    exact (after_of_error h).trans (after_of_error hq).symm

variable (hgiven : ∀ raw ∈ given, classify (Text.trim raw) ≠ .includeFile)
include hgiven

/-- An expansion that comes to its end yields the commands that are given where it comes. What
decreases is the rank of the place. -/
theorem mem_commands_iff_reached (p : Point) (hp : p.Within given) {commands : List String}
    {t : Interpreter} (hrun : p.outcome around base = .ok commands t) (command : String) :
    command ∈ commands ↔ ∃ r, Reaches around base p r ∧ r.Gives command := by
  rw [exists_reached_iff]
  cases @unfolds around base p given hgiven hp with
  | stops houtcome _ _ =>
    rw [houtcome] at hrun
    cases hrun
  | ends houtcome hmakes _ hleads =>
    rw [houtcome] at hrun
    cases hrun
    rw [hmakes, or_iff_left]
    rintro ⟨q, hq, -⟩
    exact hleads q hq
  | @goesOn own q houtcome hmakes _ hleads =>
    rw [houtcome] at hrun
    cases hq : q.outcome around base with
    | error e u =>
      rw [hq] at hrun
      cases hrun
    | ok more u =>
      rw [hq] at hrun
      cases hrun
      have hstep : Leads around base p q := (hleads q).mpr rfl
      have ih := mem_commands_iff_reached q (hstep.within hp) hq command
      rw [List.mem_append, hmakes, ih]
      simp only [hleads, exists_eq_left]
  | @stopsWithin q e u _ houtcome _ _ =>
    rw [houtcome] at hrun
    cases hrun
  | @within q q' inner u hq _ houtcome hmakes _ hleads =>
    rw [houtcome] at hrun
    cases hq' : q'.outcome around base with
    | error e v =>
      rw [hq'] at hrun
      cases hrun
    | ok more v =>
      rw [hq'] at hrun
      cases hrun
      have hstep : Leads around base p q := (hleads q).mpr (.inl rfl)
      have hstep' : Leads around base p q' := (hleads q').mpr (.inr rfl)
      have ih := mem_commands_iff_reached q (hstep.within hp) hq command
      have ih' := mem_commands_iff_reached q' (hstep'.within hp) hq' command
      have hnone : ¬ p.Gives command := fun h => List.not_mem_nil ((hmakes command).mpr h)
      rw [List.mem_append, ih, ih', or_iff_right hnone]
      simp only [hleads, or_and_right, exists_or, exists_eq_left]
termination_by p.place.rank
decreasing_by all_goals exact Leads.rank_lt ‹_›

/-- An expansion, however it ends, has printed the warning of an unexpected line exactly if that had
been printed before, or the line is reached. -/
theorem warned_iff_reached (p : Point) (hp : p.Within given)
    (hmessage : SoundsUnexpected message) :
    message ∈ (after (p.place.expand (around.under p.limits) base) p.state).printed ↔
      message ∈ p.state.printed ∨ ∃ r, Reaches around base p r ∧ r.Warns message := by
  rw [exists_reached_iff, ← or_assoc]
  cases @unfolds around base p given hgiven hp with
  | stops houtcome htells hleads =>
    rw [after_of_error houtcome, htells message hmessage, or_iff_left (a := _ ∨ _)]
    rintro ⟨q, hq, -⟩
    exact hleads q hq
  | ends houtcome _ htells hleads =>
    rw [after_of_ok houtcome, htells message hmessage, or_iff_left (a := _ ∨ _)]
    rintro ⟨q, hq, -⟩
    exact hleads q hq
  | @goesOn own q houtcome _ htells hleads =>
    have hstep : Leads around base p q := (hleads q).mpr rfl
    have ih := warned_iff_reached q (hstep.within hp) hmessage
    rw [after_of_map houtcome, ih, htells message hmessage]
    simp only [hleads, exists_eq_left]
  | @stopsWithin q e u hq houtcome htells hleads =>
    have hstep : Leads around base p q := (hleads q).mpr rfl
    have ih := warned_iff_reached q (hstep.within hp) hmessage
    rw [after_of_error houtcome, ← after_of_error hq, ih, htells message hmessage]
    simp only [hleads, exists_eq_left]
  | @within q q' inner u hq hprinted houtcome _ htells hleads =>
    have hstep : Leads around base p q := (hleads q).mpr (.inl rfl)
    have hstep' : Leads around base p q' := (hleads q').mpr (.inr rfl)
    have ih := warned_iff_reached q (hstep.within hp) hmessage
    have ih' := warned_iff_reached q' (hstep'.within hp) hmessage
    rw [after_of_map houtcome, ih', hprinted, ← after_of_ok hq, ih, htells message hmessage]
    simp only [hleads, or_and_right, exists_or, exists_eq_left, or_assoc]
termination_by p.place.rank
decreasing_by all_goals exact Leads.rank_lt ‹_›

end Reached

end RobotConsole.Script
