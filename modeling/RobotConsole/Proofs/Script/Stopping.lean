import Mathlib.Logic.Relation
import RobotConsole.Proofs.Script.Provenance
import RobotConsole.Proofs.Script.Trouble

/-!
# When a script stops

An expansion goes from place to place: into a block, from line to line, into the rounds of a loop
and into their bodies. `Leads` says from which point it goes to which, a point being a place and the
state in which it is reached, and `Point.Trouble` what can be wrong there. A script that includes no
file stops with an error exactly if it reaches a point where that error has its cause; when it
reaches none, it yields its commands (`stops_iff_trouble_reached`).

One step goes both ways: what is wrong at a point, or at one that it leads to, stops the expansion,
and nothing else does (`stops_iff_step`). Along the way the levels, lines and rounds left decrease
(`Leads.rank_lt`), so following an expansion that stops ends at the cause.
-/

namespace RobotConsole.Script

open Arithmetic (Value)
open Storage (Path)
open Contract

/-- A place that an expansion comes to: a block, the lines of a block from a position on, or the
rounds of a loop that are left. The blocks inside of a place have `levels` left. -/
inductive Place where
  | block (levels : Nat) (lines : List String)
  | walk (levels position : Nat) (lines : List String)
  | forRounds (levels left : Nat) (name : String) (values : List Value) (body : List String)
  | whileRounds (levels left : Nat) (condition : String) (body : List String)

/-- The lines in play at a place. -/
def Place.lines : Place → List String
  | .block _ lines => lines
  | .walk _ _ lines => lines
  | .forRounds _ _ _ _ body => body
  | .whileRounds _ _ _ body => body

/-- What is left to expand from a place on. -/
def Place.expand (around : Surroundings) (base : Option Path) : Place → Run (List String)
  | .block levels lines => expandBlock around base levels lines
  | .walk levels position lines =>
    expandLines around base (expandBlock around.inner base levels) position lines
  | .forRounds levels left name values body =>
    Script.forRounds (expandBlock around.inner base levels) name body left values
  | .whileRounds levels left condition body =>
    Script.whileRounds around.limits.called (expandBlock around.inner base levels) condition body
      left

/-- A place, the state in which it is reached, and what its block is allowed. -/
structure Point where
  place : Place
  state : Interpreter
  limits : Limits

/-- The expansion stops with an error from a point on. -/
def Point.Stops (around : Surroundings) (base : Option Path) (p : Point) (e : ScriptError) : Prop :=
  Script.Stops (p.place.expand (around.under p.limits) base) p.state e

/-- What can be wrong at a point: something with the line that is next there, or with the condition
of a while loop. -/
def Point.Trouble (p : Point) (e : ScriptError) : Prop :=
  match p.place with
  | .walk _ _ (raw :: rest) => LineTrouble p.limits p.state.bindings (Text.trim raw) rest e
  | .whileRounds _ _ condition _ =>
    ConditionTrouble p.limits.called p.state.bindings condition e
  | _ => False

/-- The place that a task starts at, if it expands anything. -/
def Task.place? (levels limit : Nat) : Task → Option Place
  | .finished _ => none
  | .once body _ => some (.block levels body)
  | .forEach name values body => some (.forRounds levels limit name values body)
  | .whileHolds condition body => some (.whileRounds levels limit condition body)

/-- What the place is allowed that a task starts at: a block is two calls further down, and loops
stay in the block they are in. -/
def Task.limits (l : Limits) : Task → Limits
  | .once _ _ => l.called.called
  | _ => l

/-- From which point an expansion goes to which. -/
inductive Leads (around : Surroundings) (base : Option Path) : Point → Point → Prop
  /-- The lines of a block are walked from the first on. -/
  | enter {levels : Nat} {lines : List String} {s : Interpreter} {l : Limits} :
      Leads around base ⟨.block (levels + 1) lines, s, l⟩ ⟨.walk levels 0 lines, s, l⟩
  /-- A line that is read asks for something to be expanded. -/
  | asks {levels position taken : Nat} {raw : String} {rest : List String} {s t : Interpreter}
      {task : Task} {place : Place} {l : Limits} :
      (prepare (around.under l) base position (Text.trim raw) rest).run s = .ok (task, taken) t →
      task.place? levels t.maxIterations.toNat = some place →
      Leads around base ⟨.walk levels position (raw :: rest), s, l⟩ ⟨place, t, task.limits l⟩
  /-- After a line, the walk goes on behind the lines that it took. -/
  | next {levels position taken : Nat} {raw : String} {rest commands : List String}
      {s t : Interpreter} {l : Limits} :
      (expandLine (around.under l) base (expandBlock (around.under l).inner base levels) position
        (Text.trim raw) rest).run s = .ok (commands, taken) t →
      Leads around base ⟨.walk levels position (raw :: rest), s, l⟩
        ⟨.walk levels (position + 1 + taken) (rest.drop taken), t, l⟩
  /-- A round of a for loop expands the body with the loop variable lent to it. -/
  | forBody {levels left : Nat} {name : String} {value : Value} {values : List Value}
      {body : List String} {s : Interpreter} {l : Limits} :
      Leads around base ⟨.forRounds levels (left + 1) name (value :: values) body, s, l⟩
        ⟨.block levels body, s.lend name value, l.called.called⟩
  /-- After a round of a for loop, the variable is given back and the next value is due. -/
  | forNext {levels left : Nat} {name : String} {value : Value} {values : List Value}
      {body commands : List String} {s t : Interpreter} {l : Limits} :
      (expandBlock (around.under l).inner base levels body).run (s.lend name value) =
        .ok commands t →
      Leads around base ⟨.forRounds levels (left + 1) name (value :: values) body, s, l⟩
        ⟨.forRounds levels left name values body,
          { t with bindings := restored t.bindings name (Dict.get? s.bindings name) }, l⟩
  /-- A round of a while loop expands the body if the condition holds. -/
  | whileBody {levels left : Nat} {condition : String} {body : List String} {s t : Interpreter}
      {l : Limits} :
      (evaluateCondition l.called condition).run s = .ok true t →
      Leads around base ⟨.whileRounds levels (left + 1) condition body, s, l⟩
        ⟨.block levels body, t, l.called.called⟩
  /-- After a round of a while loop, the condition is due again. -/
  | whileNext {levels left : Nat} {condition : String} {body commands : List String}
      {s t u : Interpreter} {l : Limits} :
      (evaluateCondition l.called condition).run s = .ok true t →
      (expandBlock (around.under l).inner base levels body).run t = .ok commands u →
      Leads around base ⟨.whileRounds levels (left + 1) condition body, s, l⟩
        ⟨.whileRounds levels left condition body, u, l⟩

/-- The points that an expansion comes to from a point on, that point included. -/
abbrev Reaches (around : Surroundings) (base : Option Path) : Point → Point → Prop :=
  Relation.ReflTransGen (Leads around base)

variable {around : Surroundings} {base : Option Path} {p q : Point} {s : Interpreter}
  {l : Limits} {e : ScriptError}

/-! ## The way down -/

/-- What is left at a place: first the levels and the kind of place in a level, then the lines or
rounds. -/
def Place.rank : Place → Nat × Nat
  | .block levels _ => (3 * levels, 0)
  | .forRounds levels left _ _ _ => (3 * levels + 1, left)
  | .whileRounds levels left _ _ => (3 * levels + 1, left)
  | .walk levels _ lines => (3 * levels + 2, lines.length)

theorem Leads.rank_lt (h : Leads around base p q) :
    Prod.Lex (· < ·) (· < ·) q.place.rank p.place.rank := by
  cases h with
  | enter => exact .left _ _ (by omega)
  | @asks levels position taken raw rest s t task place l _ hplace =>
    cases task with
    | finished => cases hplace
    | once body old =>
      cases hplace
      exact .left _ _ (by omega)
    | forEach name values body =>
      cases hplace
      exact .left _ _ (by omega)
    | whileHolds condition body =>
      cases hplace
      exact .left _ _ (by omega)
  | next =>
    refine .right _ ?_
    rw [List.length_drop, List.length_cons]
    omega
  | forBody => exact .left _ _ (by omega)
  | forNext => exact .right _ (by omega)
  | whileBody => exact .left _ _ (by omega)
  | whileNext => exact .right _ (by omega)

/-! ## Lines in play -/

/-- Only given lines are in play at a point. -/
structure Point.Within (given : List String) (p : Point) : Prop where
  lines : p.place.lines ⊆ given
  state : p.state.HoldsOnly given

/-- The lines that a task expands. -/
def Task.body : Task → List String
  | .finished _ => []
  | .once body _ => body
  | .forEach _ _ body => body
  | .whileHolds _ body => body

theorem lines_of_place? {levels limit : Nat} {task : Task} {place : Place}
    (h : task.place? levels limit = some place) : place.lines = task.body := by
  cases task <;> cases h <;> rfl

section Within

variable {given : List String}

/-- A line asks for the expansion of lines after it, or of a subroutine. -/
theorem emits_prepare (position : Nat) (line : String) {rest : List String} (hrest : rest ⊆ given) :
    Emits given (fun result => result.1.body ⊆ given) (prepare around base position line rest) := by
  have hnil : ([] : List String) ⊆ given := List.nil_subset given
  have hreport (message : String) : Emits given (fun result : Task × Nat => result.1.body ⊆ given)
      (do print message; return (.finished [], 0)) :=
    (emits_print message).bind fun _ _ => emits_pure hnil
  unfold prepare
  cases classify line with
  | skipped => exact emits_pure hnil
  | includeFile =>
    exact (emits_of_scope (keeping_expandInclude around base line)).bind fun _ _ =>
      emits_pure hnil
  | assignment => exact (emits_of_scope (scope_assign line)).bind fun _ _ => emits_pure hnil
  | forLoop =>
    cases forLoopOf? line with
    | none => exact hreport _
    | some parts =>
      refine (emits_of_scope (keeping_expandVariables _)).bind fun text _ => ?_
      refine (emits_of_scope (keeping_loopValues text)).bind fun values _ => ?_
      exact (emits_loopBody "endfor" hrest).bind fun part hpart => emits_pure hpart
  | whileLoop =>
    cases argumentOf? "while" line with
    | none => exact hreport _
    | some condition =>
      exact (emits_loopBody "endwhile" hrest).bind fun part hpart => emits_pure hpart
  | conditional =>
    cases argumentOf? "if" line with
    | none => exact hreport _
    | some condition =>
      cases hparts : branches? 0 false rest with
      | none => exact hreport _
      | some parts =>
        obtain ⟨hthen, helse⟩ := branches_subset hparts
        refine (emits_of_scope (keeping_evaluateCondition _)).bind fun holds _ => ?_
        refine emits_pure ?_
        cases holds with
        | true => exact List.Subset.trans hthen hrest
        | false => exact List.Subset.trans helse hrest
  | call =>
    cases callOf? line with
    | none => exact hreport _
    | some parts =>
      refine emits_get.bind fun s hs => ?_
      cases hbody : Dict.get? s.subroutines parts.1 with
      | none => exact hreport _
      | some body =>
        exact (emits_of_scope (scope_bindArguments 1 _)).bind fun _ _ =>
          emits_pure (hs _ body hbody)
  | stray => exact hreport _
  | command => exact (emits_of_scope (keeping_expandVariables line)).bind fun _ _ => emits_pure hnil

/-- What keeps the scope of names brings no other lines into play. -/
theorem holdsOnly_of_scope {α : Type} {x : Run α} (hx : scope.Holds x) {a : α} {t : Interpreter}
    (hs : s.HoldsOnly given) (hrun : x.run s = .ok a t) : t.HoldsOnly given :=
  (emits_of_scope hx s hs a t hrun).1

theorem Leads.within (h : Leads around base p q) (hp : p.Within given) : q.Within given := by
  cases h with
  | enter => exact ⟨hp.lines, hp.state⟩
  | asks hread hplace =>
    have hrest := (List.cons_subset.mp hp.lines).2
    obtain ⟨hstate, hbody⟩ := emits_prepare _ _ hrest _ hp.state _ _ hread
    exact ⟨by rw [lines_of_place? hplace]; exact hbody, hstate⟩
  | next hrun =>
    refine ⟨?_, holdsOnly_of_scope ?_ hp.state hrun⟩
    · exact List.Subset.trans (List.drop_subset _ _) (List.cons_subset.mp hp.lines).2
    · exact scope_expandLine (scope_expandBlock _ base _) _ base _ _ _
  | forBody => exact ⟨hp.lines, hp.state⟩
  | @forNext _ _ name value _ _ _ s t _ hrun =>
    have hlent : (s.lend name value).HoldsOnly given := hp.state
    have ht : t.HoldsOnly given :=
      holdsOnly_of_scope (scope_expandBlock _ base _ _) hlent hrun
    exact ⟨hp.lines, ht⟩
  | whileBody hholds =>
    exact ⟨hp.lines, holdsOnly_of_scope (keeping_evaluateCondition _) hp.state hholds⟩
  | whileNext hholds hrun =>
    have ht := holdsOnly_of_scope (keeping_evaluateCondition _) hp.state hholds
    exact ⟨hp.lines, holdsOnly_of_scope (scope_expandBlock _ base _ _) ht hrun⟩

end Within

/-! ## One step -/

/-- A task stops exactly if the place does that it starts at. Giving names back never fails. -/
theorem stops_perform {levels : Nat} {task : Task} :
    Stops (perform l (expandBlock (around.under l).inner base levels) task) s e ↔
      ∃ place, task.place? levels s.maxIterations.toNat = some place ∧
        Stops (place.expand (around.under (task.limits l)) base) s e := by
  have hget : (get : Run Interpreter).run s = .ok s s := rfl
  cases task with
  | finished commands => simp [perform, Task.place?, stops_pure]
  | once body old =>
    simp only [perform, Task.place?, Option.some.injEq, exists_eq_left']
    rw [stops_bind, or_iff_left]
    · rfl
    · rintro ⟨commands, t, _, u, hu⟩
      rw [EStateM.run_bind, run_restoreAll] at hu
      cases hu
  | forEach name values body =>
    simp only [perform, Task.place?, Option.some.injEq, exists_eq_left']
    exact stops_bind_of_ok hget
  | whileHolds condition body =>
    simp only [perform, Task.place?, Option.some.injEq, exists_eq_left']
    exact stops_bind_of_ok hget

theorem stops_expandLine {levels position : Nat} {line : String} {rest : List String}
    (hline : classify line ≠ .includeFile) :
    Stops (expandLine (around.under l) base (expandBlock (around.under l).inner base levels)
        position line rest) s e ↔
      LineTrouble l s.bindings line rest e ∨ ∃ task taken t place,
        (prepare (around.under l) base position line rest).run s = .ok (task, taken) t ∧
        task.place? levels t.maxIterations.toNat = some place ∧
        Stops (place.expand (around.under (task.limits l)) base) t e := by
  rw [expandLine_eq_perform, stops_bind, stops_prepare hline]
  refine or_congr_right ⟨?_, ?_⟩
  · rintro ⟨⟨task, taken⟩, t, hread, h⟩
    obtain ⟨place, hplace, h⟩ := stops_perform.mp (stops_bind_pure.mp h)
    exact ⟨task, taken, t, place, hread, hplace, h⟩
  · rintro ⟨task, taken, t, place, hread, hplace, h⟩
    exact ⟨(task, taken), t, hread, stops_bind_pure.mpr (stops_perform.mpr ⟨place, hplace, h⟩)⟩

theorem stops_expandLines {expand : Expander} {position : Nat} {raw : String}
    {rest : List String} :
    Stops (expandLines around base expand position (raw :: rest)) s e ↔
      Stops (expandLine around base expand position (Text.trim raw) rest) s e ∨
      ∃ commands taken t,
        (expandLine around base expand position (Text.trim raw) rest).run s =
          .ok (commands, taken) t ∧
        Stops (expandLines around base expand (position + 1 + taken) (rest.drop taken)) t e := by
  rw [expandLines, stops_bind]
  refine or_congr_right ⟨?_, ?_⟩
  · rintro ⟨⟨commands, taken⟩, t, hrun, h⟩
    exact ⟨commands, taken, t, hrun, stops_bind_pure.mp h⟩
  · rintro ⟨commands, taken, t, hrun, h⟩
    exact ⟨(commands, taken), t, hrun, stops_bind_pure.mpr h⟩

/-- Lending a name and giving it back never fails, so only the body can stop. -/
theorem stops_lending {name : String} {value : Value} {body : Run (List String)} :
    Stops (lending name value body) s e ↔ Stops body (s.lend name value) e := by
  unfold Stops
  rw [run_lending]
  cases body.run (s.lend name value) with
  | ok commands t => simp
  | error e' t => simp

theorem stops_forRounds {levels left : Nat} {name : String} {value : Value} {values : List Value}
    {body : List String} :
    Stops (forRounds (expandBlock around base levels) name body (left + 1) (value :: values)) s e ↔
      Stops (expandBlock around base levels body) (s.lend name value) e ∨
      ∃ commands t, (expandBlock around base levels body).run (s.lend name value) =
          .ok commands t ∧
        Stops (forRounds (expandBlock around base levels) name body left values)
          { t with bindings := restored t.bindings name (Dict.get? s.bindings name) } e := by
  rw [forRounds, forRound_eq_lending (scope_expandBlock around base levels body), stops_andThen,
    stops_lending]
  refine or_congr_right ⟨?_, ?_⟩
  · rintro ⟨commands, u, hlent, h⟩
    rw [run_lending] at hlent
    split at hlent
    · rename_i commands t hrun
      cases hlent
      exact ⟨commands, t, hrun, h⟩
    · cases hlent
  · rintro ⟨commands, t, hrun, h⟩
    exact ⟨commands, _, by rw [run_lending, hrun], h⟩

theorem stops_whileRounds {expand : Expander} {left : Nat} {condition : String}
    {body : List String} :
    Stops (whileRounds l expand condition body (left + 1)) s e ↔
      ConditionTrouble l s.bindings condition e ∨
      ∃ t, (evaluateCondition l condition).run s = .ok true t ∧
        (Stops (expand body) t e ∨
        ∃ commands u, (expand body).run t = .ok commands u ∧
          Stops (whileRounds l expand condition body left) u e) := by
  rw [whileRounds, stops_bind, stops_evaluateCondition]
  refine or_congr_right ⟨?_, ?_⟩
  · rintro ⟨holds, t, hholds, h⟩
    cases holds with
    | false => exact absurd h (stops_pure _)
    | true => exact ⟨t, hholds, stops_andThen.mp h⟩
  · rintro ⟨t, hholds, h⟩
    exact ⟨true, t, hholds, stops_andThen.mpr h⟩

/-- When no round is left, only the condition can stop a while loop. -/
theorem stops_whileRounds_zero {expand : Expander} {condition : String} {body : List String} :
    Stops (whileRounds l expand condition body 0) s e ↔
      ConditionTrouble l s.bindings condition e := by
  rw [whileRounds, stops_bind, stops_evaluateCondition, or_iff_left]
  rintro ⟨holds, t, _, u, hu⟩
  cases holds <;> cases hu

theorem step_idle (hstops : ¬ p.Stops around base e) (htrouble : ¬ p.Trouble e)
    (hleads : ∀ q, ¬ Leads around base p q) :
    p.Stops around base e ↔ p.Trouble e ∨ ∃ q, Leads around base p q ∧ q.Stops around base e := by
  refine iff_of_false hstops ?_
  rintro (h | ⟨q, h, _⟩)
  · exact htrouble h
  · exact hleads q h

theorem step_block (levels : Nat) (lines : List String) :
    (Point.mk (.block levels lines) s l).Stops around base e ↔
      (Point.mk (.block levels lines) s l).Trouble e ∨
        ∃ q, Leads around base ⟨.block levels lines, s, l⟩ q ∧ q.Stops around base e := by
  cases levels with
  | zero =>
    refine step_idle (stops_print_pure _ _) id fun q hleads => ?_
    cases hleads
  | succ levels =>
    constructor
    · intro h
      exact .inr ⟨_, .enter, h⟩
    · rintro (h | ⟨q, hleads, h⟩)
      · exact h.elim
      · cases hleads
        exact h

theorem step_walk (levels position : Nat) {lines : List String}
    (hlines : ∀ raw ∈ lines, classify (Text.trim raw) ≠ .includeFile) :
    (Point.mk (.walk levels position lines) s l).Stops around base e ↔
      (Point.mk (.walk levels position lines) s l).Trouble e ∨
        ∃ q, Leads around base ⟨.walk levels position lines, s, l⟩ q ∧ q.Stops around base e := by
  cases lines with
  | nil =>
    refine step_idle ?_ id fun q hleads => ?_
    · unfold Point.Stops Place.expand expandLines
      exact stops_pure _
    · cases hleads
  | cons raw rest =>
    have hline := hlines raw List.mem_cons_self
    refine (stops_expandLines.trans (or_congr_left (stops_expandLine hline))).trans ?_
    constructor
    · rintro ((h | ⟨task, taken, t, place, hread, hplace, h⟩) | ⟨commands, taken, t, hrun, h⟩)
      · exact .inl h
      · exact .inr ⟨_, .asks hread hplace, h⟩
      · exact .inr ⟨_, .next hrun, h⟩
    · rintro (h | ⟨q, hleads, h⟩)
      · exact .inl (.inl h)
      · cases hleads with
        | asks hread hplace => exact .inl (.inr ⟨_, _, _, _, hread, hplace, h⟩)
        | next hrun => exact .inr ⟨_, _, _, hrun, h⟩

theorem step_forRounds (levels left : Nat) (name : String) (values : List Value)
    (body : List String) :
    (Point.mk (.forRounds levels left name values body) s l).Stops around base e ↔
      (Point.mk (.forRounds levels left name values body) s l).Trouble e ∨
        ∃ q, Leads around base ⟨.forRounds levels left name values body, s, l⟩ q ∧
          q.Stops around base e := by
  cases values with
  | nil =>
    refine step_idle ?_ id fun q hleads => ?_
    · unfold Point.Stops Place.expand forRounds
      exact stops_pure _
    · cases hleads
  | cons value values =>
    cases left with
    | zero =>
      refine step_idle ?_ id fun q hleads => ?_
      · rintro ⟨t, ht⟩
        cases ht
      · cases hleads
    | succ left =>
      refine stops_forRounds.trans ⟨?_, ?_⟩
      · rintro (h | ⟨commands, t, hrun, h⟩)
        · exact .inr ⟨_, .forBody, h⟩
        · exact .inr ⟨_, .forNext hrun, h⟩
      · rintro (h | ⟨q, hleads, h⟩)
        · exact h.elim
        · cases hleads with
          | forBody => exact .inl h
          | forNext hrun => exact .inr ⟨_, _, hrun, h⟩

theorem step_whileRounds (levels left : Nat) (condition : String) (body : List String) :
    (Point.mk (.whileRounds levels left condition body) s l).Stops around base e ↔
      (Point.mk (.whileRounds levels left condition body) s l).Trouble e ∨
        ∃ q, Leads around base ⟨.whileRounds levels left condition body, s, l⟩ q ∧
          q.Stops around base e := by
  cases left with
  | zero =>
    show Stops (whileRounds l.called (expandBlock (around.under l).inner base levels)
      condition body 0) s e ↔ _
    rw [stops_whileRounds_zero]
    refine ⟨.inl, ?_⟩
    rintro (h | ⟨q, hleads, _⟩)
    · exact h
    · cases hleads
  | succ left =>
    refine stops_whileRounds.trans ⟨?_, ?_⟩
    · rintro (h | ⟨t, hholds, h | ⟨commands, u, hrun, h⟩⟩)
      · exact .inl h
      · exact .inr ⟨_, .whileBody hholds, h⟩
      · exact .inr ⟨_, .whileNext hholds hrun, h⟩
    · rintro (h | ⟨q, hleads, h⟩)
      · exact .inl h
      · cases hleads with
        | whileBody hholds => exact .inr ⟨_, hholds, .inl h⟩
        | whileNext hholds hrun => exact .inr ⟨_, hholds, .inr ⟨_, _, hrun, h⟩⟩

/-- The expansion stops from a point on exactly if something is wrong there, or if it stops from a
point on that this one leads to. -/
theorem stops_iff_step {given : List String}
    (hgiven : ∀ raw ∈ given, classify (Text.trim raw) ≠ .includeFile) (hp : p.Within given) :
    p.Stops around base e ↔ p.Trouble e ∨ ∃ q, Leads around base p q ∧ q.Stops around base e := by
  obtain ⟨place, s, l⟩ := p
  cases place with
  | block levels lines => exact step_block levels lines
  | walk levels position lines =>
    exact step_walk levels position fun raw hraw => hgiven raw (hp.lines hraw)
  | forRounds levels left name values body => exact step_forRounds levels left name values body
  | whileRounds levels left condition body => exact step_whileRounds levels left condition body

/-! ## All steps -/

section Run

variable {given : List String}
  (hgiven : ∀ raw ∈ given, classify (Text.trim raw) ≠ .includeFile)
include hgiven

/-- What is wrong at a point that is reached stops the expansion, by induction on the way there. -/
theorem stops_of_reaches (h : Reaches around base p q) (htrouble : q.Trouble e)
    (hp : p.Within given) : p.Stops around base e := by
  induction h using Relation.ReflTransGen.head_induction_on with
  | refl => exact (stops_iff_step hgiven hp).mpr (.inl htrouble)
  | head hleads _ ih =>
    exact (stops_iff_step hgiven hp).mpr (.inr ⟨_, hleads, ih (hleads.within hp)⟩)

/-- An expansion that stops does so for something that is wrong at a point that it reaches. What
decreases on the way there is the rank of the place. -/
theorem reaches_of_stops (p : Point) (hp : p.Within given) (h : p.Stops around base e) :
    ∃ q, Reaches around base p q ∧ q.Trouble e := by
  rcases (stops_iff_step hgiven hp).mp h with htrouble | ⟨next, hleads, hstops⟩
  · exact ⟨p, .refl, htrouble⟩
  · obtain ⟨q, hreaches, htrouble⟩ := reaches_of_stops next (hleads.within hp) hstops
    exact ⟨q, .head hleads hreaches, htrouble⟩
termination_by p.place.rank
decreasing_by exact hleads.rank_lt

end Run

/-- A script without include lines, in a fresh state, stops with an error exactly if its expansion
reaches a point where that is wrong, and yields its commands exactly if it reaches none where
anything is. -/
theorem stops_iff_trouble_reached (around : Surroundings) (base : Option Path) {lines : List String}
    (hlines : ∀ raw ∈ lines, startsWith (Text.lower (Text.trim raw)) "include " = false)
    {s : Interpreter} (hfresh : s.subroutines = []) :
    ∃ kept start, (extractSubroutines lines).run s = .ok kept start ∧
      (∀ e, (∃ t, (preprocess around base lines).run s = .error e t) ↔
        ∃ q, Reaches around base ⟨.block (levelsAt 0) kept, start, around.limits⟩ q ∧ q.Trouble e) ∧
      ((∃ commands t, (preprocess around base lines).run s = .ok commands t) ↔
        ∀ q e, Reaches around base ⟨.block (levelsAt 0) kept, start, around.limits⟩ q →
          ¬ q.Trouble e) := by
  have hgiven : ∀ raw ∈ lines, classify (Text.trim raw) ≠ .includeFile := by
    intro raw hraw hkind
    have hstarts := startsWith_of_classify hkind
    rw [hlines raw hraw] at hstarts
    cases hstarts
  have hs : s.HoldsOnly lines := by
    intro name body hbody
    rw [hfresh] at hbody
    cases hbody
  obtain ⟨kept, start, hextract, hkept, -⟩ := run_extractFrom .outside lines s
  obtain ⟨hstart, -⟩ := emits_extractFrom .outside (List.nil_subset lines) (List.Subset.refl lines)
    s hs kept start hextract
  have hwithin : (Point.mk (.block (levelsAt 0) kept) start around.limits).Within lines :=
    ⟨hkept.subset, hstart⟩
  have hrun : (preprocess around base lines).run s =
      (expandBlock around base (levelsAt 0) kept).run start := by
    unfold preprocess extractSubroutines
    rw [EStateM.run_bind, hextract]
  have hstops : ∀ e, (∃ t, (preprocess around base lines).run s = .error e t) ↔
      ∃ q, Reaches around base ⟨.block (levelsAt 0) kept, start, around.limits⟩ q ∧
        q.Trouble e := by
    intro e
    rw [hrun]
    constructor
    · exact reaches_of_stops hgiven _ hwithin
    · rintro ⟨q, hreaches, htrouble⟩
      exact stops_of_reaches hgiven hreaches htrouble hwithin
  refine ⟨kept, start, hextract, hstops, yields_iff_not_stops.trans ⟨?_, ?_⟩⟩
  · intro hnone q e hreaches htrouble
    exact hnone e ((hstops e).mpr ⟨q, hreaches, htrouble⟩)
  · intro hnone e hend
    obtain ⟨q, hreaches, htrouble⟩ := (hstops e).mp hend
    exact hnone q e hreaches htrouble

/-- A variable without a value stands for nothing, a text that has no order with a number. -/
theorem conditionTrouble_unset (limits : Limits) :
    ConditionTrouble limits [] "$x > 5" (.unordered .gt true) := by
  have hexpanded : expandText [] "$x > 5" = .ok " > 5" := by rfl
  have hsplit : splitComparison? " > 5" = some (.gt, " ", " 5") := by decide +kernel
  have hleft : Evaluates limits [] (Text.trim " ") (.text "") := ⟨"", by rfl, by rfl⟩
  have hright : Evaluates limits [] (Text.trim " 5") (.int 5) := ⟨"5", by rfl, by rfl⟩
  have hword : IsWord (.text "") := ⟨by simp, by simp, "", rfl, by simp⟩
  have hnumber : IsNumber (.int 5) := .int (by decide +kernel)
  have hwritten : ¬ Unwritable (.text "") := by
    rintro ⟨n, h, _⟩
    cases h
  have hshort : ¬ Unwritable (.int 5) := by
    rw [← text?_eq_none_iff]
    decide +kernel
  exact .comparison hexpanded hsplit hleft hright
    (.wordAndNumber hwritten hshort ⟨by decide, by decide⟩ hword hnumber)

/-- A script that compares a variable without a value with a number. -/
def unsetComparison : List String :=
  ["if $x > 5", "say hi", "endif"]

theorem unset_comparison_stops :
    (∀ raw ∈ unsetComparison, startsWith (Text.lower (Text.trim raw)) "include " = false) ∧
    ({} : Interpreter).subroutines = [] ∧
    ∃ t, (preprocess shelf none unsetComparison).run {} = .error (.unordered .gt true) t := by
  have hlines : ∀ raw ∈ unsetComparison,
      startsWith (Text.lower (Text.trim raw)) "include " = false := by decide +kernel
  have hkept : (extractSubroutines unsetComparison).run {} = .ok unsetComparison {} := by rfl
  obtain ⟨kept, start, hextract, hstops, -⟩ :=
    stops_iff_trouble_reached shelf none hlines (s := {}) rfl
  rw [hkept] at hextract
  cases hextract
  refine ⟨hlines, rfl, (hstops _).mpr ⟨⟨.walk 50 0 unsetComparison, {}, shelf.limits⟩,
    .single .enter, ?_⟩⟩
  -- the first line is a conditional that has an end, so its condition is looked at
  have hkind : classify (Text.trim "if $x > 5") = .conditional := by decide +kernel
  have hcondition : argumentOf? "if" (Text.trim "if $x > 5") = some "$x > 5" := by decide +kernel
  have hends : (branches? 0 false ["say hi", "endif"]).isSome := by decide +kernel
  obtain ⟨parts, hparts⟩ := Option.isSome_iff_exists.mp hends
  show LineTrouble shelf.limits [] (Text.trim "if $x > 5") ["say hi", "endif"] _
  unfold LineTrouble
  rw [hkind]
  exact ⟨_, parts, hcondition, hparts, conditionTrouble_unset _⟩

end RobotConsole.Script
