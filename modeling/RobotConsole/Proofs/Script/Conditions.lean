import RobotConsole.Proofs.Script.Course

/-!
# Conditions that stop a script

A condition is decided in steps that only read the state: its references are replaced, then those of
its sides, the sides are calculated, written and compared. Each of these can stop the script, and
`ConditionTrouble` says with what and for which cause: a reference or a value that is too long to
write, or an order that is asked for between a number and a word. There are no other causes
(`stops_evaluateCondition`).
-/

namespace RobotConsole.Script

open Arithmetic (Value)

variable {α β : Type} {s : Interpreter} {e : ScriptError}
variable {t : Interpreter} {text : String} {left right v : Value} {limits : Limits}

/-! ## Runs that stop -/

/-- A run that stops with an error. -/
def Stops (x : Run α) (s : Interpreter) (e : ScriptError) : Prop :=
  ∃ t, x.run s = .error e t

theorem yields_iff_not_stops {x : Run α} :
    (∃ a t, x.run s = .ok a t) ↔ ∀ e, ¬ Stops x s e := by
  unfold Stops
  cases x.run s with
  | ok a t => simp
  | error e t => simp

theorem stops_pure (a : α) : ¬ Stops (pure a) s e := by
  rintro ⟨t, ht⟩
  cases ht

theorem stops_throw {e' : ScriptError} : Stops (throw e' : Run α) s e ↔ e = e' := by
  constructor
  · rintro ⟨t, ht⟩
    cases ht
    rfl
  · rintro rfl
    exact ⟨s, rfl⟩

/-- A run in two parts stops in the first or, if that comes through, in the second. -/
theorem stops_bind {x : Run α} {f : α → Run β} :
    Stops (x >>= f) s e ↔ Stops x s e ∨ ∃ a t, x.run s = .ok a t ∧ Stops (f a) t e := by
  unfold Stops
  rw [EStateM.run_bind]
  cases x.run s with
  | error e' t => simp
  | ok a t =>
    constructor
    · intro h
      exact .inr ⟨a, t, rfl, h⟩
    · rintro (⟨u, hu⟩ | ⟨b, u, hu, h⟩)
      · cases hu
      · cases hu
        exact h

theorem stops_bind_of_ok {x : Run α} {f : α → Run β} {a : α}
    (h : x.run s = .ok a t) : Stops (x >>= f) s e ↔ Stops (f a) t e := by
  unfold Stops
  rw [EStateM.run_bind, h]

theorem stops_bind_pure {x : Run α} {f : α → β} :
    Stops (do return f (← x)) s e ↔ Stops x s e := by
  rw [stops_bind]
  constructor
  · rintro (h | ⟨a, t, _, h⟩)
    · exact h
    · exact absurd h (stops_pure _)
  · exact Or.inl

theorem stops_andThen {γ : Type} {x : Run α} {y : Run β} {f : α → β → γ} :
    Stops (do
      let a ← x
      return f a (← y)) s e ↔ Stops x s e ∨ ∃ a t, x.run s = .ok a t ∧ Stops y t e := by
  rw [stops_bind]
  exact or_congr_right (exists_congr fun _ => exists_congr fun _ => and_congr_right fun _ =>
    stops_bind_pure)

theorem stops_print_pure (line : String) (a : α) :
    ¬ Stops (do print line; return a) s e := by
  rintro ⟨t, ht⟩
  cases ht

/-! ## Reading the state -/

/-- The outcome of a step that leaves the state as it is. -/
def Outcome.still (s : Interpreter) : Except ScriptError α → Outcome α
  | .ok a => .ok a s
  | .error e => .error e s

@[simp] theorem still_eq_error {y : Except ScriptError α} :
    Outcome.still s y = .error e t ↔ y = .error e ∧ s = t := by
  cases y <;> simp [Outcome.still]

@[simp] theorem still_eq_ok {y : Except ScriptError α} {a : α} :
    Outcome.still s y = .ok a t ↔ y = .ok a ∧ s = t := by
  cases y <;> simp [Outcome.still]

theorem run_expandVariables (text : String) (s : Interpreter) :
    (expandVariables text).run s = Outcome.still s (expandText s.bindings text) := by
  have hget : (get : Run Interpreter).run s = .ok s s := rfl
  unfold expandVariables
  simp only [EStateM.run_bind, hget]
  cases expandText s.bindings text <;> rfl

theorem stops_expandVariables :
    Stops (expandVariables text) s e ↔ e = .tooLongToWrite ∧ Overlong s.bindings text := by
  unfold Stops
  simp [run_expandVariables, expandText_error_iff]

/-- The value of an expression, when its references can be replaced. -/
def Evaluates (limits : Limits) (bindings : Dict Value) (text : String) (v : Value) : Prop :=
  ∃ expanded, expandText bindings text = .ok expanded ∧
    v = (Arithmetic.evaluate? limits.nesting expanded).getD (.text expanded)

theorem stops_evaluateExpression :
    Stops (evaluateExpression limits text) s e ↔ e = .tooLongToWrite ∧ Overlong s.bindings text :=
  stops_bind_pure.trans stops_expandVariables

theorem run_evaluateExpression_ok :
    (evaluateExpression limits text).run s = .ok v t ↔
      Evaluates limits s.bindings text v ∧ s = t := by
  unfold evaluateExpression Evaluates
  rw [run_bind_pure, run_expandVariables]
  cases expandText s.bindings text with
  | error e => simp [Outcome.still, Outcome.map]
  | ok expanded => simp [Outcome.still, Outcome.map, eq_comm]

theorem run_valueText (v : Value) (s : Interpreter) : (valueText v).run s =
    Outcome.still s (v.text?.elim (.error .tooLongToWrite) .ok) := by
  unfold valueText
  cases v.text? <;> rfl

theorem stops_valueText :
    Stops (valueText v) s e ↔ e = .tooLongToWrite ∧ Unwritable v := by
  rw [← text?_eq_none_iff]
  unfold Stops
  rw [run_valueText]
  cases v.text? with
  | none => simp [@eq_comm _ e]
  | some text => simp

theorem run_valueText_of_writable (h : ¬ Unwritable v) :
    ∃ text, v.text? = some text ∧ ∀ s, (valueText v).run s = .ok text s := by
  cases htext : v.text? with
  | none => exact absurd (text?_eq_none_iff.mp htext) h
  | some text => exact ⟨text, rfl, fun s => by rw [run_valueText, htext]; rfl⟩

/-! ## Conditions -/

/-- A comparison that asks for an order, and not only whether two sides are the same. -/
def Comparison.Orders (c : Comparison) : Prop :=
  c ≠ .eq ∧ c ≠ .ne

/-- A value that is compared as a number: a number within the range of doubles, or a text with a
point that can be read as one. -/
inductive IsNumber : Value → Prop
  | int {n : Int} : (Decimal.nearestInt? n).isSome → IsNumber (.int n)
  | real {x : Float} : IsNumber (.real x)
  | text {s : String} {x : Float} : '.' ∈ s.toList → Decimal.readFloat s = .ok x →
      IsNumber (.text s)

/-- A value that is compared as a text: it is no number, and its text has no point. -/
structure IsWord (v : Value) : Prop where
  notInt : ∀ n, v ≠ .int n
  notReal : ∀ x, v ≠ .real x
  noPoint : ∃ text, v.text? = some text ∧ '.' ∉ text.toList

theorem isNumber_iff (htext : v.text? = some text) :
    IsNumber v ↔ ∃ x, sideOf? v text = some (.number x) := by
  constructor
  · intro h
    cases h with
    | int hn => simpa [sideOf?, Option.isSome_iff_exists] using hn
    | real => exact ⟨_, rfl⟩
    | @text s x hpoint hread =>
      cases htext
      exact ⟨x, by simp [sideOf?, hpoint, hread]⟩
  · rintro ⟨x, hx⟩
    cases v with
    | int n =>
      obtain ⟨y, hy, _⟩ := Option.map_eq_some_iff.mp hx
      exact .int (by rw [hy]; rfl)
    | real y => exact .real
    | text s =>
      obtain rfl : s = text := Option.some.inj htext
      unfold sideOf? at hx
      dsimp only at hx
      split at hx
      · rename_i hpoint
        split at hx
        · rename_i hread
          exact .text (by simpa using hpoint) hread
        · cases hx
      · cases hx
    | complex | emptyTuple | ellipsis =>
      unfold sideOf? at hx
      dsimp only at hx
      split at hx <;> cases hx

theorem isWord_iff (htext : v.text? = some text) :
    IsWord v ↔ ∃ t, sideOf? v text = some (.text t) := by
  constructor
  · rintro ⟨hint, hreal, text', htext', hpoint⟩
    obtain rfl : text' = text := Option.some.inj (htext'.symm.trans htext)
    refine ⟨text', ?_⟩
    cases v with
    | int n => exact absurd rfl (hint n)
    | real x => exact absurd rfl (hreal x)
    | text | complex | emptyTuple | ellipsis => simp [sideOf?, hpoint]
  · rintro ⟨t, ht⟩
    cases v with
    | int n => simp [sideOf?] at ht
    | real x => simp [sideOf?] at ht
    | text s =>
      refine ⟨by simp, by simp, text, htext, fun hpoint => ?_⟩
      unfold sideOf? at ht
      dsimp only at ht
      rw [if_pos (by simpa using hpoint)] at ht
      split at ht <;> cases ht
    | complex | emptyTuple | ellipsis =>
      refine ⟨by simp, by simp, text, htext, fun hpoint => ?_⟩
      unfold sideOf? at ht
      dsimp only at ht
      rw [if_pos (by simpa using hpoint)] at ht
      cases ht

/-- What can be wrong with a comparison of two values: one is too long to write, or an order is
asked for between a number and a word. -/
inductive ComparisonTrouble (c : Comparison) (l r : Value) : ScriptError → Prop
  | unwritable : Unwritable l ∨ Unwritable r → ComparisonTrouble c l r .tooLongToWrite
  | numberAndWord : ¬ Unwritable l → ¬ Unwritable r → c.Orders → IsNumber l → IsWord r →
      ComparisonTrouble c l r (.unordered c false)
  | wordAndNumber : ¬ Unwritable l → ¬ Unwritable r → c.Orders → IsWord l → IsNumber r →
      ComparisonTrouble c l r (.unordered c true)

theorem compareSides_error_iff {c : Comparison} {l r : Side} :
    compareSides c l r = .error e ↔ c.Orders ∧
      ((∃ x t, l = .number x ∧ r = .text t) ∧ e = .unordered c false ∨
        (∃ t x, l = .text t ∧ r = .number x) ∧ e = .unordered c true) := by
  unfold Comparison.Orders
  cases l <;> cases r <;> cases c <;> simp [compareSides, eq_comm]

/-- Values that can be written have sides, and a number stands against a text there exactly if the
values are a number and a word. -/
theorem run_sides (hleft : ¬ Unwritable left) (hright : ¬ Unwritable right)
    (s : Interpreter) : ∃ l r, (sides left right).run s = .ok (l, r) s ∧
      ((∃ x t, l = .number x ∧ r = .text t) ↔ IsNumber left ∧ IsWord right) ∧
      ((∃ t x, l = .text t ∧ r = .number x) ↔ IsWord left ∧ IsNumber right) := by
  obtain ⟨lt, hlt, hlrun⟩ := run_valueText_of_writable hleft
  obtain ⟨rt, hrt, hrrun⟩ := run_valueText_of_writable hright
  rw [isNumber_iff hlt, isNumber_iff hrt, isWord_iff hlt, isWord_iff hrt]
  unfold sides
  simp only [EStateM.run_bind, hlrun]
  cases hl : sideOf? left lt with
  | none =>
    -- the left side is to be a number and is none, so both are texts
    refine ⟨.text lt, .text rt, ?_, by simp, by simp⟩
    simp only [EStateM.run_bind, hrrun]
    rfl
  | some l =>
    simp only [EStateM.run_bind, hrrun]
    cases hr : sideOf? right rt with
    | none => exact ⟨.text l.plain, .text rt, rfl, by simp, by simp⟩
    | some r => exact ⟨l, r, rfl, by simp, by simp⟩

theorem stops_sides : Stops (sides left right) s e ↔
    e = .tooLongToWrite ∧ (Unwritable left ∨ Unwritable right) := by
  unfold sides
  rw [stops_bind, stops_valueText]
  constructor
  · rintro (⟨rfl, h⟩ | ⟨lt, t, hlt, h⟩)
    · exact ⟨rfl, .inl h⟩
    · -- whatever the left side is, the right one has to be written
      have hright : Stops (valueText right) t e := by
        split at h
        · exact stops_bind_pure.mp h
        · rcases stops_bind.mp h with h | ⟨rt, u, _, h⟩
          · exact h
          · split at h <;> exact absurd h (stops_pure _)
      exact ⟨(stops_valueText.mp hright).1, .inr (stops_valueText.mp hright).2⟩
  · rintro ⟨rfl, h⟩
    by_cases hleft : Unwritable left
    · exact .inl ⟨rfl, hleft⟩
    · have hright : Stops (valueText right) s .tooLongToWrite :=
        stops_valueText.mpr ⟨rfl, h.resolve_left hleft⟩
      obtain ⟨lt, -, hlrun⟩ := run_valueText_of_writable hleft
      refine .inr ⟨lt, s, hlrun s, ?_⟩
      split
      · exact stops_bind_pure.mpr hright
      · exact stops_bind.mpr (.inl hright)

theorem stops_comparison {c : Comparison} :
    Stops (do
      let (l, r) ← sides left right
      match compareSides c l r with
      | .ok holds => return holds
      | .error e => throw e) s e ↔ ComparisonTrouble c left right e := by
  by_cases hwritable : Unwritable left ∨ Unwritable right
  · obtain ⟨t, hstops⟩ : Stops (sides left right) s .tooLongToWrite :=
      stops_sides.mpr ⟨rfl, hwritable⟩
    rw [stops_bind, stops_sides]
    constructor
    · rintro (⟨rfl, h⟩ | ⟨a, u, hrun, _⟩)
      · exact .unwritable h
      · rw [hstops] at hrun
        cases hrun
    · intro h
      cases h with
      | unwritable h => exact .inl ⟨rfl, h⟩
      | numberAndWord hl hr => exact absurd hwritable (not_or.mpr ⟨hl, hr⟩)
      | wordAndNumber hl hr => exact absurd hwritable (not_or.mpr ⟨hl, hr⟩)
  · obtain ⟨hl, hr⟩ := not_or.mp hwritable
    obtain ⟨l, r, hrun, hnumber, hword⟩ := run_sides hl hr s
    have hcompare : Stops (match compareSides c l r with
        | .ok holds => (pure holds : Run Bool)
        | .error e => throw e) s e ↔ compareSides c l r = .error e := by
      cases compareSides c l r with
      | ok holds => simp [stops_pure]
      | error e' => simp [stops_throw, eq_comm]
    rw [stops_bind_of_ok hrun]
    refine hcompare.trans ?_
    rw [compareSides_error_iff, hnumber, hword]
    constructor
    · rintro ⟨hc, ⟨⟨hleft, hright⟩, rfl⟩ | ⟨⟨hleft, hright⟩, rfl⟩⟩
      · exact .numberAndWord hl hr hc hleft hright
      · exact .wordAndNumber hl hr hc hleft hright
    · intro h
      cases h with
      | unwritable h => exact absurd h hwritable
      | numberAndWord _ _ hc hleft hright => exact ⟨hc, .inl ⟨⟨hleft, hright⟩, rfl⟩⟩
      | wordAndNumber _ _ hc hleft hright => exact ⟨hc, .inr ⟨⟨hleft, hright⟩, rfl⟩⟩

/-- What can be wrong with a condition: a reference in it or in one of its sides, or what the sides
come to. -/
inductive ConditionTrouble (limits : Limits) (bindings : Dict Value) (condition : String) :
    ScriptError → Prop
  | reference : Overlong bindings condition →
      ConditionTrouble limits bindings condition .tooLongToWrite
  | sideReference {expanded left right : String} {c : Comparison} :
      expandText bindings condition = .ok expanded →
      splitComparison? expanded = some (c, left, right) →
      Overlong bindings (Text.trim left) ∨ Overlong bindings (Text.trim right) →
      ConditionTrouble limits bindings condition .tooLongToWrite
  | comparison {expanded left right : String} {c : Comparison} {l r : Value} {e : ScriptError} :
      expandText bindings condition = .ok expanded →
      splitComparison? expanded = some (c, left, right) →
      Evaluates limits bindings (Text.trim left) l → Evaluates limits bindings (Text.trim right) r →
      ComparisonTrouble c l r e → ConditionTrouble limits bindings condition e

theorem evaluates_or_overlong (limits : Limits) (bindings : Dict Value) (text : String) :
    (∃ v, Evaluates limits bindings text v) ∨ Overlong bindings text := by
  unfold Evaluates
  cases htext : expandText bindings text with
  | ok expanded => exact .inl ⟨_, expanded, rfl, rfl⟩
  | error e => exact .inr (expandText_error_iff.mp htext).2

theorem stops_evaluateCondition {condition : String} :
    Stops (evaluateCondition limits condition) s e ↔
      ConditionTrouble limits s.bindings condition e := by
  have hexpand {expanded : String} {t : Interpreter} :
      (expandVariables condition).run s = .ok expanded t ↔
        expandText s.bindings condition = .ok expanded ∧ s = t := by
    rw [run_expandVariables, still_eq_ok]
  unfold evaluateCondition
  rw [stops_bind, stops_expandVariables]
  constructor
  · rintro (⟨rfl, h⟩ | ⟨expanded, t, hrun, h⟩)
    · exact .reference h
    obtain ⟨hexpanded, rfl⟩ := hexpand.mp hrun
    dsimp only at h
    split at h
    · exact absurd h (stops_pure _)
    rename_i c left right hsplit
    rcases stops_bind.mp h with hstops | ⟨l, t, hrun, h⟩
    · obtain ⟨rfl, hleft⟩ := stops_evaluateExpression.mp hstops
      exact .sideReference hexpanded hsplit (.inl hleft)
    obtain ⟨hleft, rfl⟩ := run_evaluateExpression_ok.mp hrun
    rcases stops_bind.mp h with hstops | ⟨r, t, hrun, h⟩
    · obtain ⟨rfl, hright⟩ := stops_evaluateExpression.mp hstops
      exact .sideReference hexpanded hsplit (.inr hright)
    obtain ⟨hright, rfl⟩ := run_evaluateExpression_ok.mp hrun
    exact .comparison hexpanded hsplit hleft hright (stops_comparison.mp h)
  · intro h
    cases h with
    | reference h => exact .inl ⟨rfl, h⟩
    | @sideReference expanded left right c hexpanded hsplit h =>
      refine .inr ⟨_, s, hexpand.mpr ⟨hexpanded, rfl⟩, ?_⟩
      simp only [hsplit]
      by_cases hleft : Overlong s.bindings (Text.trim left)
      · exact stops_bind.mpr (.inl (stops_evaluateExpression.mpr ⟨rfl, hleft⟩))
      · -- the left side has a value, so it is the right one that is wrong
        obtain ⟨l, hl⟩ := (evaluates_or_overlong limits _ _).resolve_right hleft
        rw [stops_bind_of_ok (run_evaluateExpression_ok.mpr ⟨hl, rfl⟩), stops_bind]
        exact .inl (stops_evaluateExpression.mpr ⟨rfl, h.resolve_left hleft⟩)
    | comparison hexpanded hsplit hleft hright h =>
      refine .inr ⟨_, s, hexpand.mpr ⟨hexpanded, rfl⟩, ?_⟩
      simp only [hsplit]
      rw [stops_bind_of_ok (run_evaluateExpression_ok.mpr ⟨hleft, rfl⟩),
        stops_bind_of_ok (run_evaluateExpression_ok.mpr ⟨hright, rfl⟩)]
      exact stops_comparison.mpr h

end RobotConsole.Script
