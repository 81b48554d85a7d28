import RobotConsole.Proofs.Effects
import RobotConsole.Proofs.Script.Overlong
import RobotConsole.Script.Expand

/-!
# Scope

Loops and calls lend names to their bodies and give them back the values they had. `keeping` is the
contract of everything that a script does: subroutines and the limit on rounds stay, a name that has
a value keeps having one, some names keep even the value they have, and no loop ever finds its own
variable gone. The contract is what makes the giving back work: since a body never takes a name
away, the loop variable is still there when the round ends (`forRound_eq_lending`).
-/

namespace RobotConsole.Script

open Arithmetic (Value)
open Storage (Path)
open Contract

variable {α : Type}
variable {expand : Expander} {body : List String} {limits : Limits}

/-- What a script may do to its state: it takes no name away, gives the names in `kept` no other
value, and leaves the subroutines and the limit on rounds alone. -/
structure Keeps (kept : String → Prop) (s t : Interpreter) : Prop where
  subroutines : t.subroutines = s.subroutines
  maxIterations : t.maxIterations = s.maxIterations
  bound : ∀ name, (Dict.get? s.bindings name).isSome → (Dict.get? t.bindings name).isSome
  value : ∀ name, kept name → Dict.get? t.bindings name = Dict.get? s.bindings name

namespace Keeps

variable {kept kept' : String → Prop} {s t u : Interpreter}

theorem refl (s : Interpreter) : Keeps kept s s :=
  ⟨rfl, rfl, fun _ h => h, fun _ _ => rfl⟩

theorem trans (h₁ : Keeps kept s t) (h₂ : Keeps kept t u) : Keeps kept s u :=
  ⟨h₂.subroutines.trans h₁.subroutines, h₂.maxIterations.trans h₁.maxIterations,
    fun name h => h₂.bound name (h₁.bound name h),
    fun name h => (h₂.value name h).trans (h₁.value name h)⟩

theorem mono (h : Keeps kept s t) (hkept : ∀ name, kept' name → kept name) : Keeps kept' s t :=
  ⟨h.subroutines, h.maxIterations, h.bound, fun name hname => h.value name (hkept name hname)⟩

end Keeps

/-- The contract of what keeps names, and the values of some; no loop variable is ever missing. -/
def keeping (kept : String → Prop) : Contract ScriptError Interpreter where
  yields := Keeps kept
  fails e _ _ := ∀ name, e ≠ .unbound name
  refl := Keeps.refl
  trans := Keeps.trans
  fails_after _ h := h

/-- The contract of what keeps names, whatever their values. -/
def scope : Contract ScriptError Interpreter :=
  keeping fun _ => False

variable {kept : String → Prop}

theorem keeping_mono {kept' : String → Prop} {x : Run α} (hx : (keeping kept).Holds x)
    (hkept : ∀ name, kept' name → kept name) : (keeping kept').Holds x :=
  fun s => .of_outcomes (fun _ _ h => ((hx s).yields h).mono hkept) fun _ _ h => (hx s).fails h

theorem scope_of_keeping {x : Run α} (hx : (keeping kept).Holds x) : scope.Holds x :=
  keeping_mono hx fun _ h => h.elim

/-! ## Steps that only read -/

section Reading

variable {c : Contract ScriptError Interpreter}
  (hthrow : ∀ e s, (∀ name, e ≠ .unbound name) → c.fails e s s)
include hthrow

/-! What only reads the state keeps every contract that lets a script stop where it is, be it not
for want of a loop variable. -/

theorem holds_expandVariables (s : String) : c.Holds (expandVariables s) := by
  unfold expandVariables
  refine holds_get.bind fun state => ?_
  split
  · exact holds_pure _
  · rename_i e he
    rw [(expandText_error_iff.mp he).1]
    exact holds_throw fun s => hthrow _ s fun name h => nomatch h

theorem holds_evaluateExpression (s : String) : c.Holds (evaluateExpression limits s) :=
  (holds_expandVariables hthrow s).giving

theorem holds_valueText (v : Value) : c.Holds (valueText v) := by
  unfold valueText
  split
  · exact holds_pure _
  · exact holds_throw fun s => hthrow _ s fun name h => nomatch h

theorem holds_sides (left right : Value) : c.Holds (sides left right) := by
  unfold sides
  refine (holds_valueText hthrow left).bind fun leftText => ?_
  split
  · exact (holds_valueText hthrow right).giving
  · refine (holds_valueText hthrow right).bind fun rightText => ?_
    split
    · exact holds_pure _
    · exact holds_pure _

omit hthrow in
theorem compareSides_error {c : Comparison} {l r : Side} {e : ScriptError}
    (h : compareSides c l r = .error e) (name : String) : e ≠ .unbound name := by
  rintro rfl
  unfold compareSides at h
  split at h
  · cases h
  · cases h
  · split at h <;> cases h

theorem holds_evaluateCondition (condition : String) :
    c.Holds (evaluateCondition limits condition) := by
  unfold evaluateCondition
  refine (holds_expandVariables hthrow condition).bind fun expanded => ?_
  split
  · exact holds_pure _
  · refine (holds_evaluateExpression hthrow _).bind fun left => ?_
    refine (holds_evaluateExpression hthrow _).bind fun right => ?_
    refine (holds_sides hthrow left right).bind fun both => ?_
    dsimp only
    split
    · exact holds_pure _
    · rename_i e he
      exact holds_throw fun s => hthrow e s (compareSides_error he)

theorem holds_readInt (s : String) : c.Holds (readInt s) := by
  unfold readInt
  split
  · exact holds_pure _
  · exact holds_throw fun s => hthrow _ s fun name h => nomatch h

theorem holds_guard {p : Prop} [Decidable p] {e : ScriptError} {rest : Run α}
    (he : ∀ name, e ≠ .unbound name) (hrest : c.Holds rest) :
    c.Holds (if p then throw e >>= fun _ : PUnit => rest else rest) :=
  holds_when (fun hrest => (holds_throw fun s => hthrow e s he).bind fun _ => hrest) hrest

theorem holds_stepThrough (first last step : Int) :
    c.Holds (stepThrough limits first last step) := by
  refine holds_guard hthrow (fun name h => by cases h) ?_
  refine holds_guard hthrow (fun name h => by cases h) ?_
  refine holds_guard hthrow (fun name h => by cases h) ?_
  exact holds_get.giving

theorem holds_loopValues (s : String) : c.Holds (loopValues limits s) := by
  unfold loopValues
  split
  · refine (holds_readInt hthrow _).bind fun first => (holds_readInt hthrow _).bind fun last => ?_
    split
    · exact (holds_readInt hthrow _).bind (holds_stepThrough hthrow first last)
    · exact holds_stepThrough hthrow first last 1
  · exact holds_pure _

variable (hprint : ∀ line, c.Holds (print line))
include hprint

theorem holds_openScript (around : Surroundings) (path : Path) (visited : List Path) :
    c.Holds (openScript around path visited) := by
  unfold openScript
  refine holds_guard hthrow (fun name h => by cases h) ?_
  dsimp only
  split
  · exact (hprint _).giving
  · split
    · exact holds_pure _
    · exact (hprint _).giving

/-- To include a file is to read it, and to print what is wrong with it. -/
theorem holds_expandInclude (around : Surroundings) (base : Option Path) (line : String) :
    c.Holds (expandInclude around base line) := by
  unfold expandInclude
  split
  · exact holds_pure _
  · dsimp only
    split
    · exact holds_throw fun s => hthrow _ s fun name h => nomatch h
    · exact (hprint _).giving
    · refine Holds.bind ?_ fun _ => holds_pure _
      exact (holds_openScript hthrow hprint _ _ _).giving

end Reading

theorem keeping_fails (e : ScriptError) (s : Interpreter) (he : ∀ name, e ≠ .unbound name) :
    (keeping kept).fails e s s :=
  he

theorem keeping_expandVariables (s : String) : (keeping kept).Holds (expandVariables s) :=
  holds_expandVariables keeping_fails s

theorem keeping_evaluateExpression (s : String) :
    (keeping kept).Holds (evaluateExpression limits s) :=
  holds_evaluateExpression keeping_fails s

theorem keeping_valueText (v : Value) : (keeping kept).Holds (valueText v) :=
  holds_valueText keeping_fails v

theorem keeping_evaluateCondition (condition : String) :
    (keeping kept).Holds (evaluateCondition limits condition) :=
  holds_evaluateCondition keeping_fails condition

theorem keeping_loopValues (s : String) : (keeping kept).Holds (loopValues limits s) :=
  holds_loopValues keeping_fails s

/-! ## Steps that need no scope of their own -/

theorem keeping_print (line : String) : (keeping kept).Holds (print line) :=
  holds_modify fun _ => ⟨rfl, rfl, fun _ h => h, fun _ _ => rfl⟩

theorem scope_bind (name : String) (value : Value) : scope.Holds (bind name value) := by
  refine holds_modify fun s => ⟨rfl, rfl, ?_, fun _ h => h.elim⟩
  intro k hk
  rw [Dict.get?_put]
  split
  · rfl
  · exact hk

theorem scope_assign (line : String) : scope.Holds (assign limits line) := by
  unfold assign
  split
  · exact keeping_print _
  · refine (keeping_evaluateExpression _).bind fun value => (scope_bind _ _).bind fun _ => ?_
    exact (keeping_valueText value).bind fun _ => keeping_print _

theorem keeping_expandInclude (around : Surroundings) (base : Option Path) (line : String) :
    (keeping kept).Holds (expandInclude around base line) :=
  holds_expandInclude keeping_fails keeping_print around base line

theorem keeping_loopBody (closing : String) (rest : List String) :
    (keeping kept).Holds (loopBody closing rest) := by
  unfold loopBody
  exact holds_when (fun hrest => (keeping_print _).bind fun _ => hrest) (holds_pure _)

/-! ## Giving names back -/

/-- The bindings in which a name has again the value it had, or none. -/
def restored (bindings : Dict Value) (name : String) : Option Value → Dict Value
  | some value => Dict.put bindings name value
  | none => Dict.remove bindings name

theorem run_restore (name : String) (old : Option Value) (s : Interpreter) :
    (restore name old).run s = .ok () { s with bindings := restored s.bindings name old } := by
  cases old <;> rfl

theorem get?_restored (bindings : Dict Value) (name : String) (old : Option Value) (k : String) :
    Dict.get? (restored bindings name old) k = if k = name then old else Dict.get? bindings k := by
  cases old with
  | some value => exact Dict.get?_put bindings name value k
  | none => exact Dict.get?_remove bindings name k

/-- The state in which a round of a for loop starts. -/
def Interpreter.lend (s : Interpreter) (name : String) (value : Value) : Interpreter :=
  { s with bindings := Dict.put s.bindings name value }

theorem Keeps.lend (s : Interpreter) (name : String) (value : Value) :
    Keeps (fun _ => False) s (s.lend name value) :=
  (scope_bind name value s).yields rfl

/-- Lends a name with a value to a computation, and gives it back. -/
def lending (name : String) (value : Value) (body : Run (List String)) : Run (List String) := do
  let old ← valueOf? name
  bind name value
  let commands ← body
  restore name old
  return commands

theorem run_lending (name : String) (value : Value) (body : Run (List String)) (s : Interpreter) :
    (lending name value body).run s =
      match body.run (s.lend name value) with
      | .ok commands t =>
        .ok commands { t with bindings := restored t.bindings name (Dict.get? s.bindings name) }
      | .error e t => .error e t := by
  have hvalue : (valueOf? name).run s = .ok (Dict.get? s.bindings name) s := rfl
  have hbind : (bind name value).run s = .ok () (s.lend name value) := rfl
  unfold lending
  simp only [EStateM.run_bind, hvalue, hbind]
  cases body.run (s.lend name value) with
  | error e t => rfl
  | ok commands t =>
    simp only [run_restore]
    rfl

/-- A round of a for loop lends the loop variable to the body. It is still there when the body is
done, so the check for it never fails. -/
theorem forRound_eq_lending
    (hbody : scope.Holds (expand body)) (name : String) (value : Value) :
    forRound expand name body value = lending name value (expand body) := by
  funext s
  show (forRound expand name body value).run s = (lending name value (expand body)).run s
  have hvalue : ∀ s : Interpreter, (valueOf? name).run s = .ok (Dict.get? s.bindings name) s :=
    fun _ => rfl
  have hbind : (bind name value).run s = .ok () (s.lend name value) := rfl
  unfold forRound lending
  simp only [EStateM.run_bind, hvalue, hbind]
  cases hrun : (expand body).run (s.lend name value) with
  | error e t => rfl
  | ok commands t =>
    -- the body takes no name away, so the one that was lent is still there
    have hthere : (Dict.get? t.bindings name).isSome := by
      refine ((hbody _).yields hrun).bound name ?_
      unfold Interpreter.lend
      rw [Dict.get?_put, if_pos rfl]
      rfl
    have hcheck : (Dict.get? t.bindings name).isNone = false := by
      rw [Option.isNone_eq_false_iff]
      exact hthere
    simp only [hcheck, Bool.and_false, Bool.false_eq_true, if_false, EStateM.run_bind]

theorem keeping_lending {body : Run (List String)} (hbody : scope.Holds body) (name : String)
    (value : Value) : (keeping (· = name)).Holds (lending name value body) := by
  intro s
  unfold HoldsAt
  rw [run_lending]
  cases hrun : body.run (s.lend name value) with
  | error e t => exact (hbody _).fails hrun
  | ok commands t =>
    have hst := (Keeps.lend s name value).trans ((hbody _).yields hrun)
    refine ⟨hst.subroutines, hst.maxIterations, ?_, ?_⟩
    · intro k hk
      rw [get?_restored]
      -- the lent name has what it had in `s`; every other name kept a value throughout
      by_cases hname : k = name
      · rw [if_pos hname, ← hname]
        exact hk
      · rw [if_neg hname]
        exact hst.bound k hk
    · intro k hname
      rw [get?_restored, if_pos hname, hname]

theorem keeping_forRound
    (hbody : scope.Holds (expand body)) (name : String) (value : Value) :
    (keeping (· = name)).Holds (forRound expand name body value) := by
  rw [forRound_eq_lending hbody]
  exact keeping_lending hbody name value

theorem keeping_forRounds
    (hbody : scope.Holds (expand body)) (name : String) (left : Nat) (values : List Value) :
    (keeping (· = name)).Holds (forRounds expand name body left values) := by
  induction values generalizing left with
  | nil =>
    unfold forRounds
    exact holds_pure _
  | cons value values ih =>
    cases left with
    | zero => exact holds_get.bind fun _ => (keeping_print _).giving
    | succ left =>
      unfold forRounds
      exact (keeping_forRound hbody name value).bind fun _ => (ih left).giving

theorem keeping_expandFor (hexpand : ∀ body, scope.Holds (expand body))
    (line : String) (rest : List String) :
    (keeping fun name => ∃ text, forLoopOf? line = some (name, text)).Holds
      (expandFor limits expand line rest) := by
  unfold expandFor
  cases hline : forLoopOf? line with
  | none => exact (keeping_print _).giving
  | some parts =>
    obtain ⟨name, text⟩ := parts
    have hname : ∀ k, (∃ text', some (name, text) = some (k, text')) → k = name := by
      rintro k ⟨text', htext⟩
      cases htext
      rfl
    refine keeping_mono ?_ hname
    refine (keeping_expandVariables text).bind fun expanded => ?_
    refine (keeping_loopValues expanded).bind fun values => ?_
    refine (keeping_loopBody "endfor" rest).bind fun part => holds_get.bind fun s => ?_
    exact (keeping_forRounds (hexpand _) name _ values).giving

theorem scope_whileRounds
    (hbody : scope.Holds (expand body)) (condition : String) (left : Nat) :
    scope.Holds (whileRounds limits expand condition body left) := by
  induction left with
  | zero =>
    unfold whileRounds
    refine (keeping_evaluateCondition condition).bind fun holds => ?_
    exact holds_when (fun hrest => holds_get.bind fun _ => (keeping_print _).bind fun _ => hrest)
      (holds_pure _)
  | succ left ih =>
    unfold whileRounds
    refine (keeping_evaluateCondition condition).bind fun holds => ?_
    split
    · exact hbody.bind fun _ => ih.giving
    · exact holds_pure _

theorem scope_expandWhile (hexpand : ∀ body, scope.Holds (expand body))
    (line : String) (rest : List String) : scope.Holds (expandWhile limits expand line rest) := by
  unfold expandWhile
  split
  · exact (keeping_print _).giving
  · refine (keeping_loopBody "endwhile" rest).bind fun part => holds_get.bind fun s => ?_
    exact (scope_whileRounds (hexpand _) _ _).giving

theorem scope_expandIf (hexpand : ∀ body, scope.Holds (expand body))
    (position : Int) (line : String) (rest : List String) :
    scope.Holds (expandIf limits expand position line rest) := by
  unfold expandIf
  split
  · exact (keeping_print _).giving
  · split
    · exact (keeping_print _).giving
    · refine (keeping_evaluateCondition _).bind fun holds => ?_
      exact (hexpand _).giving

/-! ## Calls -/

/-- The names that a call with some arguments lends, from an index on. -/
def argumentNames (index count : Nat) : List String :=
  (List.range' index count).map toString

theorem toString_injective {m n : Nat} (h : toString m = toString n) : m = n := by
  have hdigits : Nat.toDigits 10 m = Nat.toDigits 10 n := by
    rw [← Nat.toList_repr, ← Nat.toList_repr]
    exact congrArg String.toList h
  rw [← Nat.ofDigitChars_toDigits (b := 10) (by decide) (by decide) (n := m), hdigits,
    Nat.ofDigitChars_toDigits (by decide) (by decide)]

theorem toString_notMem_argumentNames {n index : Nat} (h : n < index) (count : Nat) :
    toString n ∉ argumentNames index count := by
  intro hmem
  obtain ⟨m, hm, heq⟩ := List.mem_map.mp hmem
  have hge : index ≤ m := (List.mem_range'_1.mp hm).1
  have hmn : m = n := toString_injective heq
  omega

/-- Binding arguments notes the value that each of their names had, and touches no other name. -/
theorem run_bindArguments (index : Nat) (args : List String) (s : Interpreter) :
    ∃ old t, (bindArguments index args).run s = .ok old t ∧ Keeps (fun _ => False) s t ∧
      old.map Prod.fst = argumentNames index args.length ∧
      ∀ entry ∈ old, entry.2 = Dict.get? s.bindings entry.1 := by
  induction args generalizing index s with
  | nil => exact ⟨[], s, rfl, Keeps.refl s, rfl, fun _ h => absurd h List.not_mem_nil⟩
  | cons arg args ih =>
    obtain ⟨old, t, hrun, hkeeps, hnames, hold⟩ :=
      ih (index + 1) (s.lend (toString index) (.text arg))
    refine ⟨(toString index, Dict.get? s.bindings (toString index)) :: old, t, ?_, ?_, ?_, ?_⟩
    · unfold bindArguments
      have hvalue : (valueOf? (toString index)).run s =
          .ok (Dict.get? s.bindings (toString index)) s := rfl
      have hbind : (bind (toString index) (.text arg)).run s =
          .ok () (s.lend (toString index) (.text arg)) := rfl
      simp only [EStateM.run_bind, hvalue, hbind, hrun]
      rfl
    · exact (Keeps.lend s _ _).trans hkeeps
    · rw [List.map_cons, hnames]
      rfl
    · intro entry hentry
      rcases List.mem_cons.mp hentry with h | h
      · rw [h]
      · -- a later name is another one, so binding this one did not change its value
        have hne : entry.1 ≠ toString index := by
          intro heq
          have hmem : entry.1 ∈ argumentNames (index + 1) args.length := by
            rw [← hnames]
            exact List.mem_map_of_mem h
          rw [heq] at hmem
          exact toString_notMem_argumentNames (Nat.lt_succ_self index) _ hmem
        rw [hold entry h]
        unfold Interpreter.lend
        rw [Dict.get?_put, if_neg hne]

theorem scope_bindArguments (index : Nat) (args : List String) :
    scope.Holds (bindArguments index args) := by
  intro s
  obtain ⟨old, t, hrun, hst, -, -⟩ := run_bindArguments index args s
  exact .of_ok hrun hst

/-- The bindings in which names have again the values that were noted for them. -/
def restoredAll (bindings : Dict Value) (old : List (String × Option Value)) : Dict Value :=
  old.foldl (fun bindings (name, value) => restored bindings name value) bindings

theorem run_restoreAll (old : List (String × Option Value)) (t : Interpreter) :
    (old.forM fun (name, value) => restore name value).run t =
      .ok () { t with bindings := restoredAll t.bindings old } := by
  induction old generalizing t with
  | nil => rfl
  | cons entry old ih =>
    obtain ⟨name, value⟩ := entry
    show (restore name value >>= fun _ => old.forM fun (name, value) => restore name value).run
      t = _
    rw [EStateM.run_bind, run_restore]
    exact ih _

/-- Names given back have the values they had in an earlier store, if those were noted; every other
name has the value it has. -/
theorem get?_restoredAll {old : List (String × Option Value)} {before : Dict Value}
    (hold : ∀ entry ∈ old, entry.2 = Dict.get? before entry.1) (bindings : Dict Value)
    (k : String) :
    Dict.get? (restoredAll bindings old) k =
      if k ∈ old.map Prod.fst then Dict.get? before k else Dict.get? bindings k := by
  induction old generalizing bindings with
  | nil => rfl
  | cons entry old ih =>
    obtain ⟨name, value⟩ := entry
    have hvalue : value = Dict.get? before name := hold _ List.mem_cons_self
    have hrest := ih (fun e he => hold e (List.mem_cons_of_mem _ he))
      (restored bindings name value)
    unfold restoredAll at hrest ⊢
    rw [List.foldl_cons, hrest, get?_restored, hvalue, List.map_cons]
    by_cases hk : k = name
    · simp [hk]
    · simp only [List.mem_cons, hk, if_false, false_or]

/-- A subroutine is expanded with the names of its arguments lent to it. -/
theorem keeping_callBody
    (hbody : scope.Holds (expand body)) (args : List String) :
    (keeping (· ∈ argumentNames 1 args.length)).Holds (do
      let old ← bindArguments 1 args
      let commands ← expand body
      old.forM fun (name, value) => restore name value
      return commands) := by
  intro s
  obtain ⟨old, t, hbind, hst, hnames, hold⟩ := run_bindArguments 1 args s
  unfold HoldsAt
  simp only [EStateM.run_bind, hbind]
  cases hrun : (expand body).run t with
  | error e u => exact (hbody t).fails hrun
  | ok commands u =>
    have hsu := hst.trans ((hbody t).yields hrun)
    simp only [run_restoreAll]
    refine ⟨hsu.subroutines, hsu.maxIterations, ?_, ?_⟩
    · intro k hk
      rw [get?_restoredAll hold]
      split
      · exact hk
      · exact hsu.bound k hk
    · intro k hk
      rw [get?_restoredAll hold, if_pos (by rw [hnames]; exact hk)]

theorem keeping_expandCall (hexpand : ∀ body, scope.Holds (expand body))
    (line : String) :
    (keeping fun name => ∃ subroutine text, callOf? line = some (subroutine, text) ∧
      name ∈ argumentNames 1 (Command.splitWords text).length).Holds (expandCall expand line) := by
  unfold expandCall
  cases hline : callOf? line with
  | none => exact (keeping_print _).giving
  | some parts =>
    obtain ⟨subroutine, text⟩ := parts
    refine holds_get.bind fun s => ?_
    dsimp only
    split
    · exact (keeping_print _).giving
    · refine keeping_mono (keeping_callBody (hexpand _) (Command.splitWords text)) ?_
      rintro name ⟨subroutine', text', htext, hname⟩
      cases htext
      exact hname

/-! ## Blocks -/

theorem scope_expandLine (hexpand : ∀ body, scope.Holds (expand body))
    (around : Surroundings) (base : Option Path) (position : Nat) (line : String)
    (rest : List String) : scope.Holds (expandLine around base expand position line rest) := by
  unfold expandLine
  cases classify line with
  | skipped => exact holds_pure _
  | includeFile => exact (keeping_expandInclude around base line).giving
  | assignment => exact (scope_assign line).giving
  | forLoop => exact scope_of_keeping (keeping_expandFor hexpand line rest)
  | whileLoop => exact scope_expandWhile hexpand line rest
  | conditional => exact scope_expandIf hexpand position line rest
  | call => exact (scope_of_keeping (keeping_expandCall hexpand line)).giving
  | stray => exact (keeping_print _).giving
  | command => exact (keeping_expandVariables line).giving

theorem scope_expandLines (hexpand : ∀ body, scope.Holds (expand body))
    (around : Surroundings) (base : Option Path) (position : Nat) (lines : List String) :
    scope.Holds (expandLines around base expand position lines) := by
  fun_induction expandLines around base expand position lines with
  | case1 => exact holds_pure _
  | case2 position raw rest ih =>
    refine (scope_expandLine hexpand around base position _ rest).bind fun part => ?_
    exact (ih part.2).giving

theorem scope_expandBlock (around : Surroundings) (base : Option Path) (levels : Nat)
    (lines : List String) : scope.Holds (expandBlock around base levels lines) := by
  induction levels generalizing around lines with
  | zero => exact (keeping_print _).giving
  | succ levels ih => exact scope_expandLines (ih around.inner) around base 0 lines

/-- What a computation leaves of the store `s` when it yields: a name looks up to nothing only if it
is not in the store, every name that had a value has one, and the names in `kept` have exactly what
they had. When it fails, it is not for want of a loop variable. -/
def LeavesInScope (kept : String → Prop) (s : Interpreter) (x : Run α) : Prop :=
  match x.run s with
  | .ok _ t =>
    (∀ name, Dict.get? t.bindings name = none ↔ name ∉ t.bindings.map Prod.fst) ∧
    (∀ name, (Dict.get? s.bindings name).isSome → (Dict.get? t.bindings name).isSome) ∧
    ∀ name, kept name → Dict.get? t.bindings name = Dict.get? s.bindings name
  | .error e _ => ∀ name, e ≠ .unbound name

theorem leavesInScope_of_keeping {x : Run α} (hx : (keeping kept).Holds x) (s : Interpreter) :
    LeavesInScope kept s x := by
  unfold LeavesInScope
  cases hrun : x.run s with
  | error e t => exact (hx s).fails hrun
  | ok a t =>
    have hst : Keeps kept s t := (hx s).yields hrun
    exact ⟨Dict.get?_eq_none_iff t.bindings, hst.bound, hst.value⟩

/-- Whatever the lines and the subroutines are, expansion takes no name away, a for loop gives its
variable back and a call the names of its arguments. -/
theorem names_given_back (around : Surroundings) (base : Option Path) (depth : Int)
    (s : Interpreter) :
    let inner := expandBlock around.inner base (levelsAt (depth + 1))
    (∀ lines, LeavesInScope (fun _ => False) s (expandBlock around base (levelsAt depth) lines)) ∧
    (∀ line rest, LeavesInScope (fun name => ∃ text, forLoopOf? line = some (name, text)) s
      (expandFor around.limits inner line rest)) ∧
    (∀ line rest, LeavesInScope (fun _ => False) s (expandWhile around.limits inner line rest)) ∧
    (∀ position line rest,
      LeavesInScope (fun _ => False) s (expandIf around.limits inner position line rest)) ∧
    (∀ line, LeavesInScope (fun name => ∃ subroutine text, callOf? line = some (subroutine, text) ∧
      name ∈ argumentNames 1 (Command.splitWords text).length) s (expandCall inner line)) := by
  intro inner
  have hinner : ∀ body, scope.Holds (inner body) := scope_expandBlock around.inner base _
  refine ⟨?_, ?_, ?_, ?_, ?_⟩
  · exact fun lines => leavesInScope_of_keeping (scope_expandBlock around base _ lines) s
  · exact fun line rest => leavesInScope_of_keeping (keeping_expandFor hinner line rest) s
  · exact fun line rest => leavesInScope_of_keeping (scope_expandWhile hinner line rest) s
  · exact fun position line rest =>
      leavesInScope_of_keeping (scope_expandIf hinner position line rest) s
  · exact fun line => leavesInScope_of_keeping (keeping_expandCall hinner line) s

end RobotConsole.Script
