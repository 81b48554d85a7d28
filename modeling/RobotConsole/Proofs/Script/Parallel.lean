import RobotConsole.Proofs.Effects
import RobotConsole.Script.Expand

/-!
# Two runs side by side

A script looks at its variables, at the limit on rounds, and at the subroutines it calls; what has
been printed it never looks at. Let a relation between states make sure that the first two are the
same on both sides, and let it stay when the same is done to the variables or the same line is
printed (`Kindred`). Then the steps of an expansion, taken on both sides from related states, end
alike in related states (`Parallels`). Up to loops and calls the bodies on the two sides may differ,
as long as they expand alike. If the lines are the same, and the subroutines the same under every
name, whole blocks are expanded alike (`parallels_expandBlock`).
-/

namespace RobotConsole.Script

open Arithmetic (Value)
open Storage (Path)

variable {α β γ δ : Type} {A : Interpreter → Interpreter → Prop} {R : α → β → Prop}
  {Q : γ → δ → Prop}
variable {limits : Limits}

/-- Outcomes of the same kind, with related results or the same error, in related states. -/
inductive Parallel (A : Interpreter → Interpreter → Prop) (R : α → β → Prop) :
    EStateM.Result ScriptError Interpreter α → EStateM.Result ScriptError Interpreter β → Prop
  | ok {a : α} {b : β} {s t : Interpreter} : R a b → A s t → Parallel A R (.ok a s) (.ok b t)
  | error {e : ScriptError} {s t : Interpreter} : A s t → Parallel A R (.error e s) (.error e t)

theorem Parallel.symm {r r' : EStateM.Result ScriptError Interpreter α}
    (h : Parallel A Eq r r') (hA : ∀ {s t}, A s t → A t s) : Parallel A Eq r' r := by
  cases h with
  | ok hab hst => exact .ok hab.symm (hA hst)
  | error hst => exact .error (hA hst)

theorem Parallel.mono {A' : Interpreter → Interpreter → Prop} {R' : α → β → Prop}
    {r : EStateM.Result ScriptError Interpreter α} {r' : EStateM.Result ScriptError Interpreter β}
    (h : Parallel A R r r') (hA : ∀ {s t}, A s t → A' s t) (hR : ∀ {a b}, R a b → R' a b) :
    Parallel A' R' r r' := by
  cases h with
  | ok hab hst => exact .ok (hR hab) (hA hst)
  | error hst => exact .error (hA hst)

/-- A relation between results that may be put together one by one. -/
class Joins (R : List String → List String → Prop) : Prop where
  nil : R [] []
  append {front front' back back' : List String} : R front front' → R back back' →
    R (front ++ back) (front' ++ back')

instance : Joins Eq where
  nil := rfl
  append hfront hback := by rw [hfront, hback]

/-- Runs that end alike, from any related states. -/
def Parallels (A : Interpreter → Interpreter → Prop) (R : α → β → Prop) (x : Run α) (y : Run β) :
    Prop :=
  ∀ s t, A s t → Parallel A R (x.run s) (y.run t)

/-- A relation between states with the same variables. -/
class SharesBindings (A : Interpreter → Interpreter → Prop) : Prop where
  bindings {s t : Interpreter} : A s t → s.bindings = t.bindings

/-- A relation that a script does not leave, whatever it does to its variables and prints. -/
class Kindred (A : Interpreter → Interpreter → Prop) : Prop extends SharesBindings A where
  maxIterations {s t : Interpreter} : A s t → s.maxIterations = t.maxIterations
  rebind {s t : Interpreter} (bindings : Dict Value) : A s t →
    A { s with bindings } { t with bindings }
  print {s t : Interpreter} (line : String) : A s t →
    A { s with printed := s.printed.push line } { t with printed := t.printed.push line }

/-! ## Putting runs together -/

theorem parallels_pure {a : α} {b : β} (h : R a b) : Parallels A R (pure a) (pure b) :=
  fun _ _ hst => .ok h hst

theorem parallels_throw (e : ScriptError) : Parallels A R (throw e) (throw e) :=
  fun _ _ hst => .error hst

theorem parallels_get : Parallels A A get get :=
  fun _ _ hst => .ok hst hst

theorem parallels_modify {f g : Interpreter → Interpreter} (h : ∀ s t, A s t → A (f s) (g t)) :
    Parallels A Eq (modify f : Run PUnit) (modify g) :=
  fun s t hst => .ok rfl (h s t hst)

theorem Parallels.bind {x : Run α} {y : Run β} {f : α → Run γ} {g : β → Run δ}
    (hx : Parallels A R x y) (hf : ∀ a b, R a b → Parallels A Q (f a) (g b)) :
    Parallels A Q (x >>= f) (y >>= g) := by
  intro s t hst
  rw [EStateM.run_bind, EStateM.run_bind]
  have hxy := hx s t hst
  generalize x.run s = r at hxy ⊢
  generalize y.run t = r' at hxy ⊢
  cases hxy with
  | ok hab hst' => exact hf _ _ hab _ _ hst'
  | error hst' => exact .error hst'

theorem Parallels.bind_eq {x y : Run α} {f : α → Run γ} {g : α → Run δ}
    (hx : Parallels A Eq x y) (hf : ∀ a, Parallels A Q (f a) (g a)) :
    Parallels A Q (x >>= f) (y >>= g) :=
  hx.bind fun a _ hab => hab ▸ hf a

theorem parallels_guard {p : Prop} [Decidable p] (e : ScriptError) {rest : Run α} {rest' : Run β}
    (hrest : Parallels A R rest rest') :
    Parallels A R (if p then throw e >>= fun _ : PUnit => rest else rest)
      (if p then throw e >>= fun _ : PUnit => rest' else rest') := by
  split
  · exact parallels_throw e
  · exact hrest

/-! ## Single steps -/

section Steps

variable [Kindred A]

theorem parallels_print (line : String) : Parallels A Eq (print line) (print line) :=
  parallels_modify fun _ _ hst => Kindred.print line hst

theorem parallels_valueOf? (name : String) : Parallels A Eq (valueOf? name) (valueOf? name) :=
  parallels_get.bind fun _ _ hst => parallels_pure (by rw [SharesBindings.bindings hst])

theorem parallels_bind (name : String) (value : Value) :
    Parallels A Eq (bind name value) (bind name value) :=
  parallels_modify fun s t hst => by
    rw [SharesBindings.bindings hst]
    exact Kindred.rebind _ hst

theorem parallels_unbind (name : String) : Parallels A Eq (unbind name) (unbind name) :=
  parallels_modify fun s t hst => by
    rw [SharesBindings.bindings hst]
    exact Kindred.rebind _ hst

theorem parallels_restore (name : String) (old : Option Value) :
    Parallels A Eq (restore name old) (restore name old) := by
  cases old with
  | some value => exact parallels_bind name value
  | none => exact parallels_unbind name

end Steps

/-! ## Values and conditions -/

section Values

variable [SharesBindings A]

theorem parallels_expandVariables (text : String) :
    Parallels A Eq (expandVariables text) (expandVariables text) := by
  refine parallels_get.bind fun s t hst => ?_
  rw [SharesBindings.bindings hst]
  split
  · exact parallels_pure rfl
  · exact parallels_throw _

theorem parallels_evaluateExpression (text : String) :
    Parallels A Eq (evaluateExpression limits text) (evaluateExpression limits text) :=
  (parallels_expandVariables text).bind_eq fun _ => parallels_pure rfl

omit [SharesBindings A] in
theorem parallels_valueText (value : Value) :
    Parallels A Eq (valueText value) (valueText value) := by
  unfold valueText
  split
  · exact parallels_pure rfl
  · exact parallels_throw _

omit [SharesBindings A] in
theorem parallels_sides (left right : Value) :
    Parallels A Eq (sides left right) (sides left right) := by
  refine (parallels_valueText left).bind_eq fun leftText => ?_
  split
  · exact (parallels_valueText right).bind_eq fun _ => parallels_pure rfl
  · refine (parallels_valueText right).bind_eq fun rightText => ?_
    split <;> exact parallels_pure rfl

theorem parallels_evaluateCondition (condition : String) :
    Parallels A Eq (evaluateCondition limits condition) (evaluateCondition limits condition) := by
  refine (parallels_expandVariables condition).bind_eq fun condition => ?_
  split
  · exact parallels_pure rfl
  · refine (parallels_evaluateExpression _).bind_eq fun left => ?_
    refine (parallels_evaluateExpression _).bind_eq fun right => ?_
    refine (parallels_sides left right).bind_eq fun sides => ?_
    dsimp only
    split
    · exact parallels_pure rfl
    · exact parallels_throw _

end Values

section Reading

variable [Kindred A]

theorem parallels_assign (line : String) :
    Parallels A Eq (assign limits line) (assign limits line) := by
  unfold assign
  split
  · exact parallels_print _
  · refine (parallels_evaluateExpression _).bind_eq fun value => ?_
    refine (parallels_bind _ value).bind_eq fun _ => ?_
    exact (parallels_valueText value).bind_eq fun _ => parallels_print _

omit [Kindred A] in
theorem parallels_readInt (text : String) : Parallels A Eq (readInt text) (readInt text) := by
  unfold readInt
  split
  · exact parallels_pure rfl
  · exact parallels_throw _

theorem parallels_stepThrough (first last step : Int) :
    Parallels A Eq (stepThrough limits first last step) (stepThrough limits first last step) := by
  refine parallels_guard _ (parallels_guard _ (parallels_guard _ ?_))
  exact parallels_get.bind fun s t hst => parallels_pure (by rw [Kindred.maxIterations hst])

theorem parallels_loopValues (text : String) :
    Parallels A Eq (loopValues limits text) (loopValues limits text) := by
  unfold loopValues
  split
  · refine (parallels_readInt _).bind_eq fun first => (parallels_readInt _).bind_eq fun last => ?_
    split
    · exact (parallels_readInt _).bind_eq (parallels_stepThrough first last)
    · exact parallels_stepThrough first last 1
  · exact parallels_pure rfl

end Reading

/-! ## Loops and calls -/

section Expanders

variable [Kindred A] {J : List String → List String → Prop} [Joins J] {expand expand' : Expander}
  {body body' : List String}

omit [Joins J] in
theorem parallels_forRound (hbody : Parallels A J (expand body) (expand' body')) (name : String)
    (value : Value) :
    Parallels A J (forRound expand name body value) (forRound expand' name body' value) := by
  refine (parallels_valueOf? name).bind_eq fun old => ?_
  refine (parallels_bind name value).bind_eq fun _ => ?_
  refine hbody.bind fun commands commands' hcommands => ?_
  refine (parallels_valueOf? name).bind_eq fun new => ?_
  exact parallels_guard _ ((parallels_restore name old).bind_eq fun _ => parallels_pure hcommands)

/-- A warning that names the limit, which is the same on both sides. -/
theorem parallels_warning (text : Int → String) :
    Parallels A J (do print (text (← get).maxIterations); return [])
      (do print (text (← get).maxIterations); return []) :=
  parallels_get.bind fun s t hst => by
    rw [Kindred.maxIterations hst]
    exact (parallels_print _).bind_eq fun _ => parallels_pure Joins.nil

theorem parallels_forRounds (hbody : Parallels A J (expand body) (expand' body')) (name : String)
    (left : Nat) (values : List Value) :
    Parallels A J (forRounds expand name body left values)
      (forRounds expand' name body' left values) := by
  induction values generalizing left with
  | nil =>
    unfold forRounds
    exact parallels_pure Joins.nil
  | cons value values ih =>
    cases left with
    | zero =>
      exact parallels_warning
        fun limit => s!"Warning: For loop exceeded max iterations ({limit})"
    | succ left =>
      unfold forRounds
      exact (parallels_forRound hbody name value).bind fun _ _ hfirst =>
        (ih left).bind fun _ _ hmore => parallels_pure (Joins.append hfirst hmore)

theorem parallels_whileRounds (hbody : Parallels A J (expand body) (expand' body'))
    {condition condition' : String}
    (hcondition : Parallels A Eq (evaluateCondition limits condition)
      (evaluateCondition limits condition')) (left : Nat) :
    Parallels A J (whileRounds limits expand condition body left)
      (whileRounds limits expand' condition' body' left) := by
  induction left with
  | zero =>
    unfold whileRounds
    refine hcondition.bind_eq fun holds => ?_
    cases holds with
    | true =>
      exact parallels_warning
        fun limit => s!"Warning: While loop exceeded max iterations ({limit})"
    | false => exact parallels_pure Joins.nil
  | succ left ih =>
    unfold whileRounds
    refine hcondition.bind_eq fun holds => ?_
    cases holds with
    | true =>
      exact hbody.bind fun _ _ hfirst =>
        ih.bind fun _ _ hmore => parallels_pure (Joins.append hfirst hmore)
    | false => exact parallels_pure Joins.nil

omit [Joins J] in
theorem parallels_bindArguments (index : Nat) (args : List String) :
    Parallels A Eq (bindArguments index args) (bindArguments index args) := by
  induction args generalizing index with
  | nil => exact parallels_pure rfl
  | cons arg args ih =>
    unfold bindArguments
    refine (parallels_valueOf? _).bind_eq fun old => (parallels_bind _ _).bind_eq fun _ => ?_
    exact (ih (index + 1)).bind_eq fun _ => parallels_pure rfl

theorem parallels_restoreAll (old : List (String × Option Value)) :
    Parallels A Eq (old.forM fun (name, value) => restore name value)
      (old.forM fun (name, value) => restore name value) := by
  induction old with
  | nil => exact parallels_pure rfl
  | cons entry old ih => exact (parallels_restore entry.1 entry.2).bind_eq fun _ => ih

/-- A call expands the bodies that the two states have under its name, in both or in neither. -/
theorem parallels_expandCall {B : List String → List String → Prop}
    {line : String}
    (hsubroutines : ∀ {s t}, A s t → ∀ name text, callOf? line = some (name, text) →
      Option.Rel B (Dict.get? s.subroutines name) (Dict.get? t.subroutines name))
    (hexpand : ∀ {body body'}, B body body' → Parallels A J (expand body) (expand' body')) :
    Parallels A J (expandCall expand line) (expandCall expand' line) := by
  unfold expandCall
  split
  · exact (parallels_print _).bind_eq fun _ => parallels_pure Joins.nil
  · rename_i name text hcall
    refine parallels_get.bind fun s t hst => ?_
    have hname := hsubroutines hst name text hcall
    generalize Dict.get? s.subroutines name = found at hname ⊢
    generalize Dict.get? t.subroutines name = found' at hname ⊢
    cases hname with
    | none => exact (parallels_print _).bind_eq fun _ => parallels_pure Joins.nil
    | some hbody =>
      refine (parallels_bindArguments 1 _).bind_eq fun old => ?_
      refine (hexpand hbody).bind fun commands commands' hcommands => ?_
      exact (parallels_restoreAll old).bind_eq fun _ => parallels_pure hcommands

end Expanders

/-! ## The same lines on both sides -/

section Same

variable [Kindred A]

theorem parallels_openScript (around : Surroundings) (path : Path) (visited : List Path) :
    Parallels A Eq (openScript around path visited) (openScript around path visited) := by
  unfold openScript
  refine parallels_guard _ ?_
  dsimp only
  split
  · exact (parallels_print _).bind_eq fun _ => parallels_pure rfl
  · split
    · exact parallels_pure rfl
    · exact (parallels_print _).bind_eq fun _ => parallels_pure rfl

theorem parallels_expandInclude (around : Surroundings) (base : Option Path) (line : String) :
    Parallels A Eq (expandInclude around base line) (expandInclude around base line) := by
  unfold expandInclude
  split
  · exact parallels_pure rfl
  · dsimp only
    split
    · exact parallels_throw _
    · exact (parallels_print _).bind_eq fun _ => parallels_pure rfl
    · refine Parallels.bind_eq ?_ fun _ => parallels_pure rfl
      exact (parallels_openScript around _ []).bind_eq fun _ => parallels_pure rfl

theorem parallels_report (message : String) (r : List String × Nat) :
    Parallels A Eq (do print message; return r) (do print message; return r) :=
  (parallels_print message).bind_eq fun _ => parallels_pure rfl

theorem parallels_loopBody (closing : String) (rest : List String) :
    Parallels A Eq (loopBody closing rest) (loopBody closing rest) := by
  unfold loopBody
  dsimp only
  split
  · exact parallels_report _ _
  · exact parallels_pure rfl

section Blocks

variable {expand : Expander} (hexpand : ∀ body, Parallels A Eq (expand body) (expand body))
include hexpand

theorem parallels_expandFor (line : String) (rest : List String) :
    Parallels A Eq (expandFor limits expand line rest) (expandFor limits expand line rest) := by
  unfold expandFor
  split
  · exact parallels_report _ _
  · refine (parallels_expandVariables _).bind_eq fun text => ?_
    refine (parallels_loopValues text).bind_eq fun values => ?_
    refine (parallels_loopBody _ rest).bind_eq fun part => ?_
    refine parallels_get.bind fun s t hst => ?_
    rw [Kindred.maxIterations hst]
    exact (parallels_forRounds (hexpand part.1) _ _ values).bind_eq fun _ => parallels_pure rfl

theorem parallels_expandWhile (line : String) (rest : List String) :
    Parallels A Eq (expandWhile limits expand line rest) (expandWhile limits expand line rest) := by
  unfold expandWhile
  split
  · exact parallels_report _ _
  · refine (parallels_loopBody _ rest).bind_eq fun part => ?_
    refine parallels_get.bind fun s t hst => ?_
    rw [Kindred.maxIterations hst]
    exact (parallels_whileRounds (hexpand part.1) (parallels_evaluateCondition _) _).bind_eq
      fun _ => parallels_pure rfl

theorem parallels_expandIf (position : Int) (line : String) (rest : List String) :
    Parallels A Eq (expandIf limits expand position line rest)
      (expandIf limits expand position line rest) := by
  unfold expandIf
  split
  · exact parallels_report _ _
  · split
    · exact parallels_report _ _
    · refine (parallels_evaluateCondition _).bind_eq fun holds => ?_
      exact (hexpand _).bind_eq fun _ => parallels_pure rfl

variable (hsubroutines : ∀ {s t}, A s t →
  ∀ name, Dict.get? s.subroutines name = Dict.get? t.subroutines name)
include hsubroutines

theorem parallels_expandLine (around : Surroundings) (base : Option Path) (position : Nat)
    (line : String) (rest : List String) :
    Parallels A Eq (expandLine around base expand position line rest)
      (expandLine around base expand position line rest) := by
  have hsame {s t : Interpreter} (hst : A s t) (name : String) :
      Option.Rel Eq (Dict.get? s.subroutines name) (Dict.get? t.subroutines name) := by
    rw [hsubroutines hst name]
    cases Dict.get? t.subroutines name with
    | none => exact .none
    | some body => exact .some rfl
  have hcall : Parallels A Eq (expandCall expand line) (expandCall expand line) :=
    parallels_expandCall (fun hst name _ _ => hsame hst name)
      (fun {body _} hbody => hbody ▸ hexpand body)
  unfold expandLine
  split
  · exact parallels_pure rfl
  · exact (parallels_expandInclude around base line).bind_eq fun _ => parallels_pure rfl
  · exact (parallels_assign line).bind_eq fun _ => parallels_pure rfl
  · exact parallels_expandFor hexpand line rest
  · exact parallels_expandWhile hexpand line rest
  · exact parallels_expandIf hexpand position line rest
  · exact hcall.bind_eq fun _ => parallels_pure rfl
  · exact parallels_report _ _
  · exact (parallels_expandVariables line).bind_eq fun _ => parallels_pure rfl

theorem parallels_expandLines (around : Surroundings) (base : Option Path) (position : Nat)
    (lines : List String) :
    Parallels A Eq (expandLines around base expand position lines)
      (expandLines around base expand position lines) := by
  -- a block takes its lines with it, so the walk goes on with a shorter list, not with the tail
  induction hn : lines.length using Nat.strongRecOn generalizing lines position with
  | ind n ih =>
    cases lines with
    | nil =>
      rw [expandLines]
      exact parallels_pure rfl
    | cons raw rest =>
      rw [expandLines]
      refine (parallels_expandLine hexpand hsubroutines around base position _ rest).bind_eq
        fun part => ?_
      have hshorter : (rest.drop part.2).length < n := by
        rw [← hn, List.length_drop, List.length_cons]
        omega
      exact (ih _ hshorter _ _ rfl).bind_eq fun _ => parallels_pure rfl

end Blocks

/-- Where subroutines are the same under every name, blocks are expanded alike. -/
theorem parallels_expandBlock (around : Surroundings) (base : Option Path)
    (hsubroutines : ∀ {s t}, A s t →
      ∀ name, Dict.get? s.subroutines name = Dict.get? t.subroutines name)
    (levels : Nat) (lines : List String) :
    Parallels A Eq (expandBlock around base levels lines)
      (expandBlock around base levels lines) := by
  induction levels generalizing around lines with
  | zero => exact (parallels_print _).bind_eq fun _ => parallels_pure rfl
  | succ levels ih => exact parallels_expandLines (ih around.inner) hsubroutines around base 0 lines

end Same

end RobotConsole.Script
