import RobotConsole.Proofs.Script.Parallel

/-!
# Runs that cannot tell two states apart

In two states that agree on the variables and on the limit, and whose subroutines are related
somehow, two runs do the same as long as related bodies expand to the same commands (`Mirrors`);
what has been printed may differ. The steps of expansion up to loops and calls are those of
`Parallels`; only what a line is, and where blocks end, is left to the relation at hand.
-/

namespace RobotConsole.Script

open Arithmetic (Value)

variable {α β γ δ : Type} {limits : Limits}

/-- States with the same variables and the same limit, and with related subroutines. -/
structure Alike (B : List String → List String → Prop) (s t : Interpreter) : Prop where
  bindings : s.bindings = t.bindings
  maxIterations : s.maxIterations = t.maxIterations
  subroutines : ∀ name, Option.Rel B (Dict.get? s.subroutines name) (Dict.get? t.subroutines name)

/-- Outcomes of the same kind, with related results or the same error, in states alike. -/
inductive Matches (B : List String → List String → Prop) (R : α → β → Prop) :
    EStateM.Result ScriptError Interpreter α → EStateM.Result ScriptError Interpreter β → Prop
  | ok {a : α} {b : β} {s t : Interpreter} : R a b → Alike B s t → Matches B R (.ok a s) (.ok b t)
  | error {e : ScriptError} {s t : Interpreter} :
      Alike B s t → Matches B R (.error e s) (.error e t)

theorem Matches.mono {B B' : List String → List String → Prop} {R R' : α → β → Prop}
    {x : EStateM.Result ScriptError Interpreter α} {y : EStateM.Result ScriptError Interpreter β}
    (h : Matches B R x y) (hB : ∀ {lines lines'}, B lines lines' → B' lines lines')
    (hR : ∀ {a b}, R a b → R' a b) : Matches B' R' x y := by
  have halike {s t : Interpreter} (hst : Alike B s t) : Alike B' s t := by
    refine ⟨hst.bindings, hst.maxIterations, fun name => ?_⟩
    have hname := hst.subroutines name
    generalize Dict.get? s.subroutines name = body at hname ⊢
    generalize Dict.get? t.subroutines name = body' at hname ⊢
    cases hname with
    | some hbody => exact .some (hB hbody)
    | none => exact .none
  cases h with
  | ok hab hst => exact .ok (hR hab) (halike hst)
  | error hst => exact .error (halike hst)

/-- Runs that match, from any states alike. -/
def Mirrors (B : List String → List String → Prop) (R : α → β → Prop) (x : Run α) (y : Run β) :
    Prop :=
  ∀ s t, Alike B s t → Matches B R (x.run s) (y.run t)

variable {B : List String → List String → Prop} {R : α → β → Prop} {Q : γ → δ → Prop}

instance : Kindred (Alike B) where
  bindings hst := hst.bindings
  maxIterations hst := hst.maxIterations
  rebind _ hst := ⟨rfl, hst.maxIterations, hst.subroutines⟩
  print _ hst := ⟨hst.bindings, hst.maxIterations, hst.subroutines⟩

theorem matches_iff {r : EStateM.Result ScriptError Interpreter α}
    {r' : EStateM.Result ScriptError Interpreter β} :
    Matches B R r r' ↔ Parallel (Alike B) R r r' := by
  constructor
  · rintro (⟨hab, hst⟩ | hst)
    · exact .ok hab hst
    · exact .error hst
  · rintro (⟨hab, hst⟩ | hst)
    · exact .ok hab hst
    · exact .error hst

theorem mirrors_iff {x : Run α} {y : Run β} : Mirrors B R x y ↔ Parallels (Alike B) R x y :=
  forall₃_congr fun _ _ _ => matches_iff

/-! ## Putting runs together -/

theorem mirrors_pure {a : α} {b : β} (h : R a b) : Mirrors B R (pure a) (pure b) :=
  fun _ _ hst => .ok h hst

theorem mirrors_get : Mirrors B (Alike B) get get :=
  fun _ _ hst => .ok hst hst

theorem Mirrors.bind {x : Run α} {y : Run β} {f : α → Run γ} {g : β → Run δ}
    (hx : Mirrors B R x y) (hf : ∀ a b, R a b → Mirrors B Q (f a) (g b)) :
    Mirrors B Q (x >>= f) (y >>= g) :=
  mirrors_iff.mpr ((mirrors_iff.mp hx).bind fun a b hab => mirrors_iff.mp (hf a b hab))

theorem Mirrors.bind_eq {x y : Run α} {f : α → Run γ} {g : α → Run δ}
    (hx : Mirrors B Eq x y) (hf : ∀ a, Mirrors B Q (f a) (g a)) :
    Mirrors B Q (x >>= f) (y >>= g) :=
  hx.bind fun a _ hab => hab ▸ hf a

/-! ## Single steps -/

theorem mirrors_print (text text' : String) : Mirrors B Eq (print text) (print text') :=
  fun _ _ hst => .ok rfl ⟨hst.bindings, hst.maxIterations, hst.subroutines⟩

theorem mirrors_define (name : String) {lines lines' : List String} (h : B lines lines') :
    Mirrors B Eq (define name lines) (define name lines') := by
  refine fun s t hst => .ok rfl ⟨hst.bindings, hst.maxIterations, fun other => ?_⟩
  show Option.Rel B (Dict.get? (Dict.put s.subroutines name lines) other)
    (Dict.get? (Dict.put t.subroutines name lines') other)
  rw [Dict.get?_put, Dict.get?_put]
  split
  · exact .some h
  · exact hst.subroutines other

theorem mirrors_expandVariables (text : String) :
    Mirrors B Eq (expandVariables text) (expandVariables text) :=
  mirrors_iff.mpr (parallels_expandVariables text)

theorem mirrors_evaluateCondition (condition : String) :
    Mirrors B Eq (evaluateCondition limits condition) (evaluateCondition limits condition) :=
  mirrors_iff.mpr (parallels_evaluateCondition condition)

theorem mirrors_assign (line : String) : Mirrors B Eq (assign limits line) (assign limits line) :=
  mirrors_iff.mpr (parallels_assign line)

theorem mirrors_loopValues (text : String) :
    Mirrors B Eq (loopValues limits text) (loopValues limits text) :=
  mirrors_iff.mpr (parallels_loopValues text)

/-! ## Loops and calls -/

section Expanders

variable {expand expand' : Expander} {body body' : List String}

theorem mirrors_forRounds (hbody : Mirrors B Eq (expand body) (expand' body')) (name : String)
    (left : Nat) (values : List Value) :
    Mirrors B Eq (forRounds expand name body left values)
      (forRounds expand' name body' left values) :=
  mirrors_iff.mpr (parallels_forRounds (mirrors_iff.mp hbody) name left values)

theorem mirrors_whileRounds (hbody : Mirrors B Eq (expand body) (expand' body'))
    (condition : String) (left : Nat) :
    Mirrors B Eq (whileRounds limits expand condition body left)
      (whileRounds limits expand' condition body' left) :=
  mirrors_iff.mpr (parallels_whileRounds (mirrors_iff.mp hbody)
    (parallels_evaluateCondition condition) left)

/-- A call expands the bodies that the two states have under its name. -/
theorem mirrors_expandCall
    (hexpand : ∀ {body body'}, B body body' → Mirrors B Eq (expand body) (expand' body'))
    (line : String) : Mirrors B Eq (expandCall expand line) (expandCall expand' line) :=
  mirrors_iff.mpr (parallels_expandCall (fun hst name _ _ => hst.subroutines name)
    fun hbody => mirrors_iff.mp (hexpand hbody))

end Expanders

end RobotConsole.Script
