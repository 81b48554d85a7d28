import RobotConsole.Proofs.Script.Inclusion
import RobotConsole.Proofs.Script.Scope

/-!
# Where commands come from

A script invents no command. Each one that expansion yields is either a line of a file that an
include line of the script names, or it is a line of the script itself with its references replaced,
and then that line is no directive (`commands_derived`). The lines travel far on the way: into
subroutines, into the bodies of loops and the parts of conditionals, and along the paths that a
script with missing or stray ends takes. What carries the proof is that all the lines in play, those
that subroutines hold included, are lines of the script (`Emits`).
-/

namespace RobotConsole.Script

open Arithmetic (Value)
open Storage (Path)
open Contract

variable {α β : Type} {limits : Limits}

/-- The words that start a directive, each with the blank after it. -/
def directiveStarts : List String :=
  ["include ", "set ", "for ", "while ", "if ", "call "]

/-- The words that stand alone on a line and end a block or a part of one. -/
def blockEnds : List String :=
  ["else", "endif", "endfor", "endwhile", "enddef"]

/-- A trimmed line that is a command: it is not blank, no remark, and no directive in any letter
case. -/
structure IsCommandLine (line : String) : Prop where
  notBlank : line ≠ ""
  notRemark : startsWith line "#" = false
  notDirective : ∀ start ∈ directiveStarts, startsWith (Text.lower line) start = false
  notEnd : Text.lower line ∉ blockEnds

/-- Where a command of a script comes from, given the lines of the script. -/
inductive Derived (around : Surroundings) (base : Option Path) (given : List String)
    (command : String) : Prop
  /-- From a file that is there and can be read, and that a line of the script includes. -/
  | included {raw line : String} {file : Path} {content : List String} :
      raw ∈ given → startsWith (Text.lower (Text.trim raw)) "include " = true →
      included? around base (Text.trim raw) = some (file, content) →
      line ∈ content → command = Text.trim line → command ≠ "" → startsWith command "#" = false →
      Derived around base given command
  /-- From a line of the script, with its references replaced by the values in some store. -/
  | expanded {raw : String} {bindings : Dict Value} :
      raw ∈ given → IsCommandLine (Text.trim raw) →
      expandText bindings (Text.trim raw) = .ok command → Derived around base given command

theorem isCommandLine_of_classify {line : String} (h : classify line = .command) :
    IsCommandLine line := by
  unfold classify at h
  dsimp only at h
  split at h
  · cases h
  rename_i hskipped
  iterate 7
    split at h
    · cases h
  rename_i hinclude hset hfor hwhile hif hcall hend
  simp only [Bool.or_eq_true, not_or, Bool.not_eq_true] at hskipped
  simp only [Bool.not_eq_true] at hinclude hset hfor hwhile hif hcall
  refine ⟨beq_eq_false_iff_ne.mp hskipped.1, hskipped.2, ?_, ?_⟩
  · intro start hstart
    simp only [directiveStarts, List.mem_cons, List.not_mem_nil, or_false] at hstart
    rcases hstart with rfl | rfl | rfl | rfl | rfl | rfl
    exacts [hinclude, hset, hfor, hwhile, hif, hcall]
  · intro hmem
    exact hend (List.contains_iff_mem.mpr hmem)

/-! ## Runs in which only given lines are in play -/

/-- The subroutines hold no other lines than these. -/
def Interpreter.HoldsOnly (given : List String) (s : Interpreter) : Prop :=
  ∀ name body, Dict.get? s.subroutines name = some body → body ⊆ given

/-- A run that brings no other lines into the subroutines, and whose result, if it has one, is of a
kind. -/
def Emits (given : List String) (P : α → Prop) (x : Run α) : Prop :=
  ∀ s, s.HoldsOnly given → ∀ a t, x.run s = .ok a t → t.HoldsOnly given ∧ P a

variable {given : List String} {P : α → Prop} {Q : β → Prop}

theorem emits_pure {a : α} (h : P a) : Emits given P (pure a) := by
  intro s hs a' t hrun
  cases hrun
  exact ⟨hs, h⟩

theorem emits_throw (e : ScriptError) : Emits given P (throw e) := by
  intro s _ a t hrun
  cases hrun

theorem Emits.bind {x : Run α} {f : α → Run β} (hx : Emits given P x)
    (hf : ∀ a, P a → Emits given Q (f a)) : Emits given Q (x >>= f) := by
  intro s hs b u hrun
  rw [EStateM.run_bind] at hrun
  cases hfirst : x.run s with
  | error e t =>
    rw [hfirst] at hrun
    cases hrun
  | ok a t =>
    rw [hfirst] at hrun
    obtain ⟨ht, ha⟩ := hx s hs a t hfirst
    exact hf a ha t ht b u hrun

theorem emits_forM {f : α → Run Unit} (hf : ∀ a, Emits given (fun _ => True) (f a))
    (as : List α) : Emits given (fun _ => True) (as.forM f) := by
  induction as with
  | nil => exact emits_pure trivial
  | cons a as ih => exact (hf a).bind fun _ _ => ih

theorem emits_get : Emits given (Interpreter.HoldsOnly given) get := by
  intro s hs a t hrun
  cases hrun
  exact ⟨hs, hs⟩

theorem emits_modify {f : Interpreter → Interpreter}
    (hf : ∀ s, (f s).subroutines = s.subroutines) :
    Emits given (fun _ => True) (modify f : Run PUnit) := by
  intro s hs a t hrun
  cases hrun
  refine ⟨fun name body hbody => hs name body ?_, trivial⟩
  rw [← hf s]
  exact hbody

theorem emits_of_scope {x : Run α} (hx : scope.Holds x) : Emits given (fun _ => True) x := by
  intro s hs a t hrun
  have hkeeps : Keeps (fun _ => False) s t := (hx s).yields hrun
  refine ⟨fun name body hbody => hs name body ?_, trivial⟩
  rw [← hkeeps.subroutines]
  exact hbody

theorem emits_print (line : String) : Emits given (fun _ => True) (print line) :=
  emits_modify fun _ => rfl

theorem emits_define (name : String) {lines : List String} (h : lines ⊆ given) :
    Emits given (fun _ => True) (define name lines) := by
  intro s hs a t hrun
  cases hrun
  refine ⟨fun other body hbody => ?_, trivial⟩
  replace hbody : Dict.get? (Dict.put s.subroutines name lines) other = some body := hbody
  rw [Dict.get?_put] at hbody
  split at hbody
  · cases hbody
    exact h
  · exact hs other body hbody

/-! ## Taking definitions out -/

/-- The lines that a definition under way has taken in. -/
def Definition.lines : Definition → List String
  | .outside => []
  | .within _ lines _ => lines

/-- Subroutines get lines of the script, and what is left are lines of the script. -/
theorem emits_extractFrom (state : Definition) {lines : List String} (hstate : state.lines ⊆ given)
    (hlines : lines ⊆ given) : Emits given (· ⊆ given) (extractFrom state lines) := by
  have hnil : ([] : List String) ⊆ given := List.nil_subset given
  induction lines generalizing state with
  | nil =>
    cases state with
    | outside => exact emits_pure hnil
    | within name seen nested =>
      have hseen : seen.reverse ⊆ given := List.reverse_subset.mpr hstate
      exact (emits_define name hseen).bind fun _ _ => emits_pure hnil
  | cons raw rest ih =>
    obtain ⟨hraw, hrest⟩ := List.cons_subset.mp hlines
    unfold extractFrom
    cases state with
    | outside =>
      dsimp only
      split
      · exact ih (.within _ [] 0) hnil hrest
      · exact (ih .outside hnil hrest).bind fun kept hkept =>
          emits_pure (List.cons_subset.mpr ⟨hraw, hkept⟩)
    | within name seen nested =>
      -- wherever the definition goes on, it has taken in this line
      have hseen : raw :: seen ⊆ given := List.cons_subset.mpr ⟨hraw, hstate⟩
      dsimp only
      split
      · exact ih (.within _ _ _) hseen hrest
      split
      · cases nested with
        | zero =>
          have hbody : seen.reverse ⊆ given := List.reverse_subset.mpr hstate
          exact (emits_define name hbody).bind fun _ _ => ih .outside hnil hrest
        | succ nested => exact ih (.within _ _ _) hseen hrest
      · exact ih (.within _ _ _) hseen hrest

/-! ## Lines that yield commands themselves -/

/-- A file that is included yields its own lines, trimmed, and no blank ones and no remarks. -/
theorem mem_plainCommands {content : List String} {command : String}
    (h : command ∈ plainCommands content) :
    ∃ line ∈ content, command = Text.trim line ∧ command ≠ "" ∧
      startsWith command "#" = false := by
  unfold plainCommands at h
  obtain ⟨hmem, htest⟩ := List.mem_filter.mp h
  obtain ⟨line, hline, rfl⟩ := List.mem_map.mp hmem
  rw [Bool.and_eq_true, bne_iff_ne, bne_iff_ne] at htest
  refine ⟨line, hline, rfl, htest.1, ?_⟩
  unfold startsWith
  cases hcs : (Text.trim line).toList with
  | nil => rfl
  | cons c cs =>
    rw [hcs] at htest
    have hc : '#' ≠ c := fun hc => htest.2 (by rw [hc]; rfl)
    simp [List.isPrefixOf, hc]

theorem emits_loadPlain (around : Surroundings) (path : Path) :
    Emits given (fun loaded => ∀ command ∈ loaded.1, ∃ file content,
      scriptAt? around path = some (file, content) ∧ command ∈ plainCommands content)
      (loadPlain around path []) := by
  have hnone {visited : List Path} : ∀ command ∈ (plainCommands [], visited).1, ∃ file content,
      scriptAt? around path = some (file, content) ∧ command ∈ plainCommands content :=
    fun command h => absurd h List.not_mem_nil
  unfold loadPlain openScript
  cases hnul : path.hasNul with
  | true =>
    simp only [if_true, bind_assoc]
    exact (emits_throw _).bind fun (_ : PUnit) (h : False) => h.elim
  | false =>
    simp only [Bool.false_eq_true, if_false, List.contains_nil]
    cases hread : around.files.lines (Path.resolve around.directory path) with
    | error cause =>
      simp only [bind_assoc]
      exact (emits_print _).bind fun _ _ => emits_pure hnone
    | ok content =>
      refine emits_pure fun command hcommand =>
        ⟨Path.resolve around.directory path, content, ?_, hcommand⟩
      unfold scriptAt?
      simp [hnul, hread, Except.toOption]

theorem emits_expandInclude (around : Surroundings) (base : Option Path) (line : String) :
    Emits given (fun commands => ∀ command ∈ commands, ∃ file content,
      included? around base line = some (file, content) ∧ command ∈ plainCommands content)
      (expandInclude around base line) := by
  unfold expandInclude
  cases hargument : argumentOf? "include" line with
  | none => exact emits_pure fun _ h => absurd h List.not_mem_nil
  | some argument =>
    cases base with
    | none | some directory =>
      dsimp only
      split
      · exact emits_throw _
      · exact (emits_print _).bind fun _ _ => emits_pure fun _ h => absurd h List.not_mem_nil
      · rename_i hthere
        refine (emits_loadPlain around _).bind fun loaded hloaded => ?_
        refine emits_pure fun command hcommand => ?_
        obtain ⟨file, content, hfile, hmem⟩ := hloaded command hcommand
        refine ⟨file, content, ?_, hmem⟩
        unfold included?
        simp [hargument, includePath, hthere, hfile, Except.toOption]

/-! ## Blocks -/

theorem branches_subset {nested : Nat} {inElse : Bool} {rest : List String} {parts : Branches}
    (h : branches? nested inElse rest = some parts) :
    parts.thenLines ⊆ rest ∧ parts.elseLines ⊆ rest := by
  induction rest generalizing nested inElse parts with
  | nil => cases h
  | cons line rest ih =>
    -- a line goes into one of the parts, or into none when it is the dividing one
    have hadd {nested : Nat} {inElse' : Bool}
        (h : (branches? nested inElse rest).map (·.add inElse' line) = some parts) :
        parts.thenLines ⊆ line :: rest ∧ parts.elseLines ⊆ line :: rest := by
      obtain ⟨inner, hinner, rfl⟩ := Option.map_eq_some_iff.mp h
      obtain ⟨hthen, helse⟩ := ih hinner
      unfold Branches.add
      split
      · exact ⟨List.subset_cons_of_subset line hthen, List.cons_subset_cons line helse⟩
      · exact ⟨List.cons_subset_cons line hthen, List.subset_cons_of_subset line helse⟩
    unfold branches? at h
    dsimp only at h
    split at h
    · exact hadd h
    split at h
    · cases nested with
      | zero =>
        cases h
        exact ⟨List.nil_subset _, List.nil_subset _⟩
      | succ nested => exact hadd h
    split at h
    · obtain ⟨inner, hinner, rfl⟩ := Option.map_eq_some_iff.mp h
      obtain ⟨hthen, helse⟩ := ih hinner
      exact ⟨List.subset_cons_of_subset line hthen, List.subset_cons_of_subset line helse⟩
    · exact hadd h

section Expanders

variable {around : Surroundings} {base : Option Path} {expand : Expander} {body : List String}

/-- All commands of a list come from the script. -/
def AllDerived (around : Surroundings) (base : Option Path) (given commands : List String) : Prop :=
  ∀ command ∈ commands, Derived around base given command

theorem allDerived_nil : AllDerived around base given [] :=
  fun _ h => absurd h List.not_mem_nil

theorem AllDerived.append {commands more : List String}
    (h : AllDerived around base given commands) (hmore : AllDerived around base given more) :
    AllDerived around base given (commands ++ more) := by
  intro command hcommand
  rcases List.mem_append.mp hcommand with hmem | hmem
  · exact h command hmem
  · exact hmore command hmem

theorem emits_report (line : String) : Emits given (fun part => AllDerived around base given part.1)
    (do print line; return (([], 0) : List String × Nat)) :=
  (emits_print line).bind fun _ _ => emits_pure allDerived_nil

theorem emits_restore (name : String) (old : Option Value) :
    Emits given (fun _ => True) (restore name old) := by
  cases old with
  | some value => exact emits_modify fun _ => rfl
  | none => exact emits_modify fun _ => rfl

theorem emits_forRound (hbody : Emits given (AllDerived around base given) (expand body))
    (name : String) (value : Value) :
    Emits given (AllDerived around base given) (forRound expand name body value) := by
  refine (emits_of_scope (holds_get.giving)).bind fun old _ => ?_
  refine (emits_of_scope (scope_bind name value)).bind fun _ _ => hbody.bind fun commands hall => ?_
  refine (emits_of_scope (holds_get.giving)).bind fun new _ => ?_
  have hrest : Emits given (AllDerived around base given)
      (do restore name old; return commands) :=
    (emits_restore name old).bind fun _ _ => emits_pure hall
  split
  · exact (emits_throw _).bind fun (_ : PUnit) (h : False) => h.elim
  · exact hrest

theorem emits_forRounds (hbody : Emits given (AllDerived around base given) (expand body))
    (name : String) (left : Nat) (values : List Value) :
    Emits given (AllDerived around base given) (forRounds expand name body left values) := by
  induction values generalizing left with
  | nil =>
    unfold forRounds
    exact emits_pure allDerived_nil
  | cons value values ih =>
    cases left with
    | zero =>
      exact emits_get.bind fun _ _ => (emits_print _).bind fun _ _ => emits_pure allDerived_nil
    | succ left =>
      unfold forRounds
      refine (emits_forRound hbody name value).bind fun commands hall => ?_
      exact (ih left).bind fun more hmore => emits_pure (hall.append hmore)

theorem emits_whileRounds (hbody : Emits given (AllDerived around base given) (expand body))
    (condition : String) (left : Nat) :
    Emits given (AllDerived around base given) (whileRounds limits expand condition body left) := by
  induction left with
  | zero =>
    unfold whileRounds
    refine (emits_of_scope (keeping_evaluateCondition condition)).bind fun holds _ => ?_
    cases holds with
    | true =>
      exact emits_get.bind fun _ _ => (emits_print _).bind fun _ _ => emits_pure allDerived_nil
    | false => exact emits_pure allDerived_nil
  | succ left ih =>
    unfold whileRounds
    refine (emits_of_scope (keeping_evaluateCondition condition)).bind fun holds _ => ?_
    cases holds with
    | true => exact hbody.bind fun commands hall => ih.bind fun more hmore =>
      emits_pure (hall.append hmore)
    | false => exact emits_pure allDerived_nil

/-- The body of a loop is taken from the lines after its first one, also when its end is missing. -/
theorem emits_loopBody (closing : String) {rest : List String} (hrest : rest ⊆ given) :
    Emits given (fun part => part.1 ⊆ given) (loopBody closing rest) := by
  have hbody : rest.take (blockLength closing 0 rest).1 ⊆ given :=
    List.Subset.trans (List.take_subset _ rest) hrest
  unfold loopBody
  dsimp only
  split
  · exact (emits_print _).bind fun _ _ => emits_pure hbody
  · exact emits_pure hbody

variable (hexpand : ∀ body, body ⊆ given → Emits given (AllDerived around base given) (expand body))
include hexpand

theorem emits_expandFor (line : String) {rest : List String} (hrest : rest ⊆ given) :
    Emits given (fun part => AllDerived around base given part.1)
      (expandFor limits expand line rest) := by
  unfold expandFor
  split
  · exact emits_report _
  · refine (emits_of_scope (keeping_expandVariables _)).bind fun expanded _ => ?_
    refine (emits_of_scope (keeping_loopValues expanded)).bind fun values _ => ?_
    refine (emits_loopBody "endfor" hrest).bind fun part hpart => emits_get.bind fun s _ => ?_
    exact (emits_forRounds (hexpand _ hpart) _ _ values).bind fun commands hall => emits_pure hall

theorem emits_expandWhile (line : String) {rest : List String} (hrest : rest ⊆ given) :
    Emits given (fun part => AllDerived around base given part.1)
      (expandWhile limits expand line rest) := by
  unfold expandWhile
  split
  · exact emits_report _
  · refine (emits_loopBody "endwhile" hrest).bind fun part hpart => emits_get.bind fun s _ => ?_
    exact (emits_whileRounds (hexpand _ hpart) _ _).bind fun commands hall => emits_pure hall

theorem emits_expandIf (position : Int) (line : String) {rest : List String}
    (hrest : rest ⊆ given) :
    Emits given (fun part => AllDerived around base given part.1)
      (expandIf limits expand position line rest) := by
  unfold expandIf
  split
  · exact emits_report _
  split
  · exact emits_report _
  · rename_i parts hparts
    obtain ⟨hthen, helse⟩ := branches_subset hparts
    refine (emits_of_scope (keeping_evaluateCondition _)).bind fun holds _ => ?_
    have hpart : (if holds then parts.thenLines else parts.elseLines) ⊆ given := by
      split
      · exact List.Subset.trans hthen hrest
      · exact List.Subset.trans helse hrest
    exact (hexpand _ hpart).bind fun commands hall => emits_pure hall

theorem emits_expandCall (line : String) :
    Emits given (AllDerived around base given) (expandCall expand line) := by
  unfold expandCall
  split
  · exact (emits_print _).bind fun _ _ => emits_pure allDerived_nil
  · refine emits_get.bind fun s hs => ?_
    split
    · exact (emits_print _).bind fun _ _ => emits_pure allDerived_nil
    · -- the body is one that was stored when definitions were taken out
      rename_i body hbody
      refine (emits_of_scope (scope_bindArguments 1 _)).bind fun old _ => ?_
      refine (hexpand body (hs _ body hbody)).bind fun commands hall => ?_
      exact Emits.bind (emits_forM (fun entry => emits_restore entry.1 entry.2) old) fun _ _ =>
        emits_pure hall

/-- One line of a block: whatever it is, its commands come from the script. -/
theorem emits_expandLine (position : Nat) {raw : String} {rest : List String} (hraw : raw ∈ given)
    (hrest : rest ⊆ given) :
    Emits given (fun part => AllDerived around base given part.1)
      (expandLine (around.under limits) base expand position (Text.trim raw) rest) := by
  unfold expandLine
  cases hkind : classify (Text.trim raw) with
  | skipped => exact emits_pure allDerived_nil
  | includeFile =>
    refine (emits_expandInclude _ base _).bind fun commands hfiles => emits_pure ?_
    intro command hcommand
    obtain ⟨file, content, hfile, hmem⟩ := hfiles command hcommand
    obtain ⟨line, hline, heq, hblank, hremark⟩ := mem_plainCommands hmem
    exact .included hraw (startsWith_of_classify hkind) hfile hline heq hblank hremark
  | assignment =>
    exact (emits_of_scope (scope_assign _)).bind fun _ _ => emits_pure allDerived_nil
  | forLoop => exact emits_expandFor hexpand _ hrest
  | whileLoop => exact emits_expandWhile hexpand _ hrest
  | conditional => exact emits_expandIf hexpand position _ hrest
  | call => exact (emits_expandCall hexpand _).bind fun commands hall => emits_pure hall
  | stray => exact emits_report _
  | command =>
    unfold expandVariables
    simp only [bind_assoc]
    refine emits_get.bind fun s _ => ?_
    cases htext : expandText s.bindings (Text.trim raw) with
    | error e => exact (emits_throw e).bind fun (_ : String) (h : False) => h.elim
    | ok command =>
      refine emits_pure fun other hother => ?_
      rw [List.mem_singleton.mp hother]
      exact .expanded hraw (isCommandLine_of_classify hkind) htext

theorem emits_expandLines (position : Nat) {lines : List String} (hlines : lines ⊆ given) :
    Emits given (AllDerived around base given)
      (expandLines (around.under limits) base expand position lines) := by
  fun_induction expandLines (around.under limits) base expand position lines with
  | case1 => exact emits_pure allDerived_nil
  | case2 position raw rest ih =>
    obtain ⟨hraw, hrest⟩ := List.cons_subset.mp hlines
    refine (emits_expandLine hexpand position hraw hrest).bind fun part hpart => ?_
    have hleft : rest.drop part.2 ⊆ given := List.Subset.trans (List.drop_subset _ rest) hrest
    exact (ih part.2 hleft).bind fun more hmore => emits_pure (hpart.append hmore)

end Expanders

theorem emits_expandBlock (around : Surroundings) (limits : Limits) (base : Option Path)
    (levels : Nat) {lines : List String} (hlines : lines ⊆ given) :
    Emits given (AllDerived around base given)
      (expandBlock (around.under limits) base levels lines) := by
  induction levels generalizing limits lines with
  | zero => exact (emits_print _).bind fun _ _ => emits_pure allDerived_nil
  | succ levels ih =>
    exact emits_expandLines (fun body hbody => ih limits.called.called hbody) 0 hlines

/-- No command is invented. Whatever the lines of a script are, well formed or not, and whatever
files there are: each command that the script is expanded to is a trimmed line, neither blank nor a
remark, of a file that is there and that an include line of the script names; or it is a trimmed
line of the script that is neither blank nor a remark nor a directive, with its references replaced
by the values in some store. -/
theorem commands_derived {around : Surroundings} {base : Option Path} {given commands : List String}
    {t : Interpreter} (h : (preprocess around base given).run {} = .ok commands t) :
    ∀ command ∈ commands, Derived around base given command := by
  have hfresh : Interpreter.HoldsOnly given {} := fun name body hbody => by cases hbody
  have hemits : Emits given (AllDerived around base given) (preprocess around base given) :=
    (emits_extractFrom .outside (List.nil_subset given) (List.Subset.refl given)).bind
      fun lines hlines => emits_expandBlock around around.limits base (levelsAt 0) hlines
  exact (hemits {} hfresh commands t h).2

/-- A script in disorder: a definition in a definition, a loop closed twice, one that is never
closed, and a conditional without its condition. -/
def tangledLines : List String :=
  ["  def twice", "say ${n} $1", "def inner", "enddef", "enddef", "set n 2", "FOR i IN 1..2",
    "call twice $i", "if $i == 2", "INCLUDE parts/hello", "else", "say low", "endif", "endfor",
    "endfor", "while $n", "# say nothing", "", "if ", "say on", "set n off"]

/-- In such a script, too, no command is invented: they come from a subroutine, from both parts of
the conditional, from a file, and from the loop without an end. -/
theorem tangled_commands_derived :
    ∃ commands t, (preprocess shelf (some shelf.directory) tangledLines).run {} = .ok commands t ∧
      commands = ["say 2 $i", "def inner", "say low", "say 2 $i", "def inner", "say hello", "if",
        "say on"] ∧
      ∀ command ∈ commands, Derived shelf (some shelf.directory) tangledLines command := by
  have hyielded : yielded ((preprocess shelf (some shelf.directory) tangledLines).run {}) =
      some ["say 2 $i", "def inner", "say low", "say 2 $i", "def inner", "say hello", "if",
        "say on"] := by
    decide +kernel
  cases hrun : (preprocess shelf (some shelf.directory) tangledLines).run {} with
  | error e t =>
    rw [hrun] at hyielded
    cases hyielded
  | ok commands t =>
    rw [hrun] at hyielded
    exact ⟨commands, t, rfl, Option.some.inj hyielded, commands_derived hrun⟩

end RobotConsole.Script
