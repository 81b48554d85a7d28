import RobotConsole.Proofs.Command.Signed
import RobotConsole.Proofs.Script.Comment
import RobotConsole.Proofs.Script.Probe

/-!
# Trailing comments

A remark is a line of its own. A number sign within a line starts no comment: what follows it is
part of the line, of the value of an assignment, the values of a loop, the arguments of a call or of
a command. So a comment after a line does no harm exactly where the walk does the same at the line
with it and without it, which for an assignment, a loop or a call means that it can be read neither
way (`trailing_comments_harmless_iff`).

One direction is that scripts of indifferent lines end alike. For the other one, each line is put
into a script that shows what is done at it, and a script that shows the number sign of the comment
ends otherwise than one that does not (`indifferent_of_exchangeable`).
-/

namespace RobotConsole.Script

open Arithmetic (Value)
open Storage (Path)

variable {commands : List String} {t : Interpreter} {text : String} {gap : List Char}
/-! ## Lines in each other's place -/

/-- Outcomes with commands that are parsed alike and with the same variables, or with the same error
and the same variables. -/
abbrev EndAlike : EStateM.Result ScriptError Interpreter (List String) →
    EStateM.Result ScriptError Interpreter (List String) → Prop :=
  Parallel SameBindings SameParsed

theorem EndAlike.symm {r r' : EStateM.Result ScriptError Interpreter (List String)}
    (h : EndAlike r r') : EndAlike r' r := by
  cases h with
  | ok hparsed hst => exact .ok hparsed.symm hst.symm
  | error hst => exact .error hst.symm

theorem EndAlike.of_ok {r : EStateM.Result ScriptError Interpreter (List String)}
    {s : Interpreter} (h : EndAlike (.ok commands s) r) :
    ∃ commands' t, r = .ok commands' t ∧ SameParsed commands commands' ∧ SameBindings s t := by
  cases h with
  | ok hparsed hst => exact ⟨_, _, rfl, hparsed, hst⟩

/-- A line may stand in another's place in every script of bare lines. -/
def Exchangeable (raw raw' : String) : Prop :=
  ∀ around base before after s, (∀ line ∈ before ++ after, Bare line) →
    EndAlike ((preprocess around base (before ++ raw :: after)).run s)
      ((preprocess around base (before ++ raw' :: after)).run s)

theorem bare_noteLine (a n : Name) : Bare (noteLine a n) := by
  have ha := bare_name a
  have hn := bare_name n
  unfold Bare at *
  rw [toList_noteLine]
  simp [ha, hn]

theorem bare_callLine (f : Name) : Bare (callLine f []) := by
  have hf := bare_name f
  unfold Bare at *
  rw [toList_callLine]
  simp [hf, argumentTail]

section Telling

variable {raw raw' : String} (h : Exchangeable raw raw')
include h

theorem Exchangeable.symm : Exchangeable raw' raw :=
  fun around base before after s hbare => (h around base before after s hbare).symm

theorem Exchangeable.alone (around : Surroundings) (base : Option Path) (s : Interpreter) :
    EndAlike ((preprocess around base [raw]).run s) ((preprocess around base [raw']).run s) :=
  h around base [] [] s (by simp)

theorem Exchangeable.first {around : Surroundings} {rest : List String}
    (hrest : ∀ line ∈ rest, Bare line) (s : Interpreter) :
    EndAlike ((preprocess around none (raw :: rest)).run s)
      ((preprocess around none (raw' :: rest)).run s) :=
  h around none [] rest s hrest

/-- A line that yields commands yields as many in the place of another. -/
theorem Exchangeable.length_eq {rest : List String} (hrest : ∀ line ∈ rest, Bare line)
    {s : Interpreter}
    (hrun : (preprocess nowhere none (raw :: rest)).run s = .ok commands t) :
    ∃ commands' t', (preprocess nowhere none (raw' :: rest)).run s = .ok commands' t' ∧
      commands'.length = commands.length := by
  have halike := h nowhere none [] rest s hrest
  rw [List.nil_append, hrun] at halike
  obtain ⟨commands', t', hrun', hparsed, -⟩ := halike.of_ok
  exact ⟨commands', t', hrun', hparsed.length_eq.symm⟩

end Telling

/-! ## Conditions -/

theorem rel_of_both {α : Type} {R : α → α → Prop} {x y : Option α}
    (hleft : ∀ a, x = some a → y ≠ none) (hright : ∀ b, y = some b → x ≠ none)
    (hboth : ∀ a b, x = some a → y = some b → R a b) : Option.Rel R x y := by
  cases x with
  | none =>
    cases y with
    | none => exact .none
    | some b => exact absurd rfl (hright b rfl)
  | some a =>
    cases y with
    | none => exact absurd rfl (hleft a rfl)
    | some b => exact .some (hboth a b rfl rfl)

/-- Two readings of which none goes well, neither alone nor with the other. -/
theorem none_of_both {α : Type} {x y : Option α} (hleft : ∀ a, x = some a → y ≠ none)
    (hright : ∀ b, y = some b → x ≠ none) (hboth : ∀ a b, x = some a → y = some b → False) :
    x = none ∧ y = none := by
  have hrel := rel_of_both hleft hright hboth
  cases hrel with
  | none => exact ⟨rfl, rfl⟩
  | some hfalse => exact hfalse.elim

/-- Some script leaves the conditions at its top these limits. -/
theorem exists_called (limits : Limits) : ∃ around : Surroundings, around.limits.called = limits :=
  ⟨nowhere.under ⟨limits.nesting + 3, limits.rangeLength⟩, rfl⟩

section Conditions

variable {raw raw' : String} (h : Exchangeable raw raw')
include h

/-- A loop that may go no round has no commands, unless it cannot be read. -/
theorem while_read (hkind : classify (Text.trim raw) = .whileLoop)
    (hkind' : classify (Text.trim raw') = .whileLoop) (condition : String)
    (hsome : argumentOf? "while" (Text.trim raw) = some condition) :
    argumentOf? "while" (Text.trim raw') ≠ none := by
  intro hnone
  obtain ⟨t, hrun⟩ := run_while_unread hkind' hnone { maxIterations := 0 }
  obtain ⟨commands, u, hrun', hlength⟩ := h.symm.length_eq (by decide) hrun
  rw [eq_nil_of_while hkind hsome rfl hrun'] at hlength
  cases hlength

/-- Of a conditional only one part is walked, unless it cannot be read. -/
theorem if_read (hkind : classify (Text.trim raw) = .conditional)
    (hkind' : classify (Text.trim raw') = .conditional) (condition : String)
    (hsome : argumentOf? "if" (Text.trim raw) = some condition) :
    argumentOf? "if" (Text.trim raw') ≠ none := by
  intro hnone
  obtain ⟨t, hrun⟩ := run_if_unread hkind' hnone {}
  obtain ⟨commands, u, hrun', hlength⟩ := h.symm.length_eq (by decide) hrun
  have hreveals : Reveals 1 2 _ ((preprocess nowhere none _).run {}) := reveals_if hkind hsome {}
  rw [hrun'] at hreveals
  generalize (evaluateCondition nowhere.limits.called condition).run {} = outcome at hreveals
  cases hreveals with
  | holds hone => exact absurd (hone.symm.trans hlength) (by decide)
  | fails htwo => exact absurd (htwo.symm.trans hlength) (by decide)

theorem while_alike (hkind : classify (Text.trim raw) = .whileLoop)
    (hkind' : classify (Text.trim raw') = .whileLoop) :
    Option.Rel SameCondition (argumentOf? "while" (Text.trim raw))
      (argumentOf? "while" (Text.trim raw')) := by
  refine rel_of_both (while_read h hkind hkind') (while_read h.symm hkind' hkind)
    fun condition condition' hline hline' => ?_
  refine sameCondition_of_limit 1 fun limits s hlimit => ?_
  obtain ⟨around, rfl⟩ := exists_called limits
  exact (reveals_while hkind hline hlimit).unique (by decide) (reveals_while hkind' hline' hlimit)
    (h.first (by decide) s)

theorem if_alike (hkind : classify (Text.trim raw) = .conditional)
    (hkind' : classify (Text.trim raw') = .conditional) :
    Option.Rel SameCondition (argumentOf? "if" (Text.trim raw))
      (argumentOf? "if" (Text.trim raw')) := by
  refine rel_of_both (if_read h hkind hkind') (if_read h.symm hkind' hkind)
    fun condition condition' hline hline' limits s => ?_
  obtain ⟨around, rfl⟩ := exists_called limits
  exact (reveals_if hkind hline s).unique (by decide) (reveals_if hkind' hline' s)
    (h.first (by decide) s)

end Conditions

/-! ## What a number sign leaves behind -/

theorem exists_stored {raw : String} (hkind : classify (Text.trim raw) = .assignment)
    {name : String} (h : assignmentOf? (Text.trim raw) = some (name, text)) :
    ∃ expanded, (after (preprocess nowhere none [raw]) {}).bindings =
        [(name, (Arithmetic.evaluate? nowhere.limits.nesting expanded).getD (.text expanded))] ∧
      ('#' ∈ expanded.toList ↔ '#' ∈ (Text.trim raw).toList) := by
  obtain ⟨expanded, hexpanded, hsign⟩ := expandText_sign (unquote text)
  refine ⟨expanded, bindings_after_assignment hkind h hexpanded, ?_⟩
  rw [hsign, unquote_sign, assignmentOf?_sign h]

theorem exists_other_name (n : Name) : ∃ a : Name, a.text ≠ n.text := by
  by_cases hn : n.text = "a"
  · exact ⟨nameB, by rw [hn]; decide⟩
  · exact ⟨nameA, Ne.symm hn⟩

/-- A loop over a text with a number sign notes a value with one, if it may go far enough. -/
theorem exists_noted_sign {raw : String} (hkind : classify (Text.trim raw) = .forLoop) {a n : Name}
    (hne : a.text ≠ n.text)
    (h : forLoopOf? (Text.trim raw) = some (n.text, text)) (hsign : '#' ∈ (Text.trim raw).toList) :
    ∃ limit word t, (preprocess nowhere none [raw, noteLine a n, "endfor"]).run
        { maxIterations := limit } = .ok [] t ∧
      Dict.get? t.bindings a.text = some (noted word) ∧ '#' ∈ word := by
  obtain ⟨expanded, hexpanded, hsigned⟩ := expandText_sign text
  have hsigned := hsigned.mpr ((forLoopOf?_sign h).mpr hsign)
  obtain ⟨word, hword, hsigned'⟩ := (Command.splitWords_sign expanded).mpr hsigned
  obtain ⟨i, hi⟩ := List.mem_iff_getElem?.mp hword
  obtain ⟨t, hrounds, hnoted⟩ := run_forRounds_note hne nowhere.inner none hi
    { maxIterations := (i + 1 : Nat) }
  refine ⟨(i + 1 : Nat), word.toList, t, ?_, hnoted, hsigned'⟩
  have hvalues : (loopValues nowhere.limits expanded).run { maxIterations := (i + 1 : Nat) } =
      .ok ((Command.splitWords expanded).map .text) { maxIterations := (i + 1 : Nat) } := by
    unfold loopValues
    rw [rangeOf?_sign hsigned]
    rfl
  rw [run_for hkind h (inert_noteLine a n) (definedName?_noteLine a n), EStateM.run_bind,
    run_expandVariables, hexpanded]
  show (loopValues nowhere.limits expanded >>= _).run _ = _
  rw [EStateM.run_bind, hvalues]
  exact hrounds

/-- A loop over a text without number signs notes no value with one. -/
theorem not_noted_sign {raw : String} (hkind : classify (Text.trim raw) = .forLoop) {a n : Name}
    (hne : a.text ≠ n.text)
    (h : forLoopOf? (Text.trim raw) = some (n.text, text)) (hsign : '#' ∉ (Text.trim raw).toList)
    {limit : Int}
    (hrun : (preprocess nowhere none [raw, noteLine a n, "endfor"]).run
      { maxIterations := limit } = .ok commands t) {word : List Char}
    (hword : Dict.get? t.bindings a.text = some (noted word)) : '#' ∉ word := by
  obtain ⟨expanded, values, hexpanded, hvalues, hrounds⟩ :=
    rounds_of_for hkind h (inert_noteLine a n) (definedName?_noteLine a n) hrun
  obtain ⟨expanded', hexpanded', hclean⟩ := expandText_sign text
  rw [hexpanded'] at hexpanded
  cases hexpanded
  rw [forLoopOf?_sign h] at hclean
  rcases noted_of_forRounds hne hrounds hword with hbefore | ⟨value, hvalue, shown, hshown, hnote⟩
  · cases hbefore
  · have hclean := loopValues_sign (mt hclean.mp hsign) hvalues value hvalue shown hshown
    rw [noted_inj hnote]
    exact hclean

/-- A call without number signs has no argument with one, whatever is there to be called. -/
theorem not_noted_argument {raw : String} (hkind : classify (Text.trim raw) = .call)
    {name : String} (h : callOf? (Text.trim raw) = some (name, text))
    (hsign : '#' ∉ (Text.trim raw).toList) {name' : String} {i : Nat}
    (hrun : (preprocess nowhere none [raw]).run
      (Interpreter.storing {} name' [noteLine nameA (argumentName i)]) = .ok commands t)
    {word : List Char} (hword : Dict.get? t.bindings nameA.text = some (noted word)) :
    '#' ∉ word := by
  by_cases hname : name' = name
  · obtain ⟨u, hrun', hnoted⟩ := run_call_note hkind h nowhere none i
    rw [hname, hrun'] at hrun
    cases hrun
    rw [hnoted] at hword
    rw [← noted_inj (Option.some.inj hword)]
    cases hargument : (Command.splitWords text)[i]? with
    | none => exact List.not_mem_nil
    | some argument =>
      exact fun hsigned => hsign ((callOf?_sign h).mp ((Command.splitWords_sign text).mp
        ⟨argument, List.mem_of_getElem? hargument, hsigned⟩))
  · obtain ⟨u, hidle, hbindings⟩ := run_call_idle hkind nowhere none
      (s := Interpreter.storing {} name' [noteLine nameA (argumentName i)])
      fun called text' hcall => by
        rw [h] at hcall
        cases hcall
        unfold Interpreter.storing
        rw [Dict.get?_put, if_neg (Ne.symm hname)]
        rfl
    rw [hidle] at hrun
    cases hrun
    rw [hbindings] at hword
    cases hword

/-! ## Assignments, loops and calls -/

section Signs

variable {raw raw' : String} (h : Exchangeable raw raw')
include h

theorem assignment_read (hkind : classify (Text.trim raw) = .assignment)
    (hkind' : classify (Text.trim raw') = .assignment) (part : String × String)
    (hsome : assignmentOf? (Text.trim raw) = some part) :
    assignmentOf? (Text.trim raw') ≠ none := by
  intro hnone
  have hsame : (after (preprocess nowhere none [raw]) {}).bindings =
      (after (preprocess nowhere none [raw']) {}).bindings := (h.alone nowhere none {}).after
  obtain ⟨expanded, hstored, -⟩ := exists_stored hkind hsome
  rw [hstored, bindings_after_unread hkind' hnone] at hsame
  cases hsame

theorem for_read (hkind : classify (Text.trim raw) = .forLoop)
    (hkind' : classify (Text.trim raw') = .forLoop) (part : String × String)
    (hsome : forLoopOf? (Text.trim raw) = some part) : forLoopOf? (Text.trim raw') ≠ none := by
  intro hnone
  obtain ⟨t, hrun⟩ := run_for_unread hkind' hnone { maxIterations := 0 }
  obtain ⟨commands, u, hrun', hlength⟩ := h.symm.length_eq (by decide) hrun
  rw [eq_nil_of_for hkind hsome rfl hrun'] at hlength
  cases hlength

theorem call_read (hkind : classify (Text.trim raw) = .call)
    (hkind' : classify (Text.trim raw') = .call) (part : String × String)
    (hsome : callOf? (Text.trim raw) = some part) : callOf? (Text.trim raw') ≠ none := by
  intro hnone
  obtain ⟨t, hrun⟩ := run_call_stop hkind hsome nowhere none
  obtain ⟨commands, u, hrun', hlength⟩ := h.length_eq (List.forall_mem_nil _) hrun
  obtain ⟨v, hidle, -⟩ := run_call_idle hkind' nowhere none
    (s := Interpreter.storing {} part.1 ["stop"]) fun name text hcall => by
      rw [hnone] at hcall
      cases hcall
  rw [hidle] at hrun'
  cases hrun'
  cases hlength

variable (hsign : '#' ∉ (Text.trim raw).toList) (hsign' : '#' ∈ (Text.trim raw').toList)
include hsign hsign'

theorem assignment_unread (hkind : classify (Text.trim raw) = .assignment)
    (hkind' : classify (Text.trim raw') = .assignment) :
    assignmentOf? (Text.trim raw) = none ∧ assignmentOf? (Text.trim raw') = none := by
  refine none_of_both (assignment_read h hkind hkind') (assignment_read h.symm hkind' hkind)
    fun part part' hline hline' => ?_
  have hsame : (after (preprocess nowhere none [raw]) {}).bindings =
      (after (preprocess nowhere none [raw']) {}).bindings := (h.alone nowhere none {}).after
  obtain ⟨expanded, hstored, hclean⟩ := exists_stored hkind hline
  obtain ⟨expanded', hstored', hsigned⟩ := exists_stored hkind' hline'
  have hsigned := hsigned.mpr hsign'
  have hnone : Arithmetic.evaluate? nowhere.limits.nesting expanded' = none :=
    Arithmetic.evaluate?_eq_none_of_foreign hsigned (by decide)
  rw [hstored, hstored', hnone, Option.getD_none] at hsame
  have hvalue := (Prod.mk.inj (List.cons.inj hsame).1).2
  rw [← Arithmetic.eq_of_value_text hvalue] at hclean
  exact hsign (hclean.mp hsigned)

/-- The loop variable would take a part of a comment for a value. -/
theorem forLoop_unread (htrailed : Trailed gap (Text.trim raw) (Text.trim raw'))
    (hkind : classify (Text.trim raw) = .forLoop)
    (hkind' : classify (Text.trim raw') = .forLoop) :
    forLoopOf? (Text.trim raw) = none ∧ forLoopOf? (Text.trim raw') = none := by
  refine none_of_both (for_read h hkind hkind') (for_read h.symm hkind' hkind) ?_
  rintro ⟨name, text⟩ ⟨name', text'⟩ hline hline'
  obtain ⟨mid, more, hchars, -⟩ := htrailed
  obtain ⟨rfl, n, rfl⟩ := forLoopOf?_name hchars hline hline'
  obtain ⟨a, hne⟩ := exists_other_name n
  have hbare : ∀ line ∈ [noteLine a n, "endfor"], Bare line :=
    List.forall_mem_cons.mpr ⟨bare_noteLine a n, by decide⟩
  obtain ⟨limit, word, t, hrun, hnoted, hsigned⟩ := exists_noted_sign hkind' hne hline' hsign'
  have halike := h.symm nowhere none [] _ { maxIterations := limit } hbare
  rw [List.nil_append, hrun] at halike
  obtain ⟨commands, u, hrun', -, hst⟩ := halike.of_ok
  rw [hst] at hnoted
  exact not_noted_sign hkind hne hline hsign hrun' hnoted hsigned

theorem call_unread (hkind : classify (Text.trim raw) = .call)
    (hkind' : classify (Text.trim raw') = .call) :
    callOf? (Text.trim raw) = none ∧ callOf? (Text.trim raw') = none := by
  refine none_of_both (call_read h hkind hkind') (call_read h.symm hkind' hkind) ?_
  rintro ⟨name, text⟩ ⟨name', text'⟩ hline hline'
  obtain ⟨word, hword, hsigned⟩ :=
    (Command.splitWords_sign text').mpr ((callOf?_sign hline').mpr hsign')
  obtain ⟨i, hi⟩ := List.mem_iff_getElem?.mp hword
  -- the subroutine notes the argument with the number sign, if it is the one that is called
  obtain ⟨t, hrun, hnoted⟩ := run_call_note hkind' hline' nowhere none i
  rw [hi] at hnoted
  have halike := h.symm.alone nowhere none
    (Interpreter.storing {} name' [noteLine nameA (argumentName i)])
  rw [hrun] at halike
  obtain ⟨commands, u, hrun', -, hst⟩ := halike.of_ok
  rw [hst] at hnoted
  exact not_noted_argument hkind hline hsign hrun' hnoted hsigned

end Signs

/-! ## Commands and definitions -/

/-- In a fresh state nothing keeps a command from being expanded. -/
theorem run_command_fresh {raw : String} (hkind : classify (Text.trim raw) = .command)
    (hname : definedName? (Text.trim raw) = none) :
    ∃ command t, (preprocess nowhere none [raw]).run {} = .ok [command] t := by
  obtain ⟨command, hcommand, -⟩ := expandText_sign (Text.trim raw)
  have hshows := shows_command hkind hname nowhere none {}
  rw [hcommand] at hshows
  generalize (preprocess nowhere none [raw]).run {} = r at hshows ⊢
  cases hshows
  exact ⟨command, _, rfl⟩

section Commands

variable {raw raw' : String} (h : Exchangeable raw raw')
include h

theorem command_of_command (hkind : classify (Text.trim raw) = .command)
    (hname : definedName? (Text.trim raw) = none) :
    classify (Text.trim raw') = .command ∧ definedName? (Text.trim raw') = none := by
  obtain ⟨command, t, hrun⟩ := run_command_fresh hkind hname
  obtain ⟨commands, u, hrun', hlength⟩ := h.length_eq (List.forall_mem_nil _) hrun
  by_contra hnot
  rw [eq_nil_of_not_command (not_and_or.mp hnot) hrun'] at hlength
  cases hlength

theorem not_stray (htrailed : Trailed gap (Text.trim raw) (Text.trim raw')) :
    classify (Text.trim raw) ≠ .stray := by
  intro hkind
  obtain ⟨hkind', hname'⟩ := htrailed.command_of_stray hkind
  obtain ⟨hcommand, -⟩ := command_of_command h.symm hkind' hname'
  rw [hkind] at hcommand
  cases hcommand

theorem sameCommand_of_command (hkind : classify (Text.trim raw) = .command)
    (hname : definedName? (Text.trim raw) = none) (bindings : Dict Value) :
    SameCommand (expandText bindings (Text.trim raw)) (expandText bindings (Text.trim raw')) := by
  obtain ⟨hkind', hname'⟩ := command_of_command h hkind hname
  exact (shows_command hkind hname nowhere none { bindings }).sameCommand
    (shows_command hkind' hname' nowhere none { bindings }) (h.alone nowhere none { bindings })

variable {name name' : String} (hname : definedName? (Text.trim raw) = some name)
  (hname' : definedName? (Text.trim raw') = some name')
include hname hname'

theorem sameCommand_of_definition (bindings : Dict Value) :
    SameCommand (expandText bindings (Text.trim raw)) (expandText bindings (Text.trim raw')) := by
  have halike := h nowhere none ["def f"] ["enddef", "enddef", "call f"] { bindings } (by decide)
  exact (shows_definition hname nowhere none { bindings }).sameCommand
    (shows_definition hname' nowhere none { bindings }) halike

/-- A subroutine that can be called cannot be called any more with a comment. -/
theorem uncallable_of_definition (hsign : '#' ∈ name'.toList) :
    Uncallable name ∧ Uncallable name' := by
  have hother : Uncallable name' := by
    rintro called rfl
    exact (bare_name called).1 hsign
  refine ⟨?_, hother⟩
  rintro called rfl
  have hstop : Balanced ["stop"] := .line (by decide) (by decide) .nil
  have hblock : IsDefinition called.text ["stop"] [raw, "stop", "enddef"] :=
    .intro hname hstop (by decide)
  have hblock' : IsDefinition name' ["stop"] [raw', "stop", "enddef"] :=
    .intro hname' hstop (by decide)
  have hline : Text.trim (callLine called []) = callLine called [] :=
    trim_callLine called (List.forall_mem_nil _)
  have hkind : classify (Text.trim (callLine called [])) = .call := by
    rw [hline, classify_callLine]
  have hcall : callOf? (Text.trim (callLine called [])) = some (called.text, "") := by
    rw [hline]
    exact callOf?_callLine called (List.forall_mem_nil _)
  -- the call finds the subroutine on one side only
  obtain ⟨t, hrun⟩ := run_call_stop hkind hcall nowhere none
  obtain ⟨u, hidle, -⟩ := run_call_idle hkind nowhere none
    (s := Interpreter.storing {} name' ["stop"]) fun name text hfound => by
      rw [hcall] at hfound
      cases hfound
      unfold Interpreter.storing
      rw [Dict.get?_put, if_neg (hother called)]
      rfl
  rw [← run_definition hblock] at hrun
  rw [← run_definition hblock'] at hidle
  have hbare : ∀ line ∈ ["stop", "enddef", callLine called []], Bare line :=
    List.forall_mem_cons.mpr ⟨by decide, List.forall_mem_cons.mpr
      ⟨by decide, List.forall_mem_singleton.mpr (bare_callLine called)⟩⟩
  obtain ⟨commands, v, hrun', hlength⟩ := h.length_eq hbare hrun
  have hsame := hrun'.symm.trans hidle
  cases hsame
  cases hlength

end Commands

/-- A line may stand for itself with a comment in every script only if the walk does the same at
either. -/
theorem indifferent_of_exchangeable {raw raw' : String} (hbare : Bare raw)
    (hblank : Text.trim raw ≠ "") (htrailed : Trailed gap (Text.trim raw) (Text.trim raw'))
    (h : Exchangeable raw raw') : Indifferent (Text.trim raw) (Text.trim raw') := by
  have hsign := hbare.sign_trim
  have hsign' := htrailed.sign
  have hkind' (start : String) {kind : LineKind} (hkind : classify (Text.trim raw) = kind)
      (hd : (start, kind) ∈ directives) : classify (Text.trim raw') = kind :=
    htrailed.classify_directive hd hkind
  -- by the kind of the line: for each a script tells the two lines apart unless they do the same
  cases hkind : classify (Text.trim raw) with
  | skipped =>
    have hskipped := skipped_of_classify hkind
    rw [Bool.or_eq_true] at hskipped
    rcases hskipped with hempty | hremark
    · exact absurd (beq_iff_eq.mp hempty) hblank
    · obtain ⟨rest, hrest⟩ := List.isPrefixOf_iff_prefix.mp hremark
      exact absurd (hrest ▸ List.mem_cons_self) hsign
  | includeFile =>
    have hkind' := hkind' "include " hkind (by decide)
    refine .inclusion hkind hkind' fun around base s => ?_
    rw [← preprocess_include hkind, ← preprocess_include hkind']
    exact h.alone around base s
  | assignment =>
    have hkind' := hkind' "set " hkind (by decide)
    obtain ⟨hline, hline'⟩ := assignment_unread h hsign hsign' hkind hkind'
    exact .assignment hkind hkind' hline hline'
  | forLoop =>
    have hkind' := hkind' "for " hkind (by decide)
    obtain ⟨hline, hline'⟩ := forLoop_unread h hsign hsign' htrailed hkind hkind'
    exact .forLoop hkind hkind' hline hline'
  | whileLoop =>
    have hkind' := hkind' "while " hkind (by decide)
    exact .whileLoop hkind hkind' (while_alike h hkind hkind')
  | conditional =>
    have hkind' := hkind' "if " hkind (by decide)
    exact .conditional hkind hkind' (if_alike h hkind hkind')
  | call =>
    have hkind' := hkind' "call " hkind (by decide)
    obtain ⟨hline, hline'⟩ := call_unread h hsign hsign' hkind hkind'
    exact .call hkind hkind' hline hline'
  | stray => exact absurd hkind (not_stray h htrailed)
  | command =>
    cases hname : definedName? (Text.trim raw) with
    | none =>
      obtain ⟨hkind', hname'⟩ := command_of_command h hkind hname
      refine .command hkind hkind' (sameCommand_of_command h hkind hname) ?_
      rw [hname, hname']
      exact .none
    | some name =>
      obtain ⟨name', hname', hmem⟩ := htrailed.definedName hname
      have hkind' : classify (Text.trim raw') = .command :=
        classify_of_opensDefinition (by
          rw [← isSome_definedName?, hname', Option.isSome_some])
      refine .command hkind hkind' (sameCommand_of_definition h hname hname') ?_
      rw [hname, hname']
      exact .some (uncallable_of_definition h hname hname' hmem)

/-! ## Harmless comments -/

/-- Comments of some sort change neither what the commands of a script are parsed as nor its
variables, in whatever script and state. -/
def Harmless (E : String → String → Prop) : Prop :=
  ∀ around base lines lines' s, (∀ raw ∈ lines, Bare raw) →
    List.Forall₂ (fun raw raw' => raw = raw' ∨ E raw raw') lines lines' →
    EndAlike ((preprocess around base lines).run s) ((preprocess around base lines').run s)

/-- Lines that a comment spoils: assignments, loops and calls that can be read, ends of blocks, and
commands that are accepted for some values of the variables, if a separator of words stands before
the comment. -/
inductive Spoils (c : Comment) (line : String) : Prop
  | assignment : classify line = .assignment → assignmentOf? line ≠ none → Spoils c line
  | forLoop : classify line = .forLoop → forLoopOf? line ≠ none → Spoils c line
  | call : classify line = .call → callOf? line ≠ none → Spoils c line
  | blockEnd : classify line = .stray → Spoils c line
  | command {bindings : Dict Value} {expanded : String} : classify line = .command →
      expandText bindings line = .ok expanded → Bare expanded → '\\' ∉ expanded.toList →
      (∃ parsed, Command.parse expanded = .ok (some parsed)) →
      (∃ b ∈ c.gap, Command.isSeparator b = true) → Spoils c line

theorem Harmless.exchangeable {E : String → String → Prop} (h : Harmless E) {raw raw' : String}
    (hraw : E raw raw') (hbare : Bare raw) : Exchangeable raw raw' := by
  intro around base before after s hlines
  have hsame (lines : List String) :
      List.Forall₂ (fun raw raw' => raw = raw' ∨ E raw raw') lines lines :=
    List.forall₂_same.mpr fun _ _ => .inl rfl
  refine h around base _ _ s ?_ (List.rel_append (hsame before) (.cons (.inr hraw) (hsame after)))
  intro line hline
  rcases List.mem_append.mp hline with hline | hline
  · exact hlines line (List.mem_append_left _ hline)
  · rcases List.mem_cons.mp hline with rfl | hline
    · exact hbare
    · exact hlines line (List.mem_append_right _ hline)

theorem isSeparator_or_isOrdinary (hbare : Bare text)
    (hescape : '\\' ∉ text.toList) :
    ∀ c ∈ text.toList, Command.isSeparator c = true ∨ Command.isOrdinary c = true := by
  intro c hc
  have hne {d : Char} (hd : d ∉ text.toList) : c ≠ d := fun hcd => hd (hcd ▸ hc)
  cases hkind : Command.isSeparator c with
  | true => exact .inl rfl
  | false =>
    refine .inr ?_
    simp [Command.isOrdinary, hkind, hne hbare.2.1, hne hbare.2.2, hne hescape]

/-- What lines that are indifferent to each other have to be, kind by kind. -/
theorem Indifferent.unread {line line' : String} (h : Indifferent line line') :
    (classify line = .assignment → assignmentOf? line = none) ∧
      (classify line = .forLoop → forLoopOf? line = none) ∧
      (classify line = .call → callOf? line = none) ∧
      (classify line = .command →
        ∀ bindings, SameCommand (expandText bindings line) (expandText bindings line')) := by
  cases h with
  | assignment hkind _ hline _ =>
    rw [hkind]
    exact ⟨fun _ => hline, nofun, nofun, nofun⟩
  | forLoop hkind _ hline _ =>
    rw [hkind]
    exact ⟨nofun, fun _ => hline, nofun, nofun⟩
  | call hkind _ hline _ =>
    rw [hkind]
    exact ⟨nofun, nofun, fun _ => hline, nofun⟩
  | command hkind _ hsame _ =>
    rw [hkind]
    exact ⟨nofun, nofun, nofun, fun _ => hsame⟩
  | inclusion hkind | whileLoop hkind | conditional hkind =>
    rw [hkind]
    exact ⟨nofun, nofun, nofun, nofun⟩

theorem Spoils.not_indifferent {c : Comment} {line line' : String} (h : Spoils c line)
    (htrailed : Trailed c.gap line line') : ¬ Indifferent line line' := by
  intro hindifferent
  obtain ⟨hassignment, hloop, hcall, hcommand⟩ := hindifferent.unread
  cases h with
  | assignment hkind hread => exact hread (hassignment hkind)
  | forLoop hkind hread => exact hread (hloop hkind)
  | call hkind hread => exact hread (hcall hkind)
  | blockEnd hkind => exact hindifferent.classify_eq.2 hkind
  | @command bindings expanded hkind hexpanded hbare hescape hparsed hseparator =>
    have hsame := hcommand hkind bindings
    cases hexpanded' : expandText bindings line' with
    | error e =>
      rw [hexpanded, hexpanded'] at hsame
      cases hsame
    | ok expanded' =>
      obtain ⟨front, mid, text, hfront, hchars, hmid, hgap⟩ := htrailed.expandText hexpanded'
      rw [hexpanded, hexpanded'] at hsame
      rw [hexpanded] at hfront
      cases hfront
      obtain ⟨parsed, hparsed⟩ := hparsed
      obtain ⟨b, hb, hseparates⟩ := hseparator
      cases hsame with
      | ok hsame =>
        exact Command.parse_ne_of_sign hchars hparsed hbare.1
          (isSeparator_or_isOrdinary hbare hescape) hmid ⟨b, hgap b hb, hseparates⟩ hsame

/-- Comments of some sort, each after a line without number signs and quotes, do no harm exactly if
each is after a line at which the walk does the same with it and without it. They do harm if one is
after an assignment, a loop or a call that can be read, after the end of a block, or after a command
that is accepted. -/
theorem trailing_comments_harmless_iff {E : String → String → Prop}
    (hE : ∀ raw raw', E raw raw' → Commented raw raw') :
    (Harmless E ↔ ∀ raw raw', E raw raw' → Indifferent (Text.trim raw) (Text.trim raw')) ∧
      ∀ raw (c : Comment), E raw (c.on raw) → Spoils c (Text.trim raw) → ¬ Harmless E := by
  have hforced : Harmless E →
      ∀ raw raw', E raw raw' → Indifferent (Text.trim raw) (Text.trim raw') := by
    intro h raw raw' hraw
    obtain ⟨hbare, hblank, c, -, rfl⟩ := hE raw raw' hraw
    exact indifferent_of_exchangeable hbare hblank (trailed_on hblank c)
      (h.exchangeable hraw hbare)
  refine ⟨⟨hforced, fun hlines around base lines lines' s _ hcounterparts => ?_⟩, ?_⟩
  · exact parallel_counterparts around base
      (hcounterparts.imp fun raw raw' hraw => hraw.imp_right (hlines raw raw')) s
  · intro raw c hraw hspoils h
    obtain ⟨-, hblank, -⟩ := hE raw _ hraw
    exact hspoils.not_indifferent (trailed_on hblank c) (hforced h raw _ hraw)

/-- A comment after so many spaces and one more. -/
def spaced (spaces : Nat) (text : String) : Comment where
  gap := List.replicate (spaces + 1) ' '
  text := text.toList
  nonempty := by simp
  blank c hc := by
    rw [List.eq_of_mem_replicate hc]
    rfl

/-- Lines of a manual with their comments. -/
def annotated : List (String × Comment) :=
  [("set count=10", spaced 10 " Alternative syntax"), ("say Hello $name", spaced 7 " Use variable"),
    ("for i in 1..5", spaced 8 " Loop 1 to 5"), ("endfor", spaced 0 " don't stop"),
    ("call greet", spaced 10 " Call subroutine"), ("sleep 0.5", spaced 11 " Wait half a second")]

theorem spoils_annotated : ∀ entry ∈ annotated, Spoils entry.2 (Text.trim entry.1) := by
  have hsay : expandText [("name", .text "Cozmo")] (Text.trim "say Hello $name") =
      .ok "say Hello Cozmo" := by rfl
  have hsleep : expandText [] (Text.trim "sleep 0.5") = .ok "sleep 0.5" := by rfl
  have haccepted : ∀ line ∈ ["say Hello Cozmo", "sleep 0.5"],
      ∃ parsed, Command.parse line = .ok (some parsed) := by
    intro line hline
    have hparses : ∀ line ∈ ["say Hello Cozmo", "sleep 0.5"],
        Command.parsesTo line (fun _ => true) = true := by decide +kernel
    obtain ⟨parsed, hparsed, -⟩ := Command.exists_of_parsesTo (hparses line hline)
    exact ⟨parsed, hparsed⟩
  have hspace (spaces : Nat) (text : String) :
      ∃ b ∈ (spaced spaces text).gap, Command.isSeparator b = true :=
    ⟨' ', List.mem_replicate.mpr ⟨by simp, rfl⟩, rfl⟩
  simp only [annotated, List.forall_mem_cons]
  refine ⟨.assignment (by decide) (by decide), ?_, .forLoop (by decide) (by decide),
    .blockEnd (by decide), .call (by decide) (by decide), ?_, List.forall_mem_nil _⟩
  · exact .command (by decide) hsay (by decide) (by decide) (haccepted _ (by decide)) (hspace _ _)
  · exact .command (by decide) hsleep (by decide) (by decide) (haccepted _ (by decide)) (hspace _ _)

theorem indifferent_dance : Indifferent (Text.trim "dance") (Text.trim "dance # now") := by
  have hwords : Command.splitWords (Text.trim "dance") = ["dance"] := by decide +kernel
  have hwords' : Command.splitWords (Text.trim "dance # now") = ["dance", "#", "now"] := by
    decide +kernel
  have hplain (bindings : Dict Value) : SameCommand (expandText bindings (Text.trim "dance"))
      (expandText bindings (Text.trim "dance # now")) := by
    rw [expandText_of_no_dollar bindings (by decide), expandText_of_no_dollar bindings (by decide)]
    refine .ok ?_
    unfold Command.parse
    rw [hwords, hwords']
    rfl
  have hname : definedName? (Text.trim "dance") = none := by decide
  have hname' : definedName? (Text.trim "dance # now") = none := by decide
  refine .command (by decide) (by decide) hplain ?_
  rw [hname, hname']
  exact .none

/-- Each comment of the manual spoils its line, so comments are not ignored. A comment after a line
that is refused anyway does no harm. -/
theorem annotated_comments_not_harmless :
    (∀ entry ∈ annotated, Commented entry.1 (entry.2.on entry.1) ∧
      ¬ Harmless fun raw raw' => (raw, raw') = (entry.1, entry.2.on entry.1)) ∧
    ¬ Harmless Commented ∧
    Harmless fun raw raw' => (raw, raw') = ("dance", "dance # now") := by
  have hcommented : ∀ entry ∈ annotated, Commented entry.1 (entry.2.on entry.1) := by
    have hlines : ∀ entry ∈ annotated,
        Bare entry.1 ∧ Text.trim entry.1 ≠ "" ∧ '\n' ∉ entry.2.text := by decide
    intro entry hentry
    obtain ⟨hbare, hblank, hline⟩ := hlines entry hentry
    exact ⟨hbare, hblank, entry.2, hline, rfl⟩
  refine ⟨fun entry hentry => ⟨hcommented entry hentry, ?_⟩, ?_, ?_⟩
  · have hE (raw raw' : String) (h : (raw, raw') = (entry.1, entry.2.on entry.1)) :
        Commented raw raw' := by
      cases h
      exact hcommented entry hentry
    exact (trailing_comments_harmless_iff hE).2 entry.1 entry.2 rfl (spoils_annotated entry hentry)
  · have hentry : ("sleep 0.5", spaced 11 " Wait half a second") ∈ annotated := by simp [annotated]
    exact (trailing_comments_harmless_iff fun _ _ h => h).2 _ _ (hcommented _ hentry)
      (spoils_annotated _ hentry)
  · have hE (raw raw' : String) (h : (raw, raw') = ("dance", "dance # now")) :
        Commented raw raw' := by
      cases h
      exact ⟨by decide, by decide, spaced 0 " now", by decide, by decide⟩
    refine (trailing_comments_harmless_iff hE).1.mpr fun raw raw' h => ?_
    cases h
    exact indifferent_dance

end RobotConsole.Script
