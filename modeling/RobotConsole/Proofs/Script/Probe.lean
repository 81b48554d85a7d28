import RobotConsole.Proofs.Script.Assignment
import RobotConsole.Proofs.Script.Interchange

/-!
# Scripts that tell lines apart

What a line does shows in the commands and the variables of small scripts around it. A condition
shows in the number of commands of the block that it opens (`Reveals`). The values of a loop and the
arguments of a call show in a variable that the body sets to them (`noteLine`): after the rounds of
a loop it holds the last value (`run_forRounds_note`), and nothing but one of the values
(`noted_of_forRounds`); after a call it holds the argument (`run_call_note`). A line that is no
command shows in that nothing is left of it (`eq_nil_of_not_command`).
-/

namespace RobotConsole.Script

open Arithmetic (Value)
open Storage (Path)
open Text (AllBlank Inked Spells)

variable {around : Surroundings} {base : Option Path} {limits : Limits}
variable {commands lines : List String} {x : String} {t : Interpreter}

/-! ## Scripts without definitions -/

theorem extractFrom_of_no_definition
    (h : ∀ raw ∈ lines, definedName? (Text.trim raw) = none) :
    extractFrom .outside lines = pure lines := by
  induction lines with
  | nil => rfl
  | cons raw lines ih =>
    rw [extractFrom_keep (h raw List.mem_cons_self),
      ih fun line hline => h line (List.mem_cons_of_mem raw hline)]
    rfl

theorem preprocess_of_no_definition
    (h : ∀ raw ∈ lines, definedName? (Text.trim raw) = none) :
    preprocess around base lines =
      expandLines around base (expandBlock around.inner base maxDepth) 0 lines := by
  unfold preprocess extractSubroutines
  rw [extractFrom_of_no_definition h]
  rfl

theorem preprocess_single {raw : String} (h : definedName? (Text.trim raw) = none) :
    preprocess around base [raw] = (do
      let part ← expandLine around base (expandBlock around.inner base maxDepth) 0
        (Text.trim raw) []
      return part.1) := by
  rw [preprocess_of_no_definition (List.forall_mem_singleton.mpr h), expandLines]
  refine congrArg _ (funext fun part => ?_)
  dsimp only
  rw [List.drop_nil, expandLines]
  simp

theorem preprocess_include {raw : String} (hkind : classify (Text.trim raw) = .includeFile) :
    preprocess around base [raw] = expandInclude around base (Text.trim raw) := by
  rw [preprocess_single (definedName?_of_classify (hkind ▸ nofun))]
  unfold expandLine
  rw [hkind]
  simp

/-- Lines that yield some commands and change nothing but what has been printed. -/
def Yields (lines commands : List String) : Prop :=
  ∀ around base expand position s, ∃ t,
    (expandLines around base expand position lines).run s = .ok commands t ∧ OnlyPrinted s t

theorem yields_nil : Yields [] [] := by
  intro around base expand position s
  rw [expandLines]
  exact ⟨s, rfl, ⟨rfl, rfl, rfl⟩⟩

theorem Yields.stop (h : Yields lines commands) :
    Yields ("stop" :: lines) ("stop" :: commands) := by
  intro around base expand position s
  have hplain : Plain "stop" := plain_of_no_dollar (by decide) (by decide) (by decide)
  obtain ⟨t, hrun, ht⟩ := h around base expand (position + 1) s
  have hstop : plainCommands ["stop"] = ["stop"] := by decide
  rw [expandLines_cons (hplain.expandLine expand position lines), hstop, EStateM.run_bind, hrun]
  exact ⟨t, rfl, ht⟩

/-- A line that is reported and left. -/
def Reported (raw : String) : Prop :=
  ∀ around base expand position rest, ∃ message,
    expandLine around base expand position (Text.trim raw) rest = (do print message; return ([], 0))

theorem Reported.yields {raw : String} (hraw : Reported raw)
    (h : Yields lines commands) : Yields (raw :: lines) commands := by
  intro around base expand position s
  obtain ⟨message, hline⟩ := hraw around base expand position lines
  obtain ⟨t, hrun, ht⟩ := h around base expand (position + 1)
    { s with printed := s.printed.push message }
  refine ⟨t, ?_, ⟨ht.bindings, ht.maxIterations, ht.subroutines⟩⟩
  have hfirst : (print message >>= fun _ => pure (([] : List String), 0) : Run _).run s =
      .ok ([], 0) { s with printed := s.printed.push message } := rfl
  rw [expandLines, hline, EStateM.run_bind, hfirst]
  dsimp only
  rw [Nat.add_zero, List.drop_zero, EStateM.run_bind, hrun]
  rfl

theorem reported_stray {raw : String} (h : classify (Text.trim raw) = .stray) : Reported raw := by
  intro around base expand position rest
  unfold expandLine
  rw [h]
  exact ⟨_, rfl⟩

theorem reported_for {raw : String} (hkind : classify (Text.trim raw) = .forLoop)
    (h : forLoopOf? (Text.trim raw) = none) : Reported raw := by
  intro around base expand position rest
  unfold expandLine expandFor
  rw [hkind, h]
  exact ⟨_, rfl⟩

theorem reported_while {raw : String} (hkind : classify (Text.trim raw) = .whileLoop)
    (h : argumentOf? "while" (Text.trim raw) = none) : Reported raw := by
  intro around base expand position rest
  unfold expandLine expandWhile
  rw [hkind, h]
  exact ⟨_, rfl⟩

theorem reported_if {raw : String} (hkind : classify (Text.trim raw) = .conditional)
    (h : argumentOf? "if" (Text.trim raw) = none) : Reported raw := by
  intro around base expand position rest
  unfold expandLine expandIf
  rw [hkind, h]
  exact ⟨_, rfl⟩

theorem Yields.closing (h : Yields lines commands) (word : String)
    (hword : word ∈ blockEnds) : Yields (word :: lines) commands := by
  have hends : ∀ word ∈ blockEnds, classify (Text.trim word) = .stray := by decide
  exact (reported_stray (hends word hword)).yields h

/-- A script without definitions whose lines yield some commands. -/
theorem Yields.preprocess (h : Yields lines commands)
    (hlines : ∀ raw ∈ lines, definedName? (Text.trim raw) = none) (around : Surroundings)
    (base : Option Path) (s : Interpreter) :
    ∃ t, (preprocess around base lines).run s = .ok commands t ∧ OnlyPrinted s t := by
  rw [preprocess_of_no_definition hlines]
  exact h around base _ 0 s

theorem Yields.expandBlock (h : Yields lines commands)
    (around : Surroundings) (base : Option Path) (s : Interpreter) :
    ∃ t, (expandBlock around base maxDepth lines).run s = .ok commands t ∧ OnlyPrinted s t :=
  h around base _ 0 s

/-! ## Loops of one line -/

theorem loopBody_single {closing : String} (hx : Inert (normalLine x))
    (hclosing : closing ∈ ["endfor", "endwhile"]) :
    loopBody closing [x, closing] = pure ([x], 2) := by
  have hends : ∀ word ∈ ["endfor", "endwhile"], blockLength word 0 [word] = (0, true) := by decide
  have hlength : blockLength closing 0 [x, closing] = (1, true) := by
    rw [blockLength]
    simp only [hx.opens, hx.closes, hends closing hclosing, Bool.false_eq_true, if_false]
  unfold loopBody
  rw [hlength]
  rfl

theorem inert_stop : Inert (normalLine "stop") :=
  ⟨by decide, by decide, by decide⟩

/-- A line at the start of a script that takes all other lines with it. -/
theorem run_block {raw : String} {rest : List String}
    (h : ∀ line ∈ raw :: rest, definedName? (Text.trim line) = none) {s : Interpreter}
    {x : Run (List String)}
    (hline : (expandLine around base (expandBlock around.inner base maxDepth) 0 (Text.trim raw)
      rest).run s = (do return (← x, rest.length)).run s) :
    (preprocess around base (raw :: rest)).run s = x.run s := by
  rw [preprocess_of_no_definition h, expandLines, EStateM.run_bind, hline, EStateM.run_bind]
  cases x.run s with
  | error e t => rfl
  | ok commands t =>
    show (expandLines around base _ _ (rest.drop rest.length) >>= fun more =>
      pure (commands ++ more)).run t = _
    rw [List.drop_length, expandLines, pure_bind, List.append_nil]
    rfl

/-! ## Conditions -/

theorem run_evaluateCondition_still (limits : Limits) (condition : String) (s : Interpreter) :
    (∃ holds, (evaluateCondition limits condition).run s = .ok holds s) ∨
      ∃ e, (evaluateCondition limits condition).run s = .error e s := by
  have hafter := after_evaluateCondition limits condition s
  cases hrun : (evaluateCondition limits condition).run s with
  | ok holds t =>
    rw [after_of_ok hrun] at hafter
    exact .inl ⟨holds, by rw [hafter]⟩
  | error e t =>
    rw [after_of_error hrun] at hafter
    exact .inr ⟨e, by rw [hafter]⟩

/-- Outcomes of a script that show whether a condition holds: by the number of commands, or by the
error that the condition stops with. -/
inductive Reveals (yes no : Nat) : EStateM.Result ScriptError Interpreter Bool →
    EStateM.Result ScriptError Interpreter (List String) → Prop
  | holds {s t : Interpreter} {commands : List String} : commands.length = yes →
      Reveals yes no (.ok true s) (.ok commands t)
  | fails {s t : Interpreter} {commands : List String} : commands.length = no →
      Reveals yes no (.ok false s) (.ok commands t)
  | stops {e : ScriptError} {s t : Interpreter} : Reveals yes no (.error e s) (.error e t)

theorem SameParsed.length_eq {commands' : List String}
    (h : SameParsed commands commands') : commands.length = commands'.length := by
  simpa using congrArg List.length h

theorem Reveals.unique {yes no : Nat} (hne : yes ≠ no) {condition condition' : String}
    {s : Interpreter} {o o' : EStateM.Result ScriptError Interpreter (List String)}
    (h : Reveals yes no ((evaluateCondition limits condition).run s) o)
    (h' : Reveals yes no ((evaluateCondition limits condition').run s) o')
    (halike : Parallel SameBindings SameParsed o o') :
    (evaluateCondition limits condition).run s = (evaluateCondition limits condition').run s := by
  have hsame {a b : Nat} {commands commands' : List String}
      (hparsed : SameParsed commands commands') (ha : commands.length = a)
      (hb : commands'.length = b) : a = b := by
    rw [← ha, ← hb, hparsed.length_eq]
  rcases run_evaluateCondition_still limits condition s with ⟨holds, hrun⟩ | ⟨e, hrun⟩ <;>
  rcases run_evaluateCondition_still limits condition' s with ⟨holds', hrun'⟩ | ⟨e', hrun'⟩ <;>
  rw [hrun] at h ⊢ <;> rw [hrun'] at h' ⊢ <;> cases h <;> cases h' <;> cases halike
  · rfl
  · rename_i hyes _ _ hno hparsed _
    exact absurd (hsame hparsed hyes hno) hne
  · rename_i hno _ _ hyes hparsed _
    exact absurd (hsame hparsed hno hyes).symm hne
  · rfl
  · rfl

theorem evaluateCondition_of_sameBindings {condition : String} {y : Except ScriptError Bool}
    {s : Interpreter} (h : (evaluateCondition limits condition).run s = Outcome.still s y)
    (hst : SameBindings s t) : (evaluateCondition limits condition).run t = Outcome.still t y := by
  have halike : Parallel SameBindings Eq ((evaluateCondition limits condition).run s)
      ((evaluateCondition limits condition).run t) := parallels_evaluateCondition condition s t hst
  rw [h] at halike
  rcases run_evaluateCondition_still limits condition t with ⟨holds, hrun⟩ | ⟨e, hrun⟩ <;>
  rw [hrun] at halike ⊢ <;> cases y <;> cases halike
  · rename_i hsame _
    rw [← hsame]
    rfl
  · rfl

theorem sameCondition_of_limit {condition condition' : String} (limit : Int)
    (h : ∀ (limits : Limits) (s : Interpreter), s.maxIterations = limit →
      (evaluateCondition limits condition).run s = (evaluateCondition limits condition').run s) :
    SameCondition condition condition' := by
  intro limits s
  have hlimited := h limits { s with maxIterations := limit } rfl
  have hst : SameBindings { s with maxIterations := limit } s := rfl
  have hstill (condition : String) : ∃ y, (evaluateCondition limits condition).run
      { s with maxIterations := limit } = Outcome.still { s with maxIterations := limit } y := by
    rcases run_evaluateCondition_still limits condition { s with maxIterations := limit } with
      ⟨holds, hrun⟩ | ⟨e, hrun⟩
    · exact ⟨.ok holds, hrun⟩
    · exact ⟨.error e, hrun⟩
  obtain ⟨y, hy⟩ := hstill condition
  rw [evaluateCondition_of_sameBindings hy hst,
    evaluateCondition_of_sameBindings (hlimited.symm.trans hy) hst]

theorem no_definition_cons {raw : String} (hraw : classify (Text.trim raw) ≠ .command)
    {rest : List String} (hrest : ∀ line ∈ rest, definedName? (Text.trim line) = none) :
    ∀ line ∈ raw :: rest, definedName? (Text.trim line) = none :=
  List.forall_mem_cons.mpr ⟨definedName?_of_classify hraw, hrest⟩

section While

variable {raw : String} (hkind : classify (Text.trim raw) = .whileLoop)
include hkind

theorem no_definition_while :
    ∀ line ∈ [raw, "stop", "endwhile"], definedName? (Text.trim line) = none :=
  no_definition_cons (hkind ▸ nofun) (by decide)

/-- A loop that cannot be read leaves its body to be walked once. -/
theorem run_while_unread (h : argumentOf? "while" (Text.trim raw) = none) (s : Interpreter) :
    ∃ t, (preprocess around base [raw, "stop", "endwhile"]).run s = .ok ["stop"] t := by
  have hyields := (reported_while hkind h).yields (yields_nil.closing "endwhile" (by decide)).stop
  obtain ⟨t, hrun, -⟩ := hyields.preprocess (no_definition_while hkind) around base s
  exact ⟨t, hrun⟩

variable {condition : String} (h : argumentOf? "while" (Text.trim raw) = some condition)
  {s : Interpreter}
include h

theorem run_while (s : Interpreter) :
    (preprocess around base [raw, "stop", "endwhile"]).run s =
      (whileRounds around.limits.called (expandBlock around.inner base maxDepth) condition ["stop"]
        s.maxIterations.toNat).run s := by
  refine run_block (no_definition_while hkind) ?_
  unfold expandLine expandWhile
  rw [hkind, h]
  dsimp only
  rw [loopBody_single inert_stop (by decide)]
  rfl

theorem eq_nil_of_while (hlimit : s.maxIterations = 0)
    (hrun : (preprocess around base [raw, "stop", "endwhile"]).run s = .ok commands t) :
    commands = [] := by
  rw [run_while hkind h, hlimit, show (0 : Int).toNat = 0 from rfl, whileRounds] at hrun
  obtain ⟨holds, u, -, hrun⟩ := run_of_bind_ok hrun
  cases holds <;> cases hrun <;> rfl

/-- A loop that may go one round shows whether its condition holds. -/
theorem reveals_while (hlimit : s.maxIterations = 1) :
    Reveals 1 0 ((evaluateCondition around.limits.called condition).run s)
      ((preprocess around base [raw, "stop", "endwhile"]).run s) := by
  rw [run_while hkind h, hlimit, show (1 : Int).toNat = 0 + 1 from rfl, whileRounds,
    EStateM.run_bind]
  rcases run_evaluateCondition_still around.limits.called condition s with
    ⟨holds, hcondition⟩ | ⟨e, hcondition⟩
  · rw [hcondition]
    cases holds with
    | false => exact .fails rfl
    | true =>
      obtain ⟨t, hbody, ht⟩ := yields_nil.stop.expandBlock around.inner base s
      have hagain := evaluateCondition_of_sameBindings (y := .ok true) hcondition ht.bindings.symm
      dsimp only
      rw [if_pos rfl, EStateM.run_bind, hbody]
      dsimp only
      rw [EStateM.run_bind, whileRounds, EStateM.run_bind, hagain]
      exact .holds rfl
  · rw [hcondition]
    exact .stops

end While

section If

variable {raw : String} (hkind : classify (Text.trim raw) = .conditional)
include hkind

theorem no_definition_if : ∀ line ∈ [raw, "stop", "else", "stop", "stop", "endif"],
    definedName? (Text.trim line) = none :=
  no_definition_cons (hkind ▸ nofun) (by decide)

/-- A conditional that cannot be read leaves both its parts to be walked. -/
theorem run_if_unread (h : argumentOf? "if" (Text.trim raw) = none) (s : Interpreter) :
    ∃ t, (preprocess around base [raw, "stop", "else", "stop", "stop", "endif"]).run s =
      .ok ["stop", "stop", "stop"] t := by
  have hend := yields_nil.closing "endif" (by decide)
  have hyields := (reported_if hkind h).yields (hend.stop.stop.closing "else" (by decide)).stop
  obtain ⟨t, hrun, -⟩ := hyields.preprocess (no_definition_if hkind) around base s
  exact ⟨t, hrun⟩

theorem reveals_if {condition : String} (h : argumentOf? "if" (Text.trim raw) = some condition)
    (s : Interpreter) :
    Reveals 1 2 ((evaluateCondition around.limits.called condition).run s)
      ((preprocess around base [raw, "stop", "else", "stop", "stop", "endif"]).run s) := by
  have hparts : branches? 0 false ["stop", "else", "stop", "stop", "endif"] =
      some ⟨["stop"], ["stop", "stop"], 4⟩ := by rfl
  have hrun : (preprocess around base [raw, "stop", "else", "stop", "stop", "endif"]).run s = (do
      let holds ← evaluateCondition around.limits.called condition
      expandBlock around.inner base maxDepth
        (if holds then ["stop"] else ["stop", "stop"])).run s := by
    refine run_block (no_definition_if hkind) ?_
    unfold expandLine expandIf
    rw [hkind, h]
    dsimp only
    rw [hparts, bind_assoc]
    rfl
  rw [hrun, EStateM.run_bind]
  rcases run_evaluateCondition_still around.limits.called condition s with
    ⟨holds, hcondition⟩ | ⟨e, hcondition⟩
  · rw [hcondition]
    cases holds with
    | true =>
      obtain ⟨t, hbody, -⟩ := yields_nil.stop.expandBlock around.inner base s
      dsimp only
      rw [if_pos rfl, hbody]
      exact .holds rfl
    | false =>
      obtain ⟨t, hbody, -⟩ := yields_nil.stop.stop.expandBlock around.inner base s
      dsimp only
      rw [if_neg Bool.false_ne_true, hbody]
      exact .fails rfl
  · rw [hcondition]
    exact .stops

end If

/-! ## Noting what a name stands for -/

/-- What a name stands for is noted under another one: with a letter in front, so that nothing is
calculated. -/
def noteLine (a n : Name) : String :=
  String.ofList ("set ".toList ++ (a.text.toList ++ (' ' :: ("x$".toList ++ n.text.toList))))

/-- The note of a text. -/
def noted (text : List Char) : Value :=
  .text (String.ofList ('x' :: text))

theorem noted_inj {word word' : List Char} (h : noted word = noted word') : word = word' := by
  have hchars := congrArg String.toList (Value.text.inj h)
  rw [String.toList_ofList, String.toList_ofList] at hchars
  exact (List.cons.inj hchars).2

section Note

variable {a n : Name} {s : Interpreter}

theorem toList_noteLine (a n : Name) : (noteLine a n).toList =
    "set".toList ++ (' ' :: [] ++ (a.text.toList ++ ([' '] ++ ("x$".toList ++ n.text.toList)))) :=
  String.toList_ofList

theorem inked_note (n : Name) : Inked ("x$".toList ++ n.text.toList) := by
  have hx : Inked ['x'] := inked_of_all (by decide) (by decide)
  simpa using hx.append n.inked ['$']

theorem trim_noteLine (a n : Name) : Text.trim (noteLine a n) = noteLine a n := by
  have hset : Inked "set".toList := inked_of_all (by decide) (by decide)
  have hline : Inked (noteLine a n).toList := by
    rw [toList_noteLine]
    simpa using hset.append (inked_note n) (' ' :: (a.text.toList ++ [' ']))
  unfold Text.trim
  rw [Text.trimChars_self hline, String.ofList_toList]

theorem classify_noteLine (a n : Name) : classify (noteLine a n) = .assignment := by
  have hset : ("set ", LineKind.assignment) ∈ directives := by decide
  obtain ⟨more, hmore⟩ : StartsWith "set" (Text.lower (noteLine a n)) :=
    startsWith_lower (by decide) (by decide) (toList_noteLine a n)
  refine (classify_eq_iff_starts hset).mpr (List.isPrefixOf_iff_prefix.mpr ⟨more, ?_⟩)
  rw [hmore]
  rfl

theorem definedName?_noteLine (a n : Name) : definedName? (Text.trim (noteLine a n)) = none := by
  refine definedName?_of_classify ?_
  rw [trim_noteLine, classify_noteLine]
  exact nofun

theorem inert_noteLine (a n : Name) : Inert (normalLine (noteLine a n)) := by
  unfold normalLine
  rw [trim_noteLine]
  have hkind : classify (noteLine a n) = SentenceKind.assignment.lineKind := classify_noteLine a n
  exact inert_of_classify hkind

theorem assignmentOf?_noteLine (a n : Name) :
    assignmentOf? (noteLine a n) =
      some (a.text, String.ofList ("x$".toList ++ n.text.toList)) := by
  refine assignmentOf?_sets ⟨"set".toList, [], [' '], by decide, by decide, ?_, toList_noteLine a n⟩
    (inked_note n) ?_ (by simp)
  · exact .blanks (by decide) (by decide)
  · intro hmem
    rcases List.mem_append.mp hmem with hmem | hmem
    · revert hmem
      decide
    · have hword := n.wordChars _ hmem
      revert hword
      decide

theorem expandText_note (bindings : Dict Value) (n : Name) :
    expandText bindings (String.ofList ("x$".toList ++ n.text.toList)) =
      (referenceText bindings n.text.toList).map fun text => String.ofList ('x' :: text) := by
  have hbrace : '{' ∉ "x$".toList ++ n.text.toList := by
    intro hmem
    rcases List.mem_append.mp hmem with hmem | hmem
    · revert hmem
      decide
    · have hword := n.wordChars _ hmem
      revert hword
      decide
  have hname : expandPlain bindings (some []) n.text.toList =
      referenceText bindings n.text.toList := by
    rw [expandPlain_name n.wordChars, List.append_nil]
    unfold plainText
    rw [List.isEmpty_reverse, List.isEmpty_eq_false_iff.mpr n.toList_ne_nil, List.reverse_reverse]
    rfl
  have hplain : expandPlain bindings none ("x$".toList ++ n.text.toList) =
      (referenceText bindings n.text.toList).map fun text => 'x' :: text := by
    show (do return 'x' :: (← expandPlain bindings (some []) n.text.toList)) = _
    rw [hname]
    cases referenceText bindings n.text.toList <;> rfl
  unfold expandText
  rw [String.toList_ofList, (expandBraced_of_no_brace hbrace).1]
  show (expandPlain bindings none ("x$".toList ++ n.text.toList) >>= fun cs =>
    pure (String.ofList cs)) = _
  rw [hplain]
  cases referenceText bindings n.text.toList <;> rfl

theorem unquote_note (n : Name) : unquote (String.ofList ("x$".toList ++ n.text.toList)) =
    String.ofList ("x$".toList ++ n.text.toList) := by
  have hquoted : isQuoted ("x$".toList ++ n.text.toList) = false := by
    unfold isQuoted
    simp
  unfold unquote
  rw [String.toList_ofList, hquoted]
  rfl

theorem run_note (around : Surroundings) (base : Option Path) (a : Name) {text : List Char}
    (h : referenceText s.bindings n.text.toList = .ok text) :
    ∃ t, (expandBlock around base maxDepth [noteLine a n]).run s = .ok [] t ∧
      t.bindings = Dict.put s.bindings a.text (noted text) := by
  have hnone : Arithmetic.evaluate? around.limits.nesting (String.ofList ('x' :: text)) = none := by
    refine Arithmetic.evaluate?_eq_none_of_foreign (c := 'x') ?_ (by decide)
    rw [String.toList_ofList]
    exact List.mem_cons_self
  have hvalue : Evaluates around.limits s.bindings
      (unquote (String.ofList ("x$".toList ++ n.text.toList))) (noted text) := by
    refine ⟨String.ofList ('x' :: text), ?_, ?_⟩
    · rw [unquote_note, expandText_note, h]
      rfl
    · rw [hnone]
      rfl
  have hassign := run_assign (assignmentOf?_noteLine a n) hvalue rfl
  have hline : ∃ t, (expandLine around base (expandBlock around.inner base 49) 0 (noteLine a n)
      []).run s = .ok ([], 0) t ∧ t.bindings = Dict.put s.bindings a.text (noted text) := by
    unfold expandLine
    rw [classify_noteLine]
    dsimp only
    rw [EStateM.run_bind, hassign]
    exact ⟨_, rfl, rfl⟩
  obtain ⟨t, hrun, ht⟩ := hline
  exact ⟨t, run_expandBlock_single (trim_noteLine a n) hrun, ht⟩

theorem exists_of_note
    (h : (expandBlock around base maxDepth [noteLine a n]).run s = .ok commands t) :
    ∃ text, referenceText s.bindings n.text.toList = .ok text := by
  rw [show maxDepth = 49 + 1 from rfl, expandBlock, expandLines, trim_noteLine] at h
  obtain ⟨part, u, hline, -⟩ := run_of_bind_ok h
  unfold expandLine at hline
  rw [classify_noteLine] at hline
  obtain ⟨_, u, hassign, -⟩ := run_of_bind_ok hline
  unfold assign at hassign
  rw [assignmentOf?_noteLine] at hassign
  obtain ⟨v, u, hvalue, -⟩ := run_of_bind_ok hassign
  obtain ⟨⟨expanded, hexpanded, -⟩, -⟩ := run_evaluateExpression_ok.mp hvalue
  rw [unquote_note, expandText_note] at hexpanded
  cases hreference : referenceText s.bindings n.text.toList with
  | ok text => exact ⟨text, rfl⟩
  | error e =>
    rw [hreference] at hexpanded
    cases hexpanded

end Note

/-! ## The values of a loop -/

section Rounds

variable {a n : Name} (hne : a.text ≠ n.text) {value : Value} {s : Interpreter}

theorem referenceText_of_get? {bindings : Dict Value} {name : String}
    (h : Dict.get? bindings name = some value) {text : String} :
    referenceText bindings name.toList = .ok text.toList ↔ value.text? = some text := by
  unfold referenceText
  rw [String.ofList_toList, h]
  dsimp only
  cases value.text? with
  | none => simp
  | some shown => simp [String.toList_inj]

theorem get?_lend (s : Interpreter) (name : String) (value : Value) :
    Dict.get? (s.lend name value).bindings name = some value := by
  unfold Interpreter.lend
  rw [Dict.get?_put, if_pos rfl]

theorem run_forRound (name : String) (body : List String) (value : Value) (s : Interpreter) :
    (forRound (expandBlock around base maxDepth) name body value).run s =
      (lending name value (expandBlock around base maxDepth body)).run s := by
  rw [forRound_eq_lending (scope_expandBlock around base maxDepth body)]

include hne

theorem run_forRound_note (around : Surroundings) (base : Option Path) {text : String}
    (h : value.text? = some text) (s : Interpreter) :
    ∃ t, (forRound (expandBlock around base maxDepth) n.text [noteLine a n] value).run s =
      .ok [] t ∧ Dict.get? t.bindings a.text = some (noted text.toList) := by
  obtain ⟨t, hrun, ht⟩ := run_note around base a
    ((referenceText_of_get? (get?_lend s n.text value)).mpr h)
  rw [run_forRound, run_lending, hrun]
  refine ⟨_, rfl, ?_⟩
  rw [get?_restored, if_neg hne, ht, Dict.get?_put, if_pos rfl]

theorem noted_of_forRound
    (h : (forRound (expandBlock around base maxDepth) n.text [noteLine a n] value).run s =
      .ok commands t) :
    ∃ text, value.text? = some text ∧
      Dict.get? t.bindings a.text = some (noted text.toList) := by
  cases htext : value.text? with
  | some text =>
    obtain ⟨u, hrun, hnoted⟩ := run_forRound_note hne around base htext s
    rw [h] at hrun
    cases hrun
    exact ⟨text, rfl, hnoted⟩
  | none =>
    rw [run_forRound, run_lending] at h
    cases hbody : (expandBlock around base maxDepth [noteLine a n]).run (s.lend n.text value) with
    | error e u =>
      rw [hbody] at h
      cases h
    | ok commands u =>
      obtain ⟨text, hreference⟩ := exists_of_note hbody
      rw [← String.toList_ofList (l := text),
        referenceText_of_get? (get?_lend s n.text value), htext] at hreference
      cases hreference

/-- The rounds of a loop leave the note of one of the values, if there was none before. -/
theorem noted_of_forRounds {left : Nat} {values : List Value}
    {v : Value}
    (h : (forRounds (expandBlock around base maxDepth) n.text [noteLine a n] left values).run s =
      .ok commands t) (hv : Dict.get? t.bindings a.text = some v) :
    Dict.get? s.bindings a.text = some v ∨
      ∃ value ∈ values, ∃ text, value.text? = some text ∧ v = noted text.toList := by
  induction values generalizing left s commands with
  | nil =>
    rw [forRounds] at h
    cases h
    exact .inl hv
  | cons value values ih =>
    cases left with
    | zero =>
      cases h
      exact .inl hv
    | succ left =>
      rw [forRounds] at h
      obtain ⟨first, u, hround, h⟩ := run_of_bind_ok h
      obtain ⟨more, w, hrounds, h⟩ := run_of_bind_ok h
      cases h
      rcases ih hrounds with hfirst | ⟨value', hmem, hnoted⟩
      · obtain ⟨text, htext, hnote⟩ := noted_of_forRound hne hround
        rw [hfirst] at hnote
        exact .inr ⟨value, List.mem_cons_self, text, htext, Option.some.inj hnote⟩
      · exact .inr ⟨value', List.mem_cons_of_mem value hmem, hnoted⟩

theorem run_forRounds_note (around : Surroundings) (base : Option Path) {words : List String}
    {word : String} {i : Nat} (h : words[i]? = some word) (s : Interpreter) :
    ∃ t, (forRounds (expandBlock around base maxDepth) n.text [noteLine a n] (i + 1)
      (words.map .text)).run s = .ok [] t ∧
        Dict.get? t.bindings a.text = some (noted word.toList) := by
  induction words generalizing i s with
  | nil => cases h
  | cons first words ih =>
    have hfirst : (Value.text first).text? = some first := rfl
    obtain ⟨u, hround, hnoted⟩ := run_forRound_note hne around base hfirst s
    rw [List.map_cons, forRounds, EStateM.run_bind, hround]
    dsimp only
    rw [EStateM.run_bind]
    cases i with
    | zero =>
      cases h
      -- the limit is reached, so what is left is at most reported
      cases words with
      | nil =>
        rw [List.map_nil, forRounds]
        exact ⟨u, rfl, hnoted⟩
      | cons second words => exact ⟨_, rfl, hnoted⟩
    | succ i =>
      obtain ⟨t, hrounds, hnoted⟩ := ih h u
      rw [hrounds]
      exact ⟨t, rfl, hnoted⟩

end Rounds

section For

variable {raw : String} (hkind : classify (Text.trim raw) = .forLoop)
include hkind

/-- A loop that cannot be read leaves its body to be walked once. -/
theorem run_for_unread (h : forLoopOf? (Text.trim raw) = none) (s : Interpreter) :
    ∃ t, (preprocess around base [raw, "stop", "endfor"]).run s = .ok ["stop"] t := by
  have hyields := (reported_for hkind h).yields (yields_nil.closing "endfor" (by decide)).stop
  have hdefs : ∀ line ∈ [raw, "stop", "endfor"], definedName? (Text.trim line) = none :=
    no_definition_cons (hkind ▸ nofun) (by decide)
  obtain ⟨t, hrun, -⟩ := hyields.preprocess hdefs around base s
  exact ⟨t, hrun⟩

variable {name text : String} (h : forLoopOf? (Text.trim raw) = some (name, text))
  {s : Interpreter}
include h

theorem run_for (hx : Inert (normalLine x)) (hdef : definedName? (Text.trim x) = none)
    (s : Interpreter) :
    (preprocess around base [raw, x, "endfor"]).run s = (do
      let values ← loopValues around.limits (← expandVariables text)
      forRounds (expandBlock around.inner base maxDepth) name [x] (← get).maxIterations.toNat
        values).run s := by
  have hdefs : ∀ line ∈ [raw, x, "endfor"], definedName? (Text.trim line) = none :=
    no_definition_cons (hkind ▸ nofun) (List.forall_mem_cons.mpr ⟨hdef, by decide⟩)
  refine run_block hdefs ?_
  unfold expandLine expandFor
  rw [hkind, h]
  dsimp only
  rw [loopBody_single hx (by decide)]
  simp only [bind_assoc, pure_bind]
  rfl

/-- A loop that goes well has its values from its text, and goes through them. -/
theorem rounds_of_for (hx : Inert (normalLine x))
    (hdef : definedName? (Text.trim x) = none)
    (hrun : (preprocess around base [raw, x, "endfor"]).run s = .ok commands t) :
    ∃ expanded values, expandText s.bindings text = .ok expanded ∧
      (loopValues around.limits expanded).run s = .ok values s ∧
      (forRounds (expandBlock around.inner base maxDepth) name [x] s.maxIterations.toNat
        values).run s = .ok commands t := by
  rw [run_for hkind h hx hdef] at hrun
  obtain ⟨expanded, u, hexpand, hvalued⟩ := run_of_bind_ok hrun
  rw [run_expandVariables, still_eq_ok] at hexpand
  obtain ⟨hexpanded, rfl⟩ := hexpand
  obtain ⟨values, u, hvalues, hrounds⟩ := run_of_bind_ok hvalued
  have hrests : resting.HoldsAt s (loopValues around.limits expanded) :=
    holds_loopValues (fun _ _ _ => rfl) expanded s
  obtain rfl : u = s := hrests.yields hvalues
  exact ⟨expanded, values, hexpanded, hvalues, hrounds⟩

theorem eq_nil_of_for (hlimit : s.maxIterations = 0)
    (hrun : (preprocess around base [raw, "stop", "endfor"]).run s = .ok commands t) :
    commands = [] := by
  obtain ⟨expanded, values, -, -, hrounds⟩ := rounds_of_for hkind h inert_stop (by decide) hrun
  rw [hlimit, show (0 : Int).toNat = 0 from rfl] at hrounds
  cases values with
  | nil =>
    rw [forRounds] at hrounds
    cases hrounds
    rfl
  | cons value values =>
    cases hrounds
    rfl

end For

/-! ## The arguments of a call -/

section Call

variable {raw : String} (hkind : classify (Text.trim raw) = .call)

theorem run_expandCall_idle {expand : Expander} {line : String} {s : Interpreter}
    (h : ∀ name text, callOf? line = some (name, text) → Dict.get? s.subroutines name = none) :
    ∃ t, (expandCall expand line).run s = .ok [] t ∧ t.bindings = s.bindings := by
  unfold expandCall
  cases hline : callOf? line with
  | none => exact ⟨_, rfl, rfl⟩
  | some part =>
    obtain ⟨name, text⟩ := part
    dsimp only
    rw [EStateM.run_bind, EStateM.run_get]
    dsimp only
    rw [h name text hline]
    exact ⟨_, rfl, rfl⟩

/-- A call to a subroutine whose expansion goes well. What is given back are the names of the
arguments. -/
theorem run_call {expand : Expander} {line name text : String} {body : List String}
    {s : Interpreter} (h : callOf? line = some (name, text))
    (hbody : Dict.get? s.subroutines name = some body)
    (hrun : (expand body).run { s with
      bindings := argumentBindings 1 (Command.splitWords text) s.bindings } = .ok commands t) :
    ∃ u, (expandCall expand line).run s = .ok commands u ∧
      ∀ k ∉ argumentNames 1 (Command.splitWords text).length,
        Dict.get? u.bindings k = Dict.get? t.bindings k := by
  obtain ⟨old, hbind⟩ := run_bindArguments_eq 1 (Command.splitWords text) s
  obtain ⟨old', u, hbind', -, hnames, hold⟩ := run_bindArguments 1 (Command.splitWords text) s
  rw [hbind] at hbind'
  cases hbind'
  refine ⟨{ t with bindings := restoredAll t.bindings old }, ?_, fun k hk => ?_⟩
  · unfold expandCall
    simp only [h, EStateM.run_bind, EStateM.run_get, hbody, hbind, hrun, run_restoreAll]
    rfl
  · rw [get?_restoredAll hold, hnames, if_neg hk]

include hkind

theorem preprocess_call : preprocess around base [raw] =
    expandCall (expandBlock around.inner base maxDepth) (Text.trim raw) := by
  rw [preprocess_single (definedName?_of_classify (hkind ▸ nofun))]
  unfold expandLine
  rw [hkind]
  simp

theorem run_call_idle (around : Surroundings) (base : Option Path) {s : Interpreter}
    (h : ∀ name text, callOf? (Text.trim raw) = some (name, text) →
      Dict.get? s.subroutines name = none) :
    ∃ t, (preprocess around base [raw]).run s = .ok [] t ∧ t.bindings = s.bindings := by
  rw [preprocess_call hkind]
  exact run_expandCall_idle h

variable {name text : String} (h : callOf? (Text.trim raw) = some (name, text))
include h

theorem run_call_stop (around : Surroundings) (base : Option Path) :
    ∃ t, (preprocess around base [raw]).run (Interpreter.storing {} name ["stop"]) =
      .ok ["stop"] t := by
  have hbody : Dict.get? (Interpreter.storing {} name ["stop"]).subroutines name =
      some ["stop"] := by
    unfold Interpreter.storing
    rw [Dict.get?_put, if_pos rfl]
  obtain ⟨t, hrun, -⟩ := yields_nil.stop.expandBlock around.inner base
    { Interpreter.storing {} name ["stop"] with
      bindings := argumentBindings 1 (Command.splitWords text) [] }
  obtain ⟨u, hcall, -⟩ := run_call h hbody hrun
  rw [preprocess_call hkind]
  exact ⟨u, hcall⟩

/-- The name of an argument, counted from zero. -/
def argumentName (i : Nat) : Name where
  text := toString (1 + i)
  nonempty h := toString_toList_ne_nil (1 + i) (congrArg String.toList h)
  wordChars _ := isWordChar_of_mem_toString

omit hkind h in
theorem get?_argumentBindings_of_none {args : List String} {i : Nat} (h : args[i]? = none)
    (index : Nat) (bindings : Dict Value) :
    Dict.get? (argumentBindings index args bindings) (toString (index + i)) =
      Dict.get? bindings (toString (index + i)) := by
  induction args generalizing index i bindings with
  | nil => rfl
  | cons first args ih =>
    cases i with
    | zero => cases h
    | succ i =>
      have hne : toString (index + (i + 1)) ≠ toString index := fun heq => by
        have hindex : index + (i + 1) = index := toString_injective heq
        omega
      rw [argumentBindings, show index + (i + 1) = index + 1 + i by omega, ih h,
        Dict.get?_put, show index + 1 + i = index + (i + 1) by omega, if_neg hne]

omit hkind h in
theorem referenceText_argument (args : List String) (i : Nat) :
    referenceText (argumentBindings 1 args []) (argumentName i).text.toList =
      .ok ((args[i]?.map String.toList).getD []) := by
  unfold referenceText argumentName
  rw [String.ofList_toList]
  cases h : args[i]? with
  | none =>
    rw [get?_argumentBindings_of_none h]
    rfl
  | some word =>
    rw [get?_argumentBindings h]
    rfl

omit hkind h in
theorem nameA_notMem (index count : Nat) : nameA.text ∉ argumentNames index count := by
  intro hmem
  obtain ⟨m, -, heq⟩ := List.mem_map.mp hmem
  have hdigit : ('a').isDigit = true := by
    refine isDigit_of_mem_toString (i := m) ?_
    rw [heq]
    exact List.mem_cons_self
  cases hdigit

theorem run_call_note (around : Surroundings) (base : Option Path) (i : Nat) :
    ∃ t, (preprocess around base [raw]).run
        (Interpreter.storing {} name [noteLine nameA (argumentName i)]) = .ok [] t ∧
      Dict.get? t.bindings nameA.text =
        some (noted (((Command.splitWords text)[i]?.map String.toList).getD [])) := by
  have hbody : Dict.get? (Interpreter.storing {} name
      [noteLine nameA (argumentName i)]).subroutines name =
        some [noteLine nameA (argumentName i)] := by
    unfold Interpreter.storing
    rw [Dict.get?_put, if_pos rfl]
  obtain ⟨t, hrun, ht⟩ := run_note around.inner base nameA
    (s := { Interpreter.storing {} name [noteLine nameA (argumentName i)] with
      bindings := argumentBindings 1 (Command.splitWords text) [] })
    (referenceText_argument (Command.splitWords text) i)
  obtain ⟨u, hcall, hu⟩ := run_call h hbody hrun
  rw [preprocess_call hkind]
  refine ⟨u, hcall, ?_⟩
  rw [hu _ (nameA_notMem 1 _), ht, Dict.get?_put, if_pos rfl]

end Call

/-! ## Commands and definitions -/

/-- Outcomes of a script that show what a line is expanded to. -/
inductive Shows : Except ScriptError String →
    EStateM.Result ScriptError Interpreter (List String) → Prop
  | ok {command : String} {t : Interpreter} : Shows (.ok command) (.ok [command] t)
  | error {e : ScriptError} {t : Interpreter} : Shows (.error e) (.error e t)

/-- Scripts that end alike have shown commands that are parsed alike. -/
theorem Shows.sameCommand {y y' : Except ScriptError String}
    {r r' : EStateM.Result ScriptError Interpreter (List String)} (h : Shows y r) (h' : Shows y' r')
    (halike : Parallel SameBindings SameParsed r r') : SameCommand y y' := by
  cases h <;> cases h' <;> cases halike
  · rename_i hparsed _
    exact .ok (List.cons.inj hparsed).1
  · exact .error

section Commands

variable {raw : String} {s : Interpreter}

theorem shows_line (hkind : classify (Text.trim raw) = .command)
    (hlines : Yields lines []) (expand : Expander) (position : Nat) (s : Interpreter) :
    Shows (expandText s.bindings (Text.trim raw))
      ((expandLines around base expand position (raw :: lines)).run s) := by
  rw [expandLines]
  unfold expandLine
  rw [hkind]
  dsimp only
  rw [bind_assoc, EStateM.run_bind, run_expandVariables]
  cases expandText s.bindings (Text.trim raw) with
  | error e => exact .error
  | ok command =>
    obtain ⟨t, hrun, -⟩ := hlines around base expand (position + 1) s
    show Shows _ ((expandLines around base expand (position + 1) (lines.drop 0) >>= _).run s)
    rw [List.drop_zero, EStateM.run_bind, hrun]
    exact .ok

theorem shows_command (hkind : classify (Text.trim raw) = .command)
    (hname : definedName? (Text.trim raw) = none) (around : Surroundings) (base : Option Path)
    (s : Interpreter) :
    Shows (expandText s.bindings (Text.trim raw)) ((preprocess around base [raw]).run s) := by
  rw [preprocess_of_no_definition (List.forall_mem_singleton.mpr hname)]
  exact shows_line hkind yields_nil _ 0 s

theorem run_definition {name : String} {body block : List String} (h : IsDefinition name body block)
    (rest : List String) (s : Interpreter) :
    (preprocess around base (block ++ rest)).run s =
      (preprocess around base rest).run (s.storing name body) := by
  unfold preprocess extractSubroutines
  rw [h.extractFrom, bind_assoc, EStateM.run_bind, run_define]

/-- A definition within another one is a command where the subroutine is called. -/
theorem shows_definition {name : String} (hname : definedName? (Text.trim raw) = some name)
    (around : Surroundings) (base : Option Path) (s : Interpreter) :
    Shows (expandText s.bindings (Text.trim raw))
      ((preprocess around base ["def f", raw, "enddef", "enddef", "call f"]).run s) := by
  have hopens : opensDefinition raw = true := by
    rw [← isSome_definedName?, hname, Option.isSome_some]
  have hblock : IsDefinition "f" [raw, "enddef"] ["def f", raw, "enddef", "enddef"] :=
    .intro (by decide) (.nested hopens (by decide) .nil .nil) (by decide)
  have hcall : callOf? (Text.trim "call f") = some ("f", "") := by decide
  have hsplit : Command.splitWords "" = [] := by decide
  have hbody : Dict.get? (s.storing "f" [raw, "enddef"]).subroutines "f" =
      some [raw, "enddef"] := by
    unfold Interpreter.storing
    rw [Dict.get?_put, if_pos rfl]
  have hshows : Shows (expandText s.bindings (Text.trim raw))
      ((expandLines around.inner base _ 0 [raw, "enddef"]).run _) :=
    shows_line (classify_of_opensDefinition hopens) (yields_nil.closing "enddef" (by decide))
      (expandBlock around.inner.inner base 49) 0 (s.storing "f" [raw, "enddef"])
  rw [show ["def f", raw, "enddef", "enddef", "call f"] =
    ["def f", raw, "enddef", "enddef"] ++ ["call f"] from rfl, run_definition hblock,
    preprocess_call (by decide)]
  unfold expandCall
  simp only [hcall, EStateM.run_bind, EStateM.run_get, hbody, hsplit, bindArguments,
    EStateM.run_pure]
  rw [show maxDepth = 49 + 1 from rfl, expandBlock]
  generalize expandText s.bindings (Text.trim raw) = y at hshows ⊢
  generalize (expandLines around.inner base _ 0 [raw, "enddef"]).run _ = r at hshows ⊢
  cases hshows with
  | ok => exact .ok
  | error => exact .error

end Commands

/-! ## Assignments -/

section Assignment

theorem Parallel.after {α : Type} {R : α → α → Prop} {x y : Run α} {s : Interpreter}
    (h : Parallel SameBindings R (x.run s) (y.run s)) :
    SameBindings (after x s) (after y s) := by
  unfold RobotConsole.after
  generalize x.run s = r at h ⊢
  generalize y.run s = r' at h ⊢
  cases h with
  | ok _ hst | error hst => exact hst

variable {raw : String} (hkind : classify (Text.trim raw) = .assignment)
include hkind

theorem after_assignment (s : Interpreter) :
    after (preprocess around base [raw]) s = after (assign around.limits (Text.trim raw)) s := by
  rw [preprocess_single (definedName?_of_classify (hkind ▸ nofun))]
  unfold expandLine
  rw [hkind]
  dsimp only
  rw [bind_assoc]
  exact after_bind_pure _ _ s

theorem bindings_after_unread (h : assignmentOf? (Text.trim raw) = none) (s : Interpreter) :
    (after (preprocess around base [raw]) s).bindings = s.bindings := by
  rw [after_assignment hkind]
  unfold assign
  rw [h]
  rfl

/-- What can be read is stored, even if it cannot be printed then. -/
theorem bindings_after_assignment {name text expanded : String} {s : Interpreter}
    (h : assignmentOf? (Text.trim raw) = some (name, text))
    (hexpanded : expandText s.bindings (unquote text) = .ok expanded) :
    (after (preprocess around base [raw]) s).bindings =
      Dict.put s.bindings name
        ((Arithmetic.evaluate? around.limits.nesting expanded).getD (.text expanded)) := by
  have hvalue : (evaluateExpression around.limits (unquote text)).run s = .ok _ s :=
    run_evaluateExpression_ok.mpr ⟨⟨expanded, hexpanded, rfl⟩, rfl⟩
  have hbind (v : Value) : (bind name v).run s = .ok () (s.lend name v) := rfl
  rw [after_assignment hkind]
  unfold assign
  rw [h]
  dsimp only
  rw [after_bind_of_ok hvalue, after_bind_of_ok (hbind _)]
  generalize (Arithmetic.evaluate? around.limits.nesting expanded).getD (.text expanded) = v
  cases htext : v.text? with
  | none =>
    have hrun := run_valueText v (s.lend name v)
    rw [htext] at hrun
    rw [after_bind_of_error hrun]
    rfl
  | some shown =>
    have hrun := run_valueText v (s.lend name v)
    rw [htext] at hrun
    rw [after_bind_of_ok hrun]
    rfl

end Assignment

/-! ## Lines that are no commands -/

theorem find_nowhere (directory path : Path) :
    ∃ e, Storage.Files.find [] directory path = .error e := by
  unfold Storage.Files.find
  split
  · exact ⟨_, rfl⟩
  · cases (directory.join path).names with
    | nil => exact ⟨_, rfl⟩
    | cons name names => exact ⟨_, rfl⟩

theorem included?_nowhere (line : String) : included? nowhere none line = none := by
  unfold included?
  cases argumentOf? "include" line with
  | none => rfl
  | some argument =>
    obtain ⟨e, hfind⟩ := find_nowhere nowhere.directory (includePath none argument)
    have hcontains : ¬ (nowhere.files.contains nowhere.directory
        (includePath none argument)).toOption = some true := by
      unfold Storage.Files.contains nowhere at *
      rw [hfind]
      split
      · exact nofun
      · split
        · rename_i hok
          cases hok
        · exact nofun
        · exact nofun
    exact if_neg hcontains

/-- A definition yields nothing, and neither does any other line that is no command if there are no
files to include. -/
theorem eq_nil_of_not_command {raw : String}
    (h : classify (Text.trim raw) ≠ .command ∨ definedName? (Text.trim raw) ≠ none)
    (hrun : (preprocess nowhere none [raw]).run {} = .ok commands t) : commands = [] := by
  cases hname : definedName? (Text.trim raw) with
  | some name =>
    unfold preprocess extractSubroutines at hrun
    rw [extractFrom_start hname] at hrun
    obtain ⟨lines, u, hlines, hrun⟩ := run_of_bind_ok hrun
    cases hlines
    rw [show levelsAt 0 = maxDepth + 1 from rfl, expandBlock, expandLines] at hrun
    cases hrun
    rfl
  | none =>
    refine List.eq_nil_iff_forall_not_mem.mpr fun command hmem => ?_
    cases commands_derived hrun command hmem with
    | included _ _ hincluded =>
      rw [included?_nowhere] at hincluded
      cases hincluded
    | expanded hraw hline _ =>
      rw [List.mem_singleton.mp hraw] at hline
      exact h.elim (fun hkind => hkind (classify_of_isCommandLine hline)) fun hdef => hdef hname

end RobotConsole.Script
