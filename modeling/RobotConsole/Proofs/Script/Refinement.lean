import RobotConsole.Proofs.Script.BlockTree

/-!
# Lines stand for their tree

Expansion walks over lines and finds the ends of blocks again at every level. On lines that are
written for a tree it does exactly what evaluating the tree does (`expandBlock_eq_evaluateBlock`):
the same commands, the same state, the same error.
-/

namespace RobotConsole.Script

open Arithmetic (Value)
open Storage (Path)
open Contract

variable {α β : Type} {library : Library}
variable {lines : List String} {raw : String} {items : List Item} {limits : Limits}

/-- Every subroutine is written for the tree that the library has under its name. -/
def Library.Renders (library : Library) (subroutines : Dict (List String)) : Prop :=
  ∀ name, Option.Rel Script.Renders (Dict.get? library name) (Dict.get? subroutines name)

/-- Two computations that do the same in every state with the subroutines of a library. -/
def Agree (library : Library) (x y : Run α) : Prop :=
  ∀ s, library.Renders s.subroutines → x.run s = y.run s

theorem Agree.refl (x : Run α) : Agree library x x :=
  fun _ _ => rfl

/-- What comes next starts with the same subroutines, as long as the first step keeps them. -/
theorem Agree.bind {x y : Run α} {f g : α → Run β} (hx : Agree library x y)
    (hscope : scope.Holds x) (hf : ∀ a, Agree library (f a) (g a)) :
    Agree library (x >>= f) (y >>= g) := by
  intro s hs
  rw [EStateM.run_bind, EStateM.run_bind, ← hx s hs]
  cases hrun : x.run s with
  | error e t => rfl
  | ok a t =>
    refine hf a t ?_
    rw [((hscope s).yields hrun).subroutines]
    exact hs

theorem Agree.bind_left {x : Run α} {f g : α → Run β} (hscope : scope.Holds x)
    (hf : ∀ a, Agree library (f a) (g a)) : Agree library (x >>= f) (x >>= g) :=
  (Agree.refl x).bind hscope hf

/-! ## Loops and calls -/

theorem agree_lending {x y : Run (List String)} (h : Agree library x y) (name : String)
    (value : Value) : Agree library (lending name value x) (lending name value y) := by
  intro s hs
  rw [run_lending, run_lending, h (s.lend name value) hs]

theorem agree_forRounds {expand : Expander} {round : Run (List String)}
    (hround : Agree library (expand lines) round) (hscope : scope.Holds (expand lines))
    (name : String) (left : Nat) (values : List Value) :
    Agree library (forRounds expand name lines left values) (forEach name round left values) := by
  induction values generalizing left with
  | nil =>
    unfold forRounds forEach
    exact Agree.refl _
  | cons value values ih =>
    cases left with
    | zero => exact Agree.refl _
    | succ left =>
      -- the loop variable is never missing after the body, so a round only lends it
      have hone : Agree library (forRound expand name lines value)
          (lending name value round) := by
        rw [forRound_eq_lending hscope]
        exact agree_lending hround name value
      unfold forRounds forEach
      refine hone.bind (scope_of_keeping (keeping_forRound hscope name value)) fun _ => ?_
      refine (ih left).bind ?_ fun _ => Agree.refl _
      exact scope_of_keeping (keeping_forRounds hscope name left values)

theorem agree_whileRounds {expand : Expander} {round : Run (List String)}
    (hround : Agree library (expand lines) round) (hscope : scope.Holds (expand lines))
    (condition : String) (left : Nat) :
    Agree library (whileRounds limits expand condition lines left)
      (whileHolds limits condition round left) := by
  induction left with
  | zero => exact Agree.refl _
  | succ left ih =>
    unfold whileRounds whileHolds
    refine Agree.bind_left (keeping_evaluateCondition condition) fun holds => ?_
    cases holds with
    | false => exact Agree.refl _
    | true =>
      exact hround.bind hscope fun _ =>
        ih.bind (scope_whileRounds hscope condition left) fun _ => Agree.refl _

section Blocks

variable {expand : Expander} {inner : List Item → Run (List String)}

theorem agree_expandCall
    (hagree : ∀ {items lines}, Renders items lines → Agree library (expand lines) (inner items))
    (hscope : ∀ lines, scope.Holds (expand lines)) (line : String) :
    Agree library (expandCall expand line) (evaluateCall library inner line) := by
  intro s hs
  unfold expandCall evaluateCall
  cases callOf? line with
  | none => rfl
  | some parts =>
    obtain ⟨name, text⟩ := parts
    have hname := hs name
    simp only [EStateM.run_bind, EStateM.run_get]
    -- the two tables have a subroutine of this name together or not at all
    revert hname
    cases Dict.get? library name with
    | none =>
      cases Dict.get? s.subroutines name with
      | none => exact fun _ => rfl
      | some lines => exact fun h => nomatch h
    | some items =>
      cases Dict.get? s.subroutines name with
      | none => exact fun h => nomatch h
      | some lines =>
        rintro ⟨hrender⟩
        refine Agree.bind_left (scope_bindArguments 1 _) (fun old => ?_) s hs
        exact (hagree hrender).bind (hscope lines) fun _ => Agree.refl _

/-- What a line and the lines after it that belong to it stand for. -/
theorem agree_cons {around : Surroundings} {base : Option Path} {position taken : Nat}
    {rest : List String} {item : Item}
    (hscope : ∀ lines, scope.Holds (expand lines))
    (hline : Agree library (expandLine around base expand position (Text.trim raw) rest)
      (evaluateItem around.limits library inner item >>= fun commands => pure (commands, taken)))
    (hrest : ∀ position, Agree library (expandLines around base expand position (rest.drop taken))
      (evaluateItems around.limits library inner items)) :
    Agree library (expandLines around base expand position (raw :: rest))
      (evaluateItems around.limits library inner (item :: items)) := by
  intro s hs
  have hrun := hline s hs
  have hkeeps := scope_expandLine hscope around base position (Text.trim raw) rest s
  rw [expandLines, evaluateItems, EStateM.run_bind, EStateM.run_bind, hrun, EStateM.run_bind]
  rw [EStateM.run_bind] at hrun
  cases hitem : (evaluateItem around.limits library inner item).run s with
  | error e t => rfl
  | ok commands t =>
    rw [hitem] at hrun
    have ht : library.Renders t.subroutines := by
      rw [(hkeeps.yields hrun).subroutines]
      exact hs
    simp only [EStateM.run_pure, EStateM.run_bind, hrest (position + 1 + taken) t ht]

theorem agree_sentence
    (hagree : ∀ {items lines}, Renders items lines → Agree library (expand lines) (inner items))
    (hscope : ∀ lines, scope.Holds (expand lines)) (around : Surroundings) (base : Option Path)
    (position : Nat) (s : Sentence) (rest : List String) :
    Agree library (expandLine around base expand position s.text rest)
      (evaluateItem around.limits library inner (.sentence s) >>=
        fun commands => pure (commands, 0)) := by
  obtain ⟨kind, text, hkind⟩ := s
  unfold expandLine evaluateItem
  rw [hkind]
  cases kind with
  | remark => exact Agree.refl _
  | command =>
    dsimp only [SentenceKind.lineKind]
    rw [bind_assoc]
    exact Agree.refl _
  | assignment =>
    dsimp only [SentenceKind.lineKind]
    rw [bind_assoc]
    exact Agree.refl _
  | call =>
    refine (agree_expandCall hagree hscope text).bind ?_ fun _ => Agree.refl _
    exact scope_of_keeping (keeping_expandCall hscope text)

theorem agree_forLoop {body : List Item} (hbody : Renders body lines)
    (hagree : Agree library (expand lines) (inner body)) (hscope : scope.Holds (expand lines))
    {name : Name} {values : Phrase} {close : String} (hvalues : values.said ≠ "")
    (hopen : OpensFor name values raw) (hclose : Marks "endfor" close) (around : Surroundings)
    (base : Option Path) (position : Nat) (rest : List String) :
    Agree library
      (expandLine around base expand position (Text.trim raw) (lines ++ close :: rest))
      (evaluateItem around.limits library inner (.forLoop name values body) >>= fun commands =>
        pure (commands, lines.length + 1)) := by
  unfold expandLine
  rw [classify_opening (.head _) (hopen.startsWith hvalues)]
  unfold expandFor evaluateItem
  rw [forLoopOf?_opens hopen hvalues, loopBody_rendered hbody (.inl rfl) hclose]
  simp only [bind_assoc, pure_bind]
  refine Agree.bind_left (keeping_expandVariables _) fun text => ?_
  refine Agree.bind_left (keeping_loopValues text) fun values => ?_
  refine Agree.bind_left holds_get fun s => ?_
  refine (agree_forRounds hagree hscope name.text _ values).bind ?_ fun _ => Agree.refl _
  exact scope_of_keeping (keeping_forRounds hscope name.text _ values)

theorem agree_whileLoop {body : List Item} (hbody : Renders body lines)
    (hagree : Agree library (expand lines) (inner body)) (hscope : scope.Holds (expand lines))
    {condition : Phrase} {close : String} (hcondition : condition.said ≠ "")
    (hopen : Opens "while" condition raw) (hclose : Marks "endwhile" close)
    (around : Surroundings) (base : Option Path) (position : Nat) (rest : List String) :
    Agree library
      (expandLine around base expand position (Text.trim raw) (lines ++ close :: rest))
      (evaluateItem around.limits library inner (.whileLoop condition body) >>= fun commands =>
        pure (commands, lines.length + 1)) := by
  unfold expandLine
  rw [classify_opening (.tail _ (.head _)) (hopen.startsWith (by decide) hcondition)]
  unfold expandWhile evaluateItem
  rw [argumentOf?_opens (by decide) hopen hcondition, loopBody_rendered hbody (.inr rfl) hclose]
  simp only [bind_assoc, pure_bind]
  refine Agree.bind_left holds_get fun s => ?_
  exact (agree_whileRounds hagree hscope condition.said _).bind
    (scope_whileRounds hscope condition.said _) fun _ => Agree.refl _

theorem agree_conditional {thenPart : List Item} {elsePart : Option (List Item)} {parts : Branches}
    (hthen : Agree library (expand parts.thenLines) (inner thenPart))
    (helse : Agree library (expand parts.elseLines) (inner (elsePart.getD [])))
    (hscope : ∀ lines, scope.Holds (expand lines)) {condition : Phrase}
    (hcondition : condition.said ≠ "") (hopen : Opens "if" condition raw)
    {rest : List String} (hparts : branches? 0 false rest = some parts) (around : Surroundings)
    (base : Option Path) (position : Nat) :
    Agree library (expandLine around base expand position (Text.trim raw) rest)
      (evaluateItem around.limits library inner (.conditional condition thenPart elsePart) >>=
        fun commands => pure (commands, parts.length + 1)) := by
  unfold expandLine
  rw [classify_opening (.tail _ (.tail _ (.head _)))
    (hopen.startsWith (by decide) hcondition)]
  unfold expandIf evaluateItem
  rw [argumentOf?_opens (by decide) hopen hcondition, hparts]
  simp only [bind_assoc]
  refine Agree.bind_left (keeping_evaluateCondition _) fun holds => ?_
  cases holds with
  | true => exact hthen.bind (hscope _) fun _ => Agree.refl _
  | false => exact helse.bind (hscope _) fun _ => Agree.refl _

theorem drop_alternative (thenLines elseLines lines : List String) (middle close : String) :
    (thenLines ++ middle :: (elseLines ++ close :: lines)).drop
      (thenLines.length + 1 + elseLines.length + 1) = lines := by
  have hsplit : thenLines ++ middle :: (elseLines ++ close :: lines) =
      (thenLines ++ middle :: elseLines ++ [close]) ++ lines := by simp
  rw [hsplit, List.drop_left']
  simp only [List.length_append, List.length_cons, List.length_nil]
  omega

/-- The lines of a block stand for its tree, if those of the blocks in it do. -/
theorem agree_expandLines
    (hagree : ∀ {items lines}, Renders items lines → Agree library (expand lines) (inner items))
    (hscope : ∀ lines, scope.Holds (expand lines)) (around : Surroundings) (base : Option Path)
    (h : Renders items lines) (position : Nat) :
    Agree library (expandLines around base expand position lines)
      (evaluateItems around.limits library inner items) := by
  -- along the tree: the levels below are settled by `hagree`, so only the items after are used
  induction h generalizing position with
  | nil =>
    rw [expandLines, evaluateItems]
    exact Agree.refl _
  | @sentence s raw items lines hraw _ ih =>
    have hline := agree_sentence hagree hscope around base position s lines
    rw [← hraw] at hline
    exact agree_cons hscope hline ih
  | forLoop hvalues hopen hbody hclose _ _ ihitems =>
    refine agree_cons hscope (agree_forLoop hbody (hagree hbody) (hscope _) hvalues hopen hclose
      around base position _) fun position => ?_
    simpa using ihitems position
  | whileLoop hcondition hopen hbody hclose _ _ ihitems =>
    refine agree_cons hscope (agree_whileLoop hbody (hagree hbody) (hscope _) hcondition hopen
      hclose around base position _) fun position => ?_
    simpa using ihitems position
  | conditional hcondition hopen hthen hclose _ _ ihitems =>
    refine agree_cons hscope (agree_conditional ?_ ?_ hscope hcondition hopen
      (branches?_conditional hthen hclose _) around base position) fun position => ?_
    · exact hagree hthen
    · -- a second part that is not there is an empty block
      exact hagree .nil
    · simpa using ihitems position
  | alternative hcondition hopen hthen hmiddle helse hclose _ _ _ ihitems =>
    refine agree_cons hscope (agree_conditional ?_ ?_ hscope hcondition hopen
      (branches?_alternative hthen helse hmiddle hclose _) around base position)
      fun position => ?_
    · exact hagree hthen
    · exact hagree helse
    · rw [drop_alternative]
      exact ihitems position

end Blocks

theorem agree_expandBlock (around : Surroundings) (base : Option Path) (levels : Nat)
    (h : Renders items lines) :
    Agree library (expandBlock around base levels lines)
      (evaluateBlock around.limits library levels items) := by
  induction levels generalizing around items lines with
  | zero => exact Agree.refl _
  | succ levels ih =>
    exact agree_expandLines (ih around.inner) (scope_expandBlock around.inner base levels) around
      base h 0

/-- Expanding lines that are written for a tree is evaluating the tree, at any depth and in any
state whose subroutines are written for trees. -/
theorem expandBlock_eq_evaluateBlock (around : Surroundings) (base : Option Path) (depth : Int)
    {items : List Item} {lines : List String} {library : Library} {s : Interpreter}
    (hlines : Renders items lines) (hsubroutines : library.Renders s.subroutines) :
    (expandBlock around base (levelsAt depth) lines).run s =
      (evaluateBlock around.limits library (levelsAt depth) items).run s :=
  agree_expandBlock around base (levelsAt depth) hlines s hsubroutines

/-- Nothing outside. -/
def nowhere : Surroundings where
  files := []
  directory := { root := "/", names := [] }

/-- A subroutine that calls itself. -/
def againItems : List Item :=
  [.sentence ⟨.command, "say two", by decide⟩, .sentence ⟨.call, "call again", by decide⟩]

/-- A conditional with a call in its second part. -/
def choiceItems : List Item :=
  [.conditional ⟨"$i == 1", by decide, by decide⟩
    [.sentence ⟨.command, "say one", by decide⟩]
    (some [.sentence ⟨.call, "call again", by decide⟩])]

/-- A loop over the conditional. -/
def greetingItems : List Item :=
  [.forLoop ⟨"i", by decide, List.all_eq_true.mp (by decide)⟩ ⟨"1..2", by decide, by decide⟩
    choiceItems]

theorem renders_again : Renders againItems ["say two", "call again"] :=
  .sentence (by decide) (.sentence (by decide) .nil)

theorem renders_choice :
    Renders choiceItems ["if $i == 1", "say one", " Else", "\tcall again", "ENDIF"] := by
  show Renders choiceItems
    ("if $i == 1" :: (["say one"] ++ " Else" :: (["\tcall again"] ++ "ENDIF" :: [])))
  exact .alternative (by decide)
    ⟨"if".toList, [], by decide, by decide, [], [], by decide, by decide, by decide⟩
    (.sentence (by decide) .nil)
    ⟨"Else".toList, by decide, [' '], [], by decide, by decide, by decide⟩
    (.sentence (by decide) .nil)
    ⟨"ENDIF".toList, by decide, [], [], by decide, by decide, by decide⟩ .nil

theorem renders_greeting : Renders greetingItems
    ["  FOR i in 1..2 ", "if $i == 1", "say one", " Else", "\tcall again", "ENDIF", "endfor"] :=
  .forLoop (by decide)
    ⟨"FOR".toList, [], [], "in".toList, [], by decide, by decide, by decide, by decide, by decide,
      [' ', ' '], [' '], by decide, by decide, by decide⟩
    renders_choice ⟨"endfor".toList, by decide, [], [], by decide, by decide, by decide⟩ .nil

/-- Calls without end, in a loop: both ways stop at the same depth with the same report. -/
theorem greeting_expands_as_evaluated :
    let lines :=
      ["  FOR i in 1..2 ", "if $i == 1", "say one", " Else", "\tcall again", "ENDIF", "endfor"]
    let s : Interpreter := { subroutines := [("again", ["say two", "call again"])] }
    let library : Library := [("again", againItems)]
    Renders greetingItems lines ∧ library.Renders s.subroutines ∧
      (expandBlock nowhere none (levelsAt 0) lines).run s =
        (evaluateBlock nowhere.limits library (levelsAt 0) greetingItems).run s := by
  intro lines s library
  have hlibrary : library.Renders s.subroutines := by
    intro name
    show Option.Rel Renders (Dict.get? [("again", againItems)] name)
      (Dict.get? [("again", ["say two", "call again"])] name)
    rw [Dict.get?_cons, Dict.get?_cons]
    split
    · exact .some renders_again
    · exact .none
  exact ⟨renders_greeting, hlibrary,
    expandBlock_eq_evaluateBlock nowhere none 0 renders_greeting hlibrary⟩

/-- The commands that a run yields. -/
def yielded (r : EStateM.Result ScriptError Interpreter α) : Option α :=
  match r with
  | .ok a _ => some a
  | .error _ _ => none

/-- Values of nothing but blanks are lost when their line is trimmed: what is left of the line opens
no loop, and what should have been its body, for no value at all, is expanded. -/
theorem blank_values_open_no_loop :
    ∃ (name : Name) (values : Phrase) (body : List Item),
      OpensFor name values "for i in  " ∧ Renders body ["say hi"] ∧ Marks "endfor" "endfor" ∧
      (expandBlock nowhere none (levelsAt 0) ["for i in  ", "say hi", "endfor"]).run {} ≠
        (evaluateBlock nowhere.limits [] (levelsAt 0) [.forLoop name values body]).run {} := by
  refine ⟨⟨"i", by decide, List.all_eq_true.mp (by decide)⟩, ⟨" ", by decide, by decide⟩,
    [.sentence ⟨.command, "say hi", by decide⟩], ?_, ?_, ?_, fun hsame => ?_⟩
  · exact ⟨"for".toList, [], [], "in".toList, [], by decide, by decide, by decide, by decide,
      by decide, [], [], by decide, by decide, by decide⟩
  · exact .sentence (by decide) .nil
  · exact ⟨"endfor".toList, by decide, [], [], by decide, by decide, by decide⟩
  · have hlines : yielded ((expandBlock nowhere none (levelsAt 0)
        ["for i in  ", "say hi", "endfor"]).run {}) = some ["say hi"] := by decide +kernel
    rw [hsame] at hlines
    exact absurd hlines (by decide)

end RobotConsole.Script
