import RobotConsole.Proofs.Script.Assignment

/-!
# Quotes in conditions

An assignment takes the quotes off its value, but a condition leaves them on its sides: they are
compared as part of the text. So a variable that was set to a text in quotes differs from the text
in quotes, whichever quotes they are, and is the same as the text without them
(`equal_iff_unquoted`).
-/

namespace RobotConsole.Text

/-! ## Cutting at a comparison sign -/

theorem cutAt?_of_notMem {mark front : List Char} {c : Char} (hc : c ∈ mark) (h : c ∉ front) :
    cutAt? mark front = none := by
  induction front with
  | nil => simp [cutAt?, List.ne_nil_of_mem hc]
  | cons d front ih =>
    have hmark : mark.isPrefixOf (d :: front) = false := by
      rw [Bool.eq_false_iff]
      intro hmark
      exact h ((List.isPrefixOf_iff_prefix.mp hmark).subset hc)
    rw [cutAt?, hmark, ih (List.not_mem_of_not_mem_cons h)]
    rfl

/-- A sign that ends in an equals sign is found behind a text without equals signs. -/
theorem cutAt?_sign {front : List Char} (h : '=' ∉ front) (a : Char) (back : List Char) :
    cutAt? [a, '='] (front ++ a :: '=' :: back) = some (front, back) := by
  induction front with
  | nil => simp [cutAt?]
  | cons d front ih =>
    have hd : '=' ≠ d := List.ne_of_not_mem_cons h
    have hfront : '=' ∉ front := List.not_mem_of_not_mem_cons h
    -- the sign cannot stand here: its equals sign would fall on the front, or on its own start
    have hmark : [a, '='].isPrefixOf (d :: (front ++ a :: '=' :: back)) = false := by
      cases front with
      | nil =>
        by_cases ha : a = '='
        · subst ha
          simp [List.isPrefixOf, hd]
        · simp [List.isPrefixOf, Ne.symm ha]
      | cons e front =>
        have he : '=' ≠ e := fun he => hfront (he ▸ List.mem_cons_self)
        simp [List.isPrefixOf, he]
    rw [List.cons_append, cutAt?, hmark, ih hfront]
    rfl

theorem cutAt?_single {front back : List Char} (hfront : '=' ∉ front) (hback : '=' ∉ back) :
    cutAt? ['=', '='] (front ++ '=' :: back) = none := by
  induction front with
  | nil =>
    have hmark : ['=', '='].isPrefixOf ('=' :: back) = false := by
      cases back with
      | nil => rfl
      | cons e back =>
        have he : '=' ≠ e := fun he => hback (he ▸ List.mem_cons_self)
        simp [List.isPrefixOf, he]
    rw [List.nil_append, cutAt?, hmark, cutAt?_of_notMem List.mem_cons_self hback]
    rfl
  | cons d front ih =>
    have hd : '=' ≠ d := List.ne_of_not_mem_cons hfront
    have hmark : ['=', '='].isPrefixOf (d :: (front ++ '=' :: back)) = false := by
      simp [List.isPrefixOf, hd]
    rw [List.cons_append, cutAt?, hmark, ih (List.not_mem_of_not_mem_cons hfront)]
    rfl

end RobotConsole.Text

namespace RobotConsole.Script

open Arithmetic (Value isCalculable)
open Text (AllBlank Inked)

/-! ## Comparing texts -/

/-- A text that can stand on a side of a comparison and is compared as it is. -/
structure Comparable (v : String) : Prop extends Verbatim v where
  inked : Inked v.toList
  noEquals : '=' ∉ v.toList
  noPoint : '.' ∉ v.toList

/-- The ways to write a text on a side of a comparison. -/
inductive Spelling where
  | bare
  | quoted (q : Quote)

/-- A text as it is spelled. -/
def Spelling.chars (text : List Char) : Spelling → List Char
  | .bare => text
  | .quoted q => q.around text

/-- Whether a text is spelled without quotes. -/
def Spelling.isBare : Spelling → Bool
  | .bare => true
  | .quoted _ => false

/-- A comparison of a reference with a text, with blanks around the sign. -/
def comparisonOf (piece : Piece) (before : List Char) (c : Comparison) (after text : List Char) :
    String :=
  String.ofList (piece.chars ++ (before ++ (c.sign.toList ++ (after ++ text))))

theorem Comparable.spelled {v : String} (h : Comparable v) (spelling : Spelling) :
    Comparable (String.ofList (spelling.chars v.toList)) := by
  cases spelling with
  | bare => rwa [Spelling.chars, String.ofList_toList]
  | quoted q =>
    have hsign : q.sign ≠ '\n' ∧ q.sign ≠ '$' ∧ q.sign ≠ '=' ∧ q.sign ≠ '.' ∧
        isCalculable q.sign = false := by
      cases q <;> decide
    obtain ⟨hbreak, hdollar, hequals, hpoint, hcalc⟩ := hsign
    refine ⟨⟨?_, ?_, .inr ⟨q.sign, ?_, hcalc⟩⟩, ?_, ?_, ?_⟩ <;>
      rw [String.toList_ofList, Spelling.chars]
    · simp [Quote.around, h.oneLine, hbreak.symm]
    · simp [Quote.around, h.clear, hdollar.symm]
    · exact List.mem_cons_self
    · exact q.inked_around _
    · simp [Quote.around, h.noEquals, hequals.symm]
    · simp [Quote.around, h.noPoint, hpoint.symm]

theorem notMem_of_allBlank {gap : List Char} (hgap : AllBlank gap) {c : Char}
    (hc : Text.isBlank c = false) : c ∉ gap := fun hmem => by
  rw [hgap c hmem] at hc
  cases hc

theorem splitComparison?_texts {c : Comparison} (hc : c = .eq ∨ c = .ne) {left right : List Char}
    (hleft : '=' ∉ left) (hright : '=' ∉ right) :
    splitComparison? (String.ofList (left ++ (c.sign.toList ++ right))) =
      some (c, String.ofList left, String.ofList right) := by
  unfold splitComparison? Comparison.all Text.splitOnce?
  rw [String.toList_ofList]
  rcases hc with rfl | rfl
  · have hcut : Text.cutAt? "==".toList (left ++ ("==".toList ++ right)) = some (left, right) :=
      Text.cutAt?_sign hleft '=' right
    simp only [List.findSome?_cons, Comparison.sign, hcut, Option.map_some]
  · -- the sign for equal is looked for first, and is not found
    have hnone : Text.cutAt? "==".toList (left ++ ("!=".toList ++ right)) = none := by
      have hfront : '=' ∉ left ++ ['!'] := by simp [hleft]
      have hcut := Text.cutAt?_single hfront hright
      rwa [List.append_assoc] at hcut
    have hcut : Text.cutAt? "!=".toList (left ++ ("!=".toList ++ right)) = some (left, right) :=
      Text.cutAt?_sign hleft '!' right
    simp only [List.findSome?_cons, Comparison.sign, hnone, hcut, Option.map_some, Option.map_none]

theorem run_sides_texts {v w : String} (hv : '.' ∉ v.toList) (hw : '.' ∉ w.toList)
    (s : Interpreter) : (sides (.text v) (.text w)).run s = .ok (.text v, .text w) s := by
  have hside {u : String} (hu : '.' ∉ u.toList) : sideOf? (.text u) u = some (.text u) := by
    simp [sideOf?, hu]
  have hwritten (u : String) : (valueText (.text u)).run s = .ok u s := rfl
  unfold sides
  simp only [EStateM.run_bind, hwritten, hside hv, hside hw]
  rfl

/-- The expression of a text that is compared as it is, with blanks around it. -/
theorem run_evaluateExpression_text (limits : Limits) {v : String} (hv : Comparable v)
    {before after : List Char} (hbefore : AllBlank before) (hafter : AllBlank after)
    (s : Interpreter) :
    (evaluateExpression limits (Text.trim (String.ofList (before ++ v.toList ++ after)))).run s =
      .ok (.text v) s := by
  have htrim : Text.trim (String.ofList (before ++ v.toList ++ after)) = v := by
    unfold Text.trim
    rw [String.toList_ofList, Text.trimChars_inked hbefore hv.inked hafter, String.ofList_toList]
  rw [htrim]
  exact run_evaluateExpression_ok.mpr ⟨hv.evaluates s.bindings, rfl⟩

section Conditions

variable {s : Interpreter} {name : Name} {piece : Piece} {v w : String} {before after : List Char}

/-- A reference in a comparison is replaced by what its variable holds. -/
theorem expandText_comparisonOf (c : Comparison)
    (hpiece : piece = .plain name ∨ piece = .braced name)
    (hget : Dict.get? s.bindings name.text = some (.text v)) (hv : Comparable v)
    (hw : Comparable w) (hbefore : AllBlank before) (hafter : AllBlank after) :
    expandText s.bindings (comparisonOf piece before c after w.toList) =
      .ok (String.ofList (v.toList ++ (before ++ (c.sign.toList ++ (after ++ w.toList))))) := by
  have hdollar {gap : List Char} (hgap : AllBlank gap) : '$' ∉ gap :=
    notMem_of_allBlank hgap (by decide)
  have hsign : '$' ∉ c.sign.toList ∧ EndsName (c.sign.toList ++ (after ++ w.toList)) := by
    cases c <;> exact ⟨by decide, fun _ hd => Option.some.inj hd ▸ by decide⟩
  refine expandText_reference hpiece hget hv.clear ?_ ?_
  · simp [hdollar hbefore, hdollar hafter, hsign.1, hw.clear]
  · cases before with
    | nil => exact hsign.2
    | cons d before =>
      rintro e ⟨⟩
      exact not_isWordChar_of_blank (hbefore d List.mem_cons_self)

/-- Two texts are compared as they are, when it is asked whether they are the same. -/
theorem run_evaluateCondition_texts (limits : Limits) {c : Comparison} (hc : c = .eq ∨ c = .ne)
    (hpiece : piece = .plain name ∨ piece = .braced name)
    (hget : Dict.get? s.bindings name.text = some (.text v)) (hv : Comparable v)
    (hw : Comparable w) (hbefore : AllBlank before) (hafter : AllBlank after) :
    (evaluateCondition limits (comparisonOf piece before c after w.toList)).run s =
      .ok (c.holdsTexts v w) s := by
  have hequals {gap : List Char} (hgap : AllBlank gap) : '=' ∉ gap :=
    notMem_of_allBlank hgap (by decide)
  have hleft : '=' ∉ v.toList ++ before := by simp [hv.noEquals, hequals hbefore]
  have hright : '=' ∉ after ++ w.toList := by simp [hw.noEquals, hequals hafter]
  have hexpand := expandText_comparisonOf c hpiece hget hv hw hbefore hafter
  have hrun := run_expandVariables (comparisonOf piece before c after w.toList) s
  have hnil : AllBlank [] := fun _ hc => absurd hc List.not_mem_nil
  have hl := run_evaluateExpression_text limits hv hnil hbefore s
  have hr := run_evaluateExpression_text limits hw hafter hnil s
  rw [List.nil_append] at hl
  rw [List.append_nil] at hr
  rw [hexpand, ← List.append_assoc] at hrun
  unfold evaluateCondition
  simp only [EStateM.run_bind, hrun, Outcome.still, splitComparison?_texts hc hleft hright, hl, hr,
    run_sides_texts hv.noPoint hw.noPoint]
  rfl

/-- A text is the same as its spelling exactly if there are no quotes in the spelling. -/
theorem beq_spelled (v : String) (spelling : Spelling) :
    (v == String.ofList (spelling.chars v.toList)) = spelling.isBare := by
  cases spelling with
  | bare =>
    rw [Spelling.chars, String.ofList_toList]
    exact beq_self_eq_true v
  | quoted q =>
    refine beq_eq_false_iff_ne.mpr fun hsame => ?_
    have hlength := congrArg (fun u => u.toList.length) hsame
    simp only [String.toList_ofList, Spelling.chars, Quote.around, List.length_cons,
      List.length_append, List.length_nil] at hlength
    omega

/-- Quotes do not mean the same in assignments and in conditions. Set a variable to a text in
quotes, and compare it with that text: it is the same exactly if the text is written without
quotes there. -/
theorem equal_iff_unquoted (limits : Limits) {q : Quote} {line : String}
    (hline : Sets name (q.around v.toList) line) (hv : Comparable v) (s : Interpreter) :
    ∃ t, (assign limits line).run s = .ok () t ∧
      ∀ (limits' : Limits) (piece : Piece) (before after : List Char) (spelling : Spelling),
        piece = .plain name ∨ piece = .braced name → AllBlank before → AllBlank after →
          (evaluateCondition limits' (comparisonOf piece before .eq after
            (spelling.chars v.toList))).run t = .ok spelling.isBare t ∧
          (evaluateCondition limits' (comparisonOf piece before .ne after
            (spelling.chars v.toList))).run t = .ok (!spelling.isBare) t := by
  obtain ⟨t, hrun, hbindings⟩ := run_assign_quoted (s := s) hline hv.toVerbatim
  refine ⟨t, hrun, fun limits' piece before after spelling hpiece hbefore hafter => ?_⟩
  have hget : Dict.get? t.bindings name.text = some (.text v) := by
    rw [hbindings, Dict.get?_put, if_pos rfl]
  have hcondition {c : Comparison} (hc : c = .eq ∨ c = .ne) :=
    run_evaluateCondition_texts limits' hc hpiece hget hv (hv.spelled spelling) hbefore hafter
  simp only [String.toList_ofList] at hcondition
  have heq := hcondition (.inl rfl)
  have hne := hcondition (.inr rfl)
  rw [Comparison.holdsTexts, beq_spelled] at heq
  rw [Comparison.holdsTexts, bne, beq_spelled] at hne
  exact ⟨heq, hne⟩

end Conditions

/-- After a greeting has been set in quotes, comparing with it in quotes says that it differs. -/
theorem greeting_differs :
    Sets nameA (Quote.double.around "hello".toList) "set a \"hello\"" ∧ Comparable "hello" ∧
      ∃ t, (assign {} "set a \"hello\"").run {} = .ok () t ∧
        (evaluateCondition {} "$a == \"hello\"").run t = .ok false t ∧
        (evaluateCondition {} "$a != \"hello\"").run t = .ok true t ∧
        (evaluateCondition {} "$a == hello").run t = .ok true t := by
  have hline : Sets nameA (Quote.double.around "hello".toList) "set a \"hello\"" :=
    ⟨"set".toList, [], [' '], by decide, by decide, .blanks (by decide) (by decide), by decide⟩
  have hv : Comparable "hello" :=
    ⟨⟨by decide, by decide, .inr ⟨'h', by decide, by decide⟩⟩,
      ⟨⟨'h', _, rfl, by decide⟩, ⟨"hell".toList, 'o', rfl, by decide⟩⟩, by decide, by decide⟩
  obtain ⟨t, hrun, hcondition⟩ := equal_iff_unquoted {} hline hv {}
  have hquoted := hcondition {} (.plain nameA) [' '] [' '] (.quoted .double) (.inl rfl)
    (by decide) (by decide)
  have hbare := hcondition {} (.plain nameA) [' '] [' '] .bare (.inl rfl) (by decide) (by decide)
  exact ⟨hline, hv, t, hrun, hquoted.1, hquoted.2, hbare.1⟩

end RobotConsole.Script
