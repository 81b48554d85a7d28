import RobotConsole.Proofs.Script.Quotation

/-!
# Comparing texts

Between texts the six signs of comparison mean the order of their code points, lexicographically
(`Text.Precedes`). A condition reaches that order only after it has been cut at a sign, its sides
trimmed, expanded, calculated and perhaps read as numbers. The signs are looked for as parts of the
condition, one after the other, and some are parts of others; what counts is which of them are parts
of the sign that is there (`Text.cutAt?_between`). Sides that are no arithmetic and hold no point
come through all of it as they are (`texts_compared_by_code_points`).
-/

namespace RobotConsole.Text

/-! ## The order of texts -/

/-- The code points of a text. -/
def codePoints (s : String) : List Nat :=
  s.toList.map Char.toNat

/-- The order of texts: the first code point in which they differ decides, and a text comes before
its continuations. -/
def Precedes (s t : String) : Prop :=
  List.Lex (· < ·) (codePoints s) (codePoints t)

theorem lex_map_toNat_iff (cs ds : List Char) :
    List.Lex (· < ·) (cs.map Char.toNat) (ds.map Char.toNat) ↔ List.Lex (· < ·) cs ds := by
  induction cs generalizing ds with
  | nil => cases ds <;> simp
  | cons c cs ih =>
    cases ds with
    | nil => simp
    | cons d ds =>
      have hlt : c.toNat < d.toNat ↔ c < d := Iff.rfl
      have heq : c.toNat = d.toNat ↔ c = d := Char.toNat_inj
      rw [List.map_cons, List.map_cons, List.cons_lex_cons_iff, List.cons_lex_cons_iff, ih, hlt,
        heq]

theorem lt_iff_precedes (s t : String) : s < t ↔ Precedes s t :=
  String.lt_iff.trans (lex_map_toNat_iff s.toList t.toList).symm

theorem le_iff_precedes_or_eq (s t : String) : s ≤ t ↔ Precedes s t ∨ s = t := by
  rw [← lt_iff_precedes]
  constructor
  · intro hle
    by_cases hge : t ≤ s
    · exact .inr (String.le_antisymm hle hge)
    · exact .inl (String.not_le.mp hge)
  · rintro (hlt | rfl)
    · exact String.not_lt.mp (String.lt_asymm hlt)
    · exact String.le_refl s

/-! ## Signs between texts -/

section Signs

variable {mark back : List Char} {special : Char → Prop}

/-- A mark of special characters does not reach into a text that has none. -/
theorem isPrefixOf_append_iff (sign : List Char) (hmark : ∀ c ∈ mark, special c)
    (hback : ∀ c ∈ back, ¬ special c) :
    mark.isPrefixOf (sign ++ back) = mark.isPrefixOf sign := by
  induction mark generalizing sign with
  | nil => simp
  | cons m mark ih =>
    have hm : special m := hmark m List.mem_cons_self
    cases sign with
    | nil =>
      cases back with
      | nil => rfl
      | cons b back =>
        have hne : m ≠ b := fun hmb => hback b List.mem_cons_self (hmb ▸ hm)
        simp [List.isPrefixOf, hne]
    | cons d sign =>
      have hrest := ih sign fun c hc => hmark c (List.mem_cons_of_mem m hc)
      simp only [List.cons_append, List.isPrefixOf, hrest]

/-- A mark of special characters is found in a sign between two texts that have none just where it
is found in the sign. -/
theorem cutAt?_between (sign : List Char) {front : List Char} (hne : mark ≠ [])
    (hmark : ∀ c ∈ mark, special c) (hfront : ∀ c ∈ front, ¬ special c)
    (hback : ∀ c ∈ back, ¬ special c) :
    cutAt? mark (front ++ (sign ++ back)) =
      (cutAt? mark sign).map fun cut => (front ++ cut.1, cut.2 ++ back) := by
  obtain ⟨m, rest, rfl⟩ := List.exists_cons_of_ne_nil hne
  have hm : special m := hmark m List.mem_cons_self
  induction front with
  | cons d front ih =>
    have hmd : m ≠ d := fun hmd => hfront d List.mem_cons_self (hmd ▸ hm)
    have hstart : (m :: rest).isPrefixOf (d :: (front ++ (sign ++ back))) = false := by
      simp [List.isPrefixOf, hmd]
    rw [List.cons_append, cutAt?, hstart, ih fun c hc => hfront c (List.mem_cons_of_mem d hc)]
    cases cutAt? (m :: rest) sign <;> rfl
  | nil =>
    -- with the front gone, the cut goes along the sign
    induction sign with
    | nil => exact cutAt?_of_notMem List.mem_cons_self fun hmem => hback m hmem hm
    | cons d sign ih =>
      have hstart := isPrefixOf_append_iff (d :: sign) hmark hback
      rw [List.nil_append, List.cons_append] at *
      rw [cutAt?, cutAt?, hstart, ih]
      cases hfound : (m :: rest).isPrefixOf (d :: sign) with
      | true =>
        have hlength := (List.isPrefixOf_iff_prefix.mp hfound).length_le
        simp only [if_true, Option.map_some, List.nil_append]
        rw [← List.cons_append, List.drop_append_of_le_length hlength]
      | false => cases cutAt? (m :: rest) sign <;> rfl

end Signs

end RobotConsole.Text

namespace RobotConsole.Script

open Arithmetic (isCalculable)
open Text (AllBlank Inked Precedes)

/-! ## Comparisons of texts -/

/-- What a comparison says of two texts. -/
def Comparison.Relates : Comparison → String → String → Prop
  | .eq, s, t => s = t
  | .ne, s, t => s ≠ t
  | .lt, s, t => Precedes s t
  | .gt, s, t => Precedes t s
  | .le, s, t => Precedes s t ∨ s = t
  | .ge, s, t => Precedes t s ∨ s = t

theorem holdsTexts_iff_relates (c : Comparison) (s t : String) :
    c.holdsTexts s t = true ↔ c.Relates s t := by
  cases c with
  | eq => exact beq_iff_eq
  | ne => exact bne_iff_ne
  | lt => exact decide_eq_true_iff.trans (Text.lt_iff_precedes s t)
  | gt => exact decide_eq_true_iff.trans (Text.lt_iff_precedes t s)
  | le => exact decide_eq_true_iff.trans (Text.le_iff_precedes_or_eq s t)
  | ge =>
    refine decide_eq_true_iff.trans ((Text.le_iff_precedes_or_eq t s).trans ?_)
    exact or_congr_right eq_comm

theorem holdsTexts_ge (s t : String) :
    Comparison.ge.holdsTexts s t = !Comparison.lt.holdsTexts s t := by
  simp only [Comparison.holdsTexts, ← decide_not, String.not_lt]

theorem holdsTexts_le (s t : String) :
    Comparison.le.holdsTexts s t = !Comparison.gt.holdsTexts s t := by
  simp only [Comparison.holdsTexts, ← decide_not, String.not_lt]

theorem countP_holdsTexts (s t : String) :
    [Comparison.lt, .eq, .gt].countP (fun c => c.holdsTexts s t) = 1 := by
  by_cases hlt : s < t
  · have hne : s ≠ t := fun heq => String.lt_irrefl t (heq ▸ hlt)
    simp [Comparison.holdsTexts, hlt, hne, String.lt_asymm hlt]
  · by_cases hgt : t < s
    · have hne : s ≠ t := fun heq => hlt (heq ▸ hgt)
      simp [Comparison.holdsTexts, hlt, hne, hgt]
    · have heq : s = t := String.le_antisymm (String.not_lt.mp hgt) (String.not_lt.mp hlt)
      simp [Comparison.holdsTexts, heq]

/-- Whether signs of comparison are made of a character. -/
def isSignChar (c : Char) : Bool :=
  c == '=' || c == '!' || c == '<' || c == '>'

/-- A text that stands for itself on a side of a comparison: it has no blanks at its ends, refers
to nothing, holds no point and nothing of a sign, and has a character that arithmetic is not
written with. -/
structure SelfStanding (v : String) : Prop where
  trimmed : Text.trim v = v
  clear : '$' ∉ v.toList
  noPoint : '.' ∉ v.toList
  noSign : ∀ c ∈ v.toList, ¬ isSignChar c = true
  foreign : ∃ c ∈ v.toList, isCalculable c = false

/-- A condition that compares two texts, with a space on each side of the sign. -/
def comparing (l : String) (c : Comparison) (r : String) : String :=
  l ++ " " ++ c.sign ++ " " ++ r

theorem toList_comparing (l : String) (c : Comparison) (r : String) :
    (comparing l c r).toList = (l.toList ++ [' ']) ++ (c.sign.toList ++ (' ' :: r.toList)) := by
  simp [comparing]

theorem Comparison.isSignChar_of_mem (c : Comparison) :
    ∀ d ∈ c.sign.toList, isSignChar d = true :=
  List.all_eq_true.mp (by cases c <;> decide)

theorem Comparison.sign_ne_nil (c : Comparison) : c.sign.toList ≠ [] := by
  cases c <;> decide

section Sides

variable {l r v : String}

theorem SelfStanding.inked (h : SelfStanding v) : Inked v.toList := by
  have htrimmed : Text.trimChars v.toList = v.toList := by
    simpa only [Text.trim, String.toList_ofList] using congrArg String.toList h.trimmed
  obtain ⟨c, hc, _⟩ := h.foreign
  have hne : Text.trimChars v.toList ≠ [] := htrimmed.symm ▸ List.ne_nil_of_mem hc
  exact htrimmed ▸ Text.inked_trimChars hne

/-- Blanks around a text that stands for itself drop out, and it is no arithmetic. -/
theorem SelfStanding.run_evaluateExpression (limits : Limits) (h : SelfStanding v)
    {before after : List Char} (hbefore : AllBlank before) (hafter : AllBlank after)
    (s : Interpreter) :
    (evaluateExpression limits (Text.trim (String.ofList (before ++ v.toList ++ after)))).run s =
      .ok (.text v) s := by
  obtain ⟨c, hmem, hc⟩ := h.foreign
  have hvalue : Arithmetic.evaluate? limits.nesting v = none :=
    Arithmetic.evaluate?_eq_none_of_foreign hmem hc
  have htrim : Text.trim (String.ofList (before ++ v.toList ++ after)) = v := by
    rw [Text.trim, String.toList_ofList, Text.trimChars_inked hbefore h.inked hafter,
      String.ofList_toList]
  rw [htrim]
  exact run_evaluateExpression_ok.mpr
    ⟨⟨v, expandText_of_no_dollar s.bindings h.clear, by rw [hvalue]; rfl⟩, rfl⟩

/-- A condition is cut at its own sign, although others are looked for first. -/
theorem splitComparison?_comparing (hl : SelfStanding l) (hr : SelfStanding r) (c : Comparison) :
    splitComparison? (comparing l c r) =
      some (c, String.ofList (l.toList ++ [' ']), String.ofList (' ' :: r.toList)) := by
  have hspace : ¬ isSignChar ' ' = true := by decide
  have hfront : ∀ d ∈ l.toList ++ [' '], ¬ isSignChar d = true :=
    List.forall_mem_append.mpr ⟨hl.noSign, List.forall_mem_singleton.mpr hspace⟩
  have hback : ∀ d ∈ ' ' :: r.toList, ¬ isSignChar d = true :=
    List.forall_mem_cons.mpr ⟨hspace, hr.noSign⟩
  have hcut (mark : Comparison) :=
    Text.cutAt?_between c.sign.toList mark.sign_ne_nil mark.isSignChar_of_mem hfront hback
  unfold splitComparison? Text.splitOnce?
  rw [toList_comparing]
  simp only [hcut]
  generalize l.toList ++ [' '] = front
  generalize ' ' :: r.toList = back
  -- of the sign that is there, the signs looked for before it are no part
  cases c <;> simp [Comparison.all, Comparison.sign, Text.cutAt?]

/-- A condition compares texts that stand for themselves as they are. -/
theorem run_evaluateCondition_comparing (limits : Limits) (hl : SelfStanding l)
    (hr : SelfStanding r) (c : Comparison) (s : Interpreter) :
    (evaluateCondition limits (comparing l c r)).run s = .ok (c.holdsTexts l r) s := by
  have hclear : '$' ∉ (comparing l c r).toList := by
    have hsign : '$' ∉ c.sign.toList := by cases c <;> decide
    simp [toList_comparing, hl.clear, hr.clear, hsign]
  have hexpand := run_expandVariables (comparing l c r) s
  rw [expandText_of_no_dollar _ hclear] at hexpand
  have hnil : AllBlank [] := fun _ hmem => absurd hmem List.not_mem_nil
  have hspace : AllBlank [' '] := by decide
  have hleft := hl.run_evaluateExpression limits hnil hspace s
  have hright := hr.run_evaluateExpression limits hspace hnil s
  rw [List.nil_append] at hleft
  rw [List.append_nil] at hright
  unfold evaluateCondition
  simp only [EStateM.run_bind, hexpand, Outcome.still, splitComparison?_comparing hl hr, hleft]
  simp only [List.cons_append, List.nil_append] at hright
  simp only [hright, run_sides_texts hl.noPoint hr.noPoint]
  rfl

/-- Conditions compare texts by their code points, lexicographically, with any of the six signs and
whatever the variables hold. So they answer as one expects of an order: `==` and `!=`, `<` and `>=`,
`>` and `<=` are opposites, and exactly one of `<`, `==` and `>` holds. -/
theorem texts_compared_by_code_points (limits : Limits) (hl : SelfStanding l)
    (hr : SelfStanding r) (s : Interpreter) :
    ∃ answer : Comparison → Bool,
      (∀ c, (evaluateCondition limits (comparing l c r)).run s = .ok (answer c) s ∧
        (answer c = true ↔ c.Relates l r)) ∧
      answer .ne = !answer .eq ∧ answer .ge = !answer .lt ∧ answer .le = !answer .gt ∧
      [Comparison.lt, .eq, .gt].countP answer = 1 := by
  refine ⟨fun c => c.holdsTexts l r, fun c => ⟨run_evaluateCondition_comparing limits hl hr c s,
    holdsTexts_iff_relates c l r⟩, ?_⟩
  exact ⟨rfl, holdsTexts_ge l r, holdsTexts_le l r, countP_holdsTexts l r⟩

end Sides

/-- Words with a capital in one of them and an accent in the other: it is code points that count. -/
theorem capital_before_accent :
    SelfStanding "Zoé 2" ∧ SelfStanding "élan" ∧ Precedes "Zoé 2" "élan" ∧
      (evaluateCondition {} "Zoé 2 >= élan").run {} = .ok false {} := by
  have hl : SelfStanding "Zoé 2" :=
    ⟨by decide, by decide, by decide, List.any_eq_false.mp (by decide), 'Z', by decide, by decide⟩
  have hr : SelfStanding "élan" :=
    ⟨by decide, by decide, by decide, List.any_eq_false.mp (by decide), 'é', by decide, by decide⟩
  have hfirst : Precedes "Zoé 2" "élan" := .rel (by decide)
  obtain ⟨answer, hanswer, -, hge, -⟩ := texts_compared_by_code_points {} hl hr {}
  have hlt : answer .lt = true := (hanswer .lt).2.mpr hfirst
  refine ⟨hl, hr, hfirst, ?_⟩
  have hrun := (hanswer .ge).1
  rwa [hge, hlt] at hrun

end RobotConsole.Script
