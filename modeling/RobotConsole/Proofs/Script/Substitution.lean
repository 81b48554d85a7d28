import RobotConsole.Proofs.Arithmetic.Formula
import RobotConsole.Proofs.Script.Assignment

/-!
# Formulas with references

A formula in a script can refer to variables. Their values are put in as texts, and only then is the
formula calculated, so a negative value brings a sign of its own into the text. All the same, the
result is what the formula stands for when every reference is its value (`denoted`): the text that
comes out writes that formula down (`expandText_formula`), and such texts are read as they are
meant. What is left are the limits of the evaluator. Within them the result is stored, and where a
divisor is zero the text is (`assign_stores_denoted`); a formula beyond them is not calculated
(`long_sum_uncalculated`).
-/

namespace RobotConsole.Script

open Arithmetic (Chunk Formula Lexeme Value Writes intChars isWritable textOf)
open Text (AllBlank Inked)

/-! ## Operands -/

/-- An operand of a formula in a script. -/
inductive Operand where
  | literal (n : Nat)
  | plain (name : Name)
  | braced (name : Name)

namespace Operand

/-- An operand as a piece of the line. -/
def piece : Operand → Piece
  | .literal n => .literal (Nat.toDigits 10 n) fun hmem =>
    absurd (Arithmetic.isDigit_of_mem_digits hmem) (by decide)
  | .plain name => .plain name
  | .braced name => .braced name

/-- An operand as it is written. -/
def chars (a : Operand) : List Char :=
  a.piece.chars

/-- What an operand stands for. -/
def value (bindings : Dict Value) : Operand → Int
  | .literal n => n
  | .plain name | .braced name =>
    match Dict.get? bindings name.text with
    | some (.int n) => n
    | _ => 0

/-- A variable that is referred to holds a whole number that can be written. -/
def Held (bindings : Dict Value) : Operand → Prop
  | .literal _ => True
  | .plain name | .braced name =>
    ∃ n, Dict.get? bindings name.text = some (.int n) ∧ isWritable n = true

variable {bindings : Dict Value} {a : Operand}

theorem referenceText_int {name : Name} {n : Int}
    (hget : Dict.get? bindings name.text = some (.int n)) (hn : isWritable n = true) :
    referenceText bindings name.text.toList = .ok (intChars n) := by
  have hshort : ¬ Decimal.maxIntDigits < (Nat.toDigits 10 n.natAbs).length := by
    simpa [isWritable] using hn
  have htext : Value.text? (.int n) = some (String.ofList (intChars n)) := if_neg hshort
  unfold referenceText
  rw [String.ofList_toList, hget]
  simp [htext]

theorem meaning_piece (h : a.Held bindings) :
    a.piece.meaning bindings = .ok (intChars (a.value bindings)) := by
  cases a with
  | literal n => rfl
  | plain name | braced name =>
    obtain ⟨n, hget, hn⟩ := h
    have hvalue : intChars n = intChars (Operand.value bindings (.plain name)) := by
      rw [Operand.value, hget]
    exact (referenceText_int hget hn).trans (congrArg Except.ok hvalue)

theorem mem_chars {c : Char} (h : c ∈ a.chars) :
    Text.isWordChar c = true ∨ c ∈ ['$', '{', '}'] := by
  cases a with
  | literal n => exact .inl (isWordChar_of_isDigit (Arithmetic.isDigit_of_mem_digits h))
  | plain name =>
    rcases List.mem_cons.mp h with rfl | h
    · exact .inr (by decide)
    · exact .inl (name.wordChars c h)
  | braced name =>
    rcases List.mem_cons.mp h with rfl | h
    · exact .inr (by decide)
    · rcases List.mem_cons.mp h with rfl | h
      · exact .inr (by decide)
      · rcases List.mem_append.mp h with h | h
        · exact .inl (name.wordChars c h)
        · cases List.mem_singleton.mp h
          exact .inr (by decide)

theorem inked_chars (a : Operand) : Inked a.chars := by
  refine Text.inked_of_forall ?_ fun c hc => ?_
  · cases a with
    | literal n => exact Nat.toDigits_ne_nil
    | plain name => exact List.cons_ne_nil _ _
    | braced name => exact List.cons_ne_nil _ _
  · rcases mem_chars hc with hword | hsign
    · exact Text.not_blank_of_isWordChar hword
    · have hsigns : ['$', '{', '}'].all (fun c => !Text.isBlank c) = true := by decide
      simpa using List.all_eq_true.mp hsigns c hsign

end Operand

/-! ## The pieces of a formula -/

theorem dollar_notMem_gap (chunk : Chunk Operand) : '$' ∉ chunk.gap := fun hmem =>
  absurd (chunk.spacing _ hmem) (by decide)

/-- A part of a formula as a piece of the line. -/
def lexemePiece : Lexeme Operand → Piece
  | .operand a => a.piece
  | .sign op => .literal op.chars (by cases op <;> decide)
  | .opening => .literal ['('] (by decide)
  | .closing => .literal [')'] (by decide)

/-- The line of a formula in pieces. -/
def piecesOf : List (Chunk Operand) → List Piece
  | [] => []
  | chunk :: chunks =>
    .literal chunk.gap (dollar_notMem_gap chunk) :: lexemePiece chunk.lexeme :: piecesOf chunks

section Pieces

variable {bindings : Dict Value} {chunks : List (Chunk Operand)} {e : Formula Operand}

theorem chars_lexemePiece (l : Lexeme Operand) :
    (lexemePiece l).chars = l.chars Operand.chars := by
  cases l <;> rfl

theorem lineOf_piecesOf (chunks : List (Chunk Operand)) :
    lineOf (piecesOf chunks) = textOf Operand.chars chunks := by
  induction chunks with
  | nil => rfl
  | cons chunk chunks ih =>
    rw [Arithmetic.textOf_cons, ← ih, ← chars_lexemePiece]
    rfl

theorem piecesOf_append (front back : List (Chunk Operand)) :
    piecesOf (front ++ back) = piecesOf front ++ piecesOf back := by
  induction front with
  | nil => rfl
  | cons chunk front ih => rw [List.cons_append, piecesOf, ih, piecesOf]; rfl

theorem meaning_lexemePiece {l : Lexeme Operand}
    (h : ∀ a, l = .operand a → a.Held bindings) :
    (lexemePiece l).meaning bindings =
      .ok ((l.map (Operand.value bindings)).chars intChars) := by
  cases l with
  | operand a => exact Operand.meaning_piece (h a rfl)
  | sign | opening | closing => rfl

/-- Piece by piece, the line of a formula stands for the formula with the values put in. -/
theorem meaningOf_piecesOf (h : ∀ a, .operand a ∈ chunks.map Chunk.lexeme → a.Held bindings) :
    meaningOf bindings (piecesOf chunks) =
      .ok (textOf intChars (chunks.map (Chunk.map (Operand.value bindings)))) := by
  induction chunks with
  | nil => rfl
  | cons chunk chunks ih =>
    obtain ⟨hchunk, hchunks⟩ :
        (∀ a, chunk.lexeme = .operand a → a.Held bindings) ∧
          ∀ a, .operand a ∈ chunks.map Chunk.lexeme → a.Held bindings :=
      ⟨fun a ha => h a (by simp [ha]), fun a ha => h a (List.mem_cons_of_mem _ ha)⟩
    show follow (.ok chunk.gap) (follow ((lexemePiece chunk.lexeme).meaning bindings)
      (meaningOf bindings (piecesOf chunks))) = _
    rw [meaning_lexemePiece hchunk, ih hchunks, List.map_cons, Arithmetic.textOf_cons]
    rfl

theorem dollar_notMem_intChars (n : Int) : '$' ∉ intChars n := fun hmem => by
  rcases Arithmetic.mem_intChars hmem with hsign | hdigit
  · cases hsign
  · cases hdigit

theorem clearMeanings_piecesOf
    (h : ∀ a, .operand a ∈ chunks.map Chunk.lexeme → a.Held bindings) :
    ClearMeanings bindings (piecesOf chunks) := by
  induction chunks with
  | nil => exact fun _ hp => absurd hp List.not_mem_nil
  | cons chunk chunks ih =>
    have hrest := ih fun a ha => h a (List.mem_cons_of_mem _ ha)
    refine List.forall_mem_cons.mpr ⟨?_, List.forall_mem_cons.mpr ⟨fun cs hcs => ?_, hrest⟩⟩
    · rintro cs ⟨⟩
      exact dollar_notMem_gap chunk
    · cases hlexeme : chunk.lexeme with
      | operand a =>
        have hheld : a.Held bindings := h a (by simp [hlexeme])
        rw [hlexeme, lexemePiece, Operand.meaning_piece hheld] at hcs
        cases hcs
        exact dollar_notMem_intChars _
      | sign op =>
        rw [hlexeme] at hcs
        cases hcs
        cases op <;> decide
      | opening =>
        rw [hlexeme] at hcs
        cases hcs
        decide
      | closing =>
        rw [hlexeme] at hcs
        cases hcs
        decide

/-- What can follow an operand: no word character comes out in front of it. -/
structure FollowsOperand (bindings : Dict Value) (rest : List Piece) : Prop where
  endsName : ∀ cs, unbracedOf bindings rest = .ok cs → EndsName cs
  clear : StandsClear bindings rest

theorem FollowsOperand.nil : FollowsOperand bindings [] :=
  ⟨by rintro cs ⟨⟩ c ⟨⟩, trivial⟩

/-- A sign or a bracket can follow an operand, with spacing in front of it. -/
theorem FollowsOperand.literal {gap text : List Char} {rest : List Piece}
    (hgap : ∀ c ∈ gap, Arithmetic.isSpacing c = true) (hclear : '$' ∉ gap) (hsign : '$' ∉ text)
    (htext : ∃ c more, text = c :: more ∧ Text.isWordChar c = false)
    (hrest : StandsClear bindings rest) :
    FollowsOperand bindings (.literal gap hclear :: .literal text hsign :: rest) := by
  refine ⟨fun cs hcs => ?_, hrest⟩
  obtain ⟨tail, htail, rfl⟩ := ok_follow_eq_ok.mp hcs
  obtain ⟨more, _, rfl⟩ := ok_follow_eq_ok.mp htail
  cases gap with
  | nil =>
    obtain ⟨c, text, rfl, hc⟩ := htext
    rintro d ⟨⟩
    exact hc
  | cons c gap =>
    rintro d ⟨⟩
    rcases Arithmetic.isSpacing_iff.mp (hgap c List.mem_cons_self) with rfl | rfl | rfl <;> decide

/-- In the line of a formula no reference goes on with what comes out of another. -/
theorem standsClear_piecesOf (h : Writes chunks e) {rest : List Piece}
    (hrest : FollowsOperand bindings rest) : StandsClear bindings (piecesOf chunks ++ rest) := by
  -- only an operand can be a reference, and what follows it is an operator, a closing bracket or
  -- what follows the whole formula
  induction e generalizing chunks rest with
  | operand a =>
    obtain ⟨chunk, rfl, hchunk⟩ := h.operand
    show StandsClear bindings (lexemePiece chunk.lexeme :: rest)
    rw [hchunk]
    cases a with
    | literal n => exact hrest.clear
    | plain name => exact ⟨hrest.endsName, hrest.clear⟩
    | braced name => exact hrest.clear
  | bracket e ih =>
    obtain ⟨opening, inner, closing, rfl, hopening, hinner, hclosing⟩ := h.bracket
    have hclose : FollowsOperand bindings (piecesOf [closing] ++ rest) := by
      simp only [piecesOf, hclosing]
      exact .literal closing.spacing _ _ ⟨')', [], rfl, by decide⟩ hrest.clear
    have hbody := ih hinner hclose
    rw [← List.append_assoc, ← piecesOf_append] at hbody
    show StandsClear bindings
      (lexemePiece opening.lexeme :: (piecesOf (inner ++ [closing]) ++ rest))
    rw [hopening]
    exact hbody
  | negate e ih =>
    obtain ⟨sign, inner, rfl, hsign, hinner⟩ := h.negate
    show StandsClear bindings (lexemePiece sign.lexeme :: (piecesOf inner ++ rest))
    rw [hsign]
    exact ih hinner hrest
  | binary op left right ihl ihr =>
    obtain ⟨front, sign, back, rfl, hfront, hsign, hback⟩ := h.binary
    have hop : ∃ c more, op.chars = c :: more ∧ Text.isWordChar c = false := by
      cases op <;> exact ⟨_, _, rfl, by decide⟩
    have hright : FollowsOperand bindings (piecesOf (sign :: back) ++ rest) := by
      simp only [piecesOf, hsign]
      exact .literal sign.spacing _ _ hop (ihr hback hrest)
    rw [piecesOf_append, List.append_assoc]
    exact ihl hfront hright

end Pieces

/-! ## Values in the place of references -/

/-- What a formula stands for: the formula with the values of its references in their place. -/
def denoted (bindings : Dict Value) (e : Formula Operand) : Formula Int :=
  e.map (Operand.value bindings)

/-- The parts of a formula when the values of its references have been put in. -/
def substituted (bindings : Dict Value) (chunks : List (Chunk Operand)) : List (Chunk Int) :=
  chunks.map (Chunk.map (Operand.value bindings))

/-- What becomes of a formula: its value, if it has one and is within the limits of the evaluator,
and otherwise its text with the values put in. -/
def calculated (limits : Limits) (bindings : Dict Value) (chunks : List (Chunk Operand))
    (e : Formula Operand) : Value :=
  (if (denoted bindings e).readable limits.nesting then (denoted bindings e).value?.map .int
    else none).getD (.text (String.ofList (textOf intChars (substituted bindings chunks))))

section Values

variable {bindings : Dict Value} {chunks : List (Chunk Operand)} {e : Formula Operand}

theorem mem_operands_of_lexemes {a : Operand} (h : .operand a ∈ e.lexemes) : a ∈ e.operands := by
  induction e with
  | operand b => simpa [Formula.lexemes, Formula.operands] using h
  | bracket e ih => exact ih (by simpa [Formula.lexemes] using h)
  | negate e ih => exact ih (by simpa [Formula.lexemes] using h)
  | binary op left right ihl ihr =>
    have hside : .operand a ∈ left.lexemes ∨ .operand a ∈ right.lexemes := by
      simpa [Formula.lexemes] using h
    exact List.mem_append.mpr (hside.imp ihl ihr)

/-- Replacing the references of a formula writes down what it stands for. -/
theorem expandText_formula (hwrites : Writes chunks e)
    (hheld : ∀ a ∈ e.operands, a.Held bindings) :
    expandText bindings (String.ofList (textOf Operand.chars chunks)) =
      .ok (String.ofList (textOf intChars (substituted bindings chunks))) := by
  have hlexemes : ∀ a, .operand a ∈ chunks.map Chunk.lexeme → a.Held bindings := fun a ha =>
    hheld a (mem_operands_of_lexemes (hwrites ▸ ha))
  have hclear : StandsClear bindings (piecesOf chunks) := by
    simpa using standsClear_piecesOf hwrites FollowsOperand.nil
  rw [← lineOf_piecesOf, expandText_of_standsClear (clearMeanings_piecesOf hlexemes) hclear,
    meaningOf_piecesOf hlexemes]
  rfl

theorem evaluates_formula (limits : Limits) (hwrites : Writes chunks e)
    (hfirst : ∀ chunk ∈ chunks.head?, chunk.gap = []) (hgrouped : e.Grouped)
    (hheld : ∀ a ∈ e.operands, a.Held bindings) :
    Evaluates limits bindings (String.ofList (textOf Operand.chars chunks))
      (calculated limits bindings chunks e) := by
  have hgap : ∀ chunk ∈ (substituted bindings chunks).head?, chunk.gap = [] := by
    intro chunk hchunk
    rw [substituted, List.head?_map] at hchunk
    obtain ⟨first, hmem, rfl⟩ := Option.map_eq_some_iff.mp hchunk
    exact hfirst first hmem
  have hsubstituted : Writes (substituted bindings chunks) (denoted bindings e) := hwrites.map _
  refine ⟨_, expandText_formula hwrites hheld, ?_⟩
  rw [Arithmetic.evaluate?_text hsubstituted (Formula.grouped_map hgrouped) hgap]
  rfl

end Values

/-! ## Lines that assign formulas -/

section Lines

variable {chunks : List (Chunk Operand)} {e : Formula Operand}

/-- Neither a quote nor an equals sign nor a line end stands in a formula. -/
theorem ne_of_mem_formula {c : Char} (hc : c ∈ textOf Operand.chars chunks) :
    c ≠ '\n' ∧ c ≠ '=' ∧ c ≠ '"' ∧ c ≠ '\'' := by
  refine Arithmetic.forall_mem_textOf (P := fun c => c ≠ '\n' ∧ c ≠ '=' ∧ c ≠ '"' ∧ c ≠ '\'')
    (fun a d hd => ?_) (fun d hd => ?_) c hc
  · rcases Operand.mem_chars hd with hword | hsign
    · refine ⟨?_, ?_, ?_, ?_⟩ <;>
      · rintro rfl
        revert hword
        decide
    · refine ⟨?_, ?_, ?_, ?_⟩ <;>
      · rintro rfl
        exact absurd hsign (by decide)
  · refine ⟨?_, ?_, ?_, ?_⟩ <;>
    · rintro rfl
      exact absurd hd (by decide)

/-- A formula neither starts nor ends with a blank, but for the spacing in front of it. -/
theorem exists_inked (h : Writes chunks e) :
    ∃ first more, chunks = first :: more ∧
      Inked (first.lexeme.chars Operand.chars ++ textOf Operand.chars more) := by
  have hsign {c : Char} (hc : Text.isBlank c = false) : Inked [c] :=
    Text.inked_of_forall (List.cons_ne_nil c []) (List.forall_mem_singleton.mpr hc)
  induction e generalizing chunks with
  | operand a =>
    obtain ⟨chunk, rfl, hchunk⟩ := h.operand
    refine ⟨chunk, [], rfl, ?_⟩
    rw [hchunk]
    exact (List.append_nil a.chars).symm ▸ a.inked_chars
  | bracket e _ =>
    obtain ⟨opening, inner, closing, rfl, hopening, _, hclosing⟩ := h.bracket
    have htext : opening.lexeme.chars Operand.chars ++ textOf Operand.chars (inner ++ [closing]) =
        ['('] ++ (textOf Operand.chars inner ++ closing.gap) ++ [')'] := by
      simp [textOf, hopening, hclosing, Lexeme.chars]
    refine ⟨opening, inner ++ [closing], rfl, ?_⟩
    rw [htext]
    exact (hsign (by decide)).append (hsign (by decide)) _
  | negate e ih =>
    obtain ⟨sign, inner, rfl, hminus, hinner⟩ := h.negate
    obtain ⟨first, more, rfl, hinked⟩ := ih hinner
    refine ⟨sign, first :: more, rfl, ?_⟩
    rw [hminus, Arithmetic.textOf_cons, ← List.append_assoc]
    exact (hsign (by decide)).append hinked first.gap
  | binary op left right ihl ihr =>
    obtain ⟨front, sign, back, rfl, hfront, _, hback⟩ := h.binary
    obtain ⟨first, more, rfl, hleft⟩ := ihl hfront
    obtain ⟨second, rest, rfl, hright⟩ := ihr hback
    have htext : first.lexeme.chars Operand.chars ++
        textOf Operand.chars (more ++ sign :: second :: rest) =
        (first.lexeme.chars Operand.chars ++ textOf Operand.chars more) ++
          (sign.gap ++ sign.lexeme.chars Operand.chars ++ second.gap) ++
          (second.lexeme.chars Operand.chars ++ textOf Operand.chars rest) := by
      simp [textOf]
    refine ⟨first, more ++ sign :: second :: rest, rfl, ?_⟩
    rw [htext]
    exact hleft.append hright _

theorem assignmentOf?_formula {name : Name} {line : String}
    (hline : Sets name (textOf Operand.chars chunks) line) (hwrites : Writes chunks e)
    (hfirst : ∀ chunk ∈ chunks.head?, chunk.gap = []) :
    assignmentOf? line = some (name.text, String.ofList (textOf Operand.chars chunks)) ∧
      unquote (String.ofList (textOf Operand.chars chunks)) =
        String.ofList (textOf Operand.chars chunks) := by
  have hinked : Inked (textOf Operand.chars chunks) := by
    obtain ⟨first, more, rfl, hinked⟩ := exists_inked hwrites
    rwa [Arithmetic.textOf_cons, hfirst first rfl, List.nil_append]
  refine ⟨assignmentOf?_sets hline hinked (fun hmem => (ne_of_mem_formula hmem).1 rfl)
    fun hhead => (ne_of_mem_formula (List.mem_of_mem_head? hhead)).2.1 rfl, ?_⟩
  have hquoted : isQuoted (textOf Operand.chars chunks) = false := by
    rw [Bool.eq_false_iff]
    intro hquoted
    simp only [isQuoted, Bool.or_eq_true, Bool.and_eq_true, beq_iff_eq] at hquoted
    rcases hquoted with ⟨hhead, _⟩ | ⟨hhead, _⟩
    · exact (ne_of_mem_formula (List.mem_of_mem_head? hhead)).2.2.1 rfl
    · exact (ne_of_mem_formula (List.mem_of_mem_head? hhead)).2.2.2 rfl
  unfold unquote
  rw [String.toList_ofList, hquoted]
  rfl

end Lines

section Storing

variable {name : Name} {chunks : List (Chunk Operand)} {e : Formula Operand} {line : String}
  {s : Interpreter}

theorem run_assign_formula (limits : Limits)
    (hline : Sets name (textOf Operand.chars chunks) line)
    (hwrites : Writes chunks e) (hfirst : ∀ chunk ∈ chunks.head?, chunk.gap = [])
    (hgrouped : e.Grouped) (hheld : ∀ a ∈ e.operands, a.Held s.bindings)
    (hwritable : ¬ Unwritable (calculated limits s.bindings chunks e)) :
    ∃ t, (assign limits line).run s = .ok () t ∧
      t.bindings = Dict.put s.bindings name.text (calculated limits s.bindings chunks e) := by
  obtain ⟨hparts, hunquote⟩ := assignmentOf?_formula hline hwrites hfirst
  obtain ⟨shown, hshown, _⟩ := run_valueText_of_writable hwritable
  have hvalue := evaluates_formula limits hwrites hfirst hgrouped hheld
  rw [← hunquote] at hvalue
  exact ⟨_, run_assign hparts hvalue hshown, rfl⟩

theorem not_unwritable_text (text : String) : ¬ Unwritable (.text text) := by
  rintro ⟨n, ⟨⟩, _⟩

theorem not_unwritable_int {n : Int} (h : isWritable n = true) : ¬ Unwritable (.int n) := by
  rintro ⟨m, hm, hlong⟩
  cases hm
  exact absurd hlong (Nat.not_lt.mpr (of_decide_eq_true h))

/-- A formula is assigned as what it stands for when each reference is the value of its variable.
If it divides by zero nowhere and is within the limits of the evaluator, it has a value, and this
is stored, unless it is too long to be written. If it divides by zero somewhere, its text is stored,
with the values in the place of the references. The limits are those of brackets and digits, of the
rules of the grammar that an operand lies under, and of how deep operators nest, which depends on
the calls under way; the sign of a negative value counts like any other. -/
theorem assign_stores_denoted (limits : Limits)
    (hline : Sets name (textOf Operand.chars chunks) line)
    (hwrites : Writes chunks e) (hfirst : ∀ chunk ∈ chunks.head?, chunk.gap = [])
    (hgrouped : e.Grouped) (hheld : ∀ a ∈ e.operands, a.Held s.bindings) :
    ((∀ d ∈ (denoted s.bindings e).divisors, d.value? ≠ some 0) →
      (denoted s.bindings e).Fits limits.nesting →
      ∃ n, (denoted s.bindings e).value? = some n ∧
        (isWritable n = true → ∃ t, (assign limits line).run s = .ok () t ∧
          t.bindings = Dict.put s.bindings name.text (.int n))) ∧
    ((∃ d ∈ (denoted s.bindings e).divisors, d.value? = some 0) →
      ∃ expanded t, expandText s.bindings (String.ofList (textOf Operand.chars chunks)) =
          .ok expanded ∧
        (assign limits line).run s = .ok () t ∧
        t.bindings = Dict.put s.bindings name.text (.text expanded)) := by
  have hassign := run_assign_formula limits hline hwrites hfirst hgrouped hheld
  refine ⟨fun hdivisors hfits => ?_, fun hzero => ?_⟩
  · have hsome : (denoted s.bindings e).value? ≠ none := by
      rw [Ne, Formula.value?_eq_none_iff]
      rintro ⟨d, hd, hzero⟩
      exact hdivisors d hd hzero
    obtain ⟨n, hn⟩ := Option.ne_none_iff_exists'.mp hsome
    have hcalculated : calculated limits s.bindings chunks e = .int n := by
      rw [calculated, hfits.readable, hn]
      rfl
    rw [hcalculated] at hassign
    exact ⟨n, hn, fun hwritable => hassign (not_unwritable_int hwritable)⟩
  · have hnone := Formula.value?_eq_none_iff.mpr hzero
    have hcalculated : calculated limits s.bindings chunks e =
        .text (String.ofList (textOf intChars (substituted s.bindings chunks))) := by
      rw [calculated, hnone, Option.map_none, ite_self]
      rfl
    rw [hcalculated] at hassign
    obtain ⟨t, hrun, hbindings⟩ := hassign (not_unwritable_text _)
    exact ⟨_, t, expandText_formula hwrites hheld, hrun, hbindings⟩

/-! ## A quotient of references, and a sum that is too long -/

/-- The quotient of ten and a variable, less twice another variable. -/
def quotient : Formula Operand :=
  .binary .sub (.binary .floorDiv (.operand (.literal 10)) (.operand (.plain nameA)))
    (.binary .mul (.operand (.braced nameB)) (.operand (.literal 2)))

/-- A state in which the two variables hold numbers. -/
def holding (a b : Int) : Interpreter where
  bindings := [("a", .int a), ("b", .int b)]

/-- Quotients are rounded down: ten divided by minus three is minus four, and with eight less it is
minus twelve. Where the divisor is zero, the text is stored. -/
theorem quotient_stored :
    Sets nameA (textOf Operand.chars quotient.unspaced) "set a 10//$a-$\x7bb\x7d*2" ∧
      (∃ t, (assign {} "set a 10//$a-$\x7bb\x7d*2").run (holding (-3) 4) = .ok () t ∧
        t.bindings = [("a", .int (-12)), ("b", .int 4)]) ∧
      ∃ t, (assign {} "set a 10//$a-$\x7bb\x7d*2").run (holding 0 4) = .ok () t ∧
        t.bindings = [("a", .text "10//0-4*2"), ("b", .int 4)] := by
  have hline : Sets nameA (textOf Operand.chars quotient.unspaced) "set a 10//$a-$\x7bb\x7d*2" :=
    ⟨"set".toList, [], [' '], by decide, by decide, .blanks (by decide) (by decide), by decide⟩
  have hwrites := Arithmetic.writes_unspaced quotient
  have hfirst : ∀ chunk ∈ quotient.unspaced.head?, chunk.gap = [] := fun chunk hchunk =>
    Arithmetic.gap_unspaced (List.mem_of_mem_head? hchunk)
  have hgrouped : quotient.Grouped :=
    ⟨⟨by decide, ⟨by decide, trivial⟩, by decide, trivial⟩,
      by decide, ⟨by decide, trivial⟩, by decide, trivial⟩
  have hheld (a b : Int) (ha : isWritable a = true) (hb : isWritable b = true) :
      ∀ x ∈ quotient.operands, x.Held (holding a b).bindings :=
    List.forall_mem_cons.mpr ⟨trivial, List.forall_mem_cons.mpr ⟨⟨a, rfl, ha⟩,
      List.forall_mem_cons.mpr ⟨⟨b, rfl, hb⟩, List.forall_mem_singleton.mpr trivial⟩⟩⟩
  refine ⟨hline, ?_, ?_⟩
  · have hfits : (denoted (holding (-3) 4).bindings quotient).Fits ({} : Limits).nesting :=
      ⟨by decide, List.all_eq_true.mp (by decide), by decide, by decide⟩
    obtain ⟨n, hn, hstored⟩ := (assign_stores_denoted {} hline hwrites hfirst hgrouped
      (hheld (-3) 4 (by decide) (by decide))).1 (List.forall_mem_singleton.mpr (by decide)) hfits
    cases hn
    exact hstored (by decide)
  · obtain ⟨expanded, t, hexpanded, hstored⟩ :=
      (assign_stores_denoted {} hline hwrites hfirst hgrouped (hheld 0 4 (by decide)
        (by decide))).2 ⟨.operand 0, List.mem_cons_self, rfl⟩
    have htext : expandText (holding 0 4).bindings
        (String.ofList (textOf Operand.chars quotient.unspaced)) = .ok "10//0-4*2" := by
      decide +kernel
    cases htext.symm.trans hexpanded
    exact ⟨t, hstored⟩

/-- A sum of ones. -/
def ones : Nat → Formula Operand
  | 0 => .operand (.literal 1)
  | n + 1 => .binary .add (ones n) (.operand (.literal 1))

theorem grouped_ones (n : Nat) : (ones n).Grouped := by
  induction n with
  | zero => trivial
  | succ n ih =>
    have hleft : Arithmetic.WholeOp.add.operator.strength ≤ (ones n).strength := by
      cases n with
      | zero => decide
      | succ n => exact Nat.le_refl _
    exact ⟨⟨hleft, ih⟩, by decide, trivial⟩

section Ones

variable (bindings : Dict Value) (n : Nat)

theorem value?_ones : (denoted bindings (ones n)).value? = some (n + 1 : Int) := by
  induction n with
  | zero => rfl
  | succ n ih =>
    show (do Arithmetic.WholeOp.add.result? (← (denoted bindings (ones n)).value?) (1 : Int)) = _
    rw [ih]
    rfl

theorem nesting_ones : (denoted bindings (ones n)).term.nesting = n := by
  induction n with
  | zero => rfl
  | succ n ih =>
    show max (denoted bindings (ones n)).term.nesting 0 + 1 = n + 1
    rw [ih, Nat.max_zero]

theorem brackets_ones : (ones n).brackets = 0 := by
  induction n with
  | zero => rfl
  | succ n ih =>
    show max (ones n).brackets 0 = 0
    rw [ih, Nat.max_zero]

theorem operands_ones : ∀ a ∈ (ones n).operands, a = .literal 1 := by
  induction n with
  | zero => exact List.forall_mem_singleton.mpr rfl
  | succ n ih => exact List.forall_mem_append.mpr ⟨ih, List.forall_mem_singleton.mpr rfl⟩

theorem divisors_ones : (ones n).divisors = [] := by
  induction n with
  | zero => rfl
  | succ n ih =>
    show (ones n).divisors ++ [] = []
    rw [ih, List.append_nil]

end Ones

/-- A line that assigns a sum of ones to a variable. -/
def onesLine (n : Nat) : String :=
  String.ofList ("set a ".toList ++ textOf Operand.chars (ones n).unspaced)

theorem sets_ones (n : Nat) :
    Sets nameA (textOf Operand.chars (ones n).unspaced) (onesLine n) := by
  have hstart : "set a ".toList = "set".toList ++ (' ' :: (nameA.text.toList ++ [' '])) := by decide
  have happend (word name text : List Char) : word ++ (' ' :: (name ++ [' '])) ++ text =
      word ++ (' ' :: [] ++ (name ++ ([' '] ++ text))) := by simp
  have hchars : (onesLine n).toList = _ := String.toList_ofList
  rw [hstart, happend] at hchars
  exact ⟨"set".toList, [], [' '], by decide, by decide, .blanks (by decide) (by decide), hchars⟩

theorem ones_uncalculated {limits : Limits} {n : Nat} (h : limits.nesting < n) (s : Interpreter) :
    ∃ text t, (assign limits (onesLine n)).run s = .ok () t ∧
      Dict.get? t.bindings nameA.text = some (.text text) := by
  have hfirst : ∀ chunk ∈ (ones n).unspaced.head?, chunk.gap = [] := fun chunk hchunk =>
    Arithmetic.gap_unspaced (List.mem_of_mem_head? hchunk)
  have hheld : ∀ a ∈ (ones n).operands, a.Held s.bindings := fun a ha => by
    rw [operands_ones n a ha]
    trivial
  have hdeep : (denoted s.bindings (ones n)).readable limits.nesting = false := by
    simp [Formula.readable, nesting_ones, h]
  have hcalculated : calculated limits s.bindings (ones n).unspaced (ones n) =
      .text (String.ofList (textOf intChars (substituted s.bindings (ones n).unspaced))) := by
    rw [calculated, hdeep]
    rfl
  have hassign := run_assign_formula limits (sets_ones n) (Arithmetic.writes_unspaced _) hfirst
    (grouped_ones n) hheld
  rw [hcalculated] at hassign
  obtain ⟨t, hrun, hbindings⟩ := hassign (not_unwritable_text _)
  exact ⟨_, t, hrun, by rw [hbindings, Dict.get?_put, if_pos rfl]⟩

/-- The sum of three thousand and one ones has a value, it has no brackets, and its numbers are
short, but where operators may nest less than three thousand deep it is not calculated. -/
theorem long_sum_uncalculated :
    Sets nameA (textOf Operand.chars (ones 3000).unspaced) (onesLine 3000) ∧
      Writes (ones 3000).unspaced (ones 3000) ∧ (ones 3000).Grouped ∧
      (ones 3000).brackets ≤ Arithmetic.maxBrackets ∧
      (∀ a ∈ (ones 3000).operands, a = .literal 1) ∧ (ones 3000).divisors = [] ∧
      (denoted [] (ones 3000)).value? = some 3001 ∧ isWritable 3001 = true ∧
      ∀ limits : Limits, limits.nesting < 3000 →
        ∃ text t, (assign limits (onesLine 3000)).run {} = .ok () t ∧
          Dict.get? t.bindings nameA.text = some (.text text) :=
  ⟨sets_ones 3000, Arithmetic.writes_unspaced _, grouped_ones 3000,
    (brackets_ones 3000).symm ▸ Nat.zero_le _, operands_ones 3000, divisors_ones 3000,
    value?_ones [] 3000, by decide, fun _ hlimits => ones_uncalculated hlimits {}⟩

end Storing

end RobotConsole.Script
