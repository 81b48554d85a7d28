import RobotConsole.Proofs.Arithmetic.Scanning
import RobotConsole.Proofs.Script.Adjacency
import RobotConsole.Proofs.Script.Conditions

/-!
# Assignments

An assignment names a variable and gives it a value, with blanks or an equals sign between the two
(`Sets`). What is stored depends on the text of the value alone: quotes around it are taken off,
references in it are replaced, and what is left is calculated, or else stored as a text
(`run_assign`). A text in quotes that refers to nothing and cannot be calculated is stored as it
is, and comes back from references of both kinds (`references_return_quoted`).
-/

namespace RobotConsole.Script

open Arithmetic (Value isCalculable)
open Text (AllBlank Inked Spells)

variable {name : Name} {line v : String} {limits : Limits}

/-! ## Lines that assign -/

/-- What can stand between a variable and its value. -/
inductive Separates : List Char → Prop
  | blanks {gap : List Char} : gap ≠ [] → AllBlank gap → Separates gap
  | equals {before after : List Char} : AllBlank before → AllBlank after →
      Separates (before ++ '=' :: after)

/-- A line that assigns a value, given by its text, to a variable. -/
def Sets (name : Name) (value : List Char) (line : String) : Prop :=
  ∃ word gap middle, Spells "set" word ∧ AllBlank gap ∧ Separates middle ∧
    line.toList = word ++ (' ' :: gap ++ (name.text.toList ++ (middle ++ value)))

theorem not_isWordChar_of_blank {c : Char} (h : Text.isBlank c = true) :
    Text.isWordChar c = false := by
  by_contra hword
  rw [Text.not_blank_of_isWordChar (Bool.not_eq_false _ ▸ hword)] at h
  cases h

theorem Separates.exists_cons {middle : List Char} (h : Separates middle) :
    ∃ c rest, middle = c :: rest ∧ Text.isWordChar c = false := by
  cases h with
  | blanks hne hgap =>
    obtain ⟨c, rest, rfl⟩ := List.exists_cons_of_ne_nil hne
    exact ⟨c, rest, rfl, not_isWordChar_of_blank (hgap c List.mem_cons_self)⟩
  | @equals before after hbefore _ =>
    cases before with
    | nil => exact ⟨'=', after, rfl, by decide⟩
    | cons c rest => exact ⟨c, _, rfl, not_isWordChar_of_blank (hbefore c List.mem_cons_self)⟩

theorem assignmentOf?_sets {value : List Char}
    (h : Sets name value line) (hvalue : Inked value) (hline : '\n' ∉ value)
    (hequals : value.head? ≠ some '=') :
    assignmentOf? line = some (name.text, String.ofList value) := by
  obtain ⟨word, gap, middle, hword, hgap, hmiddle, hchars⟩ := h
  obtain ⟨c, rest, hcons, hc⟩ := hmiddle.exists_cons
  have hname : ∃ c more, name.text.toList ++ (middle ++ value) = c :: more ∧
      Text.isBlank c = false := by
    obtain ⟨d, more, hd, hdblank⟩ := name.inked.head
    exact ⟨d, more ++ (middle ++ value), by rw [hd]; rfl, hdblank⟩
  unfold assignmentOf?
  rw [hchars, afterKeyword?_spelled hword]
  simp only [Option.bind_eq_bind, Option.bind_some]
  rw [afterBlanks?_gap hgap hname, Option.bind_some, hcons, List.cons_append,
    takeName?_append hc, Option.bind_some, ← List.cons_append, ← hcons]
  clear hcons hname
  have hskip : value.dropWhile Text.isBlank = value := by
    simpa using Text.dropWhile_inked hvalue []
  have hdone : (restOfLine? value).bind (fun rest =>
      some (name.text, String.ofList (Text.trimChars rest))) =
        some (name.text, String.ofList value) := by
    rw [restOfLine?_oneLine hline, Option.bind_some, Text.trimChars_self hvalue]
  -- behind the blanks an equals sign is skipped if there is one, and the value starts with none
  cases hmiddle with
  | blanks hne hblank =>
    rw [List.dropWhile_append_of_pos hblank, hskip]
    dsimp only
    split
    · exact absurd rfl hequals
    · rw [hskip]
      exact hdone
  | @equals before after hbefore hafter =>
    rw [List.append_assoc, List.dropWhile_append_of_pos hbefore, List.cons_append,
      List.dropWhile_cons_of_neg (by decide)]
    show (restOfLine? ((after ++ value).dropWhile Text.isBlank)).bind _ = _
    rw [List.dropWhile_append_of_pos hafter, hskip]
    exact hdone

/-! ## What is stored -/

variable {s : Interpreter}

/-- The value of the text after its quotes have been taken off is stored, if it can be written. -/
theorem run_assign {name text shown : String} {v : Value}
    (hline : assignmentOf? line = some (name, text))
    (hvalue : Evaluates limits s.bindings (unquote text) v) (hshown : v.text? = some shown) :
    (assign limits line).run s =
      .ok () { s.lend name v with printed := s.printed.push s!"  [set {name} = {shown}]" } := by
  have hrun := run_evaluateExpression_ok.mpr ⟨hvalue, rfl⟩
  have hbind : (bind name v).run s = .ok () (s.lend name v) := rfl
  unfold assign
  rw [hline]
  simp only [EStateM.run_bind, hrun, hbind, run_valueText, hshown]
  rfl

/-! ## Texts in quotes -/

/-- The two kinds of quotes. -/
inductive Quote where
  | single
  | double

/-- The sign of a quote. -/
def Quote.sign : Quote → Char
  | .single => '\''
  | .double => '"'

/-- A text in quotes. -/
def Quote.around (q : Quote) (text : List Char) : List Char :=
  q.sign :: (text ++ [q.sign])

section Quoted

variable (q : Quote) (text : List Char)

theorem Quote.inked_around : Inked (q.around text) := by
  have hsign : Text.isBlank q.sign = false := by cases q <;> decide
  exact ⟨⟨q.sign, text ++ [q.sign], rfl, hsign⟩, ⟨q.sign :: text, q.sign, rfl, hsign⟩⟩

theorem unquote_around : unquote (String.ofList (q.around text)) = String.ofList text := by
  have hlast : (q.around text).getLast? = some q.sign := by
    rw [Quote.around, ← List.cons_append]
    exact List.getLast?_concat
  have hquoted : isQuoted (q.around text) = true := by
    unfold isQuoted
    rw [hlast]
    cases q <;> rfl
  unfold unquote
  rw [String.toList_ofList, if_pos hquoted]
  simp [Quote.around]

end Quoted

/-- A text that is stored as it is: it is one line, refers to nothing, and is no arithmetic. -/
structure Verbatim (v : String) : Prop where
  oneLine : '\n' ∉ v.toList
  clear : '$' ∉ v.toList
  uncalculable : v = "" ∨ ∃ c ∈ v.toList, isCalculable c = false

theorem Verbatim.evaluate? (h : Verbatim v) (nesting : Nat) :
    Arithmetic.evaluate? nesting v = none := by
  rcases h.uncalculable with rfl | ⟨c, hmem, hc⟩
  · rfl
  · exact Arithmetic.evaluate?_eq_none_of_foreign hmem hc

theorem Verbatim.evaluates (h : Verbatim v) (bindings : Dict Value) :
    Evaluates limits bindings v (.text v) :=
  ⟨v, expandText_of_no_dollar bindings h.clear, by rw [h.evaluate?]; rfl⟩

theorem run_assign_quoted {q : Quote}
    (hline : Sets name (q.around v.toList) line) (hv : Verbatim v) :
    ∃ t, (assign limits line).run s = .ok () t ∧
      t.bindings = Dict.put s.bindings name.text (.text v) := by
  have hsign : q.sign ≠ '\n' ∧ q.sign ≠ '=' := by cases q <;> decide
  have honeLine : '\n' ∉ q.around v.toList := by
    simp [Quote.around, hv.oneLine, hsign.1.symm]
  have hparts := assignmentOf?_sets hline (q.inked_around v.toList) honeLine
    fun hequals => hsign.2 (Option.some.inj hequals)
  have hvalue :
      Evaluates limits s.bindings (unquote (String.ofList (q.around v.toList))) (.text v) := by
    rw [unquote_around, String.ofList_toList]
    exact hv.evaluates s.bindings
  exact ⟨_, run_assign hparts hvalue rfl, rfl⟩

/-- A reference in front of other text is replaced by what its variable holds. -/
theorem expandText_reference {piece : Piece} {bindings : Dict Value}
    {rest : List Char} (hpiece : piece = .plain name ∨ piece = .braced name)
    (hget : Dict.get? bindings name.text = some (.text v)) (hclear : '$' ∉ v.toList)
    (hrest : '$' ∉ rest) (hends : EndsName rest) :
    expandText bindings (String.ofList (piece.chars ++ rest)) =
      .ok (String.ofList (v.toList ++ rest)) := by
  have htext : referenceText bindings name.text.toList = .ok v.toList := by
    unfold referenceText
    rw [String.ofList_toList, hget]
    rfl
  have hmeaning : piece.meaning bindings = .ok v.toList := by
    rcases hpiece with rfl | rfl <;> exact htext
  have hvalues : ClearMeanings bindings [piece, .literal rest hrest] := by
    refine List.forall_mem_cons.mpr ⟨fun cs hcs => ?_, List.forall_mem_singleton.mpr ?_⟩
    · cases hmeaning.symm.trans hcs
      exact hclear
    · rintro cs ⟨⟩
      exact hrest
  have hstands : StandsClear bindings [piece, .literal rest hrest] := by
    rcases hpiece with rfl | rfl
    · refine ⟨fun cs hcs => ?_, trivial⟩
      cases (follow_nil (.ok rest)).symm.trans hcs
      exact hends
    · trivial
  have hline : lineOf [piece, .literal rest hrest] = piece.chars ++ rest := by
    simp [lineOf, Piece.chars]
  rw [← hline, expandText_of_standsClear hvalues hstands]
  show (follow (piece.meaning bindings) (follow (.ok rest) (.ok []))).map String.ofList = _
  rw [hmeaning, follow_nil]
  rfl

/-- A text that is assigned in quotes comes back from references. The text may hold blanks at its
ends, equals signs and quotes, but no reference and no line end, and it must not be arithmetic: it
is empty, or has a character that arithmetic is not written with. No other variable changes. -/
theorem references_return_quoted (limits : Limits) {name : Name} {q : Quote} {v line : String}
    (hline : Sets name (q.around v.toList) line) (hv : Verbatim v) (s : Interpreter) :
    ∃ t, (assign limits line).run s = .ok () t ∧
      (expandVariables (String.ofList (Piece.plain name).chars)).run t = .ok v t ∧
      (expandVariables (String.ofList (Piece.braced name).chars)).run t = .ok v t ∧
      ∀ other, other ≠ name.text → Dict.get? t.bindings other = Dict.get? s.bindings other := by
  obtain ⟨t, hrun, hbindings⟩ := run_assign_quoted (s := s) hline hv
  have hget : Dict.get? t.bindings name.text = some (.text v) := by
    rw [hbindings, Dict.get?_put, if_pos rfl]
  have hexpand {piece : Piece} (hpiece : piece = .plain name ∨ piece = .braced name) :
      (expandVariables (String.ofList piece.chars)).run t = .ok v t := by
    have htext := expandText_reference hpiece hget hv.clear List.not_mem_nil (by rintro c ⟨⟩)
    rw [List.append_nil, List.append_nil, String.ofList_toList] at htext
    rw [run_expandVariables, htext]
    rfl
  refine ⟨t, hrun, hexpand (.inl rfl), hexpand (.inr rfl), fun other hother => ?_⟩
  rw [hbindings, Dict.get?_put, if_neg hother]

/-- A text with blanks at its ends, an equals sign and quotes comes back as it was. -/
theorem motto_returned :
    Sets nameA (Quote.double.around " it's = \"b\" ".toList) "SET a= \" it's = \"b\" \"" ∧
      Verbatim " it's = \"b\" " ∧
      ∃ t, (assign {} "SET a= \" it's = \"b\" \"").run {} = .ok () t ∧
        (expandVariables (String.ofList (Piece.plain nameA).chars)).run t =
          .ok " it's = \"b\" " t ∧
        (expandVariables (String.ofList (Piece.braced nameA).chars)).run t =
          .ok " it's = \"b\" " t ∧
        ∀ other, other ≠ "a" → Dict.get? t.bindings other = none := by
  have hline : Sets nameA (Quote.double.around " it's = \"b\" ".toList)
      "SET a= \" it's = \"b\" \"" :=
    ⟨"SET".toList, [], ['=', ' '], by decide, by decide,
      @Separates.equals [] [' '] (by decide) (by decide), by decide⟩
  have hv : Verbatim " it's = \"b\" " :=
    ⟨by decide, by decide, .inr ⟨'i', by decide, by decide⟩⟩
  exact ⟨hline, hv, references_return_quoted {} hline hv {}⟩

end RobotConsole.Script
