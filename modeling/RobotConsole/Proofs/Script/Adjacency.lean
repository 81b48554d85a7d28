import RobotConsole.Proofs.Script.Arguments
import RobotConsole.Proofs.Script.Overlong

/-!
# References next to one another

A line is read here as a row of pieces: text without dollar signs, plain references and references
in braces. References in braces are replaced first, and what they stand for is then part of the text
in which plain references are looked for. So the name of a plain reference can grow: if a reference
in braces follows it directly, the word characters that come out there are read as part of the name.
Nothing else can go wrong. A line comes out as its pieces one by one, whatever the variables hold,
exactly if no reference in braces follows directly on a plain one (`references_independent_iff`).
-/

namespace RobotConsole.Script

open Arithmetic (Value)

/-! ## Texts one after the other -/

/-- A text and the text that follows it, if there are both. -/
def follow (x y : Except ScriptError (List Char)) : Except ScriptError (List Char) := do
  return (← x) ++ (← y)

section Follow

variable {x y z : Except ScriptError (List Char)}

@[simp] theorem nil_follow (y : Except ScriptError (List Char)) : follow (.ok []) y = y := by
  cases y <;> rfl

@[simp] theorem follow_nil (x : Except ScriptError (List Char)) : follow x (.ok []) = x := by
  cases x with
  | error e => rfl
  | ok a => exact congrArg Except.ok (List.append_nil a)

theorem follow_assoc (x y z : Except ScriptError (List Char)) :
    follow (follow x y) z = follow x (follow y z) := by
  cases x with
  | error e => rfl
  | ok a =>
    cases y with
    | error e => rfl
    | ok b =>
      cases z with
      | error e => rfl
      | ok c => exact congrArg Except.ok (List.append_assoc a b c)

theorem follow_eq_ok {cs : List Char} :
    follow x y = .ok cs ↔ ∃ a b, x = .ok a ∧ y = .ok b ∧ a ++ b = cs := by
  cases x with
  | error e => simp [follow, Bind.bind, Except.bind]
  | ok a =>
    cases y with
    | error e => simp [follow, Bind.bind, Except.bind]
    | ok b => simp [follow, Bind.bind, Except.bind, Pure.pure, Except.pure]

theorem ok_follow_eq_ok {a cs : List Char} :
    follow (.ok a) y = .ok cs ↔ ∃ b, y = .ok b ∧ a ++ b = cs := by
  simp [follow_eq_ok]

theorem map_ofList_injective (h : x.map String.ofList = y.map String.ofList) : x = y := by
  cases x with
  | error e =>
    cases y with
    | error e' => exact congrArg Except.error (Except.error.inj h)
    | ok b => cases h
  | ok a =>
    cases y with
    | error e' => cases h
    | ok b => exact congrArg Except.ok (String.ofList_injective (Except.ok.inj h))

end Follow

/-! ## Lines in pieces -/

/-- A piece of a line. -/
inductive Piece where
  | literal (text : List Char) (clear : '$' ∉ text)
  | plain (name : Name)
  | braced (name : Name)

/-- A piece as it is written. -/
def Piece.chars : Piece → List Char
  | .literal text _ => text
  | .plain name => '$' :: name.text.toList
  | .braced name => '$' :: '{' :: (name.text.toList ++ ['}'])

/-- The variables that a piece refers to. -/
def Piece.names : Piece → List String
  | .literal _ _ => []
  | .plain name | .braced name => [name.text]

/-- What a piece stands for. -/
def Piece.meaning (bindings : Dict Value) : Piece → Except ScriptError (List Char)
  | .literal text _ => .ok text
  | .plain name | .braced name => referenceText bindings name.text.toList

/-- A piece when references in braces have been replaced, and plain ones have not. -/
def Piece.unbraced (bindings : Dict Value) : Piece → Except ScriptError (List Char)
  | .braced name => referenceText bindings name.text.toList
  | piece => .ok piece.chars

/-- A line made of pieces. -/
def lineOf (pieces : List Piece) : List Char :=
  pieces.flatMap Piece.chars

/-- The results of a computation on every piece, joined in order. -/
def joined (f : Piece → Except ScriptError (List Char)) :
    List Piece → Except ScriptError (List Char)
  | [] => .ok []
  | piece :: rest => follow (f piece) (joined f rest)

/-- What the pieces of a line stand for, one by one. -/
def meaningOf (bindings : Dict Value) (pieces : List Piece) : Except ScriptError (List Char) :=
  joined (Piece.meaning bindings) pieces

/-- A line when its references in braces have been replaced. -/
def unbracedOf (bindings : Dict Value) (pieces : List Piece) : Except ScriptError (List Char) :=
  joined (Piece.unbraced bindings) pieces

/-- Text that does not go on with a word character. -/
def EndsName (cs : List Char) : Prop :=
  ∀ c ∈ cs.head?, Text.isWordChar c = false

/-- Every plain reference is followed by the end of the line, by a character that is no word
character, or by another reference. -/
def Delimited : List Piece → Prop
  | [] => True
  | .plain _ :: rest => EndsName (lineOf rest) ∧ Delimited rest
  | _ :: rest => Delimited rest

/-- No plain reference is directly followed by a reference in braces. -/
def NoneBeforeBraces : List Piece → Prop
  | [] => True
  | .plain _ :: rest => ¬ ['$', '{'] <+: lineOf rest ∧ NoneBeforeBraces rest
  | _ :: rest => NoneBeforeBraces rest

/-- No plain reference goes on with what comes out of references in braces. -/
def StandsClear (bindings : Dict Value) : List Piece → Prop
  | [] => True
  | .plain _ :: rest =>
    (∀ cs, unbracedOf bindings rest = .ok cs → EndsName cs) ∧ StandsClear bindings rest
  | _ :: rest => StandsClear bindings rest

/-- No variable holds a value with a dollar sign in its text. -/
def ClearValues (bindings : Dict Value) : Prop :=
  ∀ name v text, Dict.get? bindings name = some v → v.text? = some text → '$' ∉ text.toList

/-- No piece stands for a text with a dollar sign. -/
def ClearMeanings (bindings : Dict Value) (pieces : List Piece) : Prop :=
  ∀ piece ∈ pieces, ∀ cs, piece.meaning bindings = .ok cs → '$' ∉ cs

/-! ## Replacing references in braces -/

section Scanning

variable {bindings : Dict Value}

theorem Name.toList_ne_nil (name : Name) : name.text.toList ≠ [] := fun hnil =>
  name.nonempty (String.toList_eq_nil_iff.mp hnil)

theorem Name.dollar_notMem (name : Name) : '$' ∉ name.text.toList := fun hmem =>
  absurd (name.wordChars _ hmem) (by decide)

theorem expandBraced_braced (name : Name) (rest : List Char) :
    expandBraced bindings .outside ((Piece.braced name).chars ++ rest) =
      follow (referenceText bindings name.text.toList) (expandBraced bindings .outside rest) := by
  have hchars : (Piece.braced name).chars ++ rest =
      '$' :: '{' :: (name.text.toList ++ '}' :: rest) := by
    simp [Piece.chars]
  rw [hchars, expandBraced_reference name.wordChars name.toList_ne_nil]
  rfl

/-- A plain reference is left alone: its dollar sign is followed by no brace. -/
theorem expandBraced_plain (name : Name) (rest : List Char) :
    expandBraced bindings .outside ((Piece.plain name).chars ++ rest) =
      follow (.ok (Piece.plain name).chars) (expandBraced bindings .outside rest) := by
  obtain ⟨c, more, hname⟩ := List.exists_cons_of_ne_nil name.toList_ne_nil
  have hword : Text.isWordChar c = true := name.wordChars c (hname ▸ List.mem_cons_self)
  have hbrace : (c == '{') = false := beq_eq_false_iff_ne.mpr fun h => by
    rw [h] at hword
    revert hword
    decide
  have hdollar : '$' ∉ c :: more := hname ▸ name.dollar_notMem
  have hsign : (c == '$') = false :=
    beq_eq_false_iff_ne.mpr fun h => hdollar (h ▸ List.mem_cons_self)
  have hchars : (Piece.plain name).chars = '$' :: c :: more := by
    rw [Piece.chars, hname]
  rw [hchars, List.cons_append, List.cons_append, expandBraced]
  simp only [beq_self_eq_true, if_true, Braced.held, List.nil_append]
  rw [expandBraced]
  simp only [hbrace, hsign, Bool.false_eq_true, if_false, Braced.held]
  rw [expandBraced_append fun hmem => hdollar (List.mem_cons_of_mem c hmem)]
  cases expandBraced bindings .outside rest <;> rfl

/-- The scan for references in braces goes piece by piece, whatever the pieces are. -/
theorem expandBraced_lineOf (pieces : List Piece) :
    expandBraced bindings .outside (lineOf pieces) = unbracedOf bindings pieces := by
  induction pieces with
  | nil => rfl
  | cons piece rest ih =>
    show expandBraced bindings .outside (piece.chars ++ lineOf rest) =
      follow (piece.unbraced bindings) (unbracedOf bindings rest)
    rw [← ih]
    cases piece with
    | literal text clear =>
      show expandBraced bindings .outside (text ++ lineOf rest) = _
      rw [expandBraced_append clear]
      cases expandBraced bindings .outside (lineOf rest) <;> rfl
    | plain name => exact expandBraced_plain name (lineOf rest)
    | braced name => exact expandBraced_braced name (lineOf rest)

/-! ## Replacing plain references -/

theorem expandPlain_cons_of_ne {c : Char} (hc : c ≠ '$') (rest : List Char) :
    expandPlain bindings none (c :: rest) =
      follow (.ok [c]) (expandPlain bindings none rest) := by
  rw [expandPlain]
  simp only [beq_eq_false_iff_ne.mpr hc, Bool.false_eq_true, if_false]
  cases expandPlain bindings none rest <;> rfl

theorem expandPlain_endsName (name : List Char) {rest : List Char} (hrest : EndsName rest) :
    expandPlain bindings (some name) rest =
      follow (plainText bindings name) (expandPlain bindings none rest) := by
  cases rest with
  | nil => exact (follow_nil _).symm
  | cons c rest =>
    have hc : Text.isWordChar c = false := hrest c rfl
    by_cases hsign : c = '$'
    · subst hsign
      rw [expandPlain, expandPlain]
      rfl
    · rw [expandPlain_cons_of_ne hsign, expandPlain]
      simp only [hc, beq_eq_false_iff_ne.mpr hsign, Bool.false_eq_true, if_false]
      cases plainText bindings name with
      | error e => rfl
      | ok value => cases expandPlain bindings none rest <;> rfl

/-- The scan for plain references can be parted where no word character follows. -/
theorem expandPlain_parts (seen : Option (List Char)) (front : List Char) {rest : List Char}
    (hrest : EndsName rest) :
    expandPlain bindings seen (front ++ rest) =
      follow (expandPlain bindings seen front) (expandPlain bindings none rest) := by
  induction front generalizing seen with
  | nil =>
    cases seen with
    | none => exact (nil_follow _).symm
    | some name => exact expandPlain_endsName name hrest
  | cons c front ih =>
    have hnone : expandPlain bindings none (c :: front ++ rest) =
        follow (expandPlain bindings none (c :: front)) (expandPlain bindings none rest) := by
      by_cases hsign : c = '$'
      · subst hsign
        exact ih (some [])
      · rw [List.cons_append, expandPlain_cons_of_ne hsign, expandPlain_cons_of_ne hsign,
          ih none, follow_assoc]
    cases seen with
    | none => exact hnone
    | some name =>
      cases hword : Text.isWordChar c with
      | true =>
        rw [List.cons_append, expandPlain, expandPlain]
        simp only [hword, if_true]
        exact ih (some (c :: name))
      | false =>
        have hends (more : List Char) : EndsName (c :: more) := by
          rintro d ⟨⟩
          exact hword
        rw [List.cons_append] at hnone ⊢
        rw [expandPlain_endsName name (hends _), expandPlain_endsName name (hends _), hnone,
          follow_assoc]

theorem expandPlain_plain (name : Name) {rest : List Char} (hrest : EndsName rest) :
    expandPlain bindings none ((Piece.plain name).chars ++ rest) =
      follow (referenceText bindings name.text.toList) (expandPlain bindings none rest) := by
  have hsign : expandPlain bindings none (Piece.plain name).chars =
      expandPlain bindings (some []) name.text.toList := by
    rw [Piece.chars, expandPlain]
    rfl
  have hne : (name.text.toList.reverse ++ []).isEmpty = false := by
    simpa using name.nonempty
  rw [expandPlain_parts none _ hrest, hsign, expandPlain_name name.wordChars, plainText, hne]
  simp

end Scanning

/-! ## Lines whose references stand clear -/

section Clear

variable {bindings : Dict Value} {pieces rest : List Piece}

theorem ClearValues.dollar_notMem (h : ClearValues bindings) {name value : List Char}
    (hvalue : referenceText bindings name = .ok value) : '$' ∉ value := by
  unfold referenceText at hvalue
  cases hget : Dict.get? bindings (String.ofList name) with
  | none =>
    rw [hget] at hvalue
    cases hvalue
    exact List.not_mem_nil
  | some v =>
    cases htext : v.text? with
    | none => simp [hget, htext] at hvalue
    | some text =>
      simp only [hget, htext, Except.ok.injEq] at hvalue
      exact hvalue ▸ h _ v text hget htext

theorem ClearValues.meanings (h : ClearValues bindings) (pieces : List Piece) :
    ClearMeanings bindings pieces := by
  intro piece _ cs hcs
  cases piece with
  | literal text clear =>
    cases hcs
    exact clear
  | plain name => exact h.dollar_notMem hcs
  | braced name => exact h.dollar_notMem hcs

/-- There is one error that replacing references in braces can end with. -/
theorem unbracedOf_error {e : ScriptError} (h : unbracedOf bindings pieces = .error e) :
    e = .tooLongToWrite := by
  induction pieces with
  | nil => cases h
  | cons piece rest ih =>
    change follow (piece.unbraced bindings) (unbracedOf bindings rest) = _ at h
    cases hpiece : piece.unbraced bindings with
    | ok cs =>
      cases hrest : unbracedOf bindings rest with
      | ok more =>
        rw [hpiece, hrest] at h
        cases h
      | error e' =>
        rw [hpiece, hrest] at h
        cases h
        exact ih hrest
    | error e' =>
      rw [hpiece] at h
      cases h
      cases piece with
      | literal | plain => cases hpiece
      | braced name => exact (referenceText_error_iff.mp hpiece).1

/-- What follows a text without dollar signs comes out on its own. -/
theorem follow_bind_expandPlain {text : List Char} (htext : '$' ∉ text)
    (x : Except ScriptError (List Char)) :
    (follow (.ok text) x >>= expandPlain bindings none) =
      follow (.ok text) (x >>= expandPlain bindings none) := by
  cases x with
  | error e => rfl
  | ok cs =>
    show expandPlain bindings none (text ++ cs) = follow _ (expandPlain bindings none cs)
    rw [expandPlain_append htext]
    cases expandPlain bindings none cs <;> rfl

/-- If no plain reference goes on with what comes out of braces, every piece comes out as what it
stands for. -/
theorem expandPlain_unbracedOf (hvalues : ClearMeanings bindings pieces)
    (hclear : StandsClear bindings pieces) :
    (unbracedOf bindings pieces >>= expandPlain bindings none) = meaningOf bindings pieces := by
  induction pieces with
  | nil => rfl
  | cons piece rest ih =>
    obtain ⟨hpiece, hrest⟩ := List.forall_mem_cons.mp hvalues
    show (follow (piece.unbraced bindings) (unbracedOf bindings rest) >>=
        expandPlain bindings none) = follow (piece.meaning bindings) (meaningOf bindings rest)
    cases piece with
    | literal text clear =>
      rw [← ih hrest hclear]
      exact follow_bind_expandPlain clear _
    | braced name =>
      rw [← ih hrest hclear]
      show (follow (referenceText bindings name.text.toList) (unbracedOf bindings rest) >>=
          expandPlain bindings none) = follow (referenceText bindings name.text.toList) _
      cases hvalue : referenceText bindings name.text.toList with
      | error e => rfl
      | ok value => exact follow_bind_expandPlain (hpiece value hvalue) _
    | plain name =>
      rw [← ih hrest hclear.2]
      show (follow (.ok (Piece.plain name).chars) (unbracedOf bindings rest) >>=
          expandPlain bindings none) = follow (referenceText bindings name.text.toList) _
      cases hcs : unbracedOf bindings rest with
      | ok cs => exact expandPlain_plain name (hclear.1 cs hcs)
      | error e =>
        -- an error in the rest comes out whether or not the name has a text
        cases hvalue : referenceText bindings name.text.toList with
        | ok value => rfl
        | error e' =>
          rw [unbracedOf_error hcs, (referenceText_error_iff.mp hvalue).1]
          rfl

theorem expandText_lineOf (pieces : List Piece) :
    expandText bindings (String.ofList (lineOf pieces)) =
      (unbracedOf bindings pieces >>= expandPlain bindings none).map String.ofList := by
  unfold expandText
  rw [String.toList_ofList, expandBraced_lineOf]
  cases unbracedOf bindings pieces with
  | error e => rfl
  | ok cs =>
    show (do return String.ofList (← expandPlain bindings none cs)) =
      (expandPlain bindings none cs).map String.ofList
    cases expandPlain bindings none cs <;> rfl

theorem expandText_of_standsClear (hvalues : ClearMeanings bindings pieces)
    (hclear : StandsClear bindings pieces) :
    expandText bindings (String.ofList (lineOf pieces)) =
      (meaningOf bindings pieces).map String.ofList := by
  rw [expandText_lineOf, expandPlain_unbracedOf hvalues hclear]

/-- Text that does not start with a reference in braces starts as it did when the references in
braces have been replaced. -/
theorem endsName_unbracedOf (hline : EndsName (lineOf rest)) (hbrace : ¬ ['$', '{'] <+: lineOf rest)
    {cs : List Char} (hcs : unbracedOf bindings rest = .ok cs) : EndsName cs := by
  induction rest generalizing cs with
  | nil =>
    cases hcs
    exact hline
  | cons piece rest ih =>
    obtain ⟨front, more, hpiece, hrest, rfl⟩ := follow_eq_ok.mp hcs
    cases piece with
    | literal text clear =>
      cases hpiece
      cases text with
      | nil => exact ih hline hbrace hrest
      | cons c text => exact hline
    | plain name =>
      cases hpiece
      rintro c ⟨⟩
      decide
    | braced name => exact absurd ⟨_, rfl⟩ hbrace

theorem standsClear_of_noneBeforeBraces (hline : Delimited pieces)
    (hbraces : NoneBeforeBraces pieces) : StandsClear bindings pieces := by
  induction pieces with
  | nil => trivial
  | cons piece rest ih =>
    cases piece with
    | literal | braced => exact ih hline hbraces
    | plain name =>
      exact ⟨fun cs hcs => endsName_unbracedOf hline.1 hbraces.1 hcs, ih hline.2 hbraces.2⟩

end Clear

/-! ## Variables under which a name grows -/

/-- The variables that a line refers to. -/
def namesOf (pieces : List Piece) : List String :=
  pieces.flatMap Piece.names

/-- Variables that all hold the same text. -/
def uniform (names : List String) (text : String) : Dict Value :=
  names.map fun name => (name, .text text)

/-- A name with more word characters behind it. -/
def Name.grown (name : Name) (more : List Char) (h : ∀ c ∈ more, Text.isWordChar c = true) :
    Name where
  text := String.ofList (name.text.toList ++ more)
  nonempty := by simp [name.nonempty]
  wordChars := by
    rw [String.toList_ofList]
    intro c hc
    rcases List.mem_append.mp hc with hc | hc
    · exact name.wordChars c hc
    · exact h c hc

section Growing

variable {bindings : Dict Value} {pieces rest : List Piece}

theorem get?_uniform (names : List String) (text name : String) :
    Dict.get? (uniform names text) name = if name ∈ names then some (.text text) else none := by
  induction names with
  | nil => rfl
  | cons first names ih =>
    show Dict.get? ((first, .text text) :: uniform names text) name = _
    rw [Dict.get?_cons, ih]
    by_cases h : name = first <;> simp [h]

theorem joined_append (f : Piece → Except ScriptError (List Char)) (front back : List Piece) :
    joined f (front ++ back) = follow (joined f front) (joined f back) := by
  induction front with
  | nil => exact (nil_follow _).symm
  | cons piece front ih =>
    show follow (f piece) (joined f (front ++ back)) = follow (follow (f piece) _) _
    rw [ih, follow_assoc]

theorem joined_congr {f g : Piece → Except ScriptError (List Char)}
    (h : ∀ piece ∈ pieces, f piece = g piece) : joined f pieces = joined g pieces := by
  induction pieces with
  | nil => rfl
  | cons piece rest ih =>
    show follow (f piece) (joined f rest) = follow (g piece) (joined g rest)
    rw [h piece List.mem_cons_self, ih fun q hq => h q (List.mem_cons_of_mem piece hq)]

theorem joined_ok {f : Piece → Except ScriptError (List Char)}
    (h : ∀ piece ∈ pieces, ∃ cs, f piece = .ok cs) : ∃ cs, joined f pieces = .ok cs := by
  induction pieces with
  | nil => exact ⟨[], rfl⟩
  | cons piece rest ih =>
    obtain ⟨front, hfront⟩ := h piece List.mem_cons_self
    obtain ⟨back, hback⟩ := ih fun q hq => h q (List.mem_cons_of_mem piece hq)
    exact ⟨front ++ back, follow_eq_ok.mpr ⟨front, back, hfront, hback, rfl⟩⟩

theorem referenceText_put {name : Name} {key : String} (h : name.text ≠ key) (v : Value) :
    referenceText (Dict.put bindings key v) name.text.toList =
      referenceText bindings name.text.toList := by
  unfold referenceText
  rw [String.ofList_toList, Dict.get?_put, if_neg h]

theorem unbracedOf_put {key : String} (h : key ∉ namesOf pieces) (v : Value) :
    unbracedOf (Dict.put bindings key v) pieces = unbracedOf bindings pieces := by
  refine joined_congr fun piece hpiece => ?_
  cases piece with
  | literal | plain => rfl
  | braced name =>
    refine referenceText_put (fun heq => h ?_) v
    exact heq ▸ List.mem_flatMap.mpr ⟨_, hpiece, List.mem_singleton_self _⟩

theorem meaningOf_put {key : String} (h : key ∉ namesOf pieces) (v : Value) :
    meaningOf (Dict.put bindings key v) pieces = meaningOf bindings pieces := by
  refine joined_congr fun piece hpiece => ?_
  cases piece with
  | literal => rfl
  | plain name | braced name =>
    refine referenceText_put (fun heq => h ?_) v
    exact heq ▸ List.mem_flatMap.mpr ⟨_, hpiece, List.mem_singleton_self _⟩

/-- A line that starts with a brace after a dollar sign starts with a reference in braces, nothing
else being written before it. -/
theorem exists_braced (h : ['$', '{'] <+: lineOf rest) :
    ∃ mid name back, rest = mid ++ .braced name :: back ∧
      ∀ bindings, unbracedOf bindings mid = .ok [] := by
  induction rest with
  | nil => simp [lineOf] at h
  | cons piece rest ih =>
    cases piece with
    | literal text clear =>
      cases text with
      | nil =>
        obtain ⟨mid, name, back, rfl, hmid⟩ := ih h
        exact ⟨.literal [] clear :: mid, name, back, rfl, fun bindings =>
          (nil_follow _).trans (hmid bindings)⟩
      | cons c text =>
        obtain ⟨more, hmore⟩ := h
        obtain ⟨rfl, -⟩ := List.cons.inj hmore
        exact absurd List.mem_cons_self clear
    | plain name =>
      obtain ⟨more, hmore⟩ := h
      obtain ⟨c, tail, hname⟩ := List.exists_cons_of_ne_nil name.toList_ne_nil
      have hword : Text.isWordChar c = true := name.wordChars c (hname ▸ List.mem_cons_self)
      have hc : '{' = c := by
        simp only [lineOf, List.flatMap_cons, Piece.chars, hname, List.cons_append,
          List.nil_append, List.cons.injEq, true_and] at hmore
        exact hmore.1
      rw [← hc] at hword
      exact absurd hword (by decide)
    | braced name => exact ⟨[], name, rest, rfl, fun _ => rfl⟩

theorem exists_plain_before_braced (h : ¬ NoneBeforeBraces pieces) :
    ∃ front name mid inner back,
      pieces = front ++ .plain name :: (mid ++ .braced inner :: back) ∧
        ∀ bindings, unbracedOf bindings mid = .ok [] := by
  induction pieces with
  | nil => exact absurd trivial h
  | cons piece rest ih =>
    have hlater (hrest : ¬ NoneBeforeBraces rest) : ∃ front name mid inner back,
        piece :: rest = front ++ .plain name :: (mid ++ .braced inner :: back) ∧
          ∀ bindings, unbracedOf bindings mid = .ok [] := by
      obtain ⟨front, name, mid, inner, back, rfl, hmid⟩ := ih hrest
      exact ⟨piece :: front, name, mid, inner, back, rfl, hmid⟩
    cases piece with
    | literal | braced => exact hlater h
    | plain name =>
      by_cases hbrace : ['$', '{'] <+: lineOf rest
      · obtain ⟨mid, inner, back, rfl, hmid⟩ := exists_braced hbrace
        exact ⟨[], name, mid, inner, back, rfl, hmid⟩
      · exact hlater fun hrest => h ⟨hbrace, hrest⟩

/-- What comes out when the name of a plain reference has grown by the word characters after it. -/
theorem expandPlain_grown (front : List Char) (name : Name) {more after : List Char}
    (hmore : ∀ c ∈ more, Text.isWordChar c = true) (hafter : EndsName after) :
    expandPlain bindings none (front ++ '$' :: (name.text.toList ++ (more ++ after))) =
      follow (expandPlain bindings none front)
        (follow (referenceText bindings (name.text.toList ++ more))
          (expandPlain bindings none after)) := by
  have hchars : (Piece.plain (name.grown more hmore)).chars ++ after =
      '$' :: (name.text.toList ++ (more ++ after)) := by
    simp [Piece.chars, Name.grown]
  have hends : EndsName ('$' :: (name.text.toList ++ (more ++ after))) := by
    rintro c ⟨⟩
    decide
  rw [expandPlain_parts none front hends, ← hchars, expandPlain_plain _ hafter]
  simp [Name.grown]

theorem referenceText_uniform {names : List String} {name : Name} (h : name.text ∈ names)
    (text : String) : referenceText (uniform names text) name.text.toList = .ok text.toList := by
  unfold referenceText
  rw [String.ofList_toList, get?_uniform, if_pos h]
  rfl

theorem mem_namesOf {piece : Piece} {name : String} (hpiece : piece ∈ pieces)
    (hname : name ∈ piece.names) : name ∈ namesOf pieces :=
  List.mem_flatMap.mpr ⟨piece, hpiece, hname⟩

theorem meaningOf_uniform (pieces : List Piece) (text : String) :
    ∃ cs, meaningOf (uniform (namesOf pieces) text) pieces = .ok cs := by
  refine joined_ok fun piece hpiece => ?_
  cases piece with
  | literal cs clear => exact ⟨cs, rfl⟩
  | plain name | braced name =>
    exact ⟨_, referenceText_uniform (mem_namesOf hpiece List.mem_cons_self) text⟩

theorem unbracedOf_uniform (pieces : List Piece) (text : String) :
    ∃ cs, unbracedOf (uniform (namesOf pieces) text) pieces = .ok cs := by
  refine joined_ok fun piece hpiece => ?_
  cases piece with
  | literal cs clear => exact ⟨cs, rfl⟩
  | plain name => exact ⟨_, rfl⟩
  | braced name =>
    exact ⟨_, referenceText_uniform (mem_namesOf hpiece List.mem_cons_self) text⟩

theorem unbracedOf_before_braced {front mid back : List Piece} {name inner : Name}
    (hmid : ∀ bindings, unbracedOf bindings mid = .ok []) :
    unbracedOf bindings (front ++ .plain name :: (mid ++ .braced inner :: back)) =
      follow (unbracedOf bindings front) (follow (.ok (Piece.plain name).chars)
        (follow (referenceText bindings inner.text.toList) (unbracedOf bindings back))) := by
  have hrest : unbracedOf bindings (mid ++ .braced inner :: back) =
      follow (unbracedOf bindings mid) (unbracedOf bindings (.braced inner :: back)) :=
    joined_append _ mid _
  rw [hmid, nil_follow] at hrest
  refine (joined_append _ front _).trans (congrArg (follow _) ?_)
  exact congrArg (follow _) hrest

theorem clearValues_uniform (names : List String) {text : String} (htext : '$' ∉ text.toList) :
    ClearValues (uniform names text) := by
  intro name v shown hget hshown
  rw [get?_uniform] at hget
  split at hget
  · cases hget
    cases hshown
    exact htext
  · cases hget

theorem ClearValues.put (h : ClearValues bindings) (key : String) {text : String}
    (htext : '$' ∉ text.toList) : ClearValues (Dict.put bindings key (.text text)) := by
  intro name v shown hget hshown
  rw [Dict.get?_put] at hget
  split at hget
  · cases hget
    cases hshown
    exact htext
  · exact h name v shown hget hshown

theorem exists_longer (names : List String) : ∃ n, ∀ name ∈ names, name.length < n := by
  induction names with
  | nil => exact ⟨0, fun _ h => absurd h List.not_mem_nil⟩
  | cons first names ih =>
    obtain ⟨n, hn⟩ := ih
    refine ⟨max (first.length + 1) n, List.forall_mem_cons.mpr ⟨by omega, fun name hname => ?_⟩⟩
    have := hn name hname
    omega

/-- Where a name has grown into one that the line does not refer to, what comes out depends on a
variable that no piece does: it may hold more than there is in all of them. -/
theorem exists_differing (hvalues : ClearValues bindings) {said start more after : List Char}
    {name : Name} (hsaid : meaningOf bindings pieces = .ok said)
    (hcs : unbracedOf bindings pieces =
      .ok (start ++ '$' :: (name.text.toList ++ (more ++ after))))
    (hword : ∀ c ∈ more, Text.isWordChar c = true) (hafter : EndsName after)
    (hkey : String.ofList (name.text.toList ++ more) ∉ namesOf pieces) :
    ∃ bindings, ClearValues bindings ∧
      (unbracedOf bindings pieces >>= expandPlain bindings none) ≠ meaningOf bindings pieces := by
  let key := String.ofList (name.text.toList ++ more)
  let long := String.ofList (List.replicate (said.length + 1) 'x')
  have hlong : referenceText (Dict.put bindings key (.text long)) (name.text.toList ++ more) =
      .ok long.toList := by
    unfold referenceText
    rw [Dict.get?_put, if_pos rfl]
    rfl
  refine ⟨Dict.put bindings key (.text long), hvalues.put key (by simp [long]), ?_⟩
  rw [unbracedOf_put hkey, meaningOf_put hkey, hcs, hsaid]
  show expandPlain _ none _ ≠ _
  rw [expandPlain_grown start name hword hafter, hlong]
  intro hsame
  obtain ⟨before, _, _, hvalue, hparts⟩ := follow_eq_ok.mp hsame
  obtain ⟨behind, _, rfl⟩ := ok_follow_eq_ok.mp hvalue
  have hlength := congrArg List.length hparts
  simp only [long, String.toList_ofList, List.length_append, List.length_replicate] at hlength
  omega

/-- If a plain reference stands right before one in braces, there are variables under which it
swallows what comes out there. All variables of the line hold more zeros than any name has
characters, so the name that grows is none of the line's. -/
theorem exists_growing (h : ¬ NoneBeforeBraces pieces) :
    ∃ bindings, ClearValues bindings ∧
      (unbracedOf bindings pieces >>= expandPlain bindings none) ≠ meaningOf bindings pieces := by
  obtain ⟨front, name, mid, inner, back, hpieces, hmid⟩ := exists_plain_before_braced h
  obtain ⟨n, hn⟩ := exists_longer (namesOf pieces)
  let zeros := List.replicate n '0'
  have hzeros : ∀ c ∈ zeros, c = '0' := fun c hc => List.eq_of_mem_replicate hc
  have hvalues : ClearValues (uniform (namesOf pieces) (String.ofList zeros)) := by
    refine clearValues_uniform _ fun hmem => ?_
    rw [String.toList_ofList] at hmem
    cases hzeros _ hmem
  obtain ⟨said, hsaid⟩ := meaningOf_uniform pieces (String.ofList zeros)
  obtain ⟨cs, hcs⟩ := unbracedOf_uniform pieces (String.ofList zeros)
  -- after the first scan the plain reference is followed by the zeros
  obtain ⟨start, tail, rfl⟩ : ∃ start tail,
      cs = start ++ '$' :: (name.text.toList ++ (zeros ++ tail)) := by
    have hmem : inner.text ∈ namesOf pieces :=
      mem_namesOf (hpieces ▸ by simp : Piece.braced inner ∈ pieces) List.mem_cons_self
    have hsplit := (congrArg (unbracedOf _) hpieces).symm.trans hcs
    rw [unbracedOf_before_braced hmid, referenceText_uniform hmem, String.toList_ofList] at hsplit
    obtain ⟨start, _, _, hplain, rfl⟩ := follow_eq_ok.mp hsplit
    obtain ⟨_, hvalue, rfl⟩ := ok_follow_eq_ok.mp hplain
    obtain ⟨tail, _, rfl⟩ := ok_follow_eq_ok.mp hvalue
    exact ⟨start, tail, rfl⟩
  -- the second scan takes them, and the word characters after them, for a part of the name
  rw [← List.takeWhile_append_dropWhile (p := Text.isWordChar) (l := tail),
    ← List.append_assoc zeros] at hcs
  refine exists_differing hvalues hsaid hcs (fun c hc => ?_) (fun c hc => ?_) fun hmem => ?_
  · rcases List.mem_append.mp hc with hc | hc
    · rw [hzeros c hc]
      decide
    · exact List.mem_takeWhile_imp hc
  · have hhead := List.head?_dropWhile_not Text.isWordChar tail
    rw [Option.mem_def.mp hc] at hhead
    exact hhead
  · have hlt := hn _ hmem
    simp only [zeros, String.length_ofList, List.length_append, List.length_replicate] at hlt
    omega

end Growing

/-! ## When references are independent -/

/-- References do not expand independently of one another. Take a line in which every plain
reference is followed by the end, by a character of no name or by a reference. It comes out as its
pieces one by one, whatever the variables hold, exactly if no reference in braces follows directly
on a plain one. Under given variables it does so at least if no plain reference goes on with what
comes out of braces. -/
theorem references_independent_iff {pieces : List Piece} (hline : Delimited pieces) :
    ((∀ bindings, ClearValues bindings →
        expandText bindings (String.ofList (lineOf pieces)) =
          (meaningOf bindings pieces).map String.ofList) ↔
      NoneBeforeBraces pieces) ∧
    ∀ bindings, ClearValues bindings → StandsClear bindings pieces →
      expandText bindings (String.ofList (lineOf pieces)) =
        (meaningOf bindings pieces).map String.ofList := by
  refine ⟨⟨fun hall => ?_, fun hbraces bindings hvalues => ?_⟩, fun bindings hvalues hclear => ?_⟩
  · by_contra hbraces
    obtain ⟨bindings, hvalues, hdiffer⟩ := exists_growing hbraces
    have hsame := hall bindings hvalues
    rw [expandText_lineOf] at hsame
    exact hdiffer (map_ofList_injective hsame)
  · exact expandText_of_standsClear (hvalues.meanings pieces)
      (standsClear_of_noneBeforeBraces hline hbraces)
  · exact expandText_of_standsClear (hvalues.meanings pieces) hclear

/-- The name of a variable. -/
def nameA : Name where
  text := "a"
  nonempty := by decide
  wordChars := List.all_eq_true.mp (by decide)

/-- The name of another variable. -/
def nameB : Name where
  text := "b"
  nonempty := by decide
  wordChars := List.all_eq_true.mp (by decide)

/-- A plain reference with one in braces right after it. -/
def sideBySide : List Piece :=
  [.plain nameA, .braced nameB]

/-- Two values side by side: with `x` and `-y` they come out as they are, but with `x` and `y` the
line refers to a variable `ay`, and nothing comes out. -/
theorem neighbours_run_together :
    Delimited sideBySide ∧
      ¬ (∀ bindings, ClearValues bindings →
        expandText bindings (String.ofList (lineOf sideBySide)) =
          (meaningOf bindings sideBySide).map String.ofList) ∧
      expandText (Dict.ofList [("a", .text "x"), ("b", .text "-y")])
        (String.ofList (lineOf sideBySide)) = .ok "x-y" ∧
      expandText (Dict.ofList [("a", .text "x"), ("b", .text "y")])
        (String.ofList (lineOf sideBySide)) = .ok "" ∧
      (meaningOf (Dict.ofList [("a", .text "x"), ("b", .text "y")]) sideBySide).map
        String.ofList = .ok "xy" := by
  have hline : Delimited sideBySide := ⟨fun _ hc => Option.some.inj hc ▸ by decide, trivial⟩
  obtain ⟨hiff, hclear⟩ := references_independent_iff hline
  refine ⟨hline, fun hall => ?_, ?_, by decide +kernel, by decide +kernel⟩
  · exact (hiff.mp hall).1 (by decide)
  · refine (hclear _ ?_ ⟨fun cs hcs => ?_, trivial⟩).trans (by decide +kernel)
    · have hnil : ClearValues (uniform [] "") := clearValues_uniform [] (by decide)
      exact (hnil.put "a" (by decide)).put "b" (by decide)
    · have hvalue : unbracedOf (Dict.ofList [("a", .text "x"), ("b", .text "-y")])
          [.braced nameB] = .ok "-y".toList := by decide +kernel
      cases hvalue.symm.trans hcs
      exact fun _ hc => Option.some.inj hc ▸ by decide

end RobotConsole.Script
