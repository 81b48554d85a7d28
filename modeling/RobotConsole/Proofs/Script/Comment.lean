import RobotConsole.Proofs.Script.Assignment
import RobotConsole.Proofs.Script.Interchange

/-!
# Lines with comments

A comment is blanks, a number sign and text after a line. Trimming leaves it with the line that it
follows (`trailed_on`), and so does everything else: a line is still the directive that it starts as
(`Trailed.classify_directive`), the end of a block is one no longer (`Trailed.command_of_stray`), a
subroutine is defined under a name that ends in the comment (`Trailed.definedName`), and a line is
expanded to what it is expanded to alone, with the comment after it (`Trailed.expandText`).
-/

namespace RobotConsole.Script

open Arithmetic (Value)
open Text (AllBlank Inked)

/-! ## Lines with comments -/

/-- Blanks, a number sign and any text. -/
structure Comment where
  gap : List Char
  text : List Char
  nonempty : gap ≠ []
  blank : AllBlank gap

/-- A line with a comment after it. -/
def Comment.on (c : Comment) (raw : String) : String :=
  raw ++ String.ofList (c.gap ++ '#' :: c.text)

/-- A line without number signs and quotes. -/
def Bare (raw : String) : Prop :=
  '#' ∉ raw.toList ∧ '"' ∉ raw.toList ∧ '\'' ∉ raw.toList

instance (raw : String) : Decidable (Bare raw) :=
  inferInstanceAs (Decidable (_ ∧ _ ∧ _))

theorem bare_name (n : Name) : Bare n.text := by
  have hother {c : Char} (hc : Text.isWordChar c = false) : c ∉ n.text.toList := by
    intro hmem
    rw [n.wordChars c hmem] at hc
    cases hc
  exact ⟨hother (by decide), hother (by decide), hother (by decide)⟩

/-- A line that is not blank, and the same line with a comment that does not go on in the next
line. -/
def Commented (raw raw' : String) : Prop :=
  Bare raw ∧ Text.trim raw ≠ "" ∧ ∃ c : Comment, '\n' ∉ c.text ∧ raw' = c.on raw

/-- A trimmed line, and the same line with blanks, a number sign and text after it. -/
def Trailed (gap : List Char) (line line' : String) : Prop :=
  ∃ mid text, line'.toList = line.toList ++ (mid ++ '#' :: text) ∧ mid ≠ [] ∧ AllBlank mid ∧
    ∀ b ∈ gap, b ∈ mid

theorem exists_sign_trimmed (text : List Char) : ∃ inside trail,
    '#' :: text = '#' :: inside ++ trail ∧ Inked ('#' :: inside) ∧ AllBlank trail := by
  obtain ⟨lead, trail, hlead, htrail, htext⟩ := Text.exists_blanks_around ('#' :: text)
  have hne : Text.trimChars ('#' :: text) ≠ [] := by
    intro hnil
    have hmem := (Text.trimChars_sign ('#' :: text)).mpr List.mem_cons_self
    rw [hnil] at hmem
    cases hmem
  have hinked := Text.inked_trimChars hne
  generalize Text.trimChars ('#' :: text) = inked at htext hinked
  cases lead with
  | cons c lead =>
    cases htext
    exact absurd (hlead '#' List.mem_cons_self) (by decide)
  | nil =>
    obtain ⟨c, inside, rfl, -⟩ := hinked.head
    cases htext
    exact ⟨inside, trail, rfl, hinked, htrail⟩

theorem trailed_on {raw : String} (h : Text.trim raw ≠ "") (c : Comment) :
    Trailed c.gap (Text.trim raw) (Text.trim (c.on raw)) := by
  have hne : Text.trimChars raw.toList ≠ [] := fun hnil => h (by
    unfold Text.trim
    rw [hnil])
  obtain ⟨lead, tail, hlead, htail, hraw⟩ := Text.exists_blanks_around raw.toList
  have hinked := Text.inked_trimChars hne
  obtain ⟨inside, trail, htext, hinside, htrail⟩ := exists_sign_trimmed c.text
  unfold Text.trim Trailed
  rw [String.toList_ofList, String.toList_ofList]
  generalize Text.trimChars raw.toList = inked at hraw hinked
  refine ⟨tail ++ c.gap, inside, ?_, ?_, htail.append c.blank,
    fun b hb => List.mem_append_right _ hb⟩
  · have hchars : (c.on raw).toList =
        lead ++ (inked ++ (tail ++ c.gap) ++ ('#' :: inside)) ++ trail := by
      unfold Comment.on
      rw [String.toList_append, String.toList_ofList, hraw, htext]
      simp
    rw [hchars, Text.trimChars_inked hlead (hinked.append hinside _) htrail,
      List.append_assoc]
  · exact fun hnil => c.nonempty (List.append_eq_nil_iff.mp hnil).2

theorem Trailed.sign {gap : List Char} {line line' : String} (h : Trailed gap line line') :
    '#' ∈ line'.toList := by
  obtain ⟨mid, text, hline, -⟩ := h
  simp [hline]

theorem Bare.sign_trim {raw : String} (h : Bare raw) : '#' ∉ (Text.trim raw).toList := by
  unfold Text.trim
  rw [String.toList_ofList, Text.trimChars_sign]
  exact h.1

/-! ## Kinds of lines -/

section BlockEnds

variable {line word : String} (hend : word ∈ blockEnds)
  (hstart : startsWith (Text.lower line) word = true)
include hend hstart

/-- A line that starts with a word that ends blocks starts with no other keyword. -/
theorem startsWith_eq_false_of_blockEnd :
    ∀ start ∈ "def " :: directiveStarts, startsWith (Text.lower line) start = false := by
  have hapart : ∀ word ∈ blockEnds, ∀ start ∈ "def " :: directiveStarts,
      word.toList.isPrefixOf start.toList = false ∧
        start.toList.isPrefixOf word.toList = false := by decide
  intro start hmem
  rw [Bool.eq_false_iff]
  intro hline
  obtain ⟨hshort, hlong⟩ := hapart word hend start hmem
  rcases List.prefix_or_prefix_of_prefix (List.isPrefixOf_iff_prefix.mp hstart)
    (List.isPrefixOf_iff_prefix.mp hline) with hword | hword
  · rw [List.isPrefixOf_iff_prefix.mpr hword] at hshort
    cases hshort
  · rw [List.isPrefixOf_iff_prefix.mpr hword] at hlong
    cases hlong

theorem not_skipped_of_blockEnd : (line == "" || startsWith line "#") = false := by
  have hhead : ∀ word ∈ blockEnds, ∃ c rest, word.toList = c :: rest ∧ c ≠ '#' := by
    simp [blockEnds]
  obtain ⟨c, rest, hchars, hc⟩ := hhead word hend
  obtain ⟨more, hmore⟩ := List.isPrefixOf_iff_prefix.mp hstart
  rw [hchars, List.cons_append] at hmore
  exact not_skipped hmore.symm hc

end BlockEnds

section Kinds

variable {gap : List Char} {line line' : String} (h : Trailed gap line line')
include h

/-- What a line starts with in lower case it starts with when a comment follows. -/
theorem Trailed.startsWith_lower {start : String}
    (hstart : 'σ' ∉ start.toList ∧ 'ς' ∉ start.toList)
    (hline : startsWith (Text.lower line) start = true) :
    startsWith (Text.lower line') start = true := by
  obtain ⟨mid, text, hchars, -⟩ := h
  unfold startsWith Text.lower at *
  rw [String.toList_ofList, List.isPrefixOf_iff_prefix] at hline ⊢
  rw [hchars]
  exact Text.isPrefix_lowerFrom_append hstart [] line.toList _ hline

theorem Trailed.classify_directive {start : String} {kind : LineKind}
    (hd : (start, kind) ∈ directives) (hkind : classify line = kind) : classify line' = kind := by
  have hletters : ∀ d ∈ directives, 'σ' ∉ d.1.toList ∧ 'ς' ∉ d.1.toList := by decide
  rw [classify_eq_iff_starts hd] at hkind ⊢
  exact h.startsWith_lower (hletters _ hd) hkind

/-- The word that ends a block is no such word with a comment, but a command. -/
theorem Trailed.command_of_stray (hkind : classify line = .stray) :
    classify line' = .command ∧ definedName? line' = none := by
  have hend := classify_eq_stray_iff.mp hkind
  have hletters : ∀ word ∈ blockEnds, 'σ' ∉ word.toList ∧ 'ς' ∉ word.toList := by decide
  have hstart : startsWith (Text.lower line') (Text.lower line) = true :=
    h.startsWith_lower (hletters _ hend) (List.isPrefixOf_iff_prefix.mpr (List.prefix_refl _))
  have hother := startsWith_eq_false_of_blockEnd hend hstart
  have hskip := not_skipped_of_blockEnd hend hstart
  rw [Bool.or_eq_false_iff] at hskip
  refine ⟨classify_of_isCommandLine ⟨beq_eq_false_iff_ne.mp hskip.1, hskip.2, ?_, ?_⟩, ?_⟩
  · exact fun start hmem => hother start (List.mem_cons_of_mem _ hmem)
  · intro hmem
    have hsign : '#' ∈ (Text.lower line').toList := Text.mem_lower h.sign (by decide) (by decide)
    have hends : ∀ word ∈ blockEnds, '#' ∉ word.toList := by decide
    exact hends _ hmem hsign
  · unfold definedName?
    rw [hother "def " List.mem_cons_self]
    rfl

/-- A definition with a comment has the number sign in the name that it defines. -/
theorem Trailed.definedName {name : String} (hname : definedName? line = some name) :
    ∃ name', definedName? line' = some name' ∧ '#' ∈ name'.toList := by
  have hopens : startsWith (Text.lower line) "def " = true := by
    unfold definedName? at hname
    split at hname
    · assumption
    · cases hname
  have hopens' := h.startsWith_lower (by decide) hopens
  unfold definedName?
  rw [if_pos hopens']
  refine ⟨_, rfl, ?_⟩
  obtain ⟨mid, text, hchars, hne, hmid, -⟩ := h
  obtain ⟨d, mid, rfl⟩ := List.exists_cons_of_ne_nil hne
  have hd : (!Text.isBlank d) = false := by rw [hmid d List.mem_cons_self]; rfl
  rw [String.toList_ofList, Text.trimChars_sign, hchars, List.dropWhile_append]
  split
  · rw [List.cons_append, List.dropWhile_cons_of_neg (by simp [hd])]
    simp
  · simp

end Kinds

/-! ## References end at blanks -/

theorem ok_of_bind {ε α β : Type} {x : Except ε α} {f : α → Except ε β} {b : β}
    (h : (x >>= f) = .ok b) : ∃ a, x = .ok a ∧ f a = .ok b := by
  cases x with
  | error e => cases h
  | ok a => exact ⟨a, rfl, h⟩

section Blanks

variable (bindings : Dict Value) {d : Char} (hd : Text.isBlank d = true) (rest : List Char)
include hd

theorem ne_of_blank {e : Char} (he : Text.isBlank e = false) : (d == e) = false := by
  rw [beq_eq_false_iff_ne]
  rintro rfl
  rw [hd] at he
  cases he

theorem expandBraced_blank (state : Braced) (cs : List Char) :
    expandBraced bindings state (cs ++ d :: rest) = (do
      let front ← expandBraced bindings state cs
      return front ++ d :: (← expandBraced bindings .outside rest)) := by
  have hdollar := ne_of_blank hd (show Text.isBlank '$' = false by decide)
  have hopen := ne_of_blank hd (show Text.isBlank '{' = false by decide)
  have hclose := ne_of_blank hd (show Text.isBlank '}' = false by decide)
  have hword : Text.isWordChar d = false := not_isWordChar_of_blank hd
  induction cs generalizing state with
  | nil =>
    cases state with
    | outside | dollar =>
      simp only [List.nil_append, expandBraced, hdollar, hopen, Bool.false_eq_true, if_false]
      rfl
    | name seen =>
      simp only [List.nil_append, expandBraced, hdollar, hclose, hword, Bool.false_and,
        Bool.false_eq_true, if_false]
      rfl
  | cons c cs ih =>
    simp only [List.cons_append, expandBraced]
    cases state with
    | outside =>
      simp only [ih]
      split <;> simp
    | dollar =>
      simp only [ih]
      split
      · rfl
      · split <;> simp
    | name seen =>
      simp only [ih]
      split
      · rfl
      · split
        · simp
        · split <;> simp

theorem expandPlain_blank (seen : Option (List Char)) (cs : List Char) :
    expandPlain bindings seen (cs ++ d :: rest) = (do
      let front ← expandPlain bindings seen cs
      return front ++ d :: (← expandPlain bindings none rest)) := by
  have hdollar := ne_of_blank hd (show Text.isBlank '$' = false by decide)
  have hword : Text.isWordChar d = false := not_isWordChar_of_blank hd
  induction cs generalizing seen with
  | nil =>
    cases seen with
    | none =>
      simp only [List.nil_append, expandPlain, hdollar, Bool.false_eq_true, if_false]
      rfl
    | some name =>
      simp only [List.nil_append, expandPlain, hdollar, hword, Bool.false_eq_true, if_false]
  | cons c cs ih =>
    simp only [List.cons_append, expandPlain]
    cases seen with
    | none =>
      simp only [ih]
      split <;> simp
    | some name =>
      simp only [ih]
      split
      · rfl
      · split <;> simp

theorem expandText_blank {front : List Char} {expanded : String}
    (h : expandText bindings (String.ofList (front ++ d :: rest)) = .ok expanded) :
    ∃ text more, expandText bindings (String.ofList front) = .ok text ∧
      expandText bindings (String.ofList rest) = .ok more ∧
      expanded.toList = text.toList ++ d :: more.toList := by
  unfold expandText at *
  rw [String.toList_ofList, expandBraced_blank bindings hd] at h
  rw [String.toList_ofList, String.toList_ofList]
  obtain ⟨whole, hwhole, h⟩ := ok_of_bind h
  obtain ⟨braced, hbraced, hwhole⟩ := ok_of_bind hwhole
  obtain ⟨braced', hbraced', hwhole⟩ := ok_of_bind hwhole
  cases hwhole
  obtain ⟨plain, hplain, h⟩ := ok_of_bind h
  rw [expandPlain_blank bindings hd] at hplain
  obtain ⟨text, htext, hplain⟩ := ok_of_bind hplain
  obtain ⟨more, hmore, hplain⟩ := ok_of_bind hplain
  cases hplain
  cases h
  refine ⟨String.ofList text, String.ofList more, ?_, ?_, by simp⟩
  · rw [hbraced]
    show (expandPlain bindings none braced >>= fun cs => pure (String.ofList cs)) = _
    rw [htext]
    rfl
  · rw [hbraced']
    show (expandPlain bindings none braced' >>= fun cs => pure (String.ofList cs)) = _
    rw [hmore]
    rfl

end Blanks

theorem expandText_front {bindings : Dict Value} {front rest : List Char} (hfront : '$' ∉ front)
    {expanded : String}
    (h : expandText bindings (String.ofList (front ++ rest)) = .ok expanded) :
    ∃ more, expanded.toList = front ++ more := by
  unfold expandText at h
  rw [String.toList_ofList, expandBraced_append hfront] at h
  obtain ⟨whole, hwhole, h⟩ := ok_of_bind h
  obtain ⟨plain, hplain, h⟩ := ok_of_bind h
  cases hbraced : expandBraced bindings .outside rest with
  | error e =>
    rw [hbraced] at hwhole
    cases hwhole
  | ok braced =>
    rw [hbraced] at hwhole
    cases hwhole
    rw [expandPlain_append hfront] at hplain
    cases hmore : expandPlain bindings none braced with
    | error e =>
      rw [hmore] at hplain
      cases hplain
    | ok more =>
      rw [hmore] at hplain
      cases hplain
      cases h
      exact ⟨more, String.toList_ofList⟩

/-- A line with a comment is expanded to what the line is expanded to, with the comment after it. -/
theorem Trailed.expandText {gap : List Char} {line line' : String} (h : Trailed gap line line')
    {bindings : Dict Value} {expanded' : String}
    (hexpanded : expandText bindings line' = .ok expanded') :
    ∃ expanded mid text, expandText bindings line = .ok expanded ∧
      expanded'.toList = expanded.toList ++ (mid ++ '#' :: text) ∧ AllBlank mid ∧
      ∀ b ∈ gap, b ∈ mid := by
  obtain ⟨mid, text, hline, hne, hmid, hgap⟩ := h
  obtain ⟨d, mid, rfl⟩ := List.exists_cons_of_ne_nil hne
  have hd : Text.isBlank d = true := hmid d List.mem_cons_self
  rw [← String.ofList_toList (s := line'), hline, List.cons_append] at hexpanded
  obtain ⟨expanded, more, hexpand, hmore, hchars⟩ := expandText_blank bindings hd _ hexpanded
  have hdollar : '$' ∉ mid ++ ['#'] := by
    intro hmem
    rcases List.mem_append.mp hmem with hmem | hmem
    · exact absurd (hmid '$' (List.mem_cons_of_mem d hmem)) (by decide)
    · exact absurd hmem (by decide)
  rw [← List.singleton_append, ← List.append_assoc] at hmore
  obtain ⟨text', hmore⟩ := expandText_front hdollar hmore
  rw [String.ofList_toList] at hexpand
  refine ⟨expanded, d :: mid, text', hexpand, ?_, hmid, hgap⟩
  rw [hchars, hmore]
  simp

/-! ## Reading lines with comments -/

section Reading

variable {more : List Char}

theorem afterKeyword?_append {keyword cs rest : List Char}
    (h : afterKeyword? keyword cs = some rest) :
    afterKeyword? keyword (cs ++ more) = some (rest ++ more) := by
  induction keyword generalizing cs with
  | nil =>
    cases h
    rfl
  | cons letter keyword ih =>
    cases cs with
    | nil => cases h
    | cons c cs =>
      rw [afterKeyword?] at h
      rw [List.cons_append, afterKeyword?]
      split at h
      · rename_i hform
        rw [if_pos hform]
        exact ih h
      · cases h

theorem afterBlanks?_append {cs rest : List Char} (h : afterBlanks? cs = some rest)
    (hrest : rest ≠ []) : afterBlanks? (cs ++ more) = some (rest ++ more) := by
  cases cs with
  | nil => cases h
  | cons c cs =>
    unfold afterBlanks? at h ⊢
    dsimp only [List.cons_append] at h ⊢
    split at h
    · rename_i hblank
      cases h
      rw [if_pos hblank, ← List.cons_append, List.dropWhile_append,
        if_neg (mt List.isEmpty_iff.mp hrest)]
    · cases h

theorem takeName?_more {cs rest : List Char} {name : String} (h : takeName? cs = some (name, rest))
    (hrest : rest ≠ []) : takeName? (cs ++ more) = some (name, rest ++ more) := by
  unfold takeName? at h ⊢
  dsimp only at h ⊢
  split at h
  · cases h
  · rename_i hname
    cases h
    have hdrop : (cs ++ more).dropWhile Text.isWordChar = cs.dropWhile Text.isWordChar ++ more := by
      rw [List.dropWhile_append, if_neg (mt List.isEmpty_iff.mp hrest)]
    have htake : (cs ++ more).takeWhile Text.isWordChar = cs.takeWhile Text.isWordChar := by
      rw [List.takeWhile_append, if_neg]
      intro hlength
      have hwhole := congrArg List.length
        (List.takeWhile_append_dropWhile (p := Text.isWordChar) (l := cs))
      rw [List.length_append, hlength, Nat.add_eq_left] at hwhole
      exact hrest (List.length_eq_zero_iff.mp hwhole)
    rw [htake, if_neg hname, hdrop]

theorem ne_nil_of_afterBlanks? {cs rest : List Char} (h : afterBlanks? cs = some rest) :
    cs ≠ [] := by
  rintro rfl
  cases h

theorem ne_nil_of_takeName? {cs rest : List Char} {name : String}
    (h : takeName? cs = some (name, rest)) : cs ≠ [] := by
  rintro rfl
  cases h

theorem forLoopOf?_name {line line' name name' text text' : String}
    (hline : line'.toList = line.toList ++ more) (h : forLoopOf? line = some (name, text))
    (h' : forLoopOf? line' = some (name', text')) :
    name' = name ∧ ∃ taken : Name, taken.text = name := by
  unfold forLoopOf? at h h'
  simp only [Option.bind_eq_bind, Option.bind_eq_some_iff] at h
  obtain ⟨word, hword, cs, hcs, ⟨taken, rest⟩, hname, blanks, hblanks, found, -, values, -,
    hsame⟩ := h
  have htaken : taken = name := by
    split at hsame
    · split at hsame
      · cases hsame
        rfl
      · cases hsame
    · obtain ⟨said, -, hsame⟩ := Option.bind_eq_some_iff.mp hsame
      cases hsame
      rfl
  refine ⟨?_, htaken ▸ exists_name_of_takeName? hname⟩
  rw [hline, afterKeyword?_append hword] at h'
  simp only [Option.bind_eq_bind, Option.bind_some] at h'
  rw [afterBlanks?_append hcs (ne_nil_of_takeName? hname), Option.bind_some,
    takeName?_more hname (ne_nil_of_afterBlanks? hblanks), Option.bind_some] at h'
  simp only [Option.bind_eq_some_iff] at h'
  obtain ⟨blanks', -, found', -, values', -, hsame'⟩ := h'
  split at hsame'
  · split at hsame'
    · cases hsame'
      exact htaken
    · cases hsame'
  · obtain ⟨said, -, hsame'⟩ := Option.bind_eq_some_iff.mp hsame'
    cases hsame'
    exact htaken

end Reading

end RobotConsole.Script
