import Mathlib.Data.List.TakeWhile
import RobotConsole.Script.Block

/-!
# Lines as they are written

A directive can be written with any blanks around it and with its keywords in any letter case. This
module says which lines are ways to write the opening and the closing lines of blocks, and proves
that each of them is read as what it is: `classify` finds its kind, and `argumentOf?` and
`forLoopOf?` find its parts.
-/

namespace RobotConsole.Text

variable {cs rest word : List Char} {c : Char} {keyword line normal raw : String}

/-- Nothing but blanks. -/
def AllBlank (cs : List Char) : Prop :=
  ∀ c ∈ cs, isBlank c = true

instance (cs : List Char) : Decidable (AllBlank cs) :=
  List.decidableBAll _ cs

theorem AllBlank.append {xs ys : List Char} (hxs : AllBlank xs) (hys : AllBlank ys) :
    AllBlank (xs ++ ys) := by
  intro c hc
  rcases List.mem_append.mp hc with hc | hc
  · exact hxs c hc
  · exact hys c hc

/-- Text that neither starts nor ends with a blank, and is not empty. -/
structure Inked (cs : List Char) : Prop where
  head : ∃ c rest, cs = c :: rest ∧ isBlank c = false
  last : ∃ front c, cs = front ++ [c] ∧ isBlank c = false

theorem Inked.append {front back : List Char} (hfront : Inked front) (hback : Inked back)
    (mid : List Char) : Inked (front ++ mid ++ back) := by
  obtain ⟨c, rest, hc, hcblank⟩ := hfront.head
  obtain ⟨init, d, hd, hdblank⟩ := hback.last
  refine ⟨⟨c, rest ++ mid ++ back, ?_, hcblank⟩, ⟨front ++ mid ++ init, d, ?_, hdblank⟩⟩
  · rw [hc, List.cons_append, List.cons_append]
  · simp only [hd, List.append_assoc]

theorem inked_of_forall (hne : cs ≠ []) (h : ∀ c ∈ cs, isBlank c = false) :
    Inked cs := by
  refine ⟨?_, ?_⟩
  · obtain ⟨c, rest, rfl⟩ := List.exists_cons_of_ne_nil hne
    exact ⟨c, rest, rfl, h c List.mem_cons_self⟩
  · refine ⟨cs.dropLast, cs.getLast hne, (List.dropLast_concat_getLast hne).symm, ?_⟩
    exact h _ (List.getLast_mem hne)

theorem dropWhile_inked (h : Inked cs) (back : List Char) :
    (cs ++ back).dropWhile isBlank = cs ++ back := by
  obtain ⟨c, rest, rfl, hc⟩ := h.head
  rw [List.cons_append, List.dropWhile_cons_of_neg (by simp [hc])]

theorem dropBlanksEnd_inked (h : Inked cs) {back : List Char}
    (hback : AllBlank back) : dropBlanksEnd (cs ++ back) = cs := by
  obtain ⟨front, c, rfl, hc⟩ := h.last
  have hrev : ∀ d ∈ back.reverse, isBlank d = true := fun d hd => hback d (List.mem_reverse.mp hd)
  unfold dropBlanksEnd
  rw [List.reverse_append, List.dropWhile_append_of_pos hrev, List.reverse_append,
    List.reverse_singleton, List.singleton_append, List.dropWhile_cons_of_neg (by simp [hc])]
  simp

theorem trimChars_inked {indent trail : List Char} (hindent : AllBlank indent) (h : Inked cs)
    (htrail : AllBlank trail) : trimChars (indent ++ cs ++ trail) = cs := by
  unfold trimChars
  rw [List.append_assoc, List.dropWhile_append_of_pos hindent, dropWhile_inked h,
    dropBlanksEnd_inked h htrail]

theorem trimChars_self (h : Inked cs) : trimChars cs = cs := by
  have hnil : AllBlank [] := fun _ hc => absurd hc List.not_mem_nil
  simpa using trimChars_inked hnil h hnil

theorem exists_blanks_around (cs : List Char) :
    ∃ lead tail, AllBlank lead ∧ AllBlank tail ∧ cs = lead ++ trimChars cs ++ tail := by
  refine ⟨cs.takeWhile isBlank,
    ((cs.dropWhile isBlank).reverse.takeWhile isBlank).reverse, ?_, ?_, ?_⟩
  · exact fun c hc => List.mem_takeWhile_imp hc
  · exact fun c hc => List.mem_takeWhile_imp (List.mem_reverse.mp hc)
  · unfold trimChars dropBlanksEnd
    rw [List.append_assoc, ← List.reverse_append, List.takeWhile_append_dropWhile,
      List.reverse_reverse, List.takeWhile_append_dropWhile]

theorem not_blank_of_dropWhile
    (h : cs.dropWhile isBlank = c :: rest) : isBlank c = false := by
  have hhead := List.head?_dropWhile_not isBlank cs
  rw [h] at hhead
  exact hhead

theorem inked_trimChars (h : trimChars cs ≠ []) : Inked (trimChars cs) := by
  unfold trimChars dropBlanksEnd at h ⊢
  cases hfront : (cs.dropWhile isBlank).reverse.dropWhile isBlank with
  | nil => simp [hfront] at h
  | cons last front =>
    refine ⟨?_, front.reverse, last, by simp, not_blank_of_dropWhile hfront⟩
    -- what is left starts where the text without its leading blanks starts
    have hstart : cs.dropWhile isBlank = (last :: front).reverse ++
        ((cs.dropWhile isBlank).reverse.takeWhile isBlank).reverse := by
      rw [← hfront, ← List.reverse_append, List.takeWhile_append_dropWhile, List.reverse_reverse]
    cases hrev : (last :: front).reverse with
    | nil => simp at hrev
    | cons c rest =>
      rw [hrev, List.cons_append] at hstart
      exact ⟨c, rest, rfl, not_blank_of_dropWhile hstart⟩

/-! ## Names and keywords -/

/-- The code points of blanks. -/
def blankCodes : List Nat :=
  List.range' 0x09 5 ++ List.range' 0x1c 5 ++ [0x85, 0xa0, 0x1680] ++ List.range' 0x2000 11 ++
    [0x2028, 0x2029, 0x202f, 0x205f, 0x3000]

theorem toNat_mem_blankCodes (h : isBlank c = true) : c.toNat ∈ blankCodes := by
  unfold isBlank at h
  unfold blankCodes
  simp only [Bool.or_eq_true, Bool.and_eq_true, decide_eq_true_eq, beq_iff_eq, List.mem_append,
    List.mem_range'_1, List.mem_cons, List.not_mem_nil, or_false] at h ⊢
  omega

theorem not_blank_of_toLower (h : isBlank c.toLower = false) : isBlank c = false := by
  have hcodes : ∀ n ∈ blankCodes, (Char.ofNat n).toLower = Char.ofNat n := by decide +kernel
  by_contra hblank
  have hsame := hcodes _ (toNat_mem_blankCodes (Bool.not_eq_false _ ▸ hblank))
  rw [Char.ofNat_toNat] at hsame
  rw [hsame] at h
  exact hblank h

theorem not_blank_of_isWordChar (h : isWordChar c = true) : isBlank c = false := by
  have hcodes : ∀ n ∈ blankCodes, isWordChar (Char.ofNat n) = false := by decide +kernel
  by_contra hblank
  have hword := hcodes _ (toNat_mem_blankCodes (Bool.not_eq_false _ ▸ hblank))
  rw [Char.ofNat_toNat, h] at hword
  cases hword

theorem toNat_lt_of_toLower (h : c.toLower.toNat < 0x80) : c.toNat < 0x80 := by
  unfold Char.toLower at h
  split at h
  · rename_i hupper
    have hle : c.val ≤ 90 := hupper.2
    have : c.toNat ≤ 90 := hle
    omega
  · exact h

theorem lowerFrom_cons_ascii (before : List Char) (rest : List Char)
    (h : c.toNat < 0x80) :
    lowerFrom before (c :: rest) = c.toLower :: lowerFrom (c :: before) rest := by
  have hdotted : (c == 'İ') = false := by
    rw [beq_eq_false_iff_ne]
    rintro rfl
    exact absurd h (by decide)
  have hsigma : (c == 'Σ') = false := by
    rw [beq_eq_false_iff_ne]
    rintro rfl
    exact absurd h (by decide)
  rw [lowerFrom]
  simp [hdotted, hsigma, lowerChar, h]

/-- A word in any letter case, given in lower case. -/
def Spells (keyword : String) (word : List Char) : Prop :=
  word.map Char.toLower = keyword.toList

instance (keyword : String) (word : List Char) : Decidable (Spells keyword word) :=
  inferInstanceAs (Decidable (_ = _))

/-- A keyword holds letters of ASCII. -/
def IsKeyword (keyword : String) : Prop :=
  keyword.toList ≠ [] ∧ ∀ c ∈ keyword.toList, c.toNat < 0x80 ∧ isBlank c = false

instance (keyword : String) : Decidable (IsKeyword keyword) :=
  @instDecidableAnd _ _ inferInstance (List.decidableBAll _ keyword.toList)

theorem Spells.inked (h : Spells keyword word)
    (hkeyword : IsKeyword keyword) : Inked word := by
  refine inked_of_forall ?_ ?_
  · rintro rfl
    exact hkeyword.1 h.symm
  · intro c hc
    refine not_blank_of_toLower (hkeyword.2 _ ?_).2
    rw [← show word.map Char.toLower = keyword.toList from h]
    exact List.mem_map_of_mem hc

/-- Lowering a text that starts with a keyword gives the keyword and the rest lowered. -/
theorem lowerFrom_append_spelled {keyword : List Char}
    (hword : word.map Char.toLower = keyword) (hascii : ∀ c ∈ keyword, c.toNat < 0x80)
    (before rest : List Char) :
    ∃ before', lowerFrom before (word ++ rest) = keyword ++ lowerFrom before' rest := by
  induction word generalizing keyword before with
  | nil =>
    cases hword
    exact ⟨before, rfl⟩
  | cons c word ih =>
    cases hword
    have hc : c.toNat < 0x80 := toNat_lt_of_toLower (hascii _ List.mem_cons_self)
    obtain ⟨before', ih⟩ :=
      ih rfl (fun d hd => hascii d (List.mem_cons_of_mem _ hd)) (c :: before)
    refine ⟨before', ?_⟩
    rw [List.cons_append, lowerFrom_cons_ascii before _ hc, ih]
    rfl

end RobotConsole.Text

namespace RobotConsole.Script

open Text (AllBlank Inked IsKeyword Spells)

/-- A line that holds a text with blanks around it. -/
def Written (text : List Char) (raw : String) : Prop :=
  ∃ indent trail, AllBlank indent ∧ AllBlank trail ∧ raw.toList = indent ++ text ++ trail

theorem Written.toList_trim {text : List Char} (h : Written text raw)
    (htext : Inked text) : (Text.trim raw).toList = text := by
  obtain ⟨indent, trail, hindent, htrail, hraw⟩ := h
  unfold Text.trim
  rw [hraw, Text.trimChars_inked hindent htext htrail, String.toList_ofList]

/-- A text of one line that is not empty. -/
structure Phrase where
  text : String
  nonempty : text ≠ ""
  oneLine : '\n' ∉ text.toList

/-- What a phrase says: its text without the blanks around it. -/
def Phrase.said (p : Phrase) : String :=
  Text.trim p.text

theorem Phrase.inked {p : Phrase} (h : p.said ≠ "") : Inked p.said.toList := by
  unfold said Text.trim at h ⊢
  rw [String.toList_ofList]
  refine Text.inked_trimChars fun hnil => h ?_
  rw [hnil]

/-- Blanks around a phrase may as well be counted to the blanks around it on the line. -/
theorem Written.said {front : List Char} {p : Phrase}
    (h : Written (front ++ p.text.toList) raw) :
    ∃ gap, AllBlank gap ∧ Written (front ++ gap ++ p.said.toList) raw := by
  obtain ⟨indent, trail, hindent, htrail, hraw⟩ := h
  obtain ⟨lead, tail, hlead, htail, htext⟩ := Text.exists_blanks_around p.text.toList
  refine ⟨lead, hlead, indent, tail ++ trail, hindent, htail.append htrail, ?_⟩
  unfold Phrase.said Text.trim
  rw [hraw, String.toList_ofList]
  conv =>
    lhs
    rw [htext]
  simp only [List.append_assoc]

theorem Written.toList_trim_said {mid : List Char} {p : Phrase}
    (h : Written (word ++ mid ++ p.text.toList) raw) (hword : Inked word) (hp : p.said ≠ "") :
    ∃ gap, AllBlank gap ∧ (Text.trim raw).toList = word ++ (mid ++ gap ++ p.said.toList) := by
  obtain ⟨gap, hgap, hraw⟩ := h.said
  refine ⟨gap, hgap, ?_⟩
  rw [hraw.toList_trim]
  · simp only [List.append_assoc]
  · rw [List.append_assoc word]
    exact hword.append (Phrase.inked hp) _

theorem Phrase.oneLine_said (p : Phrase) : '\n' ∉ p.said.toList := by
  obtain ⟨lead, tail, -, -, htext⟩ := Text.exists_blanks_around p.text.toList
  intro hmem
  unfold said Text.trim at hmem
  rw [String.toList_ofList] at hmem
  refine p.oneLine ?_
  rw [htext]
  exact List.mem_append_left _ (List.mem_append_right _ hmem)

/-- A name of a variable. -/
structure Name where
  text : String
  nonempty : text ≠ ""
  wordChars : ∀ c ∈ text.toList, Text.isWordChar c = true

/-- A line that opens a block with a keyword and a phrase. -/
def Opens (keyword : String) (p : Phrase) (raw : String) : Prop :=
  ∃ word gap, Spells keyword word ∧ AllBlank gap ∧
    Written (word ++ ' ' :: gap ++ p.text.toList) raw

/-- A line that opens a for loop. -/
def OpensFor (name : Name) (p : Phrase) (raw : String) : Prop :=
  ∃ word gap₁ gap₂ word₂ gap₃, Spells "for" word ∧ Spells "in" word₂ ∧ AllBlank gap₁ ∧
    AllBlank gap₂ ∧ AllBlank gap₃ ∧
    Written (word ++ (' ' :: gap₁ ++ name.text.toList ++ ' ' :: gap₂ ++ word₂ ++ ' ' :: gap₃) ++
      p.text.toList) raw

/-- A line with nothing but a keyword. -/
def Marks (keyword : String) (raw : String) : Prop :=
  ∃ word, Spells keyword word ∧ Written word raw

/-! ## Reading the parts -/

theorem afterKeyword?_spelled {keyword : List Char} (h : word.map Char.toLower = keyword)
    (rest : List Char) : afterKeyword? keyword (word ++ rest) = some rest := by
  induction word generalizing keyword with
  | nil =>
    cases h
    rfl
  | cons c word ih =>
    cases h
    have hform : isFormOf c.toLower c = true := by simp [isFormOf]
    rw [List.map_cons, List.cons_append, afterKeyword?, if_pos hform]
    exact ih rfl

theorem afterBlanks?_gap {gap : List Char} (hgap : AllBlank gap)
    (hrest : ∃ c more, rest = c :: more ∧ Text.isBlank c = false) :
    afterBlanks? (' ' :: gap ++ rest) = some rest := by
  have hall : ∀ c ∈ ' ' :: gap, Text.isBlank c = true := by
    intro c hc
    rcases List.mem_cons.mp hc with h | h
    · rw [h]
      decide
    · exact hgap c h
  show (if Text.isBlank ' ' then some ((' ' :: gap ++ rest).dropWhile Text.isBlank) else none) = _
  obtain ⟨c, more, rfl, hc⟩ := hrest
  rw [if_pos (by decide), List.dropWhile_append_of_pos hall,
    List.dropWhile_cons_of_neg (by simp [hc])]

theorem restOfLine?_oneLine (h : '\n' ∉ cs) : restOfLine? cs = some cs := by
  have hnone : cs.dropWhile (· != '\n') = [] := by
    rw [List.dropWhile_eq_nil_iff]
    intro c hc
    rw [bne_iff_ne]
    rintro rfl
    exact h hc
  unfold restOfLine?
  rw [hnone]

theorem takeName?_append {name : Name}
    (hc : Text.isWordChar c = false) :
    takeName? (name.text.toList ++ c :: rest) = some (name.text, c :: rest) := by
  have htake : (name.text.toList ++ c :: rest).takeWhile Text.isWordChar = name.text.toList := by
    rw [List.takeWhile_append_of_pos name.wordChars, List.takeWhile_cons_of_neg (by simp [hc]),
      List.append_nil]
  have hdrop : (name.text.toList ++ c :: rest).dropWhile Text.isWordChar = c :: rest := by
    rw [List.dropWhile_append_of_pos name.wordChars, List.dropWhile_cons_of_neg (by simp [hc])]
  have hne : name.text.toList.isEmpty = false := by
    rw [List.isEmpty_eq_false_iff]
    exact fun hnil => name.nonempty (String.toList_eq_nil_iff.mp hnil)
  unfold takeName?
  simp only [htake, hdrop, hne, Bool.false_eq_true, if_false, String.ofList_toList]

theorem Name.inked (name : Name) : Inked name.text.toList :=
  Text.inked_of_forall (fun hnil => name.nonempty (String.toList_eq_nil_iff.mp hnil))
    fun c hc => Text.not_blank_of_isWordChar (name.wordChars c hc)

theorem Phrase.said_isEmpty {p : Phrase} (hp : p.said ≠ "") : p.said.toList.isEmpty = false := by
  rw [List.isEmpty_eq_false_iff]
  exact fun hnil => hp (String.toList_eq_nil_iff.mp hnil)

theorem argumentOf?_opens {p : Phrase}
    (hkeyword : IsKeyword keyword) (h : Opens keyword p raw) (hp : p.said ≠ "") :
    argumentOf? keyword (Text.trim raw) = some p.said := by
  obtain ⟨word, gap, hword, hgap, hraw⟩ := h
  obtain ⟨gap', hgap', hline⟩ := hraw.toList_trim_said (hword.inked hkeyword) hp
  have hsaid : Inked p.said.toList := Phrase.inked hp
  have hblanks : afterBlanks? (' ' :: gap ++ gap' ++ p.said.toList) = some p.said.toList :=
    afterBlanks?_gap (hgap.append hgap') hsaid.head
  unfold argumentOf?
  rw [hline, afterKeyword?_spelled hword]
  simp only [Option.bind_eq_bind, Option.bind_some, hblanks, Phrase.said_isEmpty hp,
    Bool.false_eq_true, if_false, restOfLine?_oneLine p.oneLine_said, Text.trimChars_self hsaid,
    String.ofList_toList]

theorem forLoopOf?_opens {name : Name} {p : Phrase} (h : OpensFor name p raw)
    (hp : p.said ≠ "") : forLoopOf? (Text.trim raw) = some (name.text, p.said) := by
  obtain ⟨word, gap₁, gap₂, word₂, gap₃, hword, hword₂, hgap₁, hgap₂, hgap₃, hraw⟩ := h
  obtain ⟨gap₄, hgap₄, hline⟩ := hraw.toList_trim_said (hword.inked (by decide)) hp
  have hsaid : Inked p.said.toList := Phrase.inked hp
  have hline : (Text.trim raw).toList = word ++ (' ' :: gap₁ ++ (name.text.toList ++
      (' ' :: gap₂ ++ (word₂ ++ (' ' :: (gap₃ ++ gap₄) ++ p.said.toList))))) := by
    rw [hline]
    simp only [List.append_assoc, List.cons_append]
  have hin : Inked word₂ := hword₂.inked (by decide)
  have hstart : ∀ {cs : List Char} (back : List Char), Inked cs →
      ∃ c more, cs ++ back = c :: more ∧ Text.isBlank c = false := by
    intro cs back hcs
    obtain ⟨c, more, rfl, hc⟩ := hcs.head
    exact ⟨c, more ++ back, rfl, hc⟩
  unfold forLoopOf?
  rw [hline, afterKeyword?_spelled hword]
  simp only [Option.bind_eq_bind, Option.bind_some]
  rw [afterBlanks?_gap hgap₁ (hstart _ name.inked), Option.bind_some]
  rw [List.cons_append, takeName?_append (by decide), Option.bind_some]
  simp only
  rw [← List.cons_append, afterBlanks?_gap hgap₂ (hstart _ hin), Option.bind_some,
    afterKeyword?_spelled hword₂, Option.bind_some,
    afterBlanks?_gap (hgap₃.append hgap₄) hsaid.head]
  simp only [Option.bind_some, Phrase.said_isEmpty hp, Bool.false_eq_true, if_false,
    restOfLine?_oneLine p.oneLine_said, Text.trimChars_self hsaid, String.ofList_toList]

/-! ## Sorting lines -/

/-- A lowered line that starts with a keyword and a space. -/
def StartsWith (keyword normal : String) : Prop :=
  ∃ more, normal.toList = keyword.toList ++ ' ' :: more

theorem startsWith_lower
    (hkeyword : IsKeyword keyword) (hword : Spells keyword word)
    (hline : line.toList = word ++ ' ' :: rest) : StartsWith keyword (Text.lower line) := by
  obtain ⟨before, hlower⟩ := Text.lowerFrom_append_spelled hword
    (fun c hc => (hkeyword.2 c hc).1) [] (' ' :: rest)
  refine ⟨Text.lowerFrom (' ' :: before) rest, ?_⟩
  unfold Text.lower
  rw [String.toList_ofList, hline, hlower, Text.lowerFrom_cons_ascii before rest (by decide)]
  rfl

theorem Opens.startsWith {p : Phrase}
    (hkeyword : IsKeyword keyword) (h : Opens keyword p raw) (hp : p.said ≠ "") :
    StartsWith keyword (Text.lower (Text.trim raw)) := by
  obtain ⟨word, gap, hword, -, hraw⟩ := h
  obtain ⟨gap', -, hline⟩ := hraw.toList_trim_said (hword.inked hkeyword) hp
  exact startsWith_lower hkeyword hword hline

theorem OpensFor.startsWith {name : Name} {p : Phrase} (h : OpensFor name p raw)
    (hp : p.said ≠ "") : StartsWith "for" (Text.lower (Text.trim raw)) := by
  obtain ⟨word, gap₁, gap₂, word₂, gap₃, hword, -, -, -, -, hraw⟩ := h
  obtain ⟨gap₄, -, hline⟩ := hraw.toList_trim_said (hword.inked (by decide)) hp
  exact startsWith_lower (by decide) hword hline

theorem normalLine_of_marks (hkeyword : IsKeyword keyword)
    (h : Marks keyword raw) : normalLine raw = keyword := by
  obtain ⟨word, hword, hraw⟩ := h
  obtain ⟨before, hlower⟩ := Text.lowerFrom_append_spelled hword
    (fun c hc => (hkeyword.2 c hc).1) [] []
  unfold normalLine Text.lower
  rw [hraw.toList_trim (hword.inked hkeyword), ← List.append_nil word, hlower]
  simp [Text.lowerFrom]

theorem not_skipped
    (h : (Text.lower line).toList = c :: rest) (hc : c ≠ '#') :
    (line == "" || startsWith line "#") = false := by
  have hlower : Text.lowerFrom [] line.toList = c :: rest := by
    rw [← h]
    unfold Text.lower
    rw [String.toList_ofList]
  rw [Bool.or_eq_false_iff]
  cases hline : line.toList with
  | nil =>
    rw [hline] at hlower
    cases hlower
  | cons d more =>
    refine ⟨?_, ?_⟩
    · rw [beq_eq_false_iff_ne]
      rintro rfl
      cases hline
    · unfold startsWith
      rw [hline]
      show ('#' == d && true) = false
      rw [Bool.and_true, beq_eq_false_iff_ne]
      rintro rfl
      rw [hline, Text.lowerFrom_cons_ascii [] more (by decide)] at hlower
      injection hlower with hd _
      exact hc (hd ▸ rfl)

/-- The keywords that open blocks, with the kinds of their lines. -/
def openings : List (String × LineKind) :=
  [("for", .forLoop), ("while", .whileLoop), ("if", .conditional)]

theorem classify_opening {kind : LineKind}
    (hmem : (keyword, kind) ∈ openings) (h : StartsWith keyword (Text.lower line)) :
    classify line = kind := by
  obtain ⟨more, hlower⟩ := h
  simp only [openings, List.mem_cons, Prod.mk.injEq, List.not_mem_nil, or_false] at hmem
  rcases hmem with ⟨rfl, rfl⟩ | ⟨rfl, rfl⟩ | ⟨rfl, rfl⟩ <;>
    · have hskip := not_skipped hlower (by decide)
      unfold classify startsWith at *
      simp only [hskip, hlower]
      rfl

/-- A line that the block finders pass over. -/
structure Inert (normal : String) : Prop where
  opens : opensBlock normal = false
  closes : closesBlock normal = false
  notElse : normal ≠ "else"

theorem StartsWith.ne {other : String} (h : StartsWith keyword normal)
    (hother : ' ' ∉ other.toList) : normal ≠ other := by
  rintro rfl
  obtain ⟨more, hmore⟩ := h
  exact hother (by rw [hmore]; exact List.mem_append_right _ List.mem_cons_self)

theorem StartsWith.closes (h : StartsWith keyword normal) :
    closesBlock normal = false := by
  unfold closesBlock
  simp [h.ne (show ' ' ∉ "endfor".toList by decide), h.ne (show ' ' ∉ "endwhile".toList by decide),
    h.ne (show ' ' ∉ "endif".toList by decide)]

theorem StartsWith.inert (h : StartsWith keyword normal)
    (hkeyword : keyword = "set" ∨ keyword = "call") : Inert normal := by
  refine ⟨?_, h.closes, h.ne (by decide)⟩
  obtain ⟨more, hmore⟩ := h
  unfold opensBlock startsWith
  rw [hmore]
  rcases hkeyword with rfl | rfl <;> rfl

theorem startsWith_of_eq_true (keyword : String)
    (h : startsWith normal (keyword ++ " ") = true) : StartsWith keyword normal := by
  obtain ⟨more, hmore⟩ := List.isPrefixOf_iff_prefix.mp h
  refine ⟨more, ?_⟩
  rw [← hmore, String.toList_append, List.append_assoc]
  rfl

theorem inert_of_skipped (h : (line == "" || startsWith line "#") = true) :
    Inert (Text.lower line) := by
  rcases Bool.or_eq_true_iff.mp h with h | h
  · rw [beq_iff_eq.mp h]
    exact ⟨by decide, by decide, by decide⟩
  · obtain ⟨more, hmore⟩ := List.isPrefixOf_iff_prefix.mp h
    have hlower : (Text.lower line).toList = '#' :: Text.lowerFrom ['#'] more := by
      unfold Text.lower
      rw [String.toList_ofList, ← hmore]
      exact Text.lowerFrom_cons_ascii [] more (by decide)
    have hne : ∀ other : String, other.toList.head? ≠ some '#' → Text.lower line ≠ other := by
      rintro other hother rfl
      exact hother (by rw [hlower]; rfl)
    refine ⟨?_, ?_, hne _ (by decide)⟩
    · unfold opensBlock startsWith
      rw [hlower]
      rfl
    · unfold closesBlock
      simp [hne "endfor" (by decide), hne "endwhile" (by decide), hne "endif" (by decide)]

/-- What a line is when it is neither the first nor the last line of a block. -/
inductive SentenceKind where
  | remark
  | command
  | assignment
  | call
  deriving Repr, DecidableEq

/-- How the line of a sentence is sorted. -/
def SentenceKind.lineKind : SentenceKind → LineKind
  | .remark => .skipped
  | .command => .command
  | .assignment => .assignment
  | .call => .call

theorem inert_of_classify {kind : SentenceKind}
    (h : classify line = kind.lineKind) : Inert (Text.lower line) := by
  unfold classify at h
  dsimp only at h
  split at h
  · exact inert_of_skipped ‹_›
  split at h
  · cases kind <;> cases h
  split at h
  · exact (startsWith_of_eq_true "set" ‹_›).inert (.inl rfl)
  split at h
  · cases kind <;> cases h
  split at h
  · cases kind <;> cases h
  split at h
  · cases kind <;> cases h
  split at h
  · exact (startsWith_of_eq_true "call" ‹_›).inert (.inr rfl)
  split at h
  · cases kind <;> cases h
  · -- a command failed every test, those of the block finders among them
    rename_i hfor hwhile hif _ hstray
    simp only [List.contains_eq_mem, List.mem_cons, List.not_mem_nil, or_false, decide_eq_true_eq,
      not_or] at hstray
    refine ⟨?_, ?_, hstray.1⟩
    · unfold opensBlock
      simp [hfor, hwhile, hif]
    · unfold closesBlock
      simp [hstray.2.1, hstray.2.2.1, hstray.2.2.2.1]

end RobotConsole.Script
