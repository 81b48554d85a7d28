import RobotConsole.Proofs.Command.Rendering
import RobotConsole.Proofs.Script.NumberSign

/-!
# Words with a number sign

A word in which a number sign comes before any equals sign is no option of any command and no name
of one (`not_takesOption_of_sign`), so a line that holds such a word is refused or has it for an
argument (`sign_in_args`). Text after blanks and a number sign at the end of a line always brings
such a word, whether the quotes in it close or not (`exists_signed_word`).
-/

namespace RobotConsole.Command

variable {blanks rest word : List Char} {words : List (List Char)} {c : Command}

/-- A word with a number sign that no equals sign stands before. -/
def Signed (word : List Char) : Prop :=
  ∃ front back, word = front ++ '#' :: back ∧ '=' ∉ front

theorem Signed.append (h : Signed word) (more : List Char) :
    Signed (word ++ more) := by
  obtain ⟨front, back, rfl, hfront⟩ := h
  exact ⟨front, back ++ more, by rw [List.append_assoc, List.cons_append], hfront⟩

theorem Signed.mem (h : Signed word) : '#' ∈ word := by
  obtain ⟨front, back, rfl, -⟩ := h
  exact List.mem_append_right _ List.mem_cons_self

/-! ## Splitting -/

theorem splitFrom_signed {place : Place} {cs : List Char}
    (h : splitFrom place word cs = some words) (hplace : place ≠ .between)
    (hword : Signed word.reverse) : ∃ w ∈ words, Signed w := by
  have htaken (c : Char) {word : List Char} (hword : Signed word.reverse) :
      Signed (c :: word).reverse := by
    rw [List.reverse_cons]
    exact hword.append [c]
  have hin : Place.word ≠ .between ∧ Place.single ≠ .between ∧ Place.double ≠ .between := by decide
  fun_induction splitFrom place word cs generalizing words with
  | case1 => exact absurd rfl hplace
  | case2 word =>
    cases h
    exact ⟨_, List.mem_singleton_self _, hword⟩
  | case3 | case4 | case8 | case16 => cases h
  | case5 _ _ _ _ ih | case7 _ _ _ _ ih => exact ih h hin.1 hword
  | case14 _ _ _ _ _ _ _ _ ih => exact ih h hin.2.1 hword
  | case15 _ _ _ _ _ _ _ _ _ ih => exact ih h hin.2.2 hword
  | case6 _ _ _ _ ih => exact ih h hin.2.1 (htaken _ hword)
  | case9 _ _ _ _ _ _ _ ih | case11 _ _ _ _ _ ih => exact ih h hin.2.2 (htaken _ hword)
  | case10 _ _ _ _ _ _ _ ih => exact ih h hin.2.2 (htaken _ (htaken _ hword))
  | case17 _ _ _ _ _ _ _ _ _ _ _ ih | case18 _ _ _ _ _ _ _ _ _ _ ih =>
    exact ih h hin.1 (htaken _ hword)
  | case12 =>
    rw [if_pos rfl] at h
    obtain ⟨more, -, rfl⟩ := Option.map_eq_some_iff.mp h
    exact ⟨_, List.mem_cons_self, hword⟩
  | case13 place _ _ _ _ hne hsingle hdouble =>
    cases place with
    | between => exact absurd rfl hplace
    | word => exact absurd rfl hne
    | single => exact (hsingle rfl).elim
    | double => exact (hdouble rfl).elim

theorem wordsFrom_signed {current : List Char} (hcurrent : Signed current.reverse)
    (cs : List Char) : ∃ w ∈ Text.wordsFrom current cs, Signed w.toList := by
  have hne {current : List Char} (hcurrent : Signed current.reverse) :
      ¬ current.isEmpty = true := by
    intro hempty
    rw [List.isEmpty_iff.mp hempty] at hcurrent
    exact absurd hcurrent.mem List.not_mem_nil
  induction cs generalizing current with
  | nil =>
    rw [Text.wordsFrom, if_neg (hne hcurrent)]
    exact ⟨_, List.mem_singleton_self _, by rwa [String.toList_ofList]⟩
  | cons c cs ih =>
    rw [Text.wordsFrom]
    split
    · rw [if_neg (hne hcurrent)]
      exact ⟨_, List.mem_cons_self, by rwa [String.toList_ofList]⟩
    · refine ih ?_
      rw [List.reverse_cons]
      exact hcurrent.append [c]

theorem wordsFrom_blank_sign (current front : List Char) {d : Char} (hd : Text.isBlank d = true)
    (rest : List Char) :
    ∃ w ∈ Text.wordsFrom current (front ++ d :: '#' :: rest), Signed w.toList := by
  induction front generalizing current with
  | nil =>
    have hsign : Signed ['#'].reverse := ⟨[], [], rfl, List.not_mem_nil⟩
    obtain ⟨w, hw, hsigned⟩ := wordsFrom_signed hsign rest
    have hstart : Text.wordsFrom [] ('#' :: rest) = Text.wordsFrom ['#'] rest := by
      rw [Text.wordsFrom]
      exact if_neg (by decide)
    rw [List.nil_append, Text.wordsFrom, if_pos hd, hstart]
    split
    · exact ⟨w, hw, hsigned⟩
    · exact ⟨w, List.mem_cons_of_mem _ hw, hsigned⟩
  | cons c front ih =>
    rw [List.cons_append, Text.wordsFrom]
    split
    · obtain ⟨w, hw, hsigned⟩ := ih []
      split
      · exact ⟨w, hw, hsigned⟩
      · exact ⟨w, List.mem_cons_of_mem _ hw, hsigned⟩
    · exact ih (c :: current)

/-- Between words, blanks that separate nothing and a number sign start a new word. -/
theorem splitFrom_start_sign
    (hblanks : ∀ c ∈ blanks, isOrdinary c = true ∧ c ≠ '=')
    (h : splitFrom .between [] (blanks ++ '#' :: rest) = some words) : ∃ w ∈ words, Signed w := by
  have hall : ∀ c ∈ blanks ++ ['#'], isOrdinary c = true := by
    intro c hc
    rcases List.mem_append.mp hc with hc | hc
    · exact (hblanks c hc).1
    · rw [List.mem_singleton.mp hc]
      rfl
  have hsigned : Signed (blanks ++ ['#']) :=
    ⟨blanks, [], rfl, fun hmem => (hblanks '=' hmem).2 rfl⟩
  have hstart : splitFrom .between [] (blanks ++ '#' :: rest) =
      splitFrom .word (blanks ++ ['#']).reverse rest := by
    rw [← List.singleton_append, ← List.append_assoc]
    generalize blanks ++ ['#'] = front at hall hsigned
    cases front with
    | nil => exact absurd hsigned.mem List.not_mem_nil
    | cons c front =>
      rw [List.cons_append, splitFrom_outside _ _ rfl (hall c List.mem_cons_self),
        splitFrom_ordinary fun d hd => hall d (List.mem_cons_of_mem c hd), List.reverse_cons]
  rw [hstart] at h
  exact splitFrom_signed h (by decide) (by rwa [List.reverse_reverse])

theorem splitFrom_separator_sign {front : List Char} {b : Char}
    (hfront : ∀ c ∈ front, isSeparator c = true ∨ isOrdinary c = true) (hb : isSeparator b = true)
    (hblanks : ∀ c ∈ blanks, isOrdinary c = true ∧ c ≠ '=') {place : Place}
    (hplace : place.isOutside = true)
    (h : splitFrom place word (front ++ b :: (blanks ++ '#' :: rest)) = some words) :
    ∃ w ∈ words, Signed w := by
  -- a separator ends the word under way, if there is one
  have hend {c : Char} (hc : isSeparator c = true) {place : Place}
      (hplace : place.isOutside = true) {word cs : List Char} {words : List (List Char)}
      (h : splitFrom place word (c :: cs) = some words)
      (hmore : ∀ {more}, splitFrom .between [] cs = some more → ∃ w ∈ more, Signed w) :
      ∃ w ∈ words, Signed w := by
    rw [splitFrom.eq_def] at h
    cases place with
    | between =>
      simp only [hc, if_true] at h
      exact hmore h
    | word =>
      simp only [hc, if_true] at h
      obtain ⟨more, hrest, rfl⟩ := Option.map_eq_some_iff.mp h
      obtain ⟨w, hw, hsigned⟩ := hmore hrest
      exact ⟨w, List.mem_cons_of_mem _ hw, hsigned⟩
    | single | double => cases hplace
  induction front generalizing place word words with
  | nil => exact hend hb hplace h fun hrest => splitFrom_start_sign hblanks hrest
  | cons c front ih =>
    have hrest := fun d hd => hfront d (List.mem_cons_of_mem c hd)
    rcases hfront c List.mem_cons_self with hc | hc
    · exact hend hc hplace h fun hmore => ih hrest rfl hmore
    · rw [List.cons_append, splitFrom_outside _ _ hplace hc] at h
      exact ih hrest rfl h

/-- A blank that separates no words is a character like others, and no equals sign. -/
theorem isOrdinary_of_isBlank {c : Char} (hblank : Text.isBlank c = true)
    (hseparator : isSeparator c = false) : isOrdinary c = true ∧ c ≠ '=' := by
  have hne (d : Char) (hd : Text.isBlank d = false) : c ≠ d := by
    rintro rfl
    rw [hblank] at hd
    cases hd
  have hsingle := hne '\'' (by decide)
  have hdouble := hne '"' (by decide)
  have hescape := hne '\\' (by decide)
  refine ⟨?_, hne '=' (by decide)⟩
  simp [isOrdinary, hseparator, hsingle, hdouble, hescape]

theorem exists_last_separator
    (h : ∃ b ∈ blanks, isSeparator b = true) : ∃ front b back, blanks = front ++ b :: back ∧
      isSeparator b = true ∧ ∀ c ∈ back, isSeparator c = false := by
  obtain ⟨b, hb⟩ : ∃ b, blanks.reverse.find? isSeparator = some b := by
    rw [← Option.isSome_iff_exists, List.find?_isSome]
    simpa using h
  obtain ⟨hseparator, back, front, hblanks, hback⟩ := List.find?_eq_some_iff_append.mp hb
  refine ⟨front.reverse, b, back.reverse, ?_, hseparator, fun c hc => ?_⟩
  · rw [← List.reverse_reverse blanks, hblanks]
    simp
  · simpa using hback c (List.mem_reverse.mp hc)

/-- Text after blanks and a number sign brings a word with a number sign, however it goes on. -/
theorem exists_signed_word {front : List Char}
    (hfront : ∀ c ∈ front, isSeparator c = true ∨ isOrdinary c = true)
    (hblanks : Text.AllBlank blanks) (hseparator : ∃ b ∈ blanks, isSeparator b = true)
    (rest : List Char) :
    ∃ w ∈ splitWords (String.ofList (front ++ (blanks ++ '#' :: rest))), Signed w.toList := by
  obtain ⟨before, b, after, rfl, hb, hafter⟩ := exists_last_separator hseparator
  unfold splitWords splitQuoted?
  rw [String.toList_ofList]
  cases h : splitFrom .between [] (front ++ ((before ++ b :: after) ++ '#' :: rest)) with
  | some words =>
    have hblank {c : Char} (hc : c ∈ before ++ b :: after) : Text.isBlank c = true :=
      hblanks c hc
    have hbefore : ∀ c ∈ front ++ before, isSeparator c = true ∨ isOrdinary c = true := by
      intro c hc
      rcases List.mem_append.mp hc with hc | hc
      · exact hfront c hc
      · cases hkind : isSeparator c with
        | true => exact .inl rfl
        | false =>
          exact .inr (isOrdinary_of_isBlank (hblank (List.mem_append_left _ hc)) hkind).1
    have hordinary : ∀ c ∈ after, isOrdinary c = true ∧ c ≠ '=' := fun c hc =>
      isOrdinary_of_isBlank (hblank (List.mem_append_right _ (List.mem_cons_of_mem b hc)))
        (hafter c hc)
    have hchars : front ++ ((before ++ b :: after) ++ '#' :: rest) =
        (front ++ before) ++ b :: (after ++ '#' :: rest) := by simp
    rw [hchars] at h
    obtain ⟨w, hw, hsigned⟩ := splitFrom_separator_sign hbefore hb hordinary rfl h
    exact ⟨String.ofList w, List.mem_map_of_mem hw, by rwa [String.toList_ofList]⟩
  | none =>
    -- the line is split at blanks, of which the last stands right before the number sign
    obtain ⟨start, d, hlast⟩ : ∃ start d, before ++ b :: after = start ++ [d] :=
      ⟨_, _, (List.dropLast_concat_getLast (by simp)).symm⟩
    have hd : Text.isBlank d = true := hblanks d (by simp [hlast])
    obtain ⟨w, hw, hsigned⟩ := wordsFrom_blank_sign [] (front ++ start) hd rest
    refine ⟨w, ?_, hsigned⟩
    rw [Option.map_none, Option.getD_none, Text.words, String.toList_ofList, hlast]
    simpa using hw

/-! ## Parsing -/

theorem Verb.sign_notMem_name (verb : Verb) : '#' ∉ verb.name.toList := by
  cases verb <;> decide

theorem Signed.mem_key {word key text : String} (h : Signed word.toList)
    (hword : assignment? word = some (key, text)) : '#' ∈ key.toList := by
  obtain ⟨front, back, hchars, hfront⟩ := h
  unfold assignment? at hword
  split at hword
  · cases hword
    have hall : ∀ c ∈ front ++ ['#'], (c != '=') = true := by
      intro c hc
      rw [bne_iff_ne]
      rintro rfl
      rcases List.mem_append.mp hc with hc | hc
      · exact hfront hc
      · exact absurd hc (by decide)
    rw [String.toList_ofList, hchars, ← List.singleton_append, ← List.append_assoc,
      List.takeWhile_append_of_pos hall]
    exact List.mem_append_left _ (List.mem_append_right _ (List.mem_singleton_self _))
  · cases hword

theorem describes_of_parseWords {words : List String}
    (h : parseWords words = .ok (some c)) : ∃ name rest, words = name :: rest ∧
      c.verb.name = name ∧ Grammatical c.verb rest ∧ Describes rest c := by
  cases words with
  | nil => cases h
  | cons name rest =>
    rcases parseWords_cases name rest with ⟨d, hparse, hverb, hwords, hdescribes⟩ |
      ⟨cause, hparse, -⟩
    · rw [h] at hparse
      cases hparse
      exact ⟨name, rest, rfl, hverb, hwords, hdescribes⟩
    · rw [h] at hparse
      cases hparse

/-- A word with a number sign before any equals sign can only be an argument. -/
theorem sign_in_args {words : List String} (h : parseWords words = .ok (some c))
    {word : String} (hword : word ∈ words) (hsigned : Signed word.toList) : word ∈ c.args := by
  obtain ⟨name, rest, rfl, hverb, hwords, hdescribes⟩ := describes_of_parseWords h
  rcases List.mem_cons.mp hword with rfl | hmem
  · rw [← hverb] at hsigned
    exact absurd hsigned.mem c.verb.sign_notMem_name
  · cases hassigned : assignment? word with
    | some entry =>
      obtain ⟨key, text⟩ := entry
      have hentry : (key, text) ∈ assignmentsIn rest :=
        List.mem_filterMap.mpr ⟨word, hmem, hassigned⟩
      obtain ⟨default, -, hdefault, -⟩ := hwords.options key text hentry
      exact absurd (Verb.isLower_of_mem_key hdefault (hsigned.mem_key hassigned)) (by decide)
    | none =>
      rw [hdescribes.args]
      exact List.mem_filter.mpr ⟨hmem, by
        simpa using (assignment?_eq_none_iff word).mp hassigned⟩

theorem mem_words_of_args {words : List String} (h : parseWords words = .ok (some c))
    {word : String} (hword : word ∈ c.args) : word ∈ words := by
  obtain ⟨name, rest, rfl, -, -, hdescribes⟩ := describes_of_parseWords h
  rw [hdescribes.args] at hword
  exact List.mem_cons_of_mem name (List.mem_filter.mp hword).1

/-- A line that is accepted is parsed otherwise with text after blanks and a number sign. -/
theorem parse_ne_of_sign {line line' : String}
    (hline : line'.toList = line.toList ++ (blanks ++ '#' :: rest))
    (h : parse line = .ok (some c)) (hsign : '#' ∉ line.toList)
    (hchars : ∀ c ∈ line.toList, isSeparator c = true ∨ isOrdinary c = true)
    (hblanks : Text.AllBlank blanks) (hseparator : ∃ b ∈ blanks, isSeparator b = true) :
    parse line ≠ parse line' := by
  intro hsame
  rw [h] at hsame
  obtain ⟨word, hword, hsigned⟩ := exists_signed_word hchars hblanks hseparator rest
  rw [← hline, String.ofList_toList] at hword
  have hmem := mem_words_of_args h (sign_in_args hsame.symm hword hsigned)
  exact hsign ((splitWords_sign line).mp ⟨word, hmem, hsigned.mem⟩)

end RobotConsole.Command
