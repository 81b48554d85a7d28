import RobotConsole.Console.Execute
import RobotConsole.Proofs.Script.Arguments

/-!
# Texts that are said and shown

The text of `say` and `screen` is written without quotes around it. The line is split by the rules
of quoting all the same, unless an apostrophe has no partner or a backslash nothing after it: then
it is split at blanks. So apostrophes and backslashes decide whether the words come through as they
are written (`words_kept_iff`). The rules of quoting drop the first of them in any case
(`Splits.sublist`), and without them there is nothing to drop. `Splits` says what the splitter does
on lines without double quotes.
-/

namespace RobotConsole.Command

/-! ## Apostrophes and backslashes -/

/-- Where a reader stands who looks for apostrophes and backslashes only. -/
inductive Stance where
  | plain
  | quoted
  | escaped
  deriving DecidableEq

/-- Where the reader stands after a character. -/
def Stance.after : Stance → Char → Stance
  | .plain, c => if c = '\'' then .quoted else if c = '\\' then .escaped else .plain
  | .quoted, c => if c = '\'' then .plain else .quoted
  | .escaped, _ => .plain

/-- Whether every apostrophe has its partner, and every backslash outside a pair something after
it. -/
def inPairs (cs : List Char) : Bool :=
  cs.foldl Stance.after .plain = .plain

/-- An apostrophe or a backslash. -/
def isMark (c : Char) : Bool :=
  c == '\'' || c == '\\'

/-- Where the splitter stands, as far as apostrophes go. -/
def Place.stance : Place → Stance
  | .between | .word => .plain
  | .single | .double => .quoted

theorem Place.stance_of_isOutside {place : Place} (h : place.isOutside = true) :
    place.stance = .plain := by
  cases place with
  | between | word => rfl
  | single | double => cases h

theorem not_isMark_of_isOrdinary {c : Char} (h : isOrdinary c = true) : isMark c = false := by
  simp only [isOrdinary, Bool.and_eq_true, bne_iff_ne] at h
  simp [isMark, h.1.1.2, h.2]

theorem not_isMark_of_isSeparator {c : Char} (h : isSeparator c = true) : isMark c = false := by
  simp only [isSeparator, Bool.or_eq_true, beq_iff_eq] at h
  rcases h with ((rfl | rfl) | rfl) | rfl <;> rfl

theorem Stance.after_of_not_isMark {c : Char} (h : isMark c = false) :
    Stance.after .plain c = .plain := by
  simp only [isMark, Bool.or_eq_false_iff, beq_eq_false_iff_ne] at h
  simp [Stance.after, h.1, h.2]

theorem isBlank_of_isSeparator {c : Char} (h : isSeparator c = true) : Text.isBlank c = true := by
  simp only [isSeparator, Bool.or_eq_true, beq_iff_eq] at h
  rcases h with ((rfl | rfl) | rfl) | rfl <;> decide

/-! ## Splitting lines without double quotes -/

/-- What the splitter makes of the rest of a line without double quotes. -/
inductive Splits : Place → List Char → List Char → Option (List (List Char)) → Prop
  | done {word : List Char} : Splits .between word [] (some [])
  | last {word : List Char} : Splits .word word [] (some [word.reverse])
  | unclosed {word : List Char} : Splits .single word [] none
  | dangling {place : Place} {word : List Char} : place.isOutside = true →
      Splits place word ['\\'] none
  | gap {c : Char} {word rest : List Char} {r : Option (List (List Char))} :
      isSeparator c = true → Splits .between [] rest r → Splits .between word (c :: rest) r
  | separator {c : Char} {word rest : List Char} {r : Option (List (List Char))} :
      isSeparator c = true → Splits .between [] rest r →
      Splits .word word (c :: rest) (r.map (word.reverse :: ·))
  | ordinary {place : Place} {c : Char} {word rest : List Char} {r : Option (List (List Char))} :
      place.isOutside = true → isOrdinary c = true → Splits .word (c :: word) rest r →
      Splits place word (c :: rest) r
  | escape {place : Place} {c : Char} {word rest : List Char} {r : Option (List (List Char))} :
      place.isOutside = true → Splits .word (c :: word) rest r →
      Splits place word ('\\' :: c :: rest) r
  | opening {place : Place} {word rest : List Char} {r : Option (List (List Char))} :
      place.isOutside = true → Splits .single word rest r → Splits place word ('\'' :: rest) r
  | inside {c : Char} {word rest : List Char} {r : Option (List (List Char))} :
      c ≠ '\'' → Splits .single (c :: word) rest r → Splits .single word (c :: rest) r
  | closing {word rest : List Char} {r : Option (List (List Char))} :
      Splits .word word rest r → Splits .single word ('\'' :: rest) r

section Steps

variable {place : Place} {c : Char} (word rest : List Char)

theorem splitFrom_gap (h : isSeparator c = true) :
    splitFrom .between word (c :: rest) = splitFrom .between [] rest := by
  rw [splitFrom.eq_def]
  simp [h]

theorem splitFrom_separator (h : isSeparator c = true) :
    splitFrom .word word (c :: rest) = (splitFrom .between [] rest).map (word.reverse :: ·) := by
  rw [splitFrom.eq_def]
  simp [h]

theorem splitFrom_escape (h : place.isOutside = true) :
    splitFrom place word ('\\' :: c :: rest) = splitFrom .word (c :: word) rest := by
  rw [splitFrom.eq_def]
  cases place with
  | between | word => simp [isSeparator]
  | single | double => cases h

theorem splitFrom_dangling (h : place.isOutside = true) : splitFrom place word ['\\'] = none := by
  rw [splitFrom.eq_def]
  cases place with
  | between | word => simp [isSeparator]
  | single | double => cases h

end Steps

/-- A character outside quotes is an apostrophe, a backslash, a separator, or ordinary. -/
theorem isOrdinary_of_other {c : Char} (hseparator : isSeparator c = false) (hsingle : c ≠ '\'')
    (hescape : c ≠ '\\') (hdouble : c ≠ '"') : isOrdinary c = true := by
  simp [isOrdinary, hseparator, hsingle, hescape, hdouble]

theorem splits_splitFrom {place : Place} (word cs : List Char) (hplace : place ≠ .double)
    (hcs : '"' ∉ cs) : Splits place word cs (splitFrom place word cs) := by
  -- a backslash takes two characters at once, so the induction is on the length
  induction hlength : cs.length using Nat.strongRecOn generalizing place word cs with
  | ind n ih =>
    subst hlength
    cases cs with
    | nil =>
      rw [splitFrom.eq_def]
      cases place with
      | between => exact .done
      | word => exact .last
      | single => exact .unclosed
      | double => exact absurd rfl hplace
    | cons c rest =>
      have hrest : '"' ∉ rest := fun hmem => hcs (List.mem_cons_of_mem c hmem)
      have hdouble : c ≠ '"' := fun hc => hcs (hc ▸ List.mem_cons_self)
      have hnext {place' : Place} (word' : List Char) (hplace' : place' ≠ .double) :
          Splits place' word' rest (splitFrom place' word' rest) :=
        ih rest.length (Nat.lt_succ_self _) word' rest hplace' hrest rfl
      -- outside quotes, it does not matter whether a word is under way, but for separators
      have houtside (hout : place.isOutside = true) (hseparator : isSeparator c = false) :
          Splits place word (c :: rest) (splitFrom place word (c :: rest)) := by
        by_cases hsingle : c = '\''
        · subst hsingle
          rw [splitFrom_outside_single _ _ hout]
          exact .opening hout (hnext word (by decide))
        · by_cases hescape : c = '\\'
          · subst hescape
            cases rest with
            | nil => exact splitFrom_dangling word hout ▸ .dangling hout
            | cons d rest =>
              rw [splitFrom_escape _ _ hout]
              refine .escape hout (ih rest.length ?_ _ _ (by decide) ?_ rfl)
              · simp only [List.length_cons]
                omega
              · exact fun hmem => hrest (List.mem_cons_of_mem d hmem)
          · have hordinary := isOrdinary_of_other hseparator hsingle hescape hdouble
            rw [splitFrom_outside _ _ hout hordinary]
            exact .ordinary hout hordinary (hnext _ (by decide))
      cases place with
      | double => exact absurd rfl hplace
      | single =>
        by_cases hsingle : c = '\''
        · subst hsingle
          rw [splitFrom_single_quote]
          exact .closing (hnext word (by decide))
        · rw [splitFrom_single _ _ hsingle]
          exact .inside hsingle (hnext _ (by decide))
      | between =>
        cases hseparator : isSeparator c with
        | false => exact houtside rfl hseparator
        | true =>
          rw [splitFrom_gap _ _ hseparator]
          exact .gap hseparator (hnext [] (by decide))
      | word =>
        cases hseparator : isSeparator c with
        | false => exact houtside rfl hseparator
        | true =>
          rw [splitFrom_separator _ _ hseparator]
          exact .separator hseparator (hnext [] (by decide))

/-- A line is split by the rules of quoting if its apostrophes and backslashes allow it. -/
theorem Splits.isSome_eq {place : Place} {word cs : List Char} {r : Option (List (List Char))}
    (h : Splits place word cs r) :
    r.isSome = decide (cs.foldl Stance.after place.stance = .plain) := by
  induction h with
  | done | last | unclosed => rfl
  | dangling hout => rw [Place.stance_of_isOutside hout]; rfl
  | gap hc _ ih =>
    have hafter := Stance.after_of_not_isMark (not_isMark_of_isSeparator hc)
    rw [ih, List.foldl_cons, Place.stance, hafter]
  | separator hc _ ih =>
    have hafter := Stance.after_of_not_isMark (not_isMark_of_isSeparator hc)
    rw [Option.isSome_map, ih, List.foldl_cons, Place.stance, Place.stance, hafter]
  | ordinary hout hc _ ih =>
    have hafter := Stance.after_of_not_isMark (not_isMark_of_isOrdinary hc)
    rw [ih, List.foldl_cons, Place.stance_of_isOutside hout, hafter, Place.stance]
  | escape hout _ ih => rw [ih, Place.stance_of_isOutside hout]; rfl
  | opening hout _ ih => rw [ih, Place.stance_of_isOutside hout]; rfl
  | inside hc _ ih =>
    have hafter : Stance.after .quoted _ = .quoted := if_neg hc
    rw [ih, List.foldl_cons, Place.stance, hafter]
  | closing _ ih => rw [ih]; rfl

/-- What is left to be kept: outside quotes, the next apostrophe or backslash is dropped. -/
def Place.keeps (place : Place) (cs : List Char) : List Char :=
  if place.isOutside then cs.eraseP isMark else cs

theorem Place.keeps_of_isOutside {place : Place} (h : place.isOutside = true) (cs : List Char) :
    place.keeps cs = cs.eraseP isMark :=
  if_pos h

theorem Place.keeps_cons {place : Place} {c : Char} (hout : place.isOutside = true)
    (hc : isMark c = false) (cs : List Char) :
    place.keeps (c :: cs) = c :: cs.eraseP isMark := by
  rw [keeps_of_isOutside hout, List.eraseP_cons_of_neg (by simp [hc])]

/-- The words of a line hold characters of the line in their order, without the first apostrophe or
backslash. -/
theorem Splits.sublist {place : Place} {word cs : List Char} {r : Option (List (List Char))}
    (h : Splits place word cs r) {ws : List (List Char)} (hws : r = some ws) :
    ws.flatten.Sublist (word.reverse ++ place.keeps cs) := by
  induction h generalizing ws with
  | done => cases hws; exact List.nil_sublist _
  | last => cases hws; simp
  | unclosed | dangling => cases hws
  | gap hc _ ih =>
    rw [Place.keeps_cons rfl (not_isMark_of_isSeparator hc)]
    exact ((ih hws).cons _).trans (List.sublist_append_right _ _)
  | separator hc _ ih =>
    obtain ⟨vs, hvs, rfl⟩ := Option.map_eq_some_iff.mp hws
    rw [Place.keeps_cons rfl (not_isMark_of_isSeparator hc), List.flatten_cons]
    exact (((ih hvs).cons _)).append_left _
  | ordinary hout hc _ ih =>
    rw [Place.keeps_cons hout (not_isMark_of_isOrdinary hc)]
    have hkept := ih hws
    rw [Place.keeps_of_isOutside rfl] at hkept
    simpa using hkept
  | escape hout _ ih =>
    rw [Place.keeps_of_isOutside hout, List.eraseP_cons_of_pos rfl]
    refine (ih hws).trans ?_
    rw [List.reverse_cons, List.append_assoc, List.singleton_append]
    exact (List.eraseP_sublist.cons_cons _).append_left _
  | opening hout _ ih =>
    rw [Place.keeps_of_isOutside hout, List.eraseP_cons_of_pos rfl]
    exact ih hws
  | inside hc _ ih => simpa [Place.keeps, Place.isOutside] using ih hws
  | closing _ ih =>
    refine (ih hws).trans (List.Sublist.append_left ?_ _)
    exact List.eraseP_sublist.trans (List.sublist_cons_self _ _)

theorem Splits.ne_nil {place : Place} {word cs : List Char} {r : Option (List (List Char))}
    (h : Splits place word cs r) {ws : List (List Char)} (hws : r = some ws)
    (hink : place ≠ .between ∨ ∃ c ∈ cs, isSeparator c = false) : ws ≠ [] := by
  induction h generalizing ws with
  | done => simp at hink
  | last => cases hws; simp
  | unclosed | dangling => cases hws
  | gap hc _ ih =>
    obtain ⟨d, hmem, hd⟩ := hink.resolve_left (not_not_intro rfl)
    rcases List.mem_cons.mp hmem with rfl | hmem
    · rw [hc] at hd
      cases hd
    · exact ih hws (.inr ⟨d, hmem, hd⟩)
  | separator hc _ ih =>
    obtain ⟨vs, hvs, rfl⟩ := Option.map_eq_some_iff.mp hws
    exact List.cons_ne_nil _ _
  | ordinary _ _ _ ih | escape _ _ ih | opening _ _ ih | inside _ _ ih | closing _ ih =>
    exact ih hws (.inl (by decide))

/-! ## Texts -/

/-- Words with a space between each two. -/
def joined (words : List String) : String :=
  String.intercalate " " words

theorem toList_joined (word : String) (words : List String) :
    (joined (word :: words)).toList = word.toList ++ Script.argumentTail words := by
  induction words generalizing word with
  | nil => simp [joined, Script.argumentTail]
  | cons next words ih =>
    have hrest := ih next
    have hblank : " ".toList = [' '] := rfl
    unfold joined at hrest ⊢
    rw [String.toList_intercalate] at hrest ⊢
    rw [List.map_cons, List.map_cons, List.intercalate_cons_cons, ← List.map_cons, hrest, hblank]
    simp [Script.argumentTail]

theorem joined_eq_ofList (word : String) (words : List String) :
    joined (word :: words) = String.ofList ((Script.argumentTail (word :: words)).drop 1) := by
  rw [← String.toList_inj, toList_joined, String.toList_ofList]
  simp [Script.argumentTail]

theorem countP_joined (words : List String) :
    (joined words).toList.countP isMark = (words.map String.toList).flatten.countP isMark := by
  cases words with
  | nil => rfl
  | cons word words =>
    rw [toList_joined, List.countP_append, List.map_cons, List.flatten_cons, List.countP_append]
    congr 1
    induction words with
    | nil => rfl
    | cons next words ih =>
      have hcons : Script.argumentTail (next :: words) =
          ' ' :: (next.toList ++ Script.argumentTail words) := rfl
      have hspace : ¬ isMark ' ' = true := by decide
      rw [hcons, List.countP_cons_of_neg hspace, List.countP_append, ih, List.map_cons,
        List.flatten_cons, List.countP_append]

theorem mem_joined {words : List String} {c : Char} (hc : c ∈ (joined words).toList) :
    c = ' ' ∨ ∃ word ∈ words, c ∈ word.toList := by
  cases words with
  | nil => cases hc
  | cons word words =>
    rw [toList_joined, List.mem_append] at hc
    rcases hc with hc | hc
    · exact .inr ⟨word, List.mem_cons_self, hc⟩
    · obtain ⟨next, hnext, hc⟩ := List.mem_flatMap.mp hc
      rcases List.mem_cons.mp hc with rfl | hc
      · exact .inl rfl
      · exact .inr ⟨next, List.mem_cons_of_mem word hnext, hc⟩

section Words

variable {cs : List Char} (hcs : ∀ c ∈ cs, Text.isBlank c = false)

include hcs

theorem wordsFrom_append (current rest : List Char) :
    Text.wordsFrom current (cs ++ rest) = Text.wordsFrom (cs.reverse ++ current) rest := by
  induction cs generalizing current with
  | nil => rfl
  | cons c cs ih =>
    have hc : Text.isBlank c = false := hcs c List.mem_cons_self
    rw [List.cons_append, Text.wordsFrom, hc, if_neg Bool.false_ne_true,
      ih fun d hd => hcs d (List.mem_cons_of_mem c hd)]
    simp

theorem wordsFrom_word (hne : cs ≠ []) (rest : List Char) :
    Text.wordsFrom [] (cs ++ ' ' :: rest) = String.ofList cs :: Text.wordsFrom [] rest := by
  have hblank : Text.isBlank ' ' = true := by decide
  rw [wordsFrom_append hcs, Text.wordsFrom, hblank]
  simp [hne]

end Words

/-- A word that can be written as part of a text without double quotes. -/
structure IsBare (word : String) : Prop where
  nonempty : word.toList ≠ []
  chars : ∀ c ∈ word.toList, Text.isBlank c = false ∧ c ≠ '=' ∧ c ≠ '"'

/-- Whether words have no apostrophe and no backslash. -/
def Unmarked (words : List String) : Prop :=
  ∀ word ∈ words, ∀ c ∈ word.toList, isMark c = false

section Bare

variable {words : List String} (hwords : ∀ word ∈ words, IsBare word)

include hwords

theorem words_joined : Text.words (joined words) = words := by
  cases words with
  | nil => rfl
  | cons word words =>
    unfold Text.words
    rw [toList_joined]
    induction words generalizing word with
    | nil =>
      have hword := hwords word List.mem_cons_self
      rw [wordsFrom_append fun c hc => (hword.chars c hc).1]
      simp [Script.argumentTail, Text.wordsFrom, hword.nonempty]
    | cons next words ih =>
      have hword := hwords word List.mem_cons_self
      have hcons : Script.argumentTail (next :: words) =
          ' ' :: (next.toList ++ Script.argumentTail words) := rfl
      rw [hcons, wordsFrom_word (fun c hc => (hword.chars c hc).1) hword.nonempty,
        ih next fun w hw => hwords w (List.mem_cons_of_mem word hw), String.ofList_toList]

end Bare

/-- The first word of a line is split off, if it is an ordinary one. -/
theorem splitWords_after {name : String} (hname : Script.IsArgument name) (text : String) :
    splitWords (name ++ " " ++ text) = name :: splitWords text := by
  have hline : (name ++ " " ++ text).toList = name.toList ++ ' ' :: text.toList := by
    simp [String.toList_append]
  have hsplit : splitQuoted? (name ++ " " ++ text) = (splitQuoted? text).map (name :: ·) := by
    obtain ⟨c, rest, hchars⟩ := List.exists_cons_of_ne_nil hname.nonempty
    have hordinary := hname.ordinary
    rw [hchars] at hordinary
    unfold splitQuoted?
    rw [hline, hchars, List.cons_append,
      splitFrom_outside _ _ rfl (hordinary c List.mem_cons_self),
      splitFrom_ordinary fun d hd => hordinary d (List.mem_cons_of_mem c hd),
      splitFrom_word_space, Option.map_map, Option.map_map]
    congr 1
    funext ws
    simp [← hchars]
  have hwords : Text.words (name ++ " " ++ text) = name :: Text.words text := by
    unfold Text.words
    rw [hline, wordsFrom_word (fun c hc => (hname.chars c hc).1) hname.nonempty,
      String.ofList_toList]
  unfold splitWords
  rw [hsplit, hwords]
  cases splitQuoted? text <;> rfl

/-! ## What becomes of the words -/

section Fate

variable {words : List String} (hwords : ∀ word ∈ words, IsBare word)

include hwords

theorem splits_joined :
    Splits .between [] (joined words).toList (splitFrom .between [] (joined words).toList) := by
  refine splits_splitFrom [] _ (by decide) fun hmem => ?_
  rcases mem_joined hmem with hspace | ⟨word, hword, hc⟩
  · cases hspace
  · exact ((hwords word hword).chars _ hc).2.2 rfl

theorem splitWords_of_unmarked (hne : words ≠ []) (h : Unmarked words) :
    splitWords (joined words) = words := by
  obtain ⟨word, rest, rfl⟩ := List.exists_cons_of_ne_nil hne
  rw [joined_eq_ofList]
  refine Script.splitWords_argumentTail fun w hw => ⟨(hwords w hw).nonempty, fun c hc => ?_⟩
  have hmark := h w hw c hc
  simp only [isMark, Bool.or_eq_false_iff, beq_eq_false_iff_ne] at hmark
  exact ⟨((hwords w hw).chars c hc).1, hmark.1, ((hwords w hw).chars c hc).2.2, hmark.2⟩

theorem splitWords_of_not_inPairs (h : inPairs (joined words).toList = false) :
    splitWords (joined words) = words := by
  have hnone : splitFrom .between [] (joined words).toList = none := by
    rw [← Option.isNone_iff_eq_none, ← Option.not_isSome, (splits_joined hwords).isSome_eq]
    exact congrArg Bool.not h
  unfold splitWords splitQuoted?
  rw [hnone]
  exact words_joined hwords

theorem exists_not_isSeparator (hne : words ≠ []) :
    ∃ c ∈ (joined words).toList, isSeparator c = false := by
  obtain ⟨word, rest, rfl⟩ := List.exists_cons_of_ne_nil hne
  have hword := hwords word List.mem_cons_self
  obtain ⟨c, hc⟩ := List.exists_mem_of_ne_nil _ hword.nonempty
  refine ⟨c, by rw [toList_joined]; exact List.mem_append_left _ hc, ?_⟩
  rw [← Bool.not_eq_true]
  intro hseparator
  have hblank := (hword.chars c hc).1
  rw [isBlank_of_isSeparator hseparator] at hblank
  cases hblank

/-- Where the rules of quoting hold, there are arguments, made of the characters of the line without
its first apostrophe or backslash. -/
theorem splitWords_of_inPairs (hne : words ≠ []) (h : inPairs (joined words).toList = true) :
    splitWords (joined words) ≠ [] ∧
      ((splitWords (joined words)).map String.toList).flatten.Sublist
        ((joined words).toList.eraseP isMark) := by
  have hsplits := splits_joined hwords
  have hsome : (splitFrom .between [] (joined words).toList).isSome = true := by
    rw [hsplits.isSome_eq]
    exact h
  obtain ⟨ws, hws⟩ := Option.isSome_iff_exists.mp hsome
  have hargs : splitWords (joined words) = ws.map String.ofList := by
    unfold splitWords splitQuoted?
    rw [hws]
    rfl
  rw [hargs]
  constructor
  · rw [Ne, List.map_eq_nil_iff]
    exact hsplits.ne_nil hws (.inr (exists_not_isSeparator hwords hne))
  · simpa [Place.keeps, Place.isOutside, Function.comp_def] using hsplits.sublist hws

/-- Where the rules of quoting hold, an apostrophe or a backslash is lost, if there is one. -/
theorem countP_splitWords_lt (hne : words ≠ []) (h : inPairs (joined words).toList = true)
    (hmarked : ¬ Unmarked words) :
    (joined (splitWords (joined words))).toList.countP isMark <
      (joined words).toList.countP isMark := by
  have hcount : (joined words).toList.countP isMark ≠ 0 := by
    rw [countP_joined, Ne, List.countP_eq_zero]
    intro hnone
    refine hmarked fun word hword c hc => ?_
    have hmem : c ∈ (words.map String.toList).flatten :=
      List.mem_flatten.mpr ⟨_, List.mem_map_of_mem hword, hc⟩
    simpa using hnone c hmem
  obtain ⟨c, hc, hmark⟩ := List.countP_pos_iff.mp (Nat.pos_of_ne_zero hcount)
  obtain ⟨m, front, back, -, hm, hline, herase⟩ := List.exists_of_eraseP hc hmark
  calc (joined (splitWords (joined words))).toList.countP isMark
      ≤ ((joined words).toList.eraseP isMark).countP isMark := by
        rw [countP_joined]
        exact (splitWords_of_inPairs hwords hne h).2.countP_le
    _ < (joined words).toList.countP isMark := by
        rw [herase, hline]
        simp [hm]

/-- Words are kept, and so is the text they make up, where there is no apostrophe and no backslash,
or where one of them has no partner. -/
theorem splitWords_joined_iff (hne : words ≠ []) :
    (splitWords (joined words) = words ↔
      Unmarked words ∨ inPairs (joined words).toList = false) ∧
    (joined (splitWords (joined words)) = joined words ↔
      Unmarked words ∨ inPairs (joined words).toList = false) := by
  have hkept (hcase : Unmarked words ∨ inPairs (joined words).toList = false) :
      splitWords (joined words) = words :=
    hcase.elim (splitWords_of_unmarked hwords hne) (splitWords_of_not_inPairs hwords)
  have hlost (hsame : joined (splitWords (joined words)) = joined words) :
      Unmarked words ∨ inPairs (joined words).toList = false := by
    by_contra hneither
    rw [not_or, Bool.not_eq_false] at hneither
    have hless := countP_splitWords_lt hwords hne hneither.2 hneither.1
    rw [hsame] at hless
    exact Nat.lt_irrefl _ hless
  exact ⟨⟨fun hsame => hlost (congrArg joined hsame), hkept⟩,
    ⟨hlost, fun hcase => congrArg joined (hkept hcase)⟩⟩

theorem splitWords_joined_ne_nil (hne : words ≠ []) : splitWords (joined words) ≠ [] := by
  cases hpairs : inPairs (joined words).toList with
  | false => rwa [splitWords_of_not_inPairs hwords hpairs]
  | true => exact (splitWords_of_inPairs hwords hne hpairs).1

theorem equals_notMem_splitWords (hne : words ≠ []) {arg : String}
    (harg : arg ∈ splitWords (joined words)) : '=' ∉ arg.toList := by
  intro hmem
  cases hpairs : inPairs (joined words).toList with
  | false =>
    rw [splitWords_of_not_inPairs hwords hpairs] at harg
    exact ((hwords arg harg).chars _ hmem).2.1 rfl
  | true =>
    have hflat : '=' ∈ ((splitWords (joined words)).map String.toList).flatten :=
      List.mem_flatten.mpr ⟨_, List.mem_map_of_mem harg, hmem⟩
    have hkept := (splitWords_of_inPairs hwords hne hpairs).2.subset hflat
    have hline := List.mem_of_mem_eraseP hkept
    rcases mem_joined hline with hspace | ⟨word, hword, hc⟩
    · cases hspace
    · exact ((hwords word hword).chars _ hc).2.1 rfl

end Fate

/-! ## Arguments of an open-ended command -/

theorem foldlM_take_arguments {c : Command} (hopen : c.verb.signature.openEnded = true)
    {args : List String} (hargs : ∀ arg ∈ args, '=' ∉ arg.toList) :
    args.foldlM take c = .ok { c with args := c.args ++ args } := by
  induction args generalizing c with
  | nil => simp only [List.foldlM_nil, List.append_nil]; rfl
  | cons arg args ih =>
    have harg := (assignment?_eq_none_iff arg).mpr (hargs arg List.mem_cons_self)
    rw [List.foldlM_cons, take_argument harg, if_pos (.inr hopen)]
    have hrest := ih (c := { c with args := c.args ++ [arg] }) hopen fun a ha =>
      hargs a (List.mem_cons_of_mem arg ha)
    rw [List.append_assoc] at hrest
    exact hrest

theorem parse_of_arguments {verb : Verb} {line : String} {args : List String}
    (hline : splitWords line = verb.name :: args) (hopen : verb.signature.openEnded = true)
    (hcount : verb.signature.args.length ≤ args.length)
    (hargs : ∀ arg ∈ args, '=' ∉ arg.toList) :
    parse line = .ok (some ⟨verb, args, verb.signature.options⟩) := by
  have hname : Verb.ofName? verb.name = some verb := (Verb.ofName?_eq_some_iff _ _).mpr rfl
  have htake : args.foldlM take ⟨verb, [], []⟩ = .ok ⟨verb, args, []⟩ :=
    foldlM_take_arguments hopen hargs
  have hdefaults : withDefaults ⟨verb, args, []⟩ = ⟨verb, args, verb.signature.options⟩ := by
    simp [withDefaults, Dict.has, Dict.get?]
  have hend : parseWords (verb.name :: args) =
      if args.length < verb.signature.args.length then .error (.missingArguments verb)
      else .ok (some (withDefaults ⟨verb, args, []⟩)) := by
    rw [parseWords, hname]
    dsimp only
    rw [htake]
    rfl
  rw [parse, hline, hend, if_neg (Nat.not_lt.mpr hcount), hdefaults]

end RobotConsole.Command

namespace RobotConsole.Console

open Command Robot

/-- A text to be said as it is said where no option is given. -/
def plainSpeech (text : String) : Speech where
  text := text
  volume := .int 65535
  voice := "en-us"
  speed := .int 150
  pitch := .int 50
  amplitude := .int 100
  effect := "normal"

theorem carryOut_say (args : List String) :
    carryOut .say args Verb.say.signature.options = sayText (plainSpeech (joined args)) false := by
  rfl

theorem carryOut_screen (args : List String) :
    carryOut .screen args Verb.screen.signature.options =
      displayText (joined args) (.real 5.0) (.int 12) (.int 5) (.int 10) true := by
  rfl

theorem parse_joined {words : List String} (hne : words ≠ [])
    (hwords : ∀ word ∈ words, IsBare word) {verb : Verb} (hverb : verb ∈ [Verb.say, Verb.screen]) :
    parse (verb.name ++ " " ++ joined words) =
      .ok (some ⟨verb, splitWords (joined words), verb.signature.options⟩) := by
  have hname : Script.IsArgument verb.name ∧ verb.signature.openEnded = true ∧
      verb.signature.args.length = 1 := by
    simp only [List.mem_cons, List.not_mem_nil, or_false] at hverb
    rcases hverb with rfl | rfl <;>
      exact ⟨Script.isArgument_of_all (by decide) (by decide), rfl, rfl⟩
  refine parse_of_arguments (splitWords_after hname.1 _) hname.2.1 ?_
    fun arg harg => equals_notMem_splitWords hwords hne harg
  rw [hname.2.2]
  exact List.length_pos_of_ne_nil (splitWords_joined_ne_nil hwords hne)

/-- Words written after `say` or `screen` always make a command. It says or shows them as they are
written just in case there is no apostrophe and no backslash among them, or else an apostrophe has
no partner or the last backslash nothing after it. -/
theorem words_kept_iff {words : List String} (hne : words ≠ [])
    (hwords : ∀ word ∈ words, IsBare word) :
    ∃ args,
      (∀ verb ∈ [Verb.say, Verb.screen], parse (verb.name ++ " " ++ joined words) =
        .ok (some ⟨verb, args, verb.signature.options⟩)) ∧
      carryOut .say args Verb.say.signature.options = sayText (plainSpeech (joined args)) false ∧
      carryOut .screen args Verb.screen.signature.options =
        displayText (joined args) (.real 5.0) (.int 12) (.int 5) (.int 10) true ∧
      (args = words ↔ Unmarked words ∨ inPairs (joined words).toList = false) ∧
      (joined args = joined words ↔ Unmarked words ∨ inPairs (joined words).toList = false) :=
  ⟨splitWords (joined words), fun _ hverb => parse_joined hne hwords hverb,
    carryOut_say _, carryOut_screen _, splitWords_joined_iff hwords hne⟩

theorem isBare_of_all {words : List String}
    (h : words.all (fun word => word != "" &&
      word.toList.all fun c => !Text.isBlank c && c != '=' && c != '"') = true) :
    ∀ word ∈ words, IsBare word := by
  intro word hword
  have hall := List.all_eq_true.mp h word hword
  rw [Bool.and_eq_true, bne_iff_ne] at hall
  refine ⟨fun hnil => hall.1 (String.toList_eq_nil_iff.mp hnil), fun c hc => ?_⟩
  have hchar := List.all_eq_true.mp hall.2 c hc
  simp only [Bool.and_eq_true, Bool.not_eq_true', bne_iff_ne, ne_eq] at hchar
  exact ⟨hchar.1.1, hchar.1.2, hchar.2⟩

theorem lost_of_mem {words : List String} {word : String} {c : Char} (hword : word ∈ words)
    (hc : c ∈ word.toList) (hmark : isMark c = true)
    (hpairs : inPairs (joined words).toList = true) :
    ¬ (Unmarked words ∨ inPairs (joined words).toList = false) := by
  rintro (hnone | hfails)
  · rw [hnone word hword c hc] at hmark
    cases hmark
  · rw [hpairs] at hfails
    cases hfails

/-- A backslash does not reach the screen, and a pair of apostrophes is not said. A single one
is. -/
theorem backslash_not_shown :
    (∃ args, parse "screen line\\nbreak" =
        .ok (some ⟨.screen, args, Verb.screen.signature.options⟩) ∧
      joined args ≠ "line\\nbreak") ∧
    (∃ args, parse "say I'm sure you're fine" =
        .ok (some ⟨.say, args, Verb.say.signature.options⟩) ∧
      joined args ≠ "I'm sure you're fine") ∧
    parse "say I'm fine" = .ok (some ⟨.say, ["I'm", "fine"], Verb.say.signature.options⟩) := by
  refine ⟨?_, ?_, ?_⟩
  · have hbare : ∀ word ∈ ["line\\nbreak"], IsBare word := isBare_of_all (by decide)
    obtain ⟨args, hparse, -, -, -, hsame⟩ := words_kept_iff (List.cons_ne_nil _ _) hbare
    refine ⟨args, hparse .screen (by decide), fun heq => ?_⟩
    have hmark : '\\' ∈ "line\\nbreak".toList := by decide
    exact lost_of_mem List.mem_cons_self hmark rfl (by decide) (hsame.mp heq)
  · have hbare : ∀ word ∈ ["I'm", "sure", "you're", "fine"], IsBare word :=
      isBare_of_all (by decide)
    obtain ⟨args, hparse, -, -, -, hsame⟩ := words_kept_iff (List.cons_ne_nil _ _) hbare
    refine ⟨args, hparse .say (by decide), fun heq => ?_⟩
    have hmark : '\'' ∈ "I'm".toList := by decide
    exact lost_of_mem List.mem_cons_self hmark rfl (by decide) (hsame.mp heq)
  · have hbare : ∀ word ∈ ["I'm", "fine"], IsBare word := isBare_of_all (by decide)
    obtain ⟨args, hparse, -, -, hkept, -⟩ := words_kept_iff (List.cons_ne_nil _ _) hbare
    rw [← hkept.mpr (.inr (by decide))]
    exact hparse .say (by decide)

end RobotConsole.Console
