import RobotConsole.Proofs.Arithmetic.Scanning
import RobotConsole.Proofs.Effects
import RobotConsole.Proofs.Script.Written
import RobotConsole.Script.Expand

/-!
# The number sign

A number sign is no letter of a keyword, no blank, no digit, no quote and no part of a name. So no
reader of lines can lose one: it is in the value of an assignment, in the values of a loop, in the
arguments of a call exactly if it is in the line (`assignmentOf?_sign`, `forLoopOf?_sign`,
`callOf?_sign`), and it is still there when quotes have been taken off (`unquote_sign`), references
have been replaced by nothing (`expandText_sign`) and the rest has been split into words
(`splitWords_sign`). A text that holds one is no range (`rangeOf?_sign`) and nothing to calculate,
and a value that is a text was not calculated either (`eq_of_value_text`).
-/

namespace RobotConsole.Text

variable {limits : Limits}

/-- What is dropped from the front are characters of one kind, so the others stay. -/
theorem mem_dropWhile_iff {p : Char → Bool} {c : Char} (hc : p c = false) (cs : List Char) :
    c ∈ cs.dropWhile p ↔ c ∈ cs := by
  have htaken : c ∉ cs.takeWhile p := fun hmem => by
    rw [List.mem_takeWhile_imp hmem] at hc
    cases hc
  have hwhole := List.mem_append (a := c) (s := cs.takeWhile p) (t := cs.dropWhile p)
  rw [List.takeWhile_append_dropWhile] at hwhole
  rw [hwhole, or_iff_right htaken]

theorem trimChars_sign (cs : List Char) : '#' ∈ trimChars cs ↔ '#' ∈ cs := by
  unfold trimChars dropBlanksEnd
  rw [List.mem_reverse, mem_dropWhile_iff (by decide), List.mem_reverse,
    mem_dropWhile_iff (by decide)]

theorem wordsFrom_sign (current cs : List Char) :
    (∃ word ∈ wordsFrom current cs, '#' ∈ word.toList) ↔ '#' ∈ current ∨ '#' ∈ cs := by
  induction cs generalizing current with
  | nil =>
    cases current with
    | nil => simp [wordsFrom]
    | cons c current => simp [wordsFrom, or_comm]
  | cons c cs ih =>
    rw [wordsFrom]
    split
    · rename_i hblank
      have hc : '#' ≠ c := by
        rintro rfl
        exact absurd hblank (by decide)
      split
      · rename_i hempty
        rw [ih, List.isEmpty_iff.mp hempty]
        simp [hc]
      · simp [ih, hc]
    · rw [ih, List.mem_cons, List.mem_cons, or_assoc, or_left_comm]

theorem words_sign (s : String) : (∃ word ∈ words s, '#' ∈ word.toList) ↔ '#' ∈ s.toList := by
  rw [words, wordsFrom_sign]
  simp

/-- A character of ASCII that is its own lower case stays when a text is lowered. -/
theorem mem_lower {c : Char} {line : String} (h : c ∈ line.toList) (hascii : c.toNat < 0x80)
    (hlower : c.toLower = c) : c ∈ (lower line).toList := by
  have hfrom : ∀ before cs, c ∈ cs → c ∈ lowerFrom before cs := by
    intro before cs hc
    induction cs generalizing before with
    | nil => cases hc
    | cons d cs ih =>
      rcases List.mem_cons.mp hc with rfl | hc
      · rw [lowerFrom_cons_ascii before cs hascii, hlower]
        exact List.mem_cons_self
      · rw [lowerFrom]
        exact List.mem_append_right _ (ih _ hc)
  unfold lower
  rw [String.toList_ofList]
  exact hfrom [] line.toList h

/-- What a text starts with in lower case does not depend on what follows it. Only the form of a
sigma does. -/
theorem isPrefix_lowerFrom_append {start : List Char} (hstart : 'σ' ∉ start ∧ 'ς' ∉ start)
    (before cs more : List Char) (h : start <+: lowerFrom before cs) :
    start <+: lowerFrom before (cs ++ more) := by
  induction cs generalizing start before with
  | nil =>
    rw [List.prefix_nil.mp h]
    exact List.nil_prefix
  | cons c cs ih =>
    -- the lower case of the first character, and what the start holds beyond it
    have hstep {lowered : List Char} (h : start <+: lowered ++ lowerFrom (c :: before) cs) :
        start <+: lowered ++ lowerFrom (c :: before) (cs ++ more) := by
      rcases List.prefix_or_prefix_of_prefix h (List.prefix_append _ _) with hshort | ⟨rest, rfl⟩
      · exact hshort.trans (List.prefix_append _ _)
      · rw [List.prefix_append_right_inj] at h ⊢
        exact ih ⟨fun hmem => hstart.1 (List.mem_append_right _ hmem),
          fun hmem => hstart.2 (List.mem_append_right _ hmem)⟩ _ h
    rw [List.cons_append]
    rw [lowerFrom] at h ⊢
    split
    · rename_i hdotted
      rw [if_pos hdotted] at h
      exact hstep h
    · rename_i hdotted
      rw [if_neg hdotted] at h
      split
      · rename_i hsigma
        rw [if_pos hsigma] at h
        -- the start would have to start with a sigma
        cases start with
        | nil => exact List.nil_prefix
        | cons d start =>
          have hd := (List.cons_prefix_cons.mp h).1
          split at hd <;> subst hd
          · exact absurd List.mem_cons_self hstart.2
          · exact absurd List.mem_cons_self hstart.1
      · rename_i hsigma
        rw [if_neg hsigma] at h
        exact hstep h

end RobotConsole.Text

namespace RobotConsole.Arithmetic

/-! ## Values that are texts -/

theorem ite_ne_of_ne {α : Type} {p : Prop} [Decidable p] {a b c : α} (ha : a ≠ c) (hb : b ≠ c) :
    (if p then a else b) ≠ c := by
  split
  · exact ha
  · exact hb

theorem realPow?_ne_text (x y : Float) (s : String) : realPow? x y ≠ some (.text s) := by
  unfold realPow?
  dsimp only
  -- splitting would go over the conditions again and again
  repeat' apply ite_ne_of_ne
  all_goals simp

theorem intOp?_ne_text (op : Operator) (a b : Int) (s : String) :
    intOp? op a b ≠ some (.text s) := by
  cases op with
  | add | sub | mul => exact nofun
  | div | floorDiv | mod =>
    unfold intOp?
    dsimp only
    split <;> simp
  | pow =>
    unfold intOp?
    dsimp only
    split
    · exact nofun
    · intro h
      simp only [Option.bind_eq_bind, Option.bind_eq_some_iff] at h
      obtain ⟨x, _, y, _, hpow⟩ := h
      exact realPow?_ne_text x y s hpow

theorem realOp?_ne_text (op : Operator) (x y : Float) (s : String) :
    realOp? op x y ≠ some (.text s) := by
  cases op with
  | add | sub | mul => exact nofun
  | div | floorDiv | mod =>
    unfold realOp?
    dsimp only
    split <;> simp
  | pow => exact realPow?_ne_text x y s

theorem complexOp?_ne_text (op : Operator) (a b : Complex) (s : String) :
    complexOp? op a b ≠ some (.text s) := by
  cases op <;> simp [complexOp?]

theorem binary?_ne_text (op : Operator) (v w : Value) (s : String) :
    binary? op v w ≠ some (.text s) := by
  unfold binary?
  split
  · exact intOp?_ne_text op _ _ s
  · split <;> simp
  · split <;> simp
  · split <;> simp
  · intro h
    obtain ⟨c, _, hop⟩ := Option.bind_eq_some_iff.mp h
    exact complexOp?_ne_text op _ c s hop
  · intro h
    obtain ⟨c, _, hop⟩ := Option.bind_eq_some_iff.mp h
    exact complexOp?_ne_text op c _ s hop
  · intro h
    obtain ⟨x, _, h⟩ := Option.bind_eq_some_iff.mp h
    obtain ⟨y, _, hop⟩ := Option.bind_eq_some_iff.mp h
    exact realOp?_ne_text op x y s hop

theorem value?_ne_text (t : Term) (s : String) : t.value? ≠ some (.text s) := by
  cases t with
  | int | real | emptyTuple | ellipsis => exact nofun
  | negate t =>
    intro h
    obtain ⟨v, _, hv⟩ := Option.bind_eq_some_iff.mp h
    cases v <;> cases hv
  | plus t =>
    intro h
    obtain ⟨v, _, hv⟩ := Option.bind_eq_some_iff.mp h
    cases v <;> cases hv
  | binary op left right =>
    intro h
    obtain ⟨v, _, h⟩ := Option.bind_eq_some_iff.mp h
    obtain ⟨w, _, hop⟩ := Option.bind_eq_some_iff.mp h
    exact binary?_ne_text op v w s hop

theorem evaluate?_ne_text (nesting : Nat) (text s : String) :
    evaluate? nesting text ≠ some (.text s) := by
  intro h
  obtain ⟨t, _, h⟩ := Option.bind_eq_some_iff.mp h
  obtain ⟨v, hv, h⟩ := Option.bind_eq_some_iff.mp h
  cases v with
  | real x =>
    dsimp only at h
    split at h
    · cases h
    · split at h <;> cases h
  | text s' => exact value?_ne_text t s' hv
  | int | complex | emptyTuple | ellipsis => cases h

theorem eq_of_value_text {nesting : Nat} {expanded text : String}
    (h : (evaluate? nesting expanded).getD (.text expanded) = .text text) : text = expanded := by
  cases hvalue : evaluate? nesting expanded with
  | none =>
    rw [hvalue] at h
    cases h
    rfl
  | some v =>
    rw [hvalue] at h
    exact absurd (hvalue.trans (congrArg some h)) (evaluate?_ne_text nesting expanded text)

end RobotConsole.Arithmetic

namespace RobotConsole.Command

theorem sign_taken (c : Char) (word rest : List Char) :
    '#' ∈ c :: word ∨ '#' ∈ rest ↔ '#' ∈ word ∨ '#' ∈ c :: rest := by
  rw [List.mem_cons, List.mem_cons, or_assoc, or_left_comm]

theorem sign_dropped {c : Char} (hc : '#' ≠ c) (word rest : List Char) :
    '#' ∈ word ∨ '#' ∈ rest ↔ '#' ∈ word ∨ '#' ∈ c :: rest := by
  rw [List.mem_cons, or_iff_right hc]

theorem ne_sign_of_isSeparator {c : Char} (h : isSeparator c = true) : '#' ≠ c := by
  rintro rfl
  cases h

theorem ne_sign_of_beq {c d : Char} (h : (c == d) = true) (hd : '#' ≠ d) : '#' ≠ c := by
  rw [beq_iff_eq.mp h]
  exact hd

/-- Splitting leaves out separators, quotes and backslashes only. -/
theorem splitFrom_sign {place : Place} {word cs : List Char} {words : List (List Char)}
    (h : splitFrom place word cs = some words) (hplace : place = .between → word = []) :
    (∃ w ∈ words, '#' ∈ w) ↔ '#' ∈ word ∨ '#' ∈ cs := by
  fun_induction splitFrom place word cs generalizing words with
  | case1 =>
    cases h
    simp [hplace rfl]
  | case2 =>
    cases h
    simp
  | case3 | case4 | case8 | case16 => cases h
  | case5 word c rest hc ih | case7 word c rest hc ih | case14 place word c rest _ hc _ _ ih
    | case15 place word c rest _ _ hc _ _ ih =>
      rw [ih h nofun, sign_dropped (ne_sign_of_beq hc (by decide))]
  | case6 word c rest _ ih | case11 word c rest _ _ ih | case18 place word c rest _ _ _ _ _ _ ih =>
    rw [ih h nofun, sign_taken]
  | case9 word c _ hc d rest _ ih | case17 place word c _ _ _ hc d rest _ _ ih =>
    rw [ih h nofun, sign_taken, sign_dropped (ne_sign_of_beq hc (by decide))]
  | case10 word c _ _ d rest _ ih => rw [ih h nofun, sign_taken, sign_taken]
  | case12 word c rest hc _ _ ih =>
    rw [if_pos rfl] at h
    obtain ⟨more, hmore, rfl⟩ := Option.map_eq_some_iff.mp h
    have hrest := ih hmore fun _ => rfl
    rw [← sign_dropped (ne_sign_of_isSeparator hc)]
    simp [hrest]
  | case13 place word c rest hc hword hsingle hdouble ih =>
    rw [if_neg hword] at h
    rw [ih h fun _ => rfl]
    cases place with
    | between => rw [hplace rfl, sign_dropped (ne_sign_of_isSeparator hc)]
    | word => exact absurd rfl hword
    | single => exact (hsingle rfl).elim
    | double => exact (hdouble rfl).elim

theorem splitWords_sign (s : String) :
    (∃ word ∈ splitWords s, '#' ∈ word.toList) ↔ '#' ∈ s.toList := by
  unfold splitWords splitQuoted?
  cases h : splitFrom .between [] s.toList with
  | none => exact Text.words_sign s
  | some words =>
    have hsign := splitFrom_sign h fun _ => rfl
    simpa using hsign

end RobotConsole.Command

namespace RobotConsole.Script

open Text (mem_dropWhile_iff trimChars_sign)

/-! ## Lines and their parts -/

theorem isWordChar_sign : Text.isWordChar '#' = false := by decide

theorem ne_sign_of_isWordChar {c : Char} (h : Text.isWordChar c = true) : '#' ≠ c := by
  rintro rfl
  rw [isWordChar_sign] at h
  cases h

theorem afterKeyword?_sign {keyword cs rest : List Char}
    (hkeyword : keyword.any (isFormOf · '#') = false) (h : afterKeyword? keyword cs = some rest) :
    '#' ∈ rest ↔ '#' ∈ cs := by
  induction keyword generalizing cs with
  | nil =>
    cases h
    rfl
  | cons letter keyword ih =>
    rw [List.any_cons, Bool.or_eq_false_iff] at hkeyword
    cases cs with
    | nil => cases h
    | cons c cs =>
      rw [afterKeyword?] at h
      split at h
      · rename_i hform
        have hc : '#' ≠ c := by
          rintro rfl
          rw [hkeyword.1] at hform
          cases hform
        rw [ih hkeyword.2 h, List.mem_cons, or_iff_right hc]
      · cases h

theorem afterBlanks?_sign {cs rest : List Char} (h : afterBlanks? cs = some rest) :
    '#' ∈ rest ↔ '#' ∈ cs := by
  unfold afterBlanks? at h
  split at h
  · split at h
    · cases h
      exact mem_dropWhile_iff (by decide) _
    · cases h
  · cases h

theorem takeName?_sign {cs rest : List Char} {name : String}
    (h : takeName? cs = some (name, rest)) : '#' ∈ rest ↔ '#' ∈ cs := by
  unfold takeName? at h
  dsimp only at h
  split at h
  · cases h
  · cases h
    exact mem_dropWhile_iff isWordChar_sign cs

theorem restOfLine?_sign {cs rest : List Char} (h : restOfLine? cs = some rest) :
    '#' ∈ rest ↔ '#' ∈ cs := by
  have hwhole := List.takeWhile_append_dropWhile (p := (· != '\n')) (l := cs)
  unfold restOfLine? at h
  split at h
  · cases h
    rfl
  · rename_i hend
    cases h
    rw [hend] at hwhole
    conv => rhs; rw [← hwhole, List.mem_append]
    simp
  · cases h

/-- The number sign in what is left of a line after blanks, with the line end taken off and the rest
trimmed. -/
theorem rest_sign {cs rest : List Char} (h : restOfLine? cs = some rest) :
    '#' ∈ (String.ofList (Text.trimChars rest)).toList ↔ '#' ∈ cs := by
  rw [String.toList_ofList, trimChars_sign, restOfLine?_sign h]

theorem assignmentOf?_sign {line name text : String} (h : assignmentOf? line = some (name, text)) :
    '#' ∈ text.toList ↔ '#' ∈ line.toList := by
  unfold assignmentOf? at h
  simp only [Option.bind_eq_bind, Option.bind_eq_some_iff] at h
  obtain ⟨word, hword, cs, hcs, ⟨name', rest⟩, hname, value, hvalue, hsame⟩ := h
  cases hsame
  rw [rest_sign hvalue, mem_dropWhile_iff (by decide), ← afterKeyword?_sign (by decide) hword,
    ← afterBlanks?_sign hcs, ← takeName?_sign hname,
    ← mem_dropWhile_iff (p := Text.isBlank) (by decide) rest]
  dsimp only
  split
  · rename_i hequals
    rw [hequals]
    simp
  · rfl

theorem forLoopOf?_sign {line name text : String} (h : forLoopOf? line = some (name, text)) :
    '#' ∈ text.toList ↔ '#' ∈ line.toList := by
  unfold forLoopOf? at h
  simp only [Option.bind_eq_bind, Option.bind_eq_some_iff] at h
  obtain ⟨word, hword, cs, hcs, ⟨name', rest⟩, hname, blanks, hblanks, found, hfound, values,
    hvalues, hsame⟩ := h
  have hline : '#' ∈ values ↔ '#' ∈ line.toList := by
    rw [afterBlanks?_sign hvalues, afterKeyword?_sign (by decide) hfound, afterBlanks?_sign hblanks,
      takeName?_sign hname, afterBlanks?_sign hcs, afterKeyword?_sign (by decide) hword]
  split at hsame
  · rename_i hempty
    split at hsame
    · cases hsame
      rw [← hline, List.isEmpty_iff.mp hempty]
      rfl
    · cases hsame
  · obtain ⟨rest, hrest, hsame⟩ := Option.bind_eq_some_iff.mp hsame
    cases hsame
    rw [rest_sign hrest, hline]

theorem callOf?_sign {line name text : String} (h : callOf? line = some (name, text)) :
    '#' ∈ text.toList ↔ '#' ∈ line.toList := by
  unfold callOf? at h
  simp only [Option.bind_eq_bind, Option.bind_eq_some_iff] at h
  obtain ⟨word, hword, cs, hcs, ⟨name', rest⟩, hname, hsame⟩ := h
  have hline : '#' ∈ rest ↔ '#' ∈ line.toList := by
    rw [takeName?_sign hname, afterBlanks?_sign hcs, afterKeyword?_sign (by decide) hword]
  split at hsame
  · rename_i hnil
    cases hsame
    rw [← hline, show rest = [] from hnil]
    rfl
  · obtain ⟨blanks, hblanks, text, htext, hsame⟩ := by
      simpa only [Option.bind_eq_some_iff] using hsame
    cases hsame
    rw [String.toList_ofList, restOfLine?_sign htext, afterBlanks?_sign hblanks, hline]

theorem quoted_sign {quote : Char} {cs : List Char} (hquote : '#' ≠ quote)
    (hfirst : cs.head? = some quote) (hlast : cs.getLast? = some quote) :
    '#' ∈ (cs.drop 1).dropLast ↔ '#' ∈ cs := by
  cases cs with
  | nil => cases hfirst
  | cons c cs =>
    cases hfirst
    rcases List.eq_nil_or_concat cs with rfl | ⟨front, last, rfl⟩
    · simp [hquote]
    · rw [List.concat_eq_append, ← List.cons_append, List.getLast?_concat] at hlast
      cases hlast
      simp [hquote]

theorem unquote_sign (text : String) : '#' ∈ (unquote text).toList ↔ '#' ∈ text.toList := by
  unfold unquote
  split
  · rename_i hquoted
    simp only [isQuoted, Bool.or_eq_true, Bool.and_eq_true, beq_iff_eq] at hquoted
    rw [String.toList_ofList]
    rcases hquoted with ⟨hfirst, hlast⟩ | ⟨hfirst, hlast⟩
    · exact quoted_sign (by decide) hfirst hlast
    · exact quoted_sign (by decide) hfirst hlast
  · rfl

/-- A range holds digits, points, blanks and the word for its step. -/
theorem rangeOf?_sign {text : String} (h : '#' ∈ text.toList) : rangeOf? text = none := by
  have hdigit : Text.isDecimalDigit '#' = false := by decide
  have hrest (cs : List Char) (h : '#' ∈ cs) : '#' ∈ cs.dropWhile Text.isDecimalDigit :=
    (mem_dropWhile_iff hdigit cs).mpr h
  have hfirst := hrest _ h
  unfold rangeOf?
  dsimp only
  split
  · rename_i cs _ hpoints
    rw [hpoints] at hfirst
    have hlast := hrest cs (by simpa using hfirst)
    split
    · rfl
    · split
      · rename_i hend
        rw [hend] at hlast
        cases hlast
      · rename_i hend
        rw [hend] at hlast
        simp at hlast
      · cases hblanks : afterBlanks? (cs.dropWhile Text.isDecimalDigit) with
        | none => rfl
        | some rest =>
          have hword := (afterBlanks?_sign hblanks).mpr hlast
          simp only [Option.bind_eq_bind, Option.bind_some]
          split
          · rfl
          · rename_i hstep
            rw [Bool.not_eq_true, Bool.not_eq_false', List.isPrefixOf_iff_prefix] at hstep
            obtain ⟨after, rfl⟩ := hstep
            have hafter : '#' ∈ after := by simpa using hword
            show (afterBlanks? after).bind _ = none
            cases hblanks' : afterBlanks? after with
            | none => rfl
            | some step =>
              have hend := hrest step ((afterBlanks?_sign hblanks').mpr hafter)
              rw [Option.bind_some]
              split
              · rename_i hnil
                rw [hnil] at hend
                cases hend
              · rename_i hnewline
                rw [hnewline] at hend
                simp at hend
              · rfl
  · rfl

/-! ## The values of a loop -/

open Arithmetic (Value)

theorem intText?_sign {n : Int} {shown : String} (h : Arithmetic.intText? n = some shown) :
    '#' ∉ shown.toList := by
  have hdigits : '#' ∉ Nat.toDigits 10 n.natAbs := by
    intro hmem
    have hdigit := Nat.isDigit_of_mem_toDigits (by decide) (by decide) hmem
    cases hdigit
  unfold Arithmetic.intText? at h
  dsimp only at h
  split at h
  · cases h
  · cases h
    rw [String.toList_ofList]
    split
    · simp [hdigits]
    · exact hdigits

theorem rangeValues_of_loopValues {text first last : String} {step : Option String}
    (hrange : rangeOf? text = some (first, last, step)) {values : List Value} {s t : Interpreter}
    (hrun : (loopValues limits text).run s = .ok values t) :
    ∃ first last step limit, values = rangeValues first last step limit := by
  have hguard {p : Prop} [Decidable p] {e : ScriptError} {rest : Run (List Value)}
      {s t : Interpreter} {values : List Value}
      (h : (if p then throw e >>= fun _ : PUnit => rest else rest).run s = .ok values t) :
      rest.run s = .ok values t := by
    split at h
    · cases h
    · exact h
  unfold loopValues at hrun
  rw [hrange] at hrun
  obtain ⟨first, u, -, hrun⟩ := run_of_bind_ok hrun
  obtain ⟨last, u, -, hrun⟩ := run_of_bind_ok hrun
  have hsteps {step : Int} {u : Interpreter}
      (h : (stepThrough limits first last step).run u = .ok values t) :
      ∃ first last step limit, values = rangeValues first last step limit := by
    have hvalues := hguard (hguard (hguard h))
    cases hvalues
    exact ⟨_, _, _, _, rfl⟩
  cases step with
  | none => exact hsteps hrun
  | some _ =>
    obtain ⟨step, u, -, hrun⟩ := run_of_bind_ok hrun
    exact hsteps hrun

/-- The values of a loop over a text without number signs have none. -/
theorem loopValues_sign {text : String} (htext : '#' ∉ text.toList) {values : List Value}
    {s t : Interpreter} (hrun : (loopValues limits text).run s = .ok values t) :
    ∀ value ∈ values, ∀ shown, value.text? = some shown → '#' ∉ shown.toList := by
  intro value hvalue shown hshown
  cases hrange : rangeOf? text with
  | some part =>
    obtain ⟨first, last, step, limit, rfl⟩ := rangeValues_of_loopValues hrange hrun
    obtain ⟨i, -, rfl⟩ := List.mem_map.mp hvalue
    exact intText?_sign hshown
  | none =>
    unfold loopValues at hrun
    rw [hrange] at hrun
    cases hrun
    obtain ⟨word, hword, rfl⟩ := List.mem_map.mp hvalue
    rw [← show word = shown from Option.some.inj hshown]
    exact fun hsigned => htext ((Command.splitWords_sign text).mp ⟨word, hword, hsigned⟩)

/-! ## References without a value -/

theorem expandBraced_sign (state : Braced) (cs : List Char) (hstate : '#' ∉ state.held) :
    ∃ out, expandBraced [] state cs = .ok out ∧ ('#' ∈ out ↔ '#' ∈ cs) := by
  induction cs generalizing state with
  | nil => exact ⟨state.held, rfl, by simp [hstate]⟩
  | cons c rest ih =>
    -- a character that goes on with no reference lets out what was held back
    have hafresh : ∃ out, (if c == '$' then
          (do return state.held ++ (← expandBraced [] .dollar rest))
        else (do return state.held ++ c :: (← expandBraced [] .outside rest))) = .ok out ∧
        ('#' ∈ out ↔ '#' ∈ c :: rest) := by
      split
      · rename_i hdollar
        obtain ⟨out, hout, hsign⟩ := ih .dollar (by decide)
        rw [hout]
        refine ⟨_, rfl, ?_⟩
        rw [beq_iff_eq.mp hdollar]
        simp [hstate, hsign]
      · obtain ⟨out, hout, hsign⟩ := ih .outside (by decide)
        rw [hout]
        refine ⟨_, rfl, ?_⟩
        simp [hstate, hsign]
    unfold expandBraced
    cases state with
    | outside => exact hafresh
    | dollar =>
      dsimp only
      split
      · rename_i hbrace
        obtain ⟨out, hout, hsign⟩ := ih (.name []) (by decide)
        refine ⟨out, hout, ?_⟩
        rw [beq_iff_eq.mp hbrace, hsign]
        simp
      · exact hafresh
    | name seen =>
      dsimp only
      split
      · rename_i hword
        have hc := ne_sign_of_isWordChar hword
        obtain ⟨out, hout, hsign⟩ := ih (.name (c :: seen)) (by
          simpa [Braced.held, hc] using hstate)
        refine ⟨out, hout, ?_⟩
        rw [hsign, List.mem_cons, or_iff_right hc]
      split
      · rename_i hclose
        obtain ⟨out, hout, hsign⟩ := ih .outside (by decide)
        rw [hout]
        refine ⟨_, rfl, ?_⟩
        rw [Bool.and_eq_true] at hclose
        rw [beq_iff_eq.mp hclose.1]
        simp [hsign]
      · exact hafresh

theorem plainText_sign (seen : List Char) :
    ∃ out, plainText [] seen = .ok out ∧ '#' ∉ out := by
  unfold plainText
  split
  · exact ⟨['$'], rfl, by decide⟩
  · exact ⟨[], rfl, by simp⟩

theorem expandPlain_sign (seen : Option (List Char)) (cs : List Char) :
    ∃ out, expandPlain [] seen cs = .ok out ∧ ('#' ∈ out ↔ '#' ∈ cs) := by
  induction cs generalizing seen with
  | nil =>
    cases seen with
    | none => exact ⟨[], rfl, Iff.rfl⟩
    | some name =>
      obtain ⟨out, hout, hsign⟩ := plainText_sign name
      exact ⟨out, hout, by simp [hsign]⟩
  | cons c rest ih =>
    unfold expandPlain
    cases seen with
    | none =>
      dsimp only
      split
      · rename_i hdollar
        obtain ⟨out, hout, hsign⟩ := ih (some [])
        refine ⟨out, hout, ?_⟩
        rw [beq_iff_eq.mp hdollar, hsign]
        simp
      · obtain ⟨out, hout, hsign⟩ := ih none
        rw [hout]
        exact ⟨_, rfl, by simp [hsign]⟩
    | some name =>
      dsimp only
      split
      · rename_i hword
        have hc := ne_sign_of_isWordChar hword
        obtain ⟨out, hout, hsign⟩ := ih (some (c :: name))
        exact ⟨out, hout, by rw [hsign, List.mem_cons, or_iff_right hc]⟩
      · obtain ⟨value, hvalue, hnone⟩ := plainText_sign name
        rw [hvalue]
        split
        · rename_i hdollar
          obtain ⟨out, hout, hsign⟩ := ih (some [])
          rw [hout]
          refine ⟨_, rfl, ?_⟩
          rw [beq_iff_eq.mp hdollar]
          simp [hnone, hsign]
        · obtain ⟨out, hout, hsign⟩ := ih none
          rw [hout]
          exact ⟨_, rfl, by simp [hnone, hsign]⟩

theorem expandText_sign (text : String) :
    ∃ out, expandText [] text = .ok out ∧ ('#' ∈ out.toList ↔ '#' ∈ text.toList) := by
  obtain ⟨braced, hbraced, hsign⟩ := expandBraced_sign .outside text.toList (by decide)
  obtain ⟨plain, hplain, hsign'⟩ := expandPlain_sign none braced
  refine ⟨String.ofList plain, ?_, ?_⟩
  · unfold expandText
    rw [hbraced]
    show (expandPlain [] none braced >>= fun cs => pure (String.ofList cs)) = _
    rw [hplain]
    rfl
  · rw [String.toList_ofList, hsign', hsign]

end RobotConsole.Script
