import Mathlib.Data.List.Forall2
import RobotConsole.Proofs.Command.Rendering
import RobotConsole.Proofs.Script.Inclusion

/-!
# The arguments of calls

A call binds its argument words to the names `1`, `2` and so on as they are written. What they refer
to is looked up where the subroutine uses them, if at all: a plain reference in a line is replaced
by the word and that is that, while a reference in braces is replaced early enough for the plain
references in the word to be replaced as well. So a call comes to the same as one with the values of
its arguments just if its arguments refer to nothing (`call_by_value_iff_no_reference`).
-/

namespace RobotConsole.Script

open Arithmetic (Value)
open Storage (Path)

variable {around : Surroundings} {base : Option Path}
variable {front rest : List Char} {line : String} {c : Char}

/-! ## Writing calls down -/

/-- A word that can be written as an argument without quotes. -/
structure IsArgument (word : String) : Prop where
  nonempty : word.toList ≠ []
  chars : ∀ c ∈ word.toList, Text.isBlank c = false ∧ c ≠ '\'' ∧ c ≠ '"' ∧ c ≠ '\\'

theorem inked_of_all {cs : List Char} (hne : cs ≠ [])
    (h : cs.all (fun c => !Text.isBlank c) = true) : Text.Inked cs :=
  Text.inked_of_forall hne fun c hc => by simpa using List.all_eq_true.mp h c hc

theorem isArgument_of_all {word : String} (hne : word.toList ≠ [])
    (h : word.toList.all (fun c => !Text.isBlank c && c != '\'' && c != '"' && c != '\\') = true) :
    IsArgument word := by
  refine ⟨hne, fun c hc => ?_⟩
  have hchar := List.all_eq_true.mp h c hc
  simp only [Bool.and_eq_true, Bool.not_eq_true', bne_iff_ne, ne_eq] at hchar
  exact ⟨hchar.1.1.1, hchar.1.1.2, hchar.1.2, hchar.2⟩

theorem IsArgument.inked {word : String} (h : IsArgument word) : Text.Inked word.toList :=
  Text.inked_of_forall h.nonempty fun c hc => (h.chars c hc).1

theorem IsArgument.ordinary {word : String} (h : IsArgument word) :
    ∀ c ∈ word.toList, Command.isOrdinary c = true := by
  intro c hc
  obtain ⟨hblank, hsingle, hdouble, hescape⟩ := h.chars c hc
  have hseparator : Command.isSeparator c = false := by
    by_contra hseparator
    simp only [Command.isSeparator, Bool.not_eq_false, Bool.or_eq_true, beq_iff_eq] at hseparator
    rcases hseparator with ((rfl | rfl) | rfl) | rfl <;> revert hblank <;> decide
  simp [Command.isOrdinary, hseparator, hsingle, hdouble, hescape]

/-- Arguments as they stand after the name of a subroutine. -/
def argumentTail (args : List String) : List Char :=
  args.flatMap fun word => ' ' :: word.toList

/-- A call of a subroutine. -/
def callLine (f : Name) (args : List String) : String :=
  String.ofList ("call".toList ++ ' ' :: (f.text.toList ++ argumentTail args))

theorem inked_argumentTail (hfront : Text.Inked front) {args : List String}
    (hargs : ∀ word ∈ args, IsArgument word) : Text.Inked (front ++ argumentTail args) := by
  induction args generalizing front with
  | nil => exact (List.append_nil front).symm ▸ hfront
  | cons word args ih =>
    have hword := (hargs word List.mem_cons_self).inked
    have hrest := ih (hfront.append hword [' ']) fun w hw =>
      hargs w (List.mem_cons_of_mem word hw)
    simpa [argumentTail] using hrest

theorem toList_callLine (f : Name) (args : List String) :
    (callLine f args).toList = "call".toList ++ ' ' :: (f.text.toList ++ argumentTail args) :=
  String.toList_ofList

theorem trim_callLine (f : Name) {args : List String} (hargs : ∀ word ∈ args, IsArgument word) :
    Text.trim (callLine f args) = callLine f args := by
  have hinked : Text.Inked (callLine f args).toList := by
    have hcall : Text.Inked "call".toList := inked_of_all (by decide) (by decide)
    have hline := hcall.append (inked_argumentTail f.inked hargs) [' ']
    rw [toList_callLine]
    simpa using hline
  unfold Text.trim
  rw [Text.trimChars_self hinked, String.ofList_toList]

theorem classify_callLine (f : Name) (args : List String) : classify (callLine f args) = .call := by
  obtain ⟨more, hlower⟩ : StartsWith "call" (Text.lower (callLine f args)) :=
    startsWith_lower (by decide) (by decide) (toList_callLine f args)
  have hskip := not_skipped hlower (by decide)
  unfold classify startsWith at *
  simp only [hskip, hlower]
  rfl

theorem takeName?_argumentTail (f : Name) (args : List String) :
    takeName? (f.text.toList ++ argumentTail args) = some (f.text, argumentTail args) := by
  cases args with
  | cons word args => exact takeName?_append (by decide)
  | nil =>
    have hne : f.text.toList.isEmpty = false :=
      List.isEmpty_eq_false_iff.mpr fun hnil => f.nonempty (String.toList_eq_nil_iff.mp hnil)
    have htake : f.text.toList.takeWhile Text.isWordChar = f.text.toList :=
      List.takeWhile_eq_self_iff.mpr f.wordChars
    have hdrop : f.text.toList.dropWhile Text.isWordChar = [] :=
      List.dropWhile_eq_nil_iff.mpr f.wordChars
    show takeName? (f.text.toList ++ []) = _
    unfold takeName?
    simp only [List.append_nil, htake, hdrop, hne, Bool.false_eq_true, if_false,
      String.ofList_toList]
    rfl

theorem newline_notMem_argumentTail {args : List String} (hargs : ∀ word ∈ args, IsArgument word) :
    '\n' ∉ argumentTail args := by
  intro hmem
  obtain ⟨word, hword, hmem⟩ := List.mem_flatMap.mp hmem
  rcases List.mem_cons.mp hmem with hblank | hmem
  · cases hblank
  · have hblank := ((hargs word hword).chars _ hmem).1
    revert hblank
    decide

/-- The name of a subroutine is read off a call, and the text of the arguments. -/
theorem callOf?_callLine (f : Name) {args : List String} (hargs : ∀ word ∈ args, IsArgument word) :
    callOf? (callLine f args) = some (f.text, String.ofList ((argumentTail args).drop 1)) := by
  obtain ⟨c, rest, hname, hc⟩ := f.inked.head
  have hkeyword : afterKeyword? "call".toList
      ("call".toList ++ ' ' :: (f.text.toList ++ argumentTail args)) =
        some (' ' :: (f.text.toList ++ argumentTail args)) := afterKeyword?_spelled (by decide) _
  have hnone : Text.AllBlank [] := fun _ h => absurd h List.not_mem_nil
  have hblanks : afterBlanks? (' ' :: (f.text.toList ++ argumentTail args)) =
      some (f.text.toList ++ argumentTail args) :=
    afterBlanks?_gap hnone ⟨c, rest ++ argumentTail args, by rw [hname]; rfl, hc⟩
  unfold callOf?
  rw [toList_callLine, hkeyword]
  simp only [Option.bind_eq_bind, Option.bind_some, hblanks, takeName?_argumentTail]
  cases args with
  | nil => rfl
  | cons word args =>
    have hword := hargs word List.mem_cons_self
    obtain ⟨d, more, hchars, hd⟩ := hword.inked.head
    have hafter : afterBlanks? (argumentTail (word :: args)) =
        some (word.toList ++ argumentTail args) :=
      afterBlanks?_gap hnone ⟨d, more ++ argumentTail args, by rw [hchars]; rfl, hd⟩
    have hline : restOfLine? (word.toList ++ argumentTail args) =
        some (word.toList ++ argumentTail args) := by
      apply restOfLine?_oneLine
      intro hmem
      exact newline_notMem_argumentTail hargs (List.mem_cons_of_mem ' ' hmem)
    have hcons : argumentTail (word :: args) = ' ' :: (word.toList ++ argumentTail args) := rfl
    rw [hcons] at hafter ⊢
    simp only [hafter, hline, Option.bind_some, List.drop_one, List.tail_cons]

theorem splitFrom_argumentTail (word : List Char) {args : List String}
    (hargs : ∀ word ∈ args, IsArgument word) :
    Command.splitFrom .word word (argumentTail args) =
      some (word.reverse :: args.map String.toList) := by
  induction args generalizing word with
  | nil =>
    unfold argumentTail
    rw [Command.splitFrom.eq_def]
    rfl
  | cons next args ih =>
    have hnext := hargs next List.mem_cons_self
    obtain ⟨c, rest, hchars⟩ := List.exists_cons_of_ne_nil hnext.nonempty
    have hordinary := hnext.ordinary
    rw [hchars] at hordinary
    have hcons : argumentTail (next :: args) = ' ' :: (next.toList ++ argumentTail args) := rfl
    rw [hcons, Command.splitFrom_word_space, hchars, List.cons_append,
      Command.splitFrom_outside _ _ rfl (hordinary c List.mem_cons_self),
      Command.splitFrom_ordinary fun d hd => hordinary d (List.mem_cons_of_mem c hd),
      ih _ fun w hw => hargs w (List.mem_cons_of_mem next hw)]
    simp [hchars]

/-- The arguments of a call are the words that it was written with. -/
theorem splitWords_argumentTail {args : List String} (hargs : ∀ word ∈ args, IsArgument word) :
    Command.splitWords (String.ofList ((argumentTail args).drop 1)) = args := by
  have hsplit : Command.splitFrom .between [] ((argumentTail args).drop 1) =
      some (args.map String.toList) := by
    cases args with
    | nil =>
      rw [Command.splitFrom.eq_def]
      rfl
    | cons word args =>
      have hword := hargs word List.mem_cons_self
      obtain ⟨c, rest, hchars⟩ := List.exists_cons_of_ne_nil hword.nonempty
      have hordinary := hword.ordinary
      rw [hchars] at hordinary
      show Command.splitFrom .between [] (word.toList ++ argumentTail args) = _
      rw [hchars, List.cons_append,
        Command.splitFrom_outside _ _ rfl (hordinary c List.mem_cons_self),
        Command.splitFrom_ordinary fun d hd => hordinary d (List.mem_cons_of_mem c hd),
        splitFrom_argumentTail _ fun w hw => hargs w (List.mem_cons_of_mem word hw)]
      simp [hchars]
  unfold Command.splitWords Command.splitQuoted?
  rw [String.toList_ofList, hsplit]
  simp

/-! ## What a call does -/

/-- The variables with arguments bound to the names from an index on. -/
def argumentBindings (index : Nat) : List String → Dict Value → Dict Value
  | [], bindings => bindings
  | word :: args, bindings =>
    argumentBindings (index + 1) args (Dict.put bindings (toString index) (.text word))

theorem get?_argumentBindings_of_lt {n index : Nat} (h : n < index) (args : List String)
    (bindings : Dict Value) :
    Dict.get? (argumentBindings index args bindings) (toString n) =
      Dict.get? bindings (toString n) := by
  induction args generalizing index bindings with
  | nil => rfl
  | cons word args ih =>
    have hne : toString n ≠ toString index := fun heq => by
      have hn : n = index := toString_injective heq
      omega
    rw [argumentBindings, ih (by omega), Dict.get?_put, if_neg hne]

theorem get?_argumentBindings {args : List String} {i : Nat} {word : String}
    (h : args[i]? = some word) (index : Nat) (bindings : Dict Value) :
    Dict.get? (argumentBindings index args bindings) (toString (index + i)) =
      some (.text word) := by
  induction args generalizing index i bindings with
  | nil => cases h
  | cons first args ih =>
    cases i with
    | zero =>
      cases h
      show Dict.get? (argumentBindings (index + 1) args _) (toString index) = _
      rw [get?_argumentBindings_of_lt (Nat.lt_succ_self index), Dict.get?_put, if_pos rfl]
    | succ i =>
      rw [argumentBindings, show index + (i + 1) = index + 1 + i by omega]
      exact ih h (index + 1) _

theorem run_bindArguments_eq (index : Nat) (args : List String) (s : Interpreter) :
    ∃ old, (bindArguments index args).run s =
      .ok old { s with bindings := argumentBindings index args s.bindings } := by
  induction args generalizing index s with
  | nil => exact ⟨[], rfl⟩
  | cons word args ih =>
    obtain ⟨old, hrun⟩ := ih (index + 1) (s.lend (toString index) (.text word))
    have hvalue : (valueOf? (toString index)).run s =
        .ok (Dict.get? s.bindings (toString index)) s := rfl
    have hbind : (bind (toString index) (.text word)).run s =
        .ok () (s.lend (toString index) (.text word)) := rfl
    refine ⟨(toString index, Dict.get? s.bindings (toString index)) :: old, ?_⟩
    unfold bindArguments
    simp only [EStateM.run_bind, hvalue, hbind, hrun]
    rfl

/-- A subroutine whose expansion goes well has expanded its call. -/
theorem run_expandCall {expand : Expander} {f : Name} {args body commands : List String}
    {s t : Interpreter} (hargs : ∀ word ∈ args, IsArgument word)
    (hbody : Dict.get? s.subroutines f.text = some body)
    (hrun : (expand body).run { s with bindings := argumentBindings 1 args s.bindings } =
      .ok commands t) :
    ∃ u, (expandCall expand (callLine f args)).run s = .ok commands u := by
  obtain ⟨old, hbind⟩ := run_bindArguments_eq 1 args s
  unfold expandCall
  simp only [callOf?_callLine f hargs, splitWords_argumentTail hargs, EStateM.run_bind,
    EStateM.run_get, hbody, hbind, hrun, run_restoreAll]
  exact ⟨_, rfl⟩

theorem run_expandBlock_single {levels : Nat} {s t : Interpreter}
    {commands : List String} (hline : Text.trim line = line)
    (hrun : (expandLine around base (expandBlock around.inner base levels) 0 line []).run s =
      .ok (commands, 0) t) :
    (expandBlock around base (levels + 1) [line]).run s = .ok commands t := by
  rw [expandBlock, expandLines, hline, EStateM.run_bind, hrun]
  dsimp only
  rw [List.drop_nil, expandLines, EStateM.run_bind, EStateM.run_pure]
  dsimp only
  rw [EStateM.run_pure, List.append_nil]

/-! ## References to arguments -/

section References

variable {bindings : Dict Value} {name : List Char}

theorem isWordChar_of_isDigit (h : c.isDigit = true) : Text.isWordChar c = true := by
  have hrange : c.toNat ≤ 57 := by
    simp only [Char.isDigit, Bool.and_eq_true, decide_eq_true_eq, ge_iff_le,
      UInt32.le_iff_toNat_le] at h
    exact h.2
  unfold Text.isWordChar
  rw [if_pos (by omega)]
  simp [Char.isAlphanum, h]

theorem expandBraced_of_no_brace {cs : List Char} (h : '{' ∉ cs) :
    expandBraced bindings .outside cs = .ok cs ∧
      expandBraced bindings .dollar cs = .ok ('$' :: cs) := by
  induction cs with
  | nil => exact ⟨rfl, rfl⟩
  | cons c cs ih =>
    obtain ⟨houtside, hdollar⟩ := ih fun hmem => h (List.mem_cons_of_mem c hmem)
    have hc : (c == '{') = false := beq_eq_false_iff_ne.mpr fun hc => h (hc ▸ List.mem_cons_self)
    constructor
    · rw [expandBraced]
      by_cases hsign : c = '$'
      · simp only [hsign, beq_self_eq_true, if_true, hdollar]
        rfl
      · simp only [beq_eq_false_iff_ne.mpr hsign, Bool.false_eq_true, if_false, houtside]
        rfl
    · rw [expandBraced]
      by_cases hsign : c = '$'
      · simp only [hsign, beq_self_eq_true, if_true, hdollar]
        rfl
      · simp only [hc, beq_eq_false_iff_ne.mpr hsign, Bool.false_eq_true, if_false, houtside]
        rfl

theorem expandBraced_name (hname : ∀ c ∈ name, Text.isWordChar c = true) (seen rest : List Char)
    (hne : seen ≠ [] ∨ name ≠ []) :
    expandBraced bindings (.name seen) (name ++ '}' :: rest) = (do
      return (← referenceText bindings (seen.reverse ++ name)) ++
        (← expandBraced bindings .outside rest)) := by
  induction name generalizing seen with
  | nil =>
    have hseen : seen.isEmpty = false :=
      List.isEmpty_eq_false_iff.mpr (hne.resolve_right fun h => h rfl)
    have hbrace : Text.isWordChar '}' = false := by decide
    rw [List.nil_append, expandBraced, List.append_nil]
    simp only [hbrace, hseen, Bool.false_eq_true, if_false, beq_self_eq_true, Bool.not_false,
      Bool.and_self, if_true]
  | cons c name ih =>
    rw [List.cons_append, expandBraced]
    simp only [hname c List.mem_cons_self, if_true]
    rw [ih (fun d hd => hname d (List.mem_cons_of_mem c hd)) (c :: seen)
      (.inl (List.cons_ne_nil c seen)), List.reverse_cons, List.append_assoc]
    rfl

theorem expandBraced_reference (hname : ∀ c ∈ name, Text.isWordChar c = true) (hne : name ≠ [])
    (rest : List Char) :
    expandBraced bindings .outside ('$' :: '{' :: (name ++ '}' :: rest)) = (do
      return (← referenceText bindings name) ++ (← expandBraced bindings .outside rest)) := by
  have hopen (text : List Char) : expandBraced bindings .outside ('$' :: '{' :: text) =
      expandBraced bindings (.name []) text := by
    rw [expandBraced]
    simp only [beq_self_eq_true, if_true]
    rw [expandBraced]
    simp only [beq_self_eq_true, if_true]
    cases expandBraced bindings (.name []) text <;> rfl
  rw [hopen, expandBraced_name hname [] rest (.inr hne)]
  rfl

theorem expandPlain_name (hname : ∀ c ∈ name, Text.isWordChar c = true) (seen : List Char) :
    expandPlain bindings (some seen) name = plainText bindings (name.reverse ++ seen) := by
  induction name generalizing seen with
  | nil => rfl
  | cons c name ih =>
    rw [expandPlain]
    simp only [hname c List.mem_cons_self, if_true]
    rw [ih (fun d hd => hname d (List.mem_cons_of_mem c hd)), List.reverse_cons,
      List.append_assoc]
    rfl

end References

/-- A line that says what an argument is. -/
def sayPlain (i : Nat) : String :=
  String.ofList ("say $".toList ++ (toString i).toList)

/-- The same with the reference in braces. -/
def sayBraced (i : Nat) : String :=
  String.ofList ("say $\x7b".toList ++ ((toString i).toList ++ ['}']))

section Saying

variable {bindings : Dict Value} {i : Nat} {word : String}

theorem isDigit_of_mem_toString (h : c ∈ (toString i).toList) : c.isDigit = true := by
  rw [Nat.toString_eq_repr, Nat.toList_repr] at h
  exact Nat.isDigit_of_mem_toDigits (by decide) (by decide) h

theorem isWordChar_of_mem_toString (h : c ∈ (toString i).toList) :
    Text.isWordChar c = true :=
  isWordChar_of_isDigit (isDigit_of_mem_toString h)

theorem toString_toList_ne_nil (i : Nat) : (toString i).toList ≠ [] := by
  rw [Nat.toString_eq_repr, Nat.toList_repr]
  exact Nat.toDigits_ne_nil

theorem referenceText_toString (h : Dict.get? bindings (toString i) = some (.text word)) :
    referenceText bindings (toString i).toList = .ok word.toList := by
  unfold referenceText
  rw [String.ofList_toList, h]
  rfl

/-- A plain reference is replaced by the argument as it was written. -/
theorem expandText_sayPlain (h : Dict.get? bindings (toString i) = some (.text word)) :
    expandText bindings (sayPlain i) = .ok ("say " ++ word) := by
  have hbrace : '{' ∉ "say $".toList ++ (toString i).toList := by
    intro hmem
    rcases List.mem_append.mp hmem with hmem | hmem
    · revert hmem
      decide
    · have hdigit := isDigit_of_mem_toString hmem
      revert hdigit
      decide
  have hplain : expandPlain bindings none ("say $".toList ++ (toString i).toList) =
      .ok ("say ".toList ++ word.toList) := by
    have hsplit : "say $".toList ++ (toString i).toList =
        "say ".toList ++ '$' :: (toString i).toList := rfl
    have hsign : expandPlain bindings none ('$' :: (toString i).toList) =
        expandPlain bindings (some []) (toString i).toList := by
      rw [expandPlain]
      rfl
    have hne : ((toString i).toList.reverse ++ []).isEmpty = false := by
      simp
    rw [hsplit, expandPlain_append (by decide), hsign,
      expandPlain_name fun c hc => isWordChar_of_mem_toString hc, plainText, hne]
    simp only [Bool.false_eq_true, if_false, List.append_nil, List.reverse_reverse,
      referenceText_toString h]
    rfl
  unfold expandText sayPlain
  rw [String.toList_ofList, (expandBraced_of_no_brace hbrace).1]
  show (do return String.ofList (← expandPlain bindings none _) : Except ScriptError String) = _
  rw [hplain]
  show Except.ok (String.ofList ("say ".toList ++ word.toList)) = _
  rw [String.ofList_append, String.ofList_toList, String.ofList_toList]

/-- A reference in braces is replaced by what the argument stands for, if that refers to nothing in
braces itself. -/
theorem expandText_sayBraced (h : Dict.get? bindings (toString i) = some (.text word))
    (hword : '{' ∉ word.toList) :
    expandText bindings (sayBraced i) = (expandText bindings word).map ("say " ++ ·) := by
  have hbraced : expandBraced bindings .outside
      ("say $\x7b".toList ++ ((toString i).toList ++ ['}'])) =
        .ok ("say ".toList ++ word.toList) := by
    have hsplit : "say $\x7b".toList ++ ((toString i).toList ++ ['}']) =
        "say ".toList ++ '$' :: '{' :: ((toString i).toList ++ ['}']) := rfl
    rw [hsplit, expandBraced_append (by decide),
      expandBraced_reference (fun c hc => isWordChar_of_mem_toString hc) (toString_toList_ne_nil i),
      referenceText_toString h]
    show Except.ok ("say ".toList ++ (word.toList ++ [])) = _
    rw [List.append_nil]
  unfold expandText sayBraced
  rw [String.toList_ofList, hbraced, (expandBraced_of_no_brace hword).1]
  show (do return String.ofList (← expandPlain bindings none _) : Except ScriptError String) =
    Except.map _ (do return String.ofList (← expandPlain bindings none word.toList))
  rw [expandPlain_append (by decide)]
  cases expandPlain bindings none word.toList with
  | error e => rfl
  | ok expanded =>
    show Except.ok (String.ofList ("say ".toList ++ expanded)) = .ok _
    rw [String.ofList_append, String.ofList_toList]

end Saying

/-! ## Calls with references and calls with values -/

theorem classify_say
    (h : line.toList = "say".toList ++ ' ' :: rest) : classify line = .command := by
  have hstart : StartsWith "say" (Text.lower line) := startsWith_lower (by decide) (by decide) h
  have hstray : ["else", "endif", "endfor", "endwhile", "enddef"].contains (Text.lower line) =
      false := by
    simp [hstart.ne (show ' ' ∉ "else".toList by decide),
      hstart.ne (show ' ' ∉ "endif".toList by decide),
      hstart.ne (show ' ' ∉ "endfor".toList by decide),
      hstart.ne (show ' ' ∉ "endwhile".toList by decide),
      hstart.ne (show ' ' ∉ "enddef".toList by decide)]
  obtain ⟨more, hlower⟩ := hstart
  have hskip := not_skipped hlower (by decide)
  unfold classify startsWith at *
  simp only [hskip, hlower, hstray]
  rfl

theorem run_say {levels : Nat} {said : String} {s : Interpreter}
    (hline : line.toList = "say".toList ++ ' ' :: rest) (hrest : Text.Inked rest)
    (hsaid : expandText s.bindings line = .ok said) :
    (expandBlock around base (levels + 1) [line]).run s = .ok [said] s := by
  have hinked : Text.Inked line.toList := by
    have hsay : Text.Inked "say".toList := inked_of_all (by decide) (by decide)
    have happend := hsay.append hrest [' ']
    rw [hline]
    simpa using happend
  have htrim : Text.trim line = line := by
    unfold Text.trim
    rw [Text.trimChars_self hinked, String.ofList_toList]
  have hexpand : (expandVariables line).run s = .ok said s := by
    unfold expandVariables
    simp only [EStateM.run_bind, EStateM.run_get, hsaid]
    rfl
  refine run_expandBlock_single htrim ?_
  unfold expandLine
  rw [classify_say hline]
  simp only [EStateM.run_bind, hexpand]
  rfl

/-- The state with a subroutine. -/
def Interpreter.defining (s : Interpreter) (f : Name) (body : List String) : Interpreter :=
  { s with subroutines := Dict.put s.subroutines f.text body }

/-- What there is to see of a script that was expanded: its commands or its error, the variables,
and what was printed. -/
def outcome : EStateM.Result ScriptError Interpreter (List String) →
    Except ScriptError (List String) × Dict Value × Array String
  | .ok commands s => (.ok commands, s.bindings, s.printed)
  | .error e s => (.error e, s.bindings, s.printed)

/-- What a call of a subroutine with some body leads to. -/
def callOutcome (around : Surroundings) (base : Option Path) (levels : Nat) (f : Name)
    (body args : List String) (s : Interpreter) :=
  outcome ((expandBlock around base (levels + 2) [callLine f args]).run (s.defining f body))

section Calls

variable {levels : Nat} {f : Name} {args : List String} {s : Interpreter}

theorem callOutcome_say (hargs : ∀ word ∈ args, IsArgument word) {said : String}
    (hline : line.toList = "say".toList ++ ' ' :: rest)
    (hrest : Text.Inked rest)
    (hsaid : expandText (argumentBindings 1 args s.bindings) line = .ok said) :
    (callOutcome around base levels f [line] args s).1 = .ok [said] := by
  have hbody : Dict.get? (s.defining f [line]).subroutines f.text = some [line] := by
    show Dict.get? (Dict.put s.subroutines f.text [line]) f.text = _
    rw [Dict.get?_put, if_pos rfl]
  have hexpand : (expandBlock around.inner base (levels + 1) [line]).run
      { s.defining f [line] with
        bindings := argumentBindings 1 args (s.defining f [line]).bindings } = .ok [said] _ :=
    run_say hline hrest hsaid
  obtain ⟨u, hcall⟩ := run_expandCall hargs hbody hexpand
  have hblock : (expandBlock around base (levels + 2) [callLine f args]).run
      (s.defining f [line]) = .ok [said] u := by
    refine run_expandBlock_single (trim_callLine f hargs) ?_
    unfold expandLine
    rw [classify_callLine]
    simp only [EStateM.run_bind, hcall]
    rfl
  unfold callOutcome
  rw [hblock]
  rfl

theorem inked_toString (i : Nat) : Text.Inked (toString i).toList :=
  Text.inked_of_forall (toString_toList_ne_nil i) fun _ hc =>
    Text.not_blank_of_isWordChar (isWordChar_of_mem_toString hc)

/-- A plain reference to an argument comes out as the word that was written in the call. -/
theorem callOutcome_sayPlain (hargs : ∀ word ∈ args, IsArgument word) {i : Nat} {word : String}
    (h : args[i]? = some word) :
    (callOutcome around base levels f [sayPlain (1 + i)] args s).1 = .ok ["say " ++ word] := by
  have hsign : Text.Inked ['$'] := inked_of_all (by decide) (by decide)
  have hinked : Text.Inked ('$' :: (toString (1 + i)).toList) := by
    have happend := hsign.append (inked_toString (1 + i)) []
    simpa using happend
  refine callOutcome_say hargs String.toList_ofList hinked ?_
  exact expandText_sayPlain (get?_argumentBindings h 1 s.bindings)

/-- A reference in braces comes out as what the word stands for there. -/
theorem callOutcome_sayBraced (hargs : ∀ word ∈ args, IsArgument word) {i : Nat}
    {word value : String} (h : args[i]? = some word) (hword : '{' ∉ word.toList)
    (hvalue : expandText (argumentBindings 1 args s.bindings) word = .ok value) :
    (callOutcome around base levels f [sayBraced (1 + i)] args s).1 = .ok ["say " ++ value] := by
  have hsign : Text.Inked ['$', '{'] := inked_of_all (by decide) (by decide)
  have hclose : Text.Inked ['}'] := inked_of_all (by decide) (by decide)
  have hinked : Text.Inked ('$' :: '{' :: ((toString (1 + i)).toList ++ ['}'])) := by
    have happend := hsign.append hclose (toString (1 + i)).toList
    simpa using happend
  refine callOutcome_say hargs String.toList_ofList hinked ?_
  rw [expandText_sayBraced (get?_argumentBindings h 1 s.bindings) hword, hvalue]
  rfl

end Calls

/-- What an argument stands for where the call is made: a word that refers to nothing more. -/
structure StandsFor (bindings : Dict Value) (word value : String) : Prop where
  expands : expandText bindings word = .ok value
  argument : IsArgument value
  final : '$' ∉ value.toList

theorem StandsFor.eq_iff {bindings : Dict Value} {word value : String}
    (h : StandsFor bindings word value) : word = value ↔ '$' ∉ word.toList := by
  constructor
  · rintro rfl
    exact h.final
  · intro hword
    have hsame : expandText bindings word = .ok word := by
      unfold expandText
      rw [expandBraced_of_no_dollar bindings hword]
      show (do return String.ofList (← expandPlain bindings none word.toList) :
        Except ScriptError String) = _
      rw [expandPlain_of_no_dollar bindings hword]
      exact congrArg Except.ok String.ofList_toList
    exact Except.ok.inj (hsame.symm.trans h.expands)

section Values

variable {bindings : Dict Value} {words values : List String}

theorem isArgument_of_standsFor (h : List.Forall₂ (StandsFor bindings) words values) :
    ∀ value ∈ values, IsArgument value := by
  induction h with
  | nil => exact fun _ h => absurd h List.not_mem_nil
  | cons hfirst _ ih => exact List.forall_mem_cons.mpr ⟨hfirst.argument, ih⟩

theorem exists_value (h : List.Forall₂ (StandsFor bindings) words values) {i : Nat} {word : String}
    (hi : words[i]? = some word) :
    ∃ value, values[i]? = some value ∧ StandsFor bindings word value := by
  induction h generalizing i with
  | nil => cases hi
  | cons hfirst _ ih =>
    cases i with
    | zero =>
      cases hi
      exact ⟨_, rfl, hfirst⟩
    | succ i => exact ih hi

theorem words_eq_values (h : List.Forall₂ (StandsFor bindings) words values)
    (hwords : ∀ word ∈ words, '$' ∉ word.toList) : words = values := by
  induction h with
  | nil => rfl
  | cons hfirst _ ih =>
    obtain ⟨hword, hrest⟩ := List.forall_mem_cons.mp hwords
    rw [hfirst.eq_iff.mpr hword, ih hrest]

end Values

/-- Arguments are not passed by value. Whatever the variables are, a call leads to the same as the
call with the values of its arguments, whatever its subroutine holds, just if no argument holds a
dollar sign. A subroutine that refers to an argument plainly gets the word of the call; one that
does so in braces gets what the word stands for in the subroutine, if that is no reference in
braces. -/
theorem call_by_value_iff_no_reference {f : Name} {words values : List String} {s : Interpreter}
    (hwords : ∀ word ∈ words, IsArgument word)
    (hvalues : List.Forall₂ (StandsFor s.bindings) words values)
    (around : Surroundings) (base : Option Path) (levels : Nat) :
    ((∀ body, callOutcome around base levels f body words s =
        callOutcome around base levels f body values s) ↔
      ∀ word ∈ words, '$' ∉ word.toList) ∧
    ∀ (i : Nat) (word : String), words[i]? = some word →
      (callOutcome around base levels f [sayPlain (1 + i)] words s).1 = .ok ["say " ++ word] ∧
      ('{' ∉ word.toList → ∀ value,
        expandText (argumentBindings 1 words s.bindings) word = .ok value →
        (callOutcome around base levels f [sayBraced (1 + i)] words s).1 =
          .ok ["say " ++ value]) := by
  refine ⟨⟨fun hsame => ?_, fun hplain => ?_⟩, fun i word hword => ⟨?_, ?_⟩⟩
  · -- what the subroutine says of an argument tells the word from its value
    intro word hmem
    obtain ⟨i, hi⟩ := List.mem_iff_getElem?.mp hmem
    obtain ⟨value, hvalue, hstands⟩ := exists_value hvalues hi
    have hsaid := congrArg Prod.fst (hsame [sayPlain (1 + i)])
    rw [callOutcome_sayPlain hwords hi,
      callOutcome_sayPlain (isArgument_of_standsFor hvalues) hvalue] at hsaid
    have htext : "say " ++ word = "say " ++ value := by
      injection hsaid with hlist
      injection hlist
    exact hstands.eq_iff.mp ((String.append_right_inj _).mp htext)
  · intro body
    rw [words_eq_values hvalues hplain]
  · exact callOutcome_sayPlain hwords hword
  · intro hbrace value hvalue
    exact callOutcome_sayBraced hwords hword hbrace hvalue

/-- The name of a subroutine. -/
def greet : Name where
  text := "greet"
  nonempty := by decide
  wordChars := List.all_eq_true.mp (by decide)

/-- Surroundings without files. -/
def emptySurroundings : Surroundings where
  files := []
  directory := { root := "/", names := [] }

/-- A state in which a name is known. -/
def knownName : Interpreter where
  bindings := [("name", .text "Bob")]

/-- A subroutine that greets by its argument greets the reference, not what it stands for. -/
theorem reference_greeted :
    IsArgument "$name" ∧ StandsFor knownName.bindings "$name" "Bob" ∧
      ¬(∀ body, callOutcome emptySurroundings none 0 greet body ["$name"] knownName =
        callOutcome emptySurroundings none 0 greet body ["Bob"] knownName) ∧
      (callOutcome emptySurroundings none 0 greet [sayPlain 1] ["$name"]
        knownName).1 = .ok ["say $name"] := by
  have hword : IsArgument "$name" := isArgument_of_all (by decide) (by decide)
  have hvalue : StandsFor knownName.bindings "$name" "Bob" :=
    ⟨by decide +kernel, isArgument_of_all (by decide) (by decide), by decide⟩
  have hwords : ∀ word ∈ ["$name"], IsArgument word := by
    intro word hmem
    rw [List.mem_singleton.mp hmem]
    exact hword
  obtain ⟨hiff, hsaid⟩ := call_by_value_iff_no_reference (f := greet) hwords (.cons hvalue .nil)
    emptySurroundings none 0
  refine ⟨hword, hvalue, fun hsame => ?_, (hsaid 0 "$name" rfl).1⟩
  exact hiff.mp hsame "$name" List.mem_cons_self (by decide)

end RobotConsole.Script
