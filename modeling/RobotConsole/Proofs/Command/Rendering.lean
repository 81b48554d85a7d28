import RobotConsole.Proofs.Command.Grammar

/-!
# Writing commands down

A command is written as its name followed by its arguments and options in any order, each word in
single quotes. Whatever the words hold, reading the line gives the command back (`parse_line`):
blanks, quotes, backslashes, line ends, or nothing at all.
-/

namespace RobotConsole.Decimal

/-! ## Whole numbers -/

theorem digitsValue_toDigits (n : Nat) : digitsValue (Nat.toDigits 10 n) = n :=
  Nat.ofDigitChars_ten_toDigits

theorem groupedDigits?_of_isDigit {ds : List Char} (hne : ds ≠ [])
    (h : ∀ c ∈ ds, c.isDigit = true) : groupedDigits? ds = some ds := by
  fun_induction groupedDigits? ds with
  | case1 => exact absurd rfl hne
  | case2 c hc => rfl
  | case3 c hc => exact absurd (h c List.mem_cons_self) hc
  | case4 c rest hc ih =>
    -- an underscore is no digit
    cases h '_' (List.mem_cons_of_mem c List.mem_cons_self)
  | case5 c rest hc => exact absurd (h c List.mem_cons_self) hc
  | case6 c rest hrest _ hc ih =>
    rw [ih hrest fun d hd => h d (List.mem_cons_of_mem c hd)]
    rfl
  | case7 c rest _ _ hc => exact absurd (h c List.mem_cons_self) hc

theorem plainChar_of_isDigit {c : Char} (h : c.isDigit = true) :
    plainChar c = c ∧ isNumberBlank c = false := by
  have hrange : 48 ≤ c.toNat ∧ c.toNat ≤ 57 := by
    simpa [Char.isDigit, UInt32.le_iff_toNat_le] using h
  have hspace : c ≠ ' ' := by
    rintro rfl
    cases h
  constructor
  · rw [plainChar, if_pos (by omega)]
  · simp only [isNumberBlank, beq_false_of_ne hspace, Bool.false_or, Bool.and_eq_false_iff,
      decide_eq_false_iff_not]
    omega

theorem plainText_of_no_blank {s : String}
    (h : ∀ c ∈ s.toList.map plainChar, isNumberBlank c = false) :
    plainText s = s.toList.map plainChar := by
  have hdrop {ds : List Char} (hds : ∀ c ∈ ds, isNumberBlank c = false) :
      ds.dropWhile isNumberBlank = ds := by
    cases ds with
    | nil => rfl
    | cons d ds => rw [List.dropWhile_cons_of_neg (by simp [hds d List.mem_cons_self])]
  unfold plainText
  rw [hdrop h]
  dsimp only
  rw [hdrop fun c hc => h c (List.mem_reverse.mp hc), List.reverse_reverse]

theorem plainText_ofList {cs : List Char} (h : ∀ c ∈ cs, c.isDigit = true ∨ c = '-') :
    plainText (String.ofList cs) = cs := by
  have hplain : ∀ c ∈ cs, plainChar c = c ∧ isNumberBlank c = false := by
    intro c hc
    rcases h c hc with hdigit | rfl
    · exact plainChar_of_isDigit hdigit
    · decide
  have hmap : (String.ofList cs).toList.map plainChar = cs := by
    rw [String.toList_ofList, List.map_congr_left fun c hc => (hplain c hc).1, List.map_id']
  rw [plainText_of_no_blank fun c hc => (hplain c (hmap ▸ hc)).2, hmap]

theorem isDigit_of_mem_decimal {m : Nat} {c : Char} (hc : c ∈ Nat.toDigits 10 m) :
    c.isDigit = true :=
  Nat.isDigit_of_mem_toDigits (by decide) (by decide) hc

theorem readInt_of_takeSign {s : String} {m : Nat} (negative : Bool)
    (hlength : (Nat.toDigits 10 m).length ≤ maxIntDigits)
    (hs : takeSign (plainText s) = (negative, Nat.toDigits 10 m)) :
    readInt s = .ok (if negative then -(m : Int) else m) := by
  -- the digits are all there is after the sign
  have hlead : (Nat.toDigits 10 m).takeWhile (fun c => c.isDigit || c == '_') =
      Nat.toDigits 10 m := by
    have hall : ∀ c ∈ Nat.toDigits 10 m, (c.isDigit || c == '_') = true := fun c hc => by
      rw [isDigit_of_mem_decimal hc]
      rfl
    simpa using @List.takeWhile_append_of_pos _ _ _ [] hall
  unfold readInt
  rw [hs]
  dsimp only
  rw [hlead, groupedDigits?_of_isDigit Nat.toDigits_ne_nil fun _ hc => isDigit_of_mem_decimal hc]
  dsimp only
  rw [if_neg (Nat.not_lt.mpr hlength), if_neg (Nat.lt_irrefl _), digitsValue_toDigits]

theorem takeSign_toDigits (m : Nat) :
    takeSign (Nat.toDigits 10 m) = (false, Nat.toDigits 10 m) := by
  cases hds : Nat.toDigits 10 m with
  | nil => exact absurd hds Nat.toDigits_ne_nil
  | cons d ds =>
    have hd : d.isDigit = true :=
      isDigit_of_mem_decimal (by rw [hds]; exact List.mem_cons_self)
    unfold takeSign
    split
    · exact absurd hd (by simp_all)
    · exact absurd hd (by simp_all)
    · rfl

/-- A number that is written out is read back, unless it has too many digits to be read. -/
theorem readInt_toString {n : Int} (h : (Nat.toDigits 10 n.natAbs).length ≤ maxIntDigits) :
    readInt (toString n) = .ok n := by
  rw [Int.toString_eq_repr]
  cases n with
  | ofNat m =>
    have htext : (Int.ofNat m).repr = String.ofList (Nat.toDigits 10 m) := by
      rw [← String.toList_inj, String.toList_ofList]
      exact Nat.toList_repr
    refine readInt_of_takeSign false h ?_
    rw [htext, plainText_ofList fun c hc => .inl (isDigit_of_mem_decimal hc), takeSign_toDigits]
  | negSucc m =>
    have htext : (Int.negSucc m).repr = String.ofList ('-' :: Nat.toDigits 10 (m + 1)) := by
      rw [← String.toList_inj, String.toList_ofList]
      show ("-" ++ (m + 1).repr).toList = _
      rw [String.toList_append, Nat.toList_repr]
      rfl
    refine readInt_of_takeSign true h ?_
    rw [htext, plainText_ofList]
    · rfl
    · intro c hc
      rcases List.mem_cons.mp hc with rfl | hc
      · exact .inr rfl
      · exact .inl (isDigit_of_mem_decimal hc)

end RobotConsole.Decimal

namespace RobotConsole.Command

/-! ## The splitter, character by character -/

section Steps

variable {c : Char} (word rest : List Char)

theorem splitFrom_single (hc : c ≠ '\'') :
    splitFrom .single word (c :: rest) = splitFrom .single (c :: word) rest := by
  rw [splitFrom.eq_def]
  simp [hc]

theorem splitFrom_single_quote :
    splitFrom .single word ('\'' :: rest) = splitFrom .word word rest := by
  rw [splitFrom.eq_def]
  simp

theorem splitFrom_double (hquote : c ≠ '"') (hescape : c ≠ '\\') :
    splitFrom .double word (c :: rest) = splitFrom .double (c :: word) rest := by
  rw [splitFrom.eq_def]
  simp [hquote, hescape]

theorem splitFrom_double_quote :
    splitFrom .double word ('"' :: rest) = splitFrom .word word rest := by
  rw [splitFrom.eq_def]
  simp

theorem splitFrom_word_space :
    splitFrom .word word (' ' :: rest) = (splitFrom .between [] rest).map (word.reverse :: ·) := by
  rw [splitFrom.eq_def]
  simp [isSeparator]

/-- A place outside quotes. -/
def Place.isOutside : Place → Bool
  | .between | .word => true
  | .single | .double => false

variable {place : Place} (hplace : place.isOutside = true)

include hplace

theorem splitFrom_outside_single :
    splitFrom place word ('\'' :: rest) = splitFrom .single word rest := by
  rw [splitFrom.eq_def]
  cases place with
  | between | word => simp [isSeparator]
  | single | double => cases hplace

theorem splitFrom_outside_double :
    splitFrom place word ('"' :: rest) = splitFrom .double word rest := by
  rw [splitFrom.eq_def]
  cases place with
  | between | word => simp [isSeparator]
  | single | double => cases hplace

/-- A character that stands for itself outside quotes. -/
def isOrdinary (c : Char) : Bool :=
  !isSeparator c && c != '\'' && c != '"' && c != '\\'

theorem splitFrom_outside (hc : isOrdinary c = true) :
    splitFrom place word (c :: rest) = splitFrom .word (c :: word) rest := by
  simp only [isOrdinary, Bool.and_eq_true, Bool.not_eq_true', bne_iff_ne, ne_eq] at hc
  obtain ⟨⟨⟨hseparator, hsingle⟩, hdouble⟩, hescape⟩ := hc
  rw [splitFrom.eq_def]
  cases place with
  | between | word => simp [hseparator, hsingle, hdouble, hescape]
  | single | double => cases hplace

end Steps

/-! ## Quoted words -/

/-- A character between single quotes: as it is, but a single quote leaves the quotes, stands
between double quotes, and enters them again. -/
def quotedChar (c : Char) : List Char :=
  if c = '\'' then ['\'', '"', '\'', '"', '\''] else [c]

/-- A word in single quotes. -/
def quoteWord (word : String) : String :=
  String.ofList ('\'' :: (word.toList.flatMap quotedChar ++ ['\'']))

theorem splitFrom_quotedChar (c : Char) (word rest : List Char) :
    splitFrom .single word (quotedChar c ++ rest) = splitFrom .single (c :: word) rest := by
  unfold quotedChar
  split
  · rename_i hc
    subst hc
    calc splitFrom .single word ('\'' :: '"' :: '\'' :: '"' :: '\'' :: rest)
        = splitFrom .word word ('"' :: '\'' :: '"' :: '\'' :: rest) := splitFrom_single_quote _ _
      _ = splitFrom .double word ('\'' :: '"' :: '\'' :: rest) := splitFrom_outside_double _ _ rfl
      _ = splitFrom .double ('\'' :: word) ('"' :: '\'' :: rest) :=
          splitFrom_double _ _ (by decide) (by decide)
      _ = splitFrom .word ('\'' :: word) ('\'' :: rest) := splitFrom_double_quote _ _
      _ = splitFrom .single ('\'' :: word) rest := splitFrom_outside_single _ _ rfl
  · rename_i hc
    exact splitFrom_single word rest hc

theorem splitFrom_quotedChars (cs word rest : List Char) :
    splitFrom .single word (cs.flatMap quotedChar ++ '\'' :: rest) =
      splitFrom .word (cs.reverse ++ word) rest := by
  induction cs generalizing word with
  | nil => exact splitFrom_single_quote word rest
  | cons c cs ih =>
    rw [List.flatMap_cons, List.append_assoc, splitFrom_quotedChar, ih, List.reverse_cons,
      List.append_assoc, List.singleton_append]

theorem splitFrom_quoteWord (word : String) (rest : List Char) :
    splitFrom .between [] ((quoteWord word).toList ++ rest) =
      splitFrom .word word.toList.reverse rest := by
  rw [quoteWord, String.toList_ofList, List.cons_append, splitFrom_outside_single _ _ rfl,
    List.append_assoc, List.singleton_append, splitFrom_quotedChars, List.append_nil]

theorem splitFrom_ordinary {cs : List Char} (h : ∀ c ∈ cs, isOrdinary c = true)
    (word rest : List Char) :
    splitFrom .word word (cs ++ rest) = splitFrom .word (cs.reverse ++ word) rest := by
  induction cs generalizing word with
  | nil => rfl
  | cons c cs ih =>
    rw [List.cons_append, splitFrom_outside _ _ rfl (h c List.mem_cons_self),
      ih fun d hd => h d (List.mem_cons_of_mem c hd), List.reverse_cons, List.append_assoc,
      List.singleton_append]

/-- The characters of a line of quoted words. -/
def quotedTail (words : List String) : List Char :=
  words.flatMap fun word => ' ' :: (quoteWord word).toList

theorem toList_intercalate_quoted (first : String) (words : List String) :
    (String.intercalate " " (first :: words.map quoteWord)).toList =
      first.toList ++ quotedTail words := by
  induction words generalizing first with
  | nil => simp [quotedTail]
  | cons word words ih =>
    have hrest := ih (quoteWord word)
    rw [String.toList_intercalate] at hrest ⊢
    have hblank : " ".toList = [' '] := rfl
    rw [List.map_cons, List.map_cons, List.map_cons, List.intercalate_cons_cons,
      ← List.map_cons, hrest, hblank, List.append_assoc]
    simp only [quotedTail, List.flatMap_cons, List.cons_append, List.nil_append]

theorem splitFrom_quotedTail (word : List Char) (words : List String) :
    splitFrom .word word (quotedTail words) = some (word.reverse :: words.map String.toList) := by
  induction words generalizing word with
  | nil =>
    unfold quotedTail
    rw [splitFrom.eq_def]
    rfl
  | cons next words ih =>
    rw [quotedTail, List.flatMap_cons, List.cons_append, splitFrom_word_space,
      splitFrom_quoteWord, ← quotedTail, ih, List.reverse_reverse]
    rfl

/-- A name of ordinary characters with quoted words after it is split into the name and the
words. -/
theorem splitWords_quoted {name : String} (hne : name.toList ≠ [])
    (hname : ∀ c ∈ name.toList, isOrdinary c = true) (words : List String) :
    splitWords (String.intercalate " " (name :: words.map quoteWord)) = name :: words := by
  have hsplit : splitFrom .between [] (name.toList ++ quotedTail words) =
      some (name.toList :: words.map String.toList) := by
    cases hchars : name.toList with
    | nil => exact absurd hchars hne
    | cons c cs =>
      rw [hchars] at hname
      rw [List.cons_append, splitFrom_outside _ _ rfl (hname c List.mem_cons_self),
        splitFrom_ordinary fun d hd => hname d (List.mem_cons_of_mem c hd),
        splitFrom_quotedTail, List.reverse_append, List.reverse_reverse]
      rfl
  unfold splitWords splitQuoted?
  rw [toList_intercalate_quoted, hsplit]
  simp

/-! ## Invocations -/

/-- A value as it is written after the equals sign of an option. A number with a fraction can be
written in many ways, and the text says in which one. -/
inductive Literal where
  | text (s : String)
  | int (n : Int)
  | flag (b : Bool)
  | real (s : String) (x : Float)

namespace Literal

/-- The text of a value. -/
def written : Literal → String
  | .text s => s
  | .int n => toString n
  | .flag b => if b then "true" else "false"
  | .real s _ => s

/-- The value of an option that is assigned so. -/
def setting : Literal → Setting
  | .text s => .text s
  | .int n => .int n
  | .flag b => .flag b
  | .real _ x => .real x

/-- The values that an option can be given, by the kind of its default: any text, any whole number
that has not too many digits to be read, and so on. -/
inductive Suits : Literal → Setting → Prop
  | text {s t : String} : Suits (.text s) (.text t)
  | given {s : String} : Suits (.text s) .absent
  | int {n m : Int} : (Nat.toDigits 10 n.natAbs).length ≤ Decimal.maxIntDigits →
      Suits (.int n) (.int m)
  | flag {b b' : Bool} : Suits (.flag b) (.flag b')
  | real {s : String} {x y : Float} : Decimal.readFloat s = .ok x → Suits (.real s x) (.real y)

theorem Suits.denotes {value : Literal} {default : Setting} (h : value.Suits default) :
    default.Denotes value.written value.setting := by
  cases h with
  | text => exact .text
  | given => exact .given
  | int hlength => exact .int (Decimal.readInt_toString hlength)
  | flag =>
    rename_i b _
    cases b with
    | true => exact .yes (by decide)
    | false => exact .no (by decide)
  | real hread => exact .real hread

end Literal

/-- What may stand after the name of a command. -/
inductive Piece where
  | argument (word : String)
  | option (key : String) (value : Literal)

namespace Piece

/-- The word for a piece. -/
def word : Piece → String
  | .argument word => word
  | .option key value => key ++ "=" ++ value.written

/-- The word of an argument. -/
def argument? : Piece → Option String
  | .argument word => some word
  | .option _ _ => none

/-- The option and the value of an assignment. -/
def assigned? : Piece → Option (String × Literal)
  | .argument _ => none
  | .option key value => some (key, value)

/-- The pieces that a command takes: arguments without an equals sign, and its own options. -/
inductive Admitted (verb : Verb) : Piece → Prop
  | argument {word : String} : '=' ∉ word.toList → Admitted verb (.argument word)
  | option {key : String} {value : Literal} {default : Setting} :
      Dict.get? verb.signature.options key = some default → value.Suits default →
      Admitted verb (.option key value)

end Piece

/-- A command with its arguments and options, in the order in which they are written. -/
structure Invocation where
  verb : Verb
  pieces : List Piece
  admitted : ∀ piece ∈ pieces, piece.Admitted verb
  arity : verb.TakesArguments (pieces.filterMap Piece.argument?).length

namespace Invocation

/-- The arguments, in order. -/
def args (i : Invocation) : List String :=
  i.pieces.filterMap Piece.argument?

/-- The value that is assigned to an option last. -/
def lastValue? (i : Invocation) (key : String) : Option Literal :=
  Dict.get? (i.pieces.filterMap Piece.assigned?).reverse key

/-- The line for an invocation: the name, and then every word in quotes. -/
def line (i : Invocation) : String :=
  String.intercalate " " (i.verb.name :: i.pieces.map fun piece => quoteWord piece.word)

end Invocation

theorem Verb.name_ordinary (verb : Verb) :
    verb.name.toList ≠ [] ∧ ∀ c ∈ verb.name.toList, isOrdinary c = true := by
  rw [← List.all_eq_true]
  cases verb <;> decide

theorem Verb.isLower_of_mem_key {verb : Verb} {key : String} {default : Setting} {c : Char}
    (h : Dict.get? verb.signature.options key = some default) (hc : c ∈ key.toList) :
    c.isLower = true := by
  have hall : (verb.signature.options.all fun entry => entry.1.toList.all Char.isLower) = true := by
    cases verb <;> decide
  exact List.all_eq_true.mp (List.all_eq_true.mp hall _ (Dict.mem_of_get? h)) c hc

namespace Piece

variable {verb : Verb} {piece : Piece}

/-- Reading the word of a piece tells an argument from an assignment. -/
theorem Admitted.assignment?_word (h : piece.Admitted verb) :
    assignment? piece.word = piece.assigned?.map fun (key, value) => (key, value.written) := by
  cases h with
  | argument hword => exact (assignment?_eq_none_iff _).mpr hword
  | @option key value default hkey _ =>
    have hchars : (Piece.option key value).word.toList =
        key.toList ++ '=' :: value.written.toList := by
      simp [word]
    have hplain : ∀ c ∈ key.toList, (c != '=') = true := by
      intro c hc
      rw [bne_iff_ne]
      rintro rfl
      exact absurd (Verb.isLower_of_mem_key hkey hc) (by decide)
    unfold assignment?
    rw [hchars, if_pos (by simp), List.takeWhile_append_of_pos hplain,
      List.dropWhile_append_of_pos hplain]
    simp [assigned?]

end Piece

namespace Invocation

/-- The words after the name. -/
def words (i : Invocation) : List String :=
  i.pieces.map Piece.word

theorem splitWords_line (i : Invocation) : splitWords i.line = i.verb.name :: i.words := by
  obtain ⟨hne, hname⟩ := i.verb.name_ordinary
  have hsplit := splitWords_quoted hne hname i.words
  rwa [words, List.map_map] at hsplit

theorem words_eq (i : Invocation) :
    argumentsIn i.words = i.args ∧
      assignmentsIn i.words =
        (i.pieces.filterMap Piece.assigned?).map fun (key, value) => (key, value.written) := by
  obtain ⟨verb, pieces, admitted, arity⟩ := i
  unfold words args
  dsimp only
  clear arity
  induction pieces with
  | nil => exact ⟨rfl, rfl⟩
  | cons piece pieces ih =>
    have hpiece := (admitted piece List.mem_cons_self).assignment?_word
    obtain ⟨hargs, hassigned⟩ := ih fun p hp => admitted p (List.mem_cons_of_mem piece hp)
    cases piece with
    | argument word =>
      rw [List.map_cons, argumentsIn_cons_argument _ hpiece, hargs,
        assignmentsIn_cons_argument _ hpiece, hassigned]
      exact ⟨rfl, rfl⟩
    | option key value =>
      rw [List.map_cons, argumentsIn_cons_option _ hpiece, hargs,
        assignmentsIn_cons_option _ hpiece, hassigned]
      exact ⟨rfl, rfl⟩

theorem lastAssigned?_words (i : Invocation) (key : String) :
    lastAssigned? i.words key = (i.lastValue? key).map Literal.written := by
  rw [lastAssigned?, i.words_eq.2, ← List.map_reverse]
  exact Dict.get?_map _ _ key

theorem suits_of_mem (i : Invocation) {key : String} {value : Literal}
    (h : (key, value) ∈ i.pieces.filterMap Piece.assigned?) :
    ∃ default, Dict.get? i.verb.signature.options key = some default ∧ value.Suits default := by
  obtain ⟨piece, hpiece, hassigned⟩ := List.mem_filterMap.mp h
  cases i.admitted piece hpiece with
  | argument _ => cases hassigned
  | option hkey hsuits =>
    cases hassigned
    exact ⟨_, hkey, hsuits⟩

theorem grammatical (i : Invocation) : Grammatical i.verb i.words where
  options key text h := by
    rw [i.words_eq.2, List.mem_map] at h
    obtain ⟨⟨_, value⟩, hmem, heq⟩ := h
    cases heq
    obtain ⟨default, hdefault, hsuits⟩ := i.suits_of_mem hmem
    exact ⟨default, value.setting, hdefault, hsuits.denotes⟩
  args := by
    rw [i.words_eq.1]
    exact i.arity

/-- Reading the line of an invocation gives the invocation back: its command, its arguments in
order, and for every option of the command the value that was assigned last, or else its default.
There are no other options. -/
theorem parse_line (i : Invocation) :
    ∃ c, parse i.line = .ok (some c) ∧ c.verb = i.verb ∧ c.args = i.args ∧
      (Dict.keys c.options).Nodup ∧
      ∀ key, Dict.get? c.options key =
        (Dict.get? i.verb.signature.options key).map fun default =>
          (i.lastValue? key).elim default Literal.setting := by
  obtain ⟨c, hparse, hverb, hc⟩ := parse_of_grammatical i.splitWords_line i.grammatical
  refine ⟨c, hparse, hverb, hc.args.trans i.words_eq.1, hc.distinct, fun key => ?_⟩
  cases hdefault : Dict.get? i.verb.signature.options key with
  | none =>
    rw [← hverb, Dict.get?_eq_none_iff] at hdefault
    rw [Option.map_none, Dict.get?_eq_none_iff]
    exact fun hkey => hdefault ((hc.keys key).mp hkey)
  | some default =>
    rw [← hverb] at hdefault
    have hlast := i.lastAssigned?_words key
    cases hvalue : i.lastValue? key with
    | none =>
      rw [hvalue] at hlast
      exact hc.default key default hdefault hlast
    | some value =>
      rw [hvalue] at hlast
      obtain ⟨read, hread, hget⟩ := hc.assigned key default _ hdefault hlast
      obtain ⟨default', hdefault', hsuits⟩ :=
        i.suits_of_mem (List.mem_reverse.mp (Dict.mem_of_get? hvalue))
      rw [← hverb, hdefault] at hdefault'
      cases hdefault'
      rw [hget, hread.unique hsuits.denotes]
      rfl

/-- An invocation whose words hold what a line cannot hold outside quotes. -/
def awkward : Invocation where
  verb := .say
  pieces := [.argument "it's", .option "volume" (.int 3), .argument "", .argument "a \"b\" \\\n",
    .option "voice" (.text "x='y' z"), .option "volume" (.int (-7)), .option "async" (.flag true)]
  admitted := by
    simp only [List.forall_mem_cons]
    exact ⟨.argument (by decide), .option rfl (.int (by decide)), .argument (by decide),
      .argument (by decide), .option rfl .text, .option rfl (.int (by decide)), .option rfl .flag,
      fun _ hnil => absurd hnil List.not_mem_nil⟩
  arity := .inr ⟨rfl, by decide⟩

theorem parse_line_awkward :
    ∃ c, parse awkward.line = .ok (some c) ∧ c.verb = .say ∧
      c.args = ["it's", "", "a \"b\" \\\n"] ∧
      Dict.get? c.options "volume" = some (.int (-7)) ∧
      Dict.get? c.options "voice" = some (.text "x='y' z") ∧
      Dict.get? c.options "async" = some (.flag true) ∧
      Dict.get? c.options "speed" = some (.int 150) := by
  obtain ⟨c, hparse, hverb, hargs, -, hoptions⟩ := parse_line awkward
  exact ⟨c, hparse, hverb, hargs, hoptions "volume", hoptions "voice", hoptions "async",
    hoptions "speed"⟩

end Invocation

end RobotConsole.Command
