import RobotConsole.Proofs.Command.Kinds

/-!
# The grammar of command lines

A command line is the name of a command followed by words. A word with an equals sign assigns a
value to an option, and any other word is an argument. `Grammatical` says which words may follow a
command, and `Describes` which command they stand for. Parsing accepts exactly the grammatical lines
(`parseWords_cases`): it gives the command that the words describe, or it objects to something that
is indeed wrong with them (`Refusal`).
-/

namespace RobotConsole

variable {c d : Command} {cause : ParseError} {words : List String}

namespace Dict

variable {β : Type}

/-- The keys of a dictionary, in order. -/
def keys (d : Dict β) : List String :=
  d.map Prod.fst

theorem mem_keys_iff (d : Dict β) (key : String) :
    key ∈ keys d ↔ ∃ value, get? d key = some value := by
  rw [← Option.isSome_iff_exists, Option.isSome_iff_ne_none, ne_eq, get?_eq_none_iff,
    Decidable.not_not, keys]

theorem mem_of_get? {d : Dict β} {key : String} {value : β} (h : get? d key = some value) :
    (key, value) ∈ d := by
  induction d with
  | nil => cases h
  | cons entry rest ih =>
    obtain ⟨k, v⟩ := entry
    rw [get?_cons] at h
    split at h
    · rename_i hkey
      cases h
      rw [hkey]
      exact List.mem_cons_self
    · exact List.mem_cons_of_mem _ (ih h)

theorem get?_map {γ : Type} (f : β → γ) (d : Dict β) (key : String) :
    get? (d.map fun entry => (entry.1, f entry.2)) key = (get? d key).map f := by
  induction d with
  | nil => rfl
  | cons entry rest ih =>
    obtain ⟨k, v⟩ := entry
    rw [List.map_cons, get?_cons, get?_cons, ih]
    split <;> rfl

theorem mem_keys_put (d : Dict β) (key : String) (value : β) (k : String) :
    k ∈ keys (put d key value) ↔ k = key ∨ k ∈ keys d := by
  simp only [mem_keys_iff, get?_put]
  by_cases h : k = key <;> simp [h]

theorem nodup_keys_put {d : Dict β} (h : (keys d).Nodup) (key : String) (value : β) :
    (keys (put d key value)).Nodup := by
  induction d with
  | nil => simp [put, keys]
  | cons entry rest ih =>
    obtain ⟨k, v⟩ := entry
    obtain ⟨hk, hrest⟩ : k ∉ keys rest ∧ (keys rest).Nodup := List.nodup_cons.mp h
    unfold put
    split
    · exact List.nodup_cons.mpr ⟨hk, hrest⟩
    · rename_i hkey
      have hfresh : k ∉ keys (put rest key value) := by
        rw [mem_keys_put, not_or]
        exact ⟨fun heq => hkey (by rw [heq, beq_self_eq_true]), hk⟩
      exact List.nodup_cons.mpr ⟨hfresh, ih hrest⟩

end Dict

namespace Command

/-! ## Words -/

/-- The option that a word assigns to, with the text of its value: what stands before the first
equals sign, and what stands after it. -/
def assignment? (word : String) : Option (String × String) :=
  if '=' ∈ word.toList then
    some (String.ofList (word.toList.takeWhile (· != '=')),
      String.ofList (word.toList.dropWhile (· != '=')).tail)
  else none

/-- The words without an equals sign. -/
def argumentsIn (words : List String) : List String :=
  words.filter fun word => '=' ∉ word.toList

/-- The assignments to options, in order. -/
def assignmentsIn (words : List String) : List (String × String) :=
  words.filterMap assignment?

/-- The text that is assigned to an option last. -/
def lastAssigned? (words : List String) (key : String) : Option String :=
  Dict.get? (assignmentsIn words).reverse key

theorem cutAt?_equals (cs : List Char) :
    Text.cutAt? ['='] cs =
      if '=' ∈ cs then some (cs.takeWhile (· != '='), (cs.dropWhile (· != '=')).tail)
      else none := by
  induction cs with
  | nil => rfl
  | cons c rest ih =>
    unfold Text.cutAt?
    by_cases h : c = '='
    · subst h
      simp [List.isPrefixOf]
    · have hne : ('=' == c) = false := beq_false_of_ne (Ne.symm h)
      simp only [List.isPrefixOf, hne, Bool.false_and, Bool.false_eq_true, if_false, ih]
      by_cases hrest : '=' ∈ rest <;> simp [hrest, h, Ne.symm h]

theorem splitOnce?_equals (word : String) : Text.splitOnce? "=" word = assignment? word := by
  unfold Text.splitOnce? assignment?
  rw [show "=".toList = ['='] from rfl, cutAt?_equals]
  split <;> rfl

theorem assignment?_eq_none_iff (word : String) :
    assignment? word = none ↔ '=' ∉ word.toList := by
  unfold assignment?
  split <;> simp [*]

section Cons

variable {word key text : String} (rest : List String)

theorem argumentsIn_cons_argument (h : assignment? word = none) :
    argumentsIn (word :: rest) = word :: argumentsIn rest := by
  have hword := (assignment?_eq_none_iff word).mp h
  simp [argumentsIn, hword]

theorem argumentsIn_cons_option (h : assignment? word = some (key, text)) :
    argumentsIn (word :: rest) = argumentsIn rest := by
  have hword : ¬ '=' ∉ word.toList := by
    rw [← assignment?_eq_none_iff, h]
    exact Option.some_ne_none _
  simp [argumentsIn, Decidable.not_not.mp hword]

theorem assignmentsIn_cons_argument (h : assignment? word = none) :
    assignmentsIn (word :: rest) = assignmentsIn rest :=
  List.filterMap_cons_none h

theorem assignmentsIn_cons_option (h : assignment? word = some (key, text)) :
    assignmentsIn (word :: rest) = (key, text) :: assignmentsIn rest :=
  List.filterMap_cons_some h

theorem lastAssigned?_cons_argument (h : assignment? word = none) (k : String) :
    lastAssigned? (word :: rest) k = lastAssigned? rest k := by
  rw [lastAssigned?, assignmentsIn_cons_argument rest h, lastAssigned?]

/-- An assignment counts for its own option, unless there is a later one. -/
theorem lastAssigned?_cons_option (h : assignment? word = some (key, text)) (k : String) :
    lastAssigned? (word :: rest) k =
      (lastAssigned? rest k).or (if k = key then some text else none) := by
  rw [lastAssigned?, assignmentsIn_cons_option rest h, List.reverse_cons, Dict.get?_append,
    Dict.get?_cons, lastAssigned?]
  rfl

end Cons

/-! ## Values -/

/-- What a text stands for as the value of an option with a given default. -/
inductive Setting.Denotes : Setting → String → Setting → Prop
  | yes {b : Bool} {s : String} : Text.lower s ∈ ["true", "yes", "on", "1"] →
      Denotes (.flag b) s (.flag true)
  | no {b : Bool} {s : String} : Text.lower s ∈ ["false", "no", "off", "0"] →
      Denotes (.flag b) s (.flag false)
  | int {m n : Int} {s : String} : Decimal.readInt s = .ok n → Denotes (.int m) s (.int n)
  | real {x y : Float} {s : String} : Decimal.readFloat s = .ok y → Denotes (.real x) s (.real y)
  | text {t s : String} : Denotes (.text t) s (.text s)
  | given {s : String} : Denotes .absent s (.text s)

theorem readFlag_eq_ok_iff (s : String) (b : Bool) :
    readFlag s = .ok b ↔
      Text.lower s ∈ (if b then ["true", "yes", "on", "1"] else ["false", "no", "off", "0"]) := by
  -- no word is on both lists
  have hdisjoint : ∀ word ∈ ["true", "yes", "on", "1"], word ∉ ["false", "no", "off", "0"] := by
    decide
  unfold readFlag
  dsimp only
  simp only [List.contains_eq_mem, decide_eq_true_eq]
  split
  · rename_i hyes
    have hno := hdisjoint _ hyes
    cases b with
    | true => simpa using hyes
    | false => simpa using hno
  · rename_i hyes
    split
    · rename_i hno
      cases b with
      | true => simpa using hyes
      | false => simpa using hno
    · rename_i hno
      cases b with
      | true => simpa using hyes
      | false => simpa using hno

/-- Reading the value of an option gives what its text stands for. -/
theorem readSetting_eq_ok_iff (default : Setting) (s : String) (value : Setting) :
    readSetting default s = .ok value ↔ default.Denotes s value := by
  constructor
  · intro h
    unfold readSetting at h
    cases default with
    | absent => cases h; exact .given
    | text t => cases h; exact .text
    | flag b =>
      dsimp only at h
      cases hread : readFlag s with
      | error cause => rw [hread] at h; cases h
      | ok b' =>
        rw [hread] at h
        cases h
        have hword := (readFlag_eq_ok_iff s b').mp hread
        cases b' with
        | true => exact .yes hword
        | false => exact .no hword
    | int n =>
      dsimp only at h
      cases hread : Decimal.readInt s with
      | error cause => rw [hread] at h; cases h
      | ok n' => rw [hread] at h; cases h; exact .int hread
    | real x =>
      dsimp only at h
      cases hread : Decimal.readFloat s with
      | error cause => rw [hread] at h; cases h
      | ok x' => rw [hread] at h; cases h; exact .real hread
  · intro h
    cases h with
    | yes hword => rw [readSetting, (readFlag_eq_ok_iff s true).mpr hword]; rfl
    | no hword => rw [readSetting, (readFlag_eq_ok_iff s false).mpr hword]; rfl
    | int hread => rw [readSetting, hread]; rfl
    | real hread => rw [readSetting, hread]; rfl
    | text => rfl
    | given => rfl

theorem Setting.Denotes.unique {default value value' : Setting} {s : String}
    (h : default.Denotes s value) (h' : default.Denotes s value') : value = value' := by
  rw [← readSetting_eq_ok_iff] at h h'
  rw [h] at h'
  exact Except.ok.inj h'

/-! ## Lines -/

/-- How many arguments a command takes: as many as it requires, or more if it is open-ended. -/
def Verb.TakesArguments (verb : Verb) (count : Nat) : Prop :=
  count = verb.signature.args.length ∨
    verb.signature.openEnded = true ∧ verb.signature.args.length ≤ count

/-- Whether a command has an option to which a text can be assigned. -/
def Verb.TakesOption (verb : Verb) (key text : String) : Prop :=
  ∃ default value, Dict.get? verb.signature.options key = some default ∧
    default.Denotes text value

/-- The words that may follow the name of a command: every assignment is to an option of the command
and of a value that the option can have, and there are as many arguments as the command takes. -/
structure Grammatical (verb : Verb) (words : List String) : Prop where
  options : ∀ key text, (key, text) ∈ assignmentsIn words → verb.TakesOption key text
  args : verb.TakesArguments (argumentsIn words).length

/-- The command that words stand for. Its options are those of the table, each with the value that
was assigned last, or with its default. -/
structure Describes (words : List String) (c : Command) : Prop where
  args : c.args = argumentsIn words
  distinct : (Dict.keys c.options).Nodup
  keys : ∀ key, key ∈ Dict.keys c.options ↔ key ∈ Dict.keys c.verb.signature.options
  assigned : ∀ key default text, Dict.get? c.verb.signature.options key = some default →
    lastAssigned? words key = some text →
    ∃ value, default.Denotes text value ∧ Dict.get? c.options key = some value
  default : ∀ key default, Dict.get? c.verb.signature.options key = some default →
    lastAssigned? words key = none → Dict.get? c.options key = some default

/-- What can be wrong with words after the name of a command, once so many arguments have been
taken. -/
inductive Objection (verb : Verb) (count : Nat) (words : List String) : ParseError → Prop
  | unknownOption {key text : String} : (key, text) ∈ assignmentsIn words →
      Dict.get? verb.signature.options key = none →
      Objection verb count words (.unknownOption key verb)
  | badValue {key text : String} {default : Setting} {cause : ParseError} :
      (key, text) ∈ assignmentsIn words → Dict.get? verb.signature.options key = some default →
      readSetting default text = .error cause → Objection verb count words cause
  | tooMany : verb.signature.openEnded = false →
      verb.signature.args.length < count + (argumentsIn words).length →
      Objection verb count words (.tooManyArguments verb)

/-- What can be wrong with a line. -/
inductive Refusal (name : String) (words : List String) : ParseError → Prop
  | unknownCommand : (∀ verb : Verb, verb.name ≠ name) → Refusal name words (.unknownCommand name)
  | objection {verb : Verb} {cause : ParseError} : verb.name = name →
      Objection verb 0 words cause → Refusal name words cause
  | missing {verb : Verb} : verb.name = name →
      (argumentsIn words).length < verb.signature.args.length →
      Refusal name words (.missingArguments verb)

/-! ## Taking words one by one -/

/-- How words change a command under construction: their arguments come after those that are there,
and an option has the value that was assigned last. -/
structure Extends (words : List String) (c d : Command) : Prop where
  verb : d.verb = c.verb
  args : d.args = c.args ++ argumentsIn words
  taken : ∀ key text, (key, text) ∈ assignmentsIn words → c.verb.TakesOption key text
  distinct : (Dict.keys c.options).Nodup → (Dict.keys d.options).Nodup
  kept : ∀ key, lastAssigned? words key = none → Dict.get? d.options key = Dict.get? c.options key
  assigned : ∀ key text, lastAssigned? words key = some text → ∃ default value,
    Dict.get? c.verb.signature.options key = some default ∧ default.Denotes text value ∧
      Dict.get? d.options key = some value

theorem take_argument {word : String} (h : assignment? word = none) :
    c.take word =
      if c.args.length < c.verb.signature.args.length ∨ c.verb.signature.openEnded = true then
        .ok { c with args := c.args ++ [word] }
      else .error (.tooManyArguments c.verb) := by
  unfold take
  simp only [splitOnce?_equals, h, Bool.or_eq_true, decide_eq_true_eq]

theorem take_option {word key text : String}
    (h : assignment? word = some (key, text)) :
    c.take word =
      match Dict.get? c.verb.signature.options key with
      | none => .error (.unknownOption key c.verb)
      | some default =>
        (readSetting default text).map fun value =>
          { c with options := Dict.put c.options key value } := by
  unfold take
  simp only [splitOnce?_equals, h]
  cases Dict.get? c.verb.signature.options key with
  | none => rfl
  | some default => cases readSetting default text <;> rfl

theorem Extends.of_argument {word : String} {rest : List String}
    (hword : assignment? word = none)
    (h : Extends rest { c with args := c.args ++ [word] } d) : Extends (word :: rest) c d where
  verb := h.verb
  args := by
    rw [h.args, argumentsIn_cons_argument rest hword, List.append_assoc, List.singleton_append]
  taken key text hmem := by
    rw [assignmentsIn_cons_argument rest hword] at hmem
    exact h.taken key text hmem
  distinct := h.distinct
  kept key hkey := by
    rw [lastAssigned?_cons_argument rest hword] at hkey
    exact h.kept key hkey
  assigned key text htext := by
    rw [lastAssigned?_cons_argument rest hword] at htext
    exact h.assigned key text htext

theorem Extends.of_option {word key text : String} {rest : List String}
    {default value : Setting} (hword : assignment? word = some (key, text))
    (hdefault : Dict.get? c.verb.signature.options key = some default)
    (hvalue : default.Denotes text value)
    (h : Extends rest { c with options := Dict.put c.options key value } d) :
    Extends (word :: rest) c d where
  verb := h.verb
  args := by rw [h.args, argumentsIn_cons_option rest hword]
  taken k t hmem := by
    rw [assignmentsIn_cons_option rest hword] at hmem
    rcases List.mem_cons.mp hmem with heq | hlater
    · cases heq
      exact ⟨default, value, hdefault, hvalue⟩
    · exact h.taken k t hlater
  distinct hc := h.distinct (Dict.nodup_keys_put hc key value)
  kept k hk := by
    rw [lastAssigned?_cons_option rest hword, Option.or_eq_none_iff] at hk
    obtain ⟨hlater, hhere⟩ := hk
    have hne : k ≠ key := fun heq => by simp [heq] at hhere
    rw [h.kept k hlater, Dict.get?_put, if_neg hne]
  assigned k t ht := by
    rw [lastAssigned?_cons_option rest hword, Option.or_eq_some_iff] at ht
    rcases ht with hlater | ⟨hnone, hhere⟩
    · exact h.assigned k t hlater
    · split at hhere
      · -- no later word assigns to this option, so that the value put in stays
        rename_i hk
        subst hk
        cases hhere
        refine ⟨default, value, hdefault, hvalue, ?_⟩
        rw [h.kept k hnone, Dict.get?_put, if_pos rfl]
      · cases hhere

theorem Objection.of_argument {verb : Verb} {count : Nat} {word : String} {rest : List String}
    (hword : assignment? word = none)
    (h : Objection verb (count + 1) rest cause) : Objection verb count (word :: rest) cause := by
  cases h with
  | unknownOption hmem hnone =>
    exact .unknownOption (by rwa [assignmentsIn_cons_argument rest hword]) hnone
  | badValue hmem hsome hread =>
    exact .badValue (by rwa [assignmentsIn_cons_argument rest hword]) hsome hread
  | tooMany hclosed hcount =>
    refine .tooMany hclosed ?_
    rw [argumentsIn_cons_argument rest hword, List.length_cons]
    omega

theorem Objection.of_option {verb : Verb} {count : Nat} {word key text : String}
    {rest : List String} (hword : assignment? word = some (key, text))
    (h : Objection verb count rest cause) : Objection verb count (word :: rest) cause := by
  have hmem {entry : String × String} (hentry : entry ∈ assignmentsIn rest) :
      entry ∈ assignmentsIn (word :: rest) := by
    rw [assignmentsIn_cons_option rest hword]
    exact List.mem_cons_of_mem _ hentry
  cases h with
  | unknownOption hentry hnone => exact .unknownOption (hmem hentry) hnone
  | badValue hentry hsome hread => exact .badValue (hmem hentry) hsome hread
  | tooMany hclosed hcount =>
    exact .tooMany hclosed (by rwa [argumentsIn_cons_option rest hword])

/-- Words are taken to their end, or there is something wrong with them. -/
theorem takeAll_cases (words : List String) (c : Command)
    (hc : c.args.length ≤ c.verb.signature.args.length ∨ c.verb.signature.openEnded = true) :
    (∃ d, words.foldlM take c = .ok d ∧ Extends words c d ∧
      (d.args.length ≤ c.verb.signature.args.length ∨ c.verb.signature.openEnded = true)) ∨
    ∃ cause, words.foldlM take c = .error cause ∧
      Objection c.verb c.args.length words cause := by
  induction words generalizing c with
  | nil =>
    refine .inl ⟨c, rfl, ⟨rfl, (List.append_nil _).symm, ?_, id, fun _ _ => rfl, ?_⟩, hc⟩
    · intro key text h
      cases h
    · intro key text h
      cases h
  | cons word rest ih =>
    rw [List.foldlM_cons]
    cases hword : assignment? word with
    | none =>
      rw [take_argument hword]
      split
      · rename_i hroom
        rcases ih { c with args := c.args ++ [word] } (hroom.imp_left fun h => by simpa) with
          ⟨d, hrun, hextends, hcount⟩ | ⟨cause, hrun, hwrong⟩
        · exact .inl ⟨d, hrun, hextends.of_argument hword, hcount⟩
        · rw [List.length_append, List.length_singleton] at hwrong
          exact .inr ⟨cause, hrun, hwrong.of_argument hword⟩
      · rename_i hfull
        rw [not_or, Bool.not_eq_true] at hfull
        refine .inr ⟨_, rfl, .tooMany hfull.2 ?_⟩
        rw [argumentsIn_cons_argument rest hword, List.length_cons]
        omega
    | some entry =>
      obtain ⟨key, text⟩ := entry
      have hhere : (key, text) ∈ assignmentsIn (word :: rest) := by
        rw [assignmentsIn_cons_option rest hword]
        exact List.mem_cons_self
      rw [take_option hword]
      cases hdefault : Dict.get? c.verb.signature.options key with
      | none => exact .inr ⟨_, rfl, .unknownOption hhere hdefault⟩
      | some default =>
        cases hread : readSetting default text with
        | error cause =>
          dsimp only
          rw [hread]
          exact .inr ⟨cause, rfl, .badValue hhere hdefault hread⟩
        | ok value =>
          have hvalue := (readSetting_eq_ok_iff default text value).mp hread
          dsimp only
          rw [hread]
          rcases ih { c with options := Dict.put c.options key value } hc with
            ⟨d, hrun, hextends, hcount⟩ | ⟨cause, hrun, hwrong⟩
          · exact .inl ⟨d, hrun, hextends.of_option hword hdefault hvalue, hcount⟩
          · exact .inr ⟨cause, hrun, hwrong.of_option hword⟩

/-! ## Parsing -/

theorem nodup_keys_signature (verb : Verb) : (Dict.keys verb.signature.options).Nodup := by
  cases verb <;> decide

theorem nodup_keys_withDefaults (h : (Dict.keys c.options).Nodup) :
    (Dict.keys c.withDefaults.options).Nodup := by
  unfold Dict.keys withDefaults
  rw [List.map_append, List.nodup_append]
  refine ⟨h, ?_, ?_⟩
  · exact List.Sublist.nodup (List.filter_sublist.map _) (nodup_keys_signature _)
  · intro key hkey key' hkey' heq
    obtain ⟨⟨k, v⟩, hentry, rfl⟩ := List.mem_map.mp hkey'
    have hnew : (!Dict.has c.options k) = true := (List.mem_filter.mp hentry).2
    obtain ⟨value, hvalue⟩ := (Dict.mem_keys_iff c.options key).mp hkey
    rw [show k = key from heq.symm, Dict.has, hvalue] at hnew
    cases hnew

/-- With the defaults added, a command that started out empty is what its words describe. -/
theorem Extends.describes {verb : Verb}
    (h : Extends words ⟨verb, [], []⟩ d) : Describes words d.withDefaults := by
  have hverb : d.withDefaults.verb = verb := h.verb
  have hget (key : String) : Dict.get? d.withDefaults.options key =
      (Dict.get? d.options key).or (Dict.get? verb.signature.options key) := by
    rw [get?_withDefaults, h.verb]
  have hassigned (key : String) {value : Setting} (hvalue : Dict.get? d.options key = some value) :
      ∃ text, lastAssigned? words key = some text := by
    cases htext : lastAssigned? words key with
    | some text => exact ⟨text, rfl⟩
    | none =>
      rw [h.kept key htext] at hvalue
      cases hvalue
  refine ⟨h.args, nodup_keys_withDefaults (h.distinct List.nodup_nil), ?_, ?_, ?_⟩
  · intro key
    rw [Dict.mem_keys_iff, Dict.mem_keys_iff, hget, hverb]
    cases hvalue : Dict.get? d.options key with
    | none => rfl
    | some value =>
      obtain ⟨text, htext⟩ := hassigned key hvalue
      obtain ⟨default, _, hdefault, _⟩ := h.assigned key text htext
      exact ⟨fun _ => ⟨default, hdefault⟩, fun _ => ⟨value, rfl⟩⟩
  · intro key default text hdefault htext
    obtain ⟨default', value, hdefault', hvalue, hput⟩ := h.assigned key text htext
    rw [hverb] at hdefault
    rw [hdefault] at hdefault'
    cases hdefault'
    exact ⟨value, hvalue, by rw [hget, hput]; rfl⟩
  · intro key default hdefault htext
    rw [hverb] at hdefault
    rw [hget, h.kept key htext, hdefault]
    rfl

theorem Verb.ofName?_eq_some_iff (name : String) (verb : Verb) :
    Verb.ofName? name = some verb ↔ verb.name = name := by
  constructor
  · intro h
    have hbeq := List.find?_some h
    exact eq_of_beq hbeq
  · rintro rfl
    cases verb <;> decide

/-- A line with words is refused for a reason, or it is grammatical and stands for a command. -/
theorem parseWords_cases (name : String) (words : List String) :
    (∃ c, parseWords (name :: words) = .ok (some c) ∧ c.verb.name = name ∧
      Grammatical c.verb words ∧ Describes words c) ∨
    ∃ cause, parseWords (name :: words) = .error cause ∧ Refusal name words cause := by
  cases hname : Verb.ofName? name with
  | none =>
    refine .inr ⟨.unknownCommand name, by rw [parseWords, hname], .unknownCommand ?_⟩
    intro verb hverb
    rw [(Verb.ofName?_eq_some_iff name verb).mpr hverb] at hname
    cases hname
  | some verb =>
    have hverb := (Verb.ofName?_eq_some_iff name verb).mp hname
    rcases takeAll_cases words ⟨verb, [], []⟩ (.inl (Nat.zero_le _)) with
      ⟨d, hrun, hextends, hcount⟩ | ⟨cause, hrun, hwrong⟩
    · have hparse : parseWords (name :: words) =
          if d.args.length < verb.signature.args.length then .error (.missingArguments verb)
          else .ok (some d.withDefaults) := by
        rw [parseWords, hname]
        dsimp only
        rw [hrun]
        rfl
      have hargs : d.args = argumentsIn words := hextends.args
      rw [hargs] at hparse hcount
      dsimp only at hcount
      split at hparse
      · rename_i hfew
        exact .inr ⟨_, hparse, .missing hverb hfew⟩
      · rename_i henough
        have hdverb : d.withDefaults.verb = verb := hextends.verb
        refine .inl ⟨_, hparse, by rw [hdverb, hverb], ?_, hextends.describes⟩
        rw [hdverb]
        refine ⟨hextends.taken, ?_⟩
        rcases hcount with hcount | hopen
        · exact .inl (by omega)
        · exact .inr ⟨hopen, by omega⟩
    · refine .inr ⟨cause, ?_, .objection hverb hwrong⟩
      rw [parseWords, hname]
      dsimp only
      rw [hrun]
      rfl

theorem Objection.not_grammatical {verb : Verb}
    (h : Objection verb 0 words cause) : ¬Grammatical verb words := by
  intro hwords
  cases h with
  | unknownOption hmem hnone =>
    obtain ⟨default, _, hdefault, _⟩ := hwords.options _ _ hmem
    rw [hnone] at hdefault
    cases hdefault
  | badValue hmem hsome hread =>
    obtain ⟨default, value, hdefault, hvalue⟩ := hwords.options _ _ hmem
    rw [hsome] at hdefault
    cases hdefault
    rw [← readSetting_eq_ok_iff, hread] at hvalue
    cases hvalue
  | tooMany hclosed hcount =>
    rcases hwords.args with hargs | ⟨hopen, _⟩
    · omega
    · rw [hclosed] at hopen
      cases hopen

theorem Refusal.not_grammatical {name : String}
    (h : Refusal name words cause) {verb : Verb} (hverb : verb.name = name) :
    ¬Grammatical verb words := by
  have same {verb' : Verb} (hverb' : verb'.name = name) : verb' = verb := by
    rw [← Verb.ofName?_eq_some_iff] at hverb hverb'
    rw [hverb] at hverb'
    exact (Option.some.inj hverb').symm
  cases h with
  | unknownCommand hnone => exact absurd hverb (hnone verb)
  | objection hverb' hwrong =>
    cases same hverb'
    exact hwrong.not_grammatical
  | missing hverb' hfew =>
    cases same hverb'
    intro hwords
    rcases hwords.args with hargs | ⟨_, hargs⟩ <;> omega

/-- A grammatical line gives the command that its words describe. -/
theorem parse_of_grammatical {line : String} {verb : Verb}
    (hline : splitWords line = verb.name :: words) (hwords : Grammatical verb words) :
    ∃ c, parse line = .ok (some c) ∧ c.verb = verb ∧ Describes words c := by
  unfold parse
  rw [hline]
  rcases parseWords_cases verb.name words with
    ⟨c, hparse, hverb, _, hdescribes⟩ | ⟨cause, _, hrefusal⟩
  · refine ⟨c, hparse, ?_, hdescribes⟩
    rw [← Verb.ofName?_eq_some_iff] at hverb
    exact Option.some.inj (hverb.symm.trans ((Verb.ofName?_eq_some_iff _ _).mpr rfl))
  · exact absurd hwords (hrefusal.not_grammatical rfl)

end Command

end RobotConsole
