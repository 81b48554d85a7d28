import RobotConsole.Command.Parse

/-!
# The kinds of options

The default of an option fixes the kind of its values, and reading a command line keeps to it: every
option of a command that was read has a value, and the value is of the kind of the default
(`wellFormed_of_parse`). The arguments are all there, but they are texts of any kind.
-/

namespace RobotConsole

namespace Command

/-- The values that an option with a given default can have. Without a default it is a text, or
stays absent. -/
inductive Setting.Fits : Setting → Setting → Prop
  | flag (a b : Bool) : Fits (.flag a) (.flag b)
  | int (m n : Int) : Fits (.int m) (.int n)
  | real (x y : Float) : Fits (.real x) (.real y)
  | text (s t : String) : Fits (.text s) (.text t)
  | absent : Fits .absent .absent
  | given (s : String) : Fits .absent (.text s)

theorem Setting.Fits.refl (v : Setting) : v.Fits v := by
  cases v <;> constructor

theorem fits_of_readSetting {default value : Setting} {s : String}
    (h : readSetting default s = .ok value) : default.Fits value := by
  unfold readSetting at h
  cases default with
  | absent => cases h; constructor
  | text t => cases h; constructor
  | flag b =>
    dsimp only at h
    cases hread : readFlag s with
    | error cause => rw [hread] at h; cases h
    | ok b => rw [hread] at h; cases h; constructor
  | int n =>
    dsimp only at h
    cases hread : Decimal.readInt s with
    | error cause => rw [hread] at h; cases h
    | ok n => rw [hread] at h; cases h; constructor
  | real x =>
    dsimp only at h
    cases hread : Decimal.readFloat s with
    | error cause => rw [hread] at h; cases h
    | ok x => rw [hread] at h; cases h; constructor

/-- Every option that was given is known, and its value is of the right kind. -/
def OptionsFit (c : Command) : Prop :=
  ∀ key value, Dict.get? c.options key = some value →
    ∃ default, Dict.get? c.verb.signature.options key = some default ∧ default.Fits value

/-- A command as reading leaves it: no argument is missing, and every option has a value of the
right kind. -/
structure WellFormed (c : Command) : Prop where
  args : c.verb.signature.args.length ≤ c.args.length
  options : ∀ key default, Dict.get? c.verb.signature.options key = some default →
    ∃ value, Dict.get? c.options key = some value ∧ default.Fits value

/-- One more word leaves the command what it is, and its options fitting. -/
theorem take_fits {c d : Command} {word : String} (hc : c.OptionsFit)
    (h : c.take word = .ok d) : d.verb = c.verb ∧ d.OptionsFit := by
  unfold take at h
  dsimp only at h
  split at h
  · rename_i key text hword
    split at h
    · cases h
    · rename_i default hdefault
      cases hread : readSetting default text with
      | error cause => rw [hread] at h; cases h
      | ok value =>
        rw [hread] at h
        cases h
        refine ⟨rfl, ?_⟩
        intro k v hget
        dsimp only at hget ⊢
        -- the option is the one just given, or it was given before
        rw [Dict.get?_put] at hget
        split at hget
        · rename_i hk
          cases hget
          exact ⟨default, hk ▸ hdefault, fits_of_readSetting hread⟩
        · exact hc k v hget
  · split at h
    · cases h
      exact ⟨rfl, hc⟩
    · cases h

theorem takeAll_fits {words : List String} {c d : Command} (hc : c.OptionsFit)
    (h : words.foldlM take c = .ok d) : d.verb = c.verb ∧ d.OptionsFit := by
  induction words generalizing c with
  | nil =>
    cases h
    exact ⟨rfl, hc⟩
  | cons word rest ih =>
    rw [List.foldlM_cons] at h
    cases hword : c.take word with
    | error cause => rw [hword] at h; cases h
    | ok e =>
      rw [hword] at h
      obtain ⟨hverb, he⟩ := take_fits hc hword
      obtain ⟨hverb', hd⟩ := ih he h
      exact ⟨hverb'.trans hverb, hd⟩

theorem get?_withDefaults (c : Command) (key : String) :
    Dict.get? c.withDefaults.options key =
      (Dict.get? c.options key).or (Dict.get? c.verb.signature.options key) := by
  unfold withDefaults
  dsimp only
  rw [Dict.get?_append, Dict.get?_filter _ (fun key => !Dict.has c.options key), Dict.has]
  cases Dict.get? c.options key <;> rfl

theorem wellFormed_withDefaults {c : Command} (hc : c.OptionsFit)
    (hargs : c.verb.signature.args.length ≤ c.args.length) : c.withDefaults.WellFormed := by
  refine ⟨hargs, fun key default hdefault => ?_⟩
  change Dict.get? c.verb.signature.options key = some default at hdefault
  rw [get?_withDefaults, hdefault]
  cases hget : Dict.get? c.options key with
  | some value =>
    obtain ⟨default', hdefault', hfits⟩ := hc key value hget
    rw [hdefault] at hdefault'
    cases hdefault'
    exact ⟨value, rfl, hfits⟩
  | none => exact ⟨default, rfl, .refl default⟩

theorem wellFormed_of_parse {line : String} {c : Command} (h : parse line = .ok (some c)) :
    c.WellFormed := by
  unfold parse parseWords at h
  split at h
  · cases h
  · rename_i name words _
    split at h
    · cases h
    · rename_i verb _
      cases htake : words.foldlM take ⟨verb, [], []⟩ with
      | error cause => rw [htake] at h; cases h
      | ok d =>
        rw [htake] at h
        obtain ⟨hverb, hd⟩ := takeAll_fits (fun _ _ hget => by cases hget) htake
        change (if d.args.length < verb.signature.args.length then
          Except.error (ParseError.missingArguments verb) else .ok (some d.withDefaults)) = _ at h
        split at h
        · cases h
        · rename_i hargs
          cases h
          refine wellFormed_withDefaults hd ?_
          rw [hverb]
          exact Nat.le_of_not_lt hargs

/-- Whether a line is a command that passes a check. -/
def parsesTo (line : String) (check : Command → Bool) : Bool :=
  ((parse line).toOption.bind id).any check

theorem exists_of_parsesTo {line : String} {check : Command → Bool}
    (h : parsesTo line check = true) : ∃ c, parse line = .ok (some c) ∧ check c = true := by
  unfold parsesTo at h
  cases hline : parse line with
  | error cause =>
    rw [hline] at h
    cases h
  | ok result =>
    rw [hline] at h
    cases result with
    | none => cases h
    | some c => exact ⟨c, rfl, h⟩

end Command

end RobotConsole
