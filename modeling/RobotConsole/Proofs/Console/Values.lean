import RobotConsole.Proofs.Command.Kinds
import RobotConsole.Proofs.Console.Release
import RobotConsole.Proofs.Robot.Motors
import RobotConsole.Proofs.Robot.Reliable

/-!
# Values that only execution looks at

Reading a command line checks which command it is, how many arguments it has, and the kinds of its
options. The texts of the arguments are not looked at before the command is executed, and blank
lines are let through. `isUsable` says what is then asked of a command. Where nothing else can fail,
it alone decides whether a command ends well (`hinges_carryOut`), and a command that does not keeps
all later ones from being executed (`commands_complete_iff_usable`).
-/

namespace RobotConsole.Console

open Contract Robot
open Command (Setting Options Verb)

variable {α β γ : Type}
variable {args : List String} {c : Command} {value : Setting} {entries : List (Option Command)}
  {s : System}

/-! ## What is asked of a command -/

/-- The argument at a position as a double. -/
def realAt? (args : List String) (position : Nat) : Option Float :=
  args[position]?.bind fun text => (Decimal.readFloat text).toOption

/-- Whether a command that was read can be executed with the values it was given: numbers where
numbers are due, within the doubles, a speed that is not zero, and a pause that can be kept. -/
def isUsable (c : Command) : Bool :=
  let option := optionOf c.verb c.options
  match c.verb with
  | .sleep => (realAt? c.args 0).any fun seconds => (pauseFailure? (.real seconds)).isNone
  | .volume => c.args[0]?.any fun text => (Decimal.readInt text).toOption.isSome
  | .move => (realAt? c.args 0).any fun _ => (doubleOf? (option "speed")).any (· != 0.0)
  | .turn | .lift => (realAt? c.args 0).isSome
  | .goto => (realAt? c.args 0).any fun _ => (realAt? c.args 1).any fun _ =>
    (doubleOf? (option "angle")).isSome
  | .head =>
    let position := Text.lower (c.args.head?.getD (option "angle").plain)
    (headPositions.lookup position).isSome || (Decimal.readFloat position).toOption.isSome
  | .animate | .animGroup =>
    match option "wait" with
    | .absent => true
    | wait => (doubleOf? wait).isSome
  | _ => true

/-- A blank line is no command, and cannot be executed. -/
def isUsableEntry (entry : Option Command) : Bool :=
  entry.any isUsable

/-! ## Actions that hinge on a value -/

/-- An action that always fails. -/
def Doomed (x : Act α) : Prop :=
  ∀ s, ∃ failure t, x.run s = .error failure t

/-- An action that cannot fail without faults if something is usable, and always fails if not. -/
def Hinges : Bool → Act α → Prop
  | true, x => sure.Holds x
  | false, x => Doomed x

theorem Doomed.bind {x : Act α} (hx : Doomed x) (f : α → Act β) : Doomed (x >>= f) := by
  intro s
  obtain ⟨failure, t, hrun⟩ := hx s
  exact ⟨failure, t, by rw [EStateM.run_bind, hrun]⟩

theorem Hinges.bind_sure {usable : Bool} {x : Act α} {f : α → Act β} (hx : Hinges usable x)
    (hf : ∀ a, sure.Holds (f a)) : Hinges usable (x >>= f) := by
  cases usable with
  | true => exact Holds.bind hx hf
  | false => exact Doomed.bind hx f

/-- A value that is read first has to be there, and then decides. -/
theorem hinges_bind {x : Act β} {value : Option γ} {g : γ → β} {p : γ → Bool} {f : β → Act α}
    (hx : Settles x (value.map g)) (hf : ∀ c, Hinges (p c) (f (g c))) :
    Hinges (value.any p) (x >>= f) := by
  cases value with
  | some c =>
    rw [show x = pure (g c) from hx, pure_bind]
    exact hf c
  | none =>
    obtain ⟨failure, hfail⟩ := hx
    rw [hfail]
    exact fun s => ⟨failure, s, rfl⟩

theorem hinges_bind_sure {x : Act β} {value : Option γ} {g : γ → β} {f : β → Act α}
    (hx : Settles x (value.map g)) (hf : ∀ c, sure.Holds (f (g c))) :
    Hinges value.isSome (x >>= f) := by
  have hany : value.isSome = value.any fun _ => true := by cases value <;> rfl
  rw [hany]
  exact hinges_bind hx hf

theorem settles_realAt (args : List String) (position : Nat) :
    Settles (argumentAt args position >>= realNumber) ((realAt? args position).map .real) := by
  unfold argumentAt realAt?
  cases args[position]? with
  | none => exact ⟨_, rfl⟩
  | some text => exact settles_realNumber text

theorem hinges_realAt {position : Nat} {p : Float → Bool}
    {f : Number → Act α} (hf : ∀ x, Hinges (p x) (f (.real x))) :
    Hinges ((realAt? args position).any p)
      (argumentAt args position >>= fun text => realNumber text >>= f) := by
  rw [← bind_assoc]
  exact hinges_bind (settles_realAt args position) hf

theorem hinges_realAt_sure {position : Nat} {f : Number → Act α}
    (hf : ∀ x, sure.Holds (f (.real x))) :
    Hinges (realAt? args position).isSome
      (argumentAt args position >>= fun text => realNumber text >>= f) := by
  rw [← bind_assoc]
  exact hinges_bind_sure (settles_realAt args position) hf

/-! ## Commands without values to look at -/

theorem sure_pause {seconds : Number} (h : pauseFailure? seconds = none) :
    sure.Holds (pause seconds) :=
  sure_of_resilient (keeps_pause seconds) (resilient_pause h)

theorem hinges_pause (seconds : Number) :
    Hinges (pauseFailure? seconds).isNone (pause seconds) := by
  cases h : pauseFailure? seconds with
  | none => exact sure_pause h
  | some failure =>
    intro s
    obtain ⟨t, _, hrun⟩ := run_pause seconds s
    unfold System.pauseCut? at hrun
    rw [h] at hrun
    exact ⟨failure, t, hrun⟩

theorem sure_setHeadAngle (angle : Number) (async : Bool) :
    sure.Holds (setHeadAngle angle async) :=
  sure_of_resilient (keeps_setHeadAngle angle async) (resilient_connected _ _)

theorem sure_driveWheels (left right duration : Number) (async : Bool) :
    sure.Holds (driveWheels left right duration async) :=
  sure_of_resilient (keeps_driveWheels (fun _ => steady_send _) left right duration async)
    (resilient_connected _ _)

theorem sure_connect : sure.Holds (connect defaultRetries defaultDelay) :=
  sure_of_resilient (keeps_connect steady_createClient _ _)
    (resilient_connectFrom _ (by decide +kernel) _ _)

theorem sure_showStatus : sure.Holds showStatus :=
  (sure_pause (by decide +kernel)).bind fun _ => sure_readStatus_bind fun _ hentries =>
    (sure_print _).bind fun _ => (sure_show hentries).bind fun _ => (sure_print _).giving

theorem sure_readBattery_bind {f : Number → Act α} (hf : ∀ volts, sure.Holds (f (.real volts))) :
    sure.Holds (readBattery >>= f) := by
  unfold readBattery liveClient?
  simp only [bind_assoc]
  refine holds_controller.bind fun c => ?_
  split
  · simp only [bind_assoc]
    refine faultless_clientState_bind fun client hclient => ?_
    obtain ⟨volts, hvolts⟩ := hclient.battery
    split
    · simp only [pure_bind, Option.map_some, Option.getD_some, hvolts]
      exact hf volts
    · exact hf 0.0
  · exact hf 0.0

theorem sure_showBattery (mode : String) (duration : Number) :
    sure.Holds (showBattery mode duration) := by
  unfold showBattery
  refine (sure_setHeadAngle _ _).bind fun _ => (sure_pause (by decide +kernel)).bind fun _ => ?_
  split
  · exact sure_of_resilient (keeps_displayBatteryIcon duration) (resilient_connected _ _)
  · exact sure_of_resilient (keeps_displayBatteryVoltage duration) (resilient_connected _ _)
  · exact sure_of_resilient (keeps_displayBatteryPercent duration) (resilient_connected _ _)
  · exact sure_of_resilient (keeps_displayBatteryLines duration) (resilient_connected _ _)
  · exact sure_readBattery_bind fun volts => (sure_print _).bind fun _ => holds_pure true

theorem resilient_soundChoice (name file : Option String) (args : List String) :
    resilient.Holds (soundChoice name file args) := by
  unfold soundChoice
  split
  · refine (resilient_handling fun _ => holds_pure _).bind fun found => ?_
    split <;> exact holds_pure _
  · exact holds_pure _

/-! ## Commands -/

/-- An option of a command that was read has a value of the right kind. -/
theorem optionOf_fits (hc : c.WellFormed) {key : String} {default : Setting}
    (h : Dict.get? c.verb.signature.options key = some default) :
    default.Fits (optionOf c.verb c.options key) := by
  obtain ⟨value, hvalue, hfits⟩ := hc.options key default h
  unfold optionOf
  rw [hvalue]
  exact hfits

theorem wholeSetting_of_fits {m : Int} (h : (Setting.int m).Fits value) :
    ∃ n, wholeSetting value = pure (.int n) := by
  cases h with
  | int _ n => exact ⟨n, rfl⟩

theorem realSetting_of_fits {x : Float} (h : (Setting.real x).Fits value) :
    ∃ y, realSetting value = pure (.real y) := by
  cases h with
  | real _ y => exact ⟨y, rfl⟩

theorem settles_wholeNumber (text : String) :
    Settles (wholeNumber text) ((Decimal.readInt text).toOption.map .int) := by
  unfold wholeNumber
  cases Decimal.readInt text with
  | ok n => rfl
  | error cause => exact ⟨_, rfl⟩

/-- Driving a distance divides by the speed before anything is handled. -/
theorem hinges_moveForward (distance speed : Float) (async : Bool) :
    Hinges (speed != 0.0) (moveForward (.real distance) (.real speed) async) := by
  have hdivide : (Number.real distance).divide (.real speed) =
      if speed == 0.0 then .error (.divisionByZero true) else .ok (distance / speed) := rfl
  unfold moveForward
  rw [hdivide]
  cases hzero : speed == 0.0 with
  | true =>
    rw [bne, hzero]
    exact Doomed.bind (fun s => ⟨_, s, rfl⟩) _
  | false =>
    rw [bne, hzero]
    exact Holds.bind (holds_pure (distance / speed)) fun time =>
      (sure_print _).bind fun _ => sure_driveWheels _ _ _ _

theorem hinges_headAngle (position : String) :
    Hinges ((headPositions.lookup position).isSome ||
      (Decimal.readFloat position).toOption.isSome) (headAngle position) := by
  unfold headAngle
  cases headPositions.lookup position with
  | some angle => exact Holds.bind (sure_print _) fun _ => holds_pure _
  | none =>
    exact hinges_bind_sure (settles_realNumber position) fun x =>
      (sure_print _).bind fun _ => holds_pure _

/-- How long to wait after an animation: not at all said, or a double. -/
theorem hinges_realSetting? {f : Option Number → Act α}
    (hf : ∀ wait, sure.Holds (f wait)) :
    Hinges (match value with
      | .absent => true
      | wait => (doubleOf? wait).isSome) (realSetting? value >>= f) := by
  have hvalue (value : Setting) :
      Hinges (doubleOf? value).isSome ((do return some (← realSetting value)) >>= f) := by
    rw [bind_assoc]
    exact hinges_bind_sure (settles_realSetting value) fun x => hf (some (.real x))
  cases value with
  | absent => exact hf none
  | flag b => exact hvalue (.flag b)
  | int n => exact hvalue (.int n)
  | real x => exact hvalue (.real x)
  | text s => exact hvalue (.text s)

theorem exists_first (hc : c.WellFormed) (h : 0 < c.verb.signature.args.length) :
    ∃ text, argumentAt c.args 0 = pure text := by
  have hpos : 0 < c.args.length := Nat.lt_of_lt_of_le h hc.args
  refine ⟨c.args[0], ?_⟩
  unfold argumentAt
  rw [List.getElem?_eq_getElem hpos]

/-- Where nothing else can fail, a command ends well exactly if its values can be used. -/
theorem hinges_carryOut (hc : c.WellFormed) :
    Hinges (isUsable c) (carryOut c.verb c.args c.options) := by
  obtain ⟨verb, args, options⟩ := c
  have hoption (key : String) {default : Setting}
      (h : Dict.get? verb.signature.options key = some default) :
      default.Fits (optionOf verb options key) := optionOf_fits hc h
  unfold isUsable carryOut
  dsimp only
  -- an option with a typed default was read as one, so that taking its value cannot fail; what is
  -- left to hinge on are arguments, and options without such a default
  cases verb with
  | connect => exact sure_connect
  | status => exact sure_showStatus
  | wait => exact sure_of_resilient keeps_waitForRobot (resilient_connected _ _)
  | sleep => exact hinges_realAt fun x => (hinges_pause _).bind_sure fun _ => holds_pure _
  | say =>
    obtain ⟨volume, hvolume⟩ := wholeSetting_of_fits (hoption "volume" rfl)
    obtain ⟨speed, hspeed⟩ := wholeSetting_of_fits (hoption "speed" rfl)
    obtain ⟨pitch, hpitch⟩ := wholeSetting_of_fits (hoption "pitch" rfl)
    obtain ⟨amplitude, hamplitude⟩ := wholeSetting_of_fits (hoption "amplitude" rfl)
    simp only [hvolume, hspeed, hpitch, hamplitude, pure_bind]
    exact sure_sayText _ _
  | volume =>
    refine hinges_bind (g := id) (by simpa using settles_argumentAt args 0) fun text => ?_
    exact hinges_bind_sure (settles_wholeNumber text) fun level =>
      sure_of_resilient (keeps_setVolume _) (resilient_connected _ _)
  | move =>
    exact hinges_realAt fun distance => hinges_bind (settles_realSetting _) fun speed =>
      hinges_moveForward distance speed _
  | turn =>
    exact hinges_realAt_sure fun degrees =>
      sure_of_resilient (keeps_turnInPlace (fun _ => steady_send _) _ _) (resilient_connected _ _)
  | goto =>
    refine hinges_realAt fun x => hinges_realAt fun y => ?_
    refine hinges_bind_sure (settles_realSetting _) fun degrees => ?_
    exact sure_of_resilient (keeps_goToPose _ _ _) (resilient_connected _ _)
  | head => exact (hinges_headAngle _).bind_sure fun angle => sure_setHeadAngle _ _
  | lift =>
    obtain ⟨time, htime⟩ := realSetting_of_fits (hoption "duration" rfl)
    simp only [htime, pure_bind]
    exact hinges_realAt_sure fun speed =>
      sure_of_resilient (keeps_moveLift (fun _ => steady_send _) _ _ _) (resilient_connected _ _)
  | lights =>
    dsimp only
    split
    · exact sure_of_resilient (keeps_setEachLight _) (resilient_connected _ _)
    · exact sure_of_resilient (keeps_setAllLights _) (resilient_connected _ _)
  | ir => exact sure_of_resilient (keeps_setHeadLight _) (resilient_connected _ _)
  | cliff =>
    exact sure_of_resilient
      ((keeps_setCliffReaction _).bind fun _ => keeps_enableCliffDetection _)
      ((resilient_setCliffReaction _).bind fun _ => resilient_connected _ _)
  | calibrate => exact sure_of_resilient (keeps_calibrateMotors _ _) (resilient_connected _ _)
  | animate =>
    obtain ⟨name, hname⟩ := exists_first hc Nat.one_pos
    simp only [hname, pure_bind]
    exact hinges_realSetting? fun wait => sure_playAnimation _ _ wait
  | animGroup =>
    obtain ⟨name, hname⟩ := exists_first hc Nat.one_pos
    simp only [hname, pure_bind]
    exact hinges_realSetting? fun wait => sure_playGroup _ _ wait
  | listAnims => exact sure_of_resilient (keeps_listAnimations _ _) (resilient_succeeding _ _)
  | listGroups => exact sure_of_resilient (keeps_listGroups _ _) (resilient_succeeding _ _)
  | listSounds => exact sure_of_resilient (keeps_listSounds _) (resilient_succeeding _ _)
  | playSound =>
    exact (sure_of_resilient (keeps_soundChoice _ _ args) (resilient_soundChoice _ _ args)).bind
      fun _ => sure_playSound _ _ _
  | camera =>
    refine (sure_of_resilient (keeps_captureImage _) (resilient_captureImage _)).bind ?_
    intro file
    split
    · exact (sure_print _).giving
    · exact holds_pure _
  | battery =>
    obtain ⟨time, htime⟩ := realSetting_of_fits (hoption "duration" rfl)
    simp only [htime, pure_bind]
    exact sure_showBattery _ _
  | screen =>
    obtain ⟨time, htime⟩ := realSetting_of_fits (hoption "duration" rfl)
    obtain ⟨size, hsize⟩ := wholeSetting_of_fits (hoption "size" rfl)
    obtain ⟨x, hx⟩ := wholeSetting_of_fits (hoption "x" rfl)
    obtain ⟨y, hy⟩ := wholeSetting_of_fits (hoption "y" rfl)
    simp only [htime, hsize, hx, hy, pure_bind]
    exact sure_of_resilient (keeps_displayText _ _ _ _ _ _) (resilient_connected _ _)

/-! ## Lists of commands -/

/-- Entries as reading leaves them. -/
def WellFormedEntries (entries : List (Option Command)) : Prop :=
  ∀ c, some c ∈ entries → c.WellFormed

theorem Reads.wellFormed {lines : List String}
    (h : Reads lines entries) : WellFormedEntries entries := by
  induction h with
  | nil => exact fun c hc => by cases hc
  | cons hline _ ih =>
    intro c hc
    rcases List.mem_cons.mp hc with heq | hmem
    · exact Command.wellFormed_of_parse (hline.trans (by rw [← heq]))
    · exact ih c hmem

theorem hinges_executeEntry (entry : Option Command)
    (h : ∀ c, entry = some c → c.WellFormed) :
    Hinges (isUsableEntry entry) (executeEntry entry) := by
  cases entry with
  | none => exact fun s => ⟨.blankExecution, s, rfl⟩
  | some c =>
    have hexecute : Hinges (isUsable c) (execute c) := by
      unfold execute executeNamed
      rw [Verb.ofName?_name]
      have hcarry := hinges_carryOut (h c rfl)
      cases husable : isUsable c with
      | true =>
        rw [husable] at hcarry
        exact Holds.bind (sure_print _) fun _ => hcarry
      | false =>
        rw [husable] at hcarry
        -- the command is announced before its values are looked at
        intro s
        obtain ⟨t, hprint, _⟩ := run_emit (.print _) s
        obtain ⟨failure, u, hrun⟩ := hcarry t
        refine ⟨failure, u, ?_⟩
        rw [EStateM.run_bind, print, hprint]
        exact hrun
    exact hexecute.bind_sure fun success => holds_pure (c.verb, success)

theorem steady_executeEntry (entry : Option Command) : steady.Holds (executeEntry entry) :=
  keeps_executeEntry fun command _ =>
    keeps_execute command (fun _ => steady_createClient) fun _ _ _ => steady_send _

theorem sure_executeAll (hformed : WellFormedEntries entries)
    (husable : ∀ entry ∈ entries, isUsableEntry entry = true) :
    sure.Holds (executeAll entries) := by
  refine holds_forM entries fun entry hentry => ?_
  have hexecute : sure.Holds (executeEntry entry) := by
    have h := hinges_executeEntry entry fun c hc => hformed c (hc ▸ hentry)
    rw [husable entry hentry] at h
    exact h
  refine hexecute.bind fun result => ?_
  dsimp only
  split
  · exact sure_print _
  · exact holds_pure _

/-- Executes an entry, and reports it if it fails. -/
def executeReported (entry : Option Command) : Act Unit := do
  let (verb, success) ← executeEntry entry
  if !success then print s!"  Command failed: {verb.name}"

theorem executeAll_cons (entry : Option Command) (rest : List (Option Command)) :
    executeAll (entry :: rest) = (do executeReported entry; executeAll rest) := rfl

theorem executeAll_append (first second : List (Option Command)) :
    executeAll (first ++ second) = (do executeAll first; executeAll second) := by
  induction first with
  | nil => rfl
  | cons entry rest ih => rw [List.cons_append, executeAll_cons, executeAll_cons, ih, bind_assoc]

/-- The first entry that cannot be used fails, and with it all that is left. -/
theorem run_executeAll_unusable {good rest : List (Option Command)} {bad : Option Command}
    (hformed : WellFormedEntries (good ++ bad :: rest))
    (hgood : ∀ entry ∈ good, isUsableEntry entry = true) (hbad : isUsableEntry bad = false)
    (hs : s.Reliable) :
    ∃ t failure u, (executeAll good).run s = .ok () t ∧
      (executeEntry bad).run t = .error failure u ∧ failure.isInterrupt = false ∧
      (executeAll (good ++ bad :: rest)).run s = .error failure u := by
  have hgoodFormed : WellFormedEntries good := fun c hc => hformed c (List.mem_append_left _ hc)
  obtain ⟨_, t, hrun, ht⟩ := run_of_sure (sure_executeAll hgoodFormed hgood) hs
  have hdoomed := hinges_executeEntry bad fun c hc =>
    hformed c (List.mem_append_right good (hc ▸ List.mem_cons_self))
  rw [hbad] at hdoomed
  obtain ⟨failure, u, hfail⟩ := hdoomed t
  have hkind : failure.isInterrupt = false := ((steady_executeEntry bad t).fails hfail ht).2
  refine ⟨t, failure, u, hrun, hfail, hkind, ?_⟩
  have hreported : (executeReported bad).run t = .error failure u := by
    unfold executeReported
    rw [EStateM.run_bind, hfail]
  rw [executeAll_append, EStateM.run_bind, hrun]
  dsimp only
  rw [executeAll_cons, EStateM.run_bind, hreported]

theorem isUsableEntry_of_isOffline {entry : Option Command} (h : isOffline entry = true) :
    isUsableEntry entry = true := by
  cases entry with
  | none => cases h
  | some c =>
    obtain ⟨verb, args, options⟩ := c
    cases verb <;> first | rfl | cases h

/-! ## The whole program -/

theorem steady_openConnection : steady.Holds openConnection :=
  (keeps_print _).bind fun _ => keeps_prepare.bind fun _ =>
    keeps_connect steady_createClient _ _

theorem reliable_of_opened {u : System} (hs : s.Reliable)
    (h : opened? entries s = some u) : u.Reliable := by
  obtain ⟨_, answer, t, hopen, _, rfl⟩ := opened?_eq_some h
  have ht : t.Reliable := (steady_openConnection s).yields hopen hs
  exact (ht.record _).record _

theorem reliable_releasing (hs : s.Reliable) (entries : List (Option Command)) :
    (releasing entries s).Reliable := by
  have hsteady : steady.Holds (executeGuarded entries) :=
    keeps_executeGuarded fun command _ =>
      keeps_execute command (fun _ => steady_createClient) fun _ _ _ => steady_send _
  have hafter : (after (executeGuarded entries) s).Reliable :=
    (hsteady s).yields (run_executeGuarded entries s) hs
  exact (hafter.record _).record _

/-- Nothing that is read before the commands are at hand brings a fault into the system. -/
theorem reliable_of_supplies {lines : List String} {t : System} (hs : s.Reliable)
    (h : Supplies s args lines t) : t.Reliable := by
  cases h with
  | given _ _ => exact hs
  | script _ _ hlines =>
    exact (holds_scriptCommands (c := steady) keeps_print (fun _ _ hs => ⟨hs, rfl⟩) _ s).yields
      hlines hs

theorem isUndisturbed_of_reliable {timeout : Number} {ids : List TaskId}
    (hs : s.Reliable) : Robot.isUndisturbed timeout ids s = true := by
  induction ids generalizing s with
  | nil => rfl
  | cons id ids ih =>
    have hnext : (after (join timeout id) s).Reliable := steady_after (keeps_join timeout id) hs
    rw [Robot.isUndisturbed, ih hnext, Bool.and_true]
    cases s.pending? id with
    | none => rfl
    | some job =>
      rw [Option.all_some, Bool.not_eq_true']
      unfold Job.isInterrupted
      split
      · rfl
      · rename_i failure t hrun
        exact ((keeps_perform_job (c := steady) job _).fails hrun (hs.record _)).2

/-- Executes entries without a word about those that fail. -/
def executeSilently (entries : List (Option Command)) : Act Unit :=
  entries.forM fun entry => do
    let _ ← executeEntry entry

theorem run_runCommands_offline
    (hformed : WellFormedEntries entries)
    (hoffline : ∀ entry ∈ entries, isOffline entry = true) (hs : s.Reliable) :
    ∃ t, (runCommands entries).run s = .ok 0 t ∧
      (executeSilently entries).run (after prepare s) = .ok () t := by
  have hneeded : (needsRobot entries).run s = .ok false s := by
    rw [run_needsRobot, List.find?_eq_none.mpr]
    intro entry hentry
    simp [hoffline entry hentry]
  have hsure : sure.Holds (executeSilently entries) := by
    refine holds_forM entries fun entry hentry => ?_
    have h := hinges_executeEntry entry fun c hc => hformed c (hc ▸ hentry)
    rw [isUsableEntry_of_isOffline (hoffline entry hentry)] at h
    exact Holds.bind h fun _ => holds_pure _
  have hprepared : (after prepare s).Reliable := steady_after keeps_prepare hs
  obtain ⟨_, t, hrun, _⟩ := run_of_sure hsure hprepared
  refine ⟨t, ?_, hrun⟩
  have hprogram : (runCommands entries).run s =
      (do executeSilently entries; return 0 : Act Int).run (after prepare s) := by
    unfold runCommands
    rw [EStateM.run_bind, hneeded]
    rfl
  rw [hprogram, EStateM.run_bind, hrun]
  rfl

theorem executeAll_ok_iff (hformed : WellFormedEntries entries)
    (hs : s.Reliable) :
    (∃ t, (executeAll entries).run s = .ok () t) ↔
      ∀ entry ∈ entries, isUsableEntry entry = true := by
  constructor
  · rintro ⟨t, hrun⟩ entry hentry
    cases husable : isUsableEntry entry with
    | true => rfl
    | false =>
      -- the first unusable entry would have failed
      obtain ⟨bad, hbad⟩ :
          ∃ bad, entries.find? (fun entry => !isUsableEntry entry) = some bad := by
        rw [← Option.isSome_iff_exists, List.find?_isSome]
        exact ⟨entry, hentry, by rw [husable]; rfl⟩
      obtain ⟨hunusable, good, later, hsplit, hgood⟩ := List.find?_eq_some_iff_append.mp hbad
      rw [hsplit] at hformed hrun
      obtain ⟨_, failure, u, _, _, _, hfail⟩ :=
        run_executeAll_unusable hformed (fun entry h => by simpa using hgood entry h)
          (by simpa using hunusable) hs
      rw [hfail] at hrun
      cases hrun
  · intro husable
    obtain ⟨_, t, hrun, _⟩ := run_of_sure (sure_executeAll hformed husable) hs
    exact ⟨t, hrun⟩

/-- Reading is no safeguard: the program gets as far as the values of its commands allow. Commands
that work without a robot are all executed. A blank line ahead of the first command that needs the
robot is a failure before anything is done. Otherwise, with the connection made, the program ends
with status zero in any case, but it executes its entries to the end only if all of them can be
used; the first that cannot is found when its turn comes, and those after it are skipped. -/
theorem commands_complete_iff_usable {args rest : List String} {line : String}
    {entries : List (Option Command)} {s t : System}
    (hsupplies : Supplies s args (line :: rest) t) (hreads : Reads (line :: rest) entries)
    (hs : s.Reliable) :
    ((∀ entry ∈ entries, isOffline entry = true) →
      ∃ w, (run args).run s = .ok (some 0) w ∧
        (executeSilently entries).run (after prepare t) = .ok () w) ∧
    (∀ ahead later, entries = ahead ++ none :: later →
      (∀ entry ∈ ahead, isOffline entry = true) →
      (run args).run s = .error .blankCommand t) ∧
    ∀ u, opened? entries t = some u →
      (∃ w, (run args).run s = .ok (some 0) w ∧ Released (releasing entries u) w) ∧
      ((∃ v, (executeAll entries).run u = .ok () v) ↔
        ∀ entry ∈ entries, isUsableEntry entry = true) ∧
      ∀ good bad later, entries = good ++ bad :: later →
        (∀ entry ∈ good, isUsableEntry entry = true) → isUsableEntry bad = false →
        ∃ v failure w, (executeAll good).run u = .ok () v ∧
          (executeEntry bad).run v = .error failure w ∧ failure.isInterrupt = false ∧
          after (executeGuarded entries) u = w.record (.print s!"\nError: {failure.message}") := by
  have hformed := hreads.wellFormed
  have ht : t.Reliable := reliable_of_supplies hs hsupplies
  have hrun : (run args).run s = (do return some (← runCommands entries) : Act _).run t := by
    rw [hsupplies.run_eq, EStateM.run_bind, EStateM.run_bind, hreads.run_runLines]
  refine ⟨?_, ?_, ?_⟩
  · intro hoffline
    obtain ⟨w, hcommands, hexecuted⟩ := run_runCommands_offline hformed hoffline ht
    refine ⟨w, ?_, hexecuted⟩
    rw [hrun, EStateM.run_bind, hcommands]
    rfl
  · -- the blank entry is met by the search for a command that needs the robot
    intro ahead later hentries hahead
    have hneeded : (needsRobot entries).run t = .error .blankCommand t := by
      have hfound : entries.find? (fun entry => !isOffline entry) = some none := by
        refine List.find?_eq_some_iff_append.mpr ⟨rfl, ahead, later, hentries, ?_⟩
        intro entry hentry
        simp [hahead entry hentry]
      rw [run_needsRobot, hfound]
    rw [hrun]
    unfold runCommands
    rw [EStateM.run_bind, EStateM.run_bind, hneeded]
  · intro u hopened
    have hu := reliable_of_opened ht hopened
    refine ⟨?_, executeAll_ok_iff hformed hu, ?_⟩
    · have hreleasing := reliable_releasing hu entries
      obtain ⟨w, hdisconnect, hreleased⟩ :=
        run_disconnect (isUndisturbed_of_reliable (hreleasing.record _)) hreleasing.controller.pool
      refine ⟨w, ?_, hreleased⟩
      rw [run_of_opened hsupplies hreads hopened, EStateM.run_bind, hdisconnect]
      rfl
    · intro good bad later hentries hgood hbad
      rw [hentries] at hformed ⊢
      obtain ⟨v, failure, w, hdone, hfail, hkind, hstop⟩ :=
        run_executeAll_unusable hformed hgood hbad hu
      refine ⟨v, failure, w, hdone, hfail, hkind, ?_⟩
      unfold after executeGuarded
      rw [run_tryCatch, hstop]
      simp only [hkind, Bool.false_eq_true, if_false]
      rfl

/-- A system without faults, not yet connected. -/
def idleSystem : System where
  world := { clock := 0, directory := { root := "/", names := [] } }
  files := []

theorem idleSystem_reliable : idleSystem.Reliable := by
  refine ⟨rfl, ?_, fun _ => ⟨rfl, ⟨_, rfl⟩, rfl⟩, rfl, rfl, rfl⟩
  intro id client hclient
  cases hclient

/-- A blank line alone makes the program fail. A distance that is no number is read like any other;
the program stops at it, does not wait, and yet reports no failure. -/
theorem malformed_distance_found_late :
    (run [""]).run idleSystem = .error .blankCommand idleSystem ∧
    ∃ entries u w, Reads ["status", "move abc", "wait"] entries ∧
      opened? entries idleSystem = some u ∧
      (run ["status", "move abc", "wait"]).run idleSystem = .ok (some 0) w ∧
      ¬∃ v, (executeAll entries).run u = .ok () v := by
  constructor
  · have hblank : Reads [""] [none] := .cons rfl .nil
    exact (commands_complete_iff_usable (.given (by decide) (by decide)) hblank
      idleSystem_reliable).2.1 [] [] rfl (fun _ h => by cases h)
  · have hcheck : readsTo ["status", "move abc", "wait"] idleSystem (fun entries =>
        (opened? entries idleSystem).isSome && !entries.all isUsableEntry) = true := by
      decide +kernel
    obtain ⟨entries, hreads, hentries⟩ := exists_of_readsTo hcheck
    rw [Bool.and_eq_true, Bool.not_eq_true', List.all_eq_false] at hentries
    obtain ⟨u, hopened⟩ := Option.isSome_iff_exists.mp hentries.1
    obtain ⟨⟨w, hrun, _⟩, hiff, _⟩ :=
      (commands_complete_iff_usable (.given (by decide) (by decide)) hreads
        idleSystem_reliable).2.2 u hopened
    refine ⟨entries, u, w, hreads, hopened, hrun, ?_⟩
    rw [hiff]
    obtain ⟨bad, hbad, hunusable⟩ := hentries.2
    exact fun hall => hunusable (hall bad hbad)

end RobotConsole.Console
