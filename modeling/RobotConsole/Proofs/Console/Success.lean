import RobotConsole.Proofs.Command.Kinds
import RobotConsole.Proofs.Robot.Motors

/-!
# What the answer of a command says about its calls

A command that asks something of the robot answers whether it succeeded. A call fails when a fault
is planned for it, by the world or by the client at hand, and has become due (`CallFailed`). The
actions that pass a failure on (`candid`) end well only if no call failed, and a report that turns
their failure into an answer keeps the answer true (`truthful_succeeding`). Turning on the spot
drops the answer of the wheels instead. So after a failed call the answer is still that all went
well exactly if the command is a turn (`failed_call_hidden_iff_turn`).
-/

namespace RobotConsole.Robot

open Contract

variable {α β : Type}
variable {body : Act Bool}

/-! ## Calls that fail -/

/-- The faults of the client at hand. -/
def System.ownFaults (s : System) : Dict Fault :=
  match s.controller.client with
  | some id => ((s.clients[id]?).getD {}).faults
  | none => []

/-- A fault is planned for a kind of call. -/
def System.Plans (s : System) (name : String) (fault : Fault) : Prop :=
  Dict.get? s.world.faults name = some fault ∨ Dict.get? s.ownFaults name = some fault

/-- A call is to fail that so many of its kind came before. -/
def System.Fails (s : System) (name : String) (count : Nat) : Prop :=
  ∃ fault, s.Plans name fault ∧ fault.isDue count = true

/-- Some call failed that was made on the way from one state to another. Pauses are counted like
calls, but are none. -/
def CallFailed (s t : System) : Prop :=
  ∃ name count, name ≠ "sleep" ∧ s.callCount name ≤ count ∧ count < t.callCount name ∧
    s.Fails name count

/-- No call is planned to be interrupted. -/
def System.Uninterrupted (s : System) : Prop :=
  ∀ name fault, s.Plans name fault → fault.kind ≠ .interrupt

/-- A change after which the same faults are planned, and no call is forgotten. -/
structure Continues (s t : System) : Prop where
  world : t.world = s.world
  ownFaults : t.ownFaults = s.ownFaults
  callCount : ∀ name, s.callCount name ≤ t.callCount name

namespace Continues

variable {s t u : System}

theorem refl (s : System) : Continues s s :=
  ⟨rfl, rfl, fun _ => Nat.le_refl _⟩

theorem trans (h₁ : Continues s t) (h₂ : Continues t u) : Continues s u :=
  ⟨h₂.world.trans h₁.world, h₂.ownFaults.trans h₁.ownFaults, fun name =>
    Nat.le_trans (h₁.callCount name) (h₂.callCount name)⟩

theorem plans_iff (h : Continues s t) (name : String) (fault : Fault) :
    t.Plans name fault ↔ s.Plans name fault := by
  unfold System.Plans
  rw [h.world, h.ownFaults]

theorem fails_iff (h : Continues s t) (name : String) (count : Nat) :
    t.Fails name count ↔ s.Fails name count := by
  simp only [System.Fails, h.plans_iff]

theorem uninterrupted (h : Continues s t) (hs : s.Uninterrupted) : t.Uninterrupted :=
  fun name fault hplan => hs name fault ((h.plans_iff name fault).mp hplan)

/-- A call that failed on the way failed on one of the two parts of the way. -/
theorem callFailed (h : Continues s t) (hfailed : CallFailed s u) :
    CallFailed s t ∨ CallFailed t u := by
  obtain ⟨name, count, hname, hlow, hhigh, hfails⟩ := hfailed
  by_cases hcount : count < t.callCount name
  · exact .inl ⟨name, count, hname, hlow, hcount, hfails⟩
  · exact .inr ⟨name, count, hname, Nat.le_of_not_lt hcount, hhigh,
      (h.fails_iff name count).mpr hfails⟩

end Continues

theorem not_callFailed_of_calls {s t : System} (h : t.calls = s.calls) : ¬CallFailed s t := by
  rintro ⟨name, count, _, hlow, hhigh, _⟩
  simp only [System.callCount, h] at hhigh hlow
  omega

/-- The contract of actions that pass on the failure of a call: they end well only if no call
failed, and they are interrupted only if a call is. -/
def candid : Contract Failure System where
  yields s t := Continues s t ∧ ¬CallFailed s t
  fails e s t := Continues s t ∧ (s.Uninterrupted → e.isInterrupt = false)
  refl s := ⟨.refl s, not_callFailed_of_calls rfl⟩
  trans h₁ h₂ := ⟨h₁.1.trans h₂.1, fun h => (h₁.1.callFailed h).elim h₁.2 h₂.2⟩
  fails_after h₁ h₂ := ⟨h₁.1.trans h₂.1, fun hs => h₂.2 (h₁.1.uninterrupted hs)⟩

theorem continues_record (s : System) (e : Event) : Continues s (s.record e) :=
  ⟨rfl, rfl, fun _ => Nat.le_refl _⟩

theorem candid_emit (e : Event) : candid.Holds (emit e) :=
  holds_modify fun s => ⟨continues_record s e, not_callFailed_of_calls rfl⟩

theorem candid_throw {e : Failure} (h : e.isInterrupt = false) :
    candid.Holds (throw e : Act α) :=
  holds_throw fun s => ⟨.refl s, fun _ => h⟩

/-! ## Making calls -/

theorem continues_counted (s : System) (name : String) : Continues s (s.counted name) := by
  refine ⟨rfl, rfl, fun other => ?_⟩
  rw [s.callCount_counted name other]
  split
  next h =>
    rw [h]
    omega
  next => exact Nat.le_refl _

/-- The one call that is counted is the one that may have failed. -/
theorem callFailed_counted_iff (s : System) (name : String) :
    CallFailed s (s.counted name) ↔ name ≠ "sleep" ∧ s.Fails name (s.callCount name) := by
  constructor
  · rintro ⟨other, count, hother, hlow, hhigh, hfails⟩
    rw [s.callCount_counted name other] at hhigh
    split at hhigh
    next h =>
      have hcount : count = s.callCount name := by
        rw [h] at hlow
        omega
      rw [← hcount, ← h]
      exact ⟨hother, hfails⟩
    next => omega
  · rintro ⟨hname, hfails⟩
    refine ⟨name, s.callCount name, hname, Nat.le_refl _, ?_, hfails⟩
    rw [s.callCount_counted name name, if_pos rfl]
    omega

/-- A call that goes well was not to fail, and one that fails does so with a planned fault. -/
theorem candid_meetFault (name : String) (s : System) :
    candid.HoldsAt s (meetFault name s.ownFaults) := by
  have hafter : after (meetFault name s.ownFaults) s = s.counted name := by
    unfold after
    rw [run_meetFault_eq]
    cases Option.or _ _ <;> rfl
  refine .of_outcomes ?_ ?_
  · intro a t hok
    rw [← after_of_ok hok, hafter]
    refine ⟨continues_counted s name, fun hfailed => ?_⟩
    obtain ⟨-, fault, hplan, hdue⟩ := (callFailed_counted_iff s name).mp hfailed
    rw [run_meetFault_eq] at hok
    split at hok
    next => cases hok
    next hnone =>
      rw [Option.or_eq_none_iff, Option.filter_eq_none_iff, Option.filter_eq_none_iff] at hnone
      rcases hplan with hplan | hplan
      · exact hnone.1 fault hplan hdue
      · exact hnone.2 fault hplan hdue
  · intro e t herror
    rw [← after_of_error herror, hafter]
    refine ⟨continues_counted s name, fun hs => ?_⟩
    obtain ⟨fault, hplan, rfl⟩ := fault_of_meetFault herror
    exact Fault.isInterrupt_failure (hs name fault hplan)

/-- A pause is no call, and is cut short only by a planned interrupt. -/
theorem candid_meetInterrupt : candid.Holds (meetInterrupt "sleep") := by
  intro s
  have hcontinues := continues_counted s "sleep"
  have hrun := run_meetInterrupt "sleep" s
  refine .of_outcomes ?_ ?_
  · intro a t hok
    rw [hrun] at hok
    split at hok
    next => cases hok
    next =>
      cases hok
      exact ⟨hcontinues, fun hfailed => ((callFailed_counted_iff s "sleep").mp hfailed).1 rfl⟩
  · intro e t herror
    rw [hrun] at herror
    split at herror
    next failure hinterrupt =>
      cases herror
      refine ⟨hcontinues, fun hs => ?_⟩
      rw [s.interrupt?_of_plain fun fault hfault => hs "sleep" fault (.inl hfault)] at hinterrupt
      cases hinterrupt
    next => cases herror

instance : AdmitsTelling candid where
  throw h _ s := ⟨.refl s, fun _ => h⟩
  tell {e} _ := candid_emit e
  meetInterrupt := candid_meetInterrupt

theorem client_of_clientFor {member : String} {s t : System} {id : ClientId}
    (h : (clientFor member).run s = .ok id t) : t = s ∧ s.controller.client = some id := by
  unfold clientFor controller at h
  simp only [EStateM.run_bind, EStateM.run_get, EStateM.run_pure] at h
  split at h
  next client hclient =>
    cases h
    exact ⟨rfl, hclient⟩
  next => cases h

theorem candid_call {member name : String} {event : ClientId → Event} {rest : Unit → Act α}
    (hrest : candid.Holds (rest ())) :
    candid.Holds (do
      let id ← clientFor member
      emit (event id)
      let client ← clientState id
      meetFault name client.faults
      rest ()) := by
  intro s
  refine (keeps_clientFor member s).bind fun id t hrun => ?_
  obtain ⟨rfl, hid⟩ := client_of_clientFor hrun
  refine (candid_emit (event id) t).bind fun _ u hemit => ?_
  obtain rfl : u = t.record (event id) := by cases hemit; rfl
  -- the client is still at hand, so its faults are those that are met
  have hfaults : ((t.clients[id]?).getD {}).faults = (t.record (event id)).ownFaults := by
    show _ = t.ownFaults
    unfold System.ownFaults
    rw [hid]
  refine (holds_clientState id _).bind fun client v hstate => ?_
  obtain ⟨rfl, rfl⟩ : client = (t.clients[id]?).getD {} ∧ v = t.record (event id) := by
    cases hstate
    exact ⟨rfl, rfl⟩
  refine HoldsAt.bind ?_ fun _ v _ => hrest v
  rw [hfaults]
  exact candid_meetFault name _

theorem candid_request {r : Request} (hr : r ≠ .connect) : candid.Holds (request r) := by
  unfold request
  cases r with
  | connect => exact absurd rfl hr
  | _ => exact candid_call (holds_pure ())

theorem candid_send (packet : Packet) : candid.Holds (send packet) := by
  have hsend : send packet = (do
      let id ← clientFor "conn"
      emit (.send id packet)
      let client ← clientState id
      meetFault "send" client.faults
      pure ()) := by
    unfold send
    simp
  rw [hsend]
  exact candid_call (holds_pure ())

theorem candid_runMotors (duration : Number) (async : Bool) :
    candid.Holds (runMotors duration async) := by
  unfold runMotors
  split
  · exact (keeps_pause duration).bind fun _ => candid_request fun h => by cases h
  · exact holds_pure _

/-! ## Answers -/

/-- An action that answers that it succeeded only if no call failed. -/
def Truthful (x : Act Bool) : Prop :=
  ∀ s t, x.run s = .ok true t → ¬CallFailed s t

/-- A report makes a failure, which may be that of a call, into the answer no. -/
theorem truthful_succeeding (label : String) (hbody : candid.Holds body) :
    Truthful (succeeding label body) := by
  intro s t hrun
  unfold succeeding at hrun
  cases hout : body.run s with
  | ok a u =>
    rw [run_handling_of_ok hout] at hrun
    cases hrun
    exact ((hbody s).yields hout).2
  | error e u =>
    cases hinterrupt : e.isInterrupt with
    | true =>
      rw [run_handling_of_interrupt hout hinterrupt] at hrun
      cases hrun
    | false =>
      rw [run_handling_of_failure hout hinterrupt] at hrun
      cases hrun

theorem Truthful.whenConnected (hbody : Truthful body) :
    Truthful (whenConnected body) := by
  intro s t hrun
  unfold Robot.whenConnected controller at hrun
  simp only [EStateM.run_bind, EStateM.run_get, EStateM.run_pure] at hrun
  split at hrun
  · exact hbody s t hrun
  · cases hrun

theorem Truthful.bind {x : Act α} {f : α → Act Bool} (hx : candid.Holds x)
    (hf : ∀ a, Truthful (f a)) : Truthful (x >>= f) := by
  intro s t hrun hfailed
  obtain ⟨a, u, hfirst, hsecond⟩ := run_of_bind_ok hrun
  obtain ⟨hcontinues, hnone⟩ := (hx s).yields hfirst
  rcases hcontinues.callFailed hfailed with h | h
  · exact hnone h
  · exact hf a u t hsecond h

theorem truthful_guarded (label : String) (hbody : candid.Holds body) :
    Truthful (whenConnected (succeeding label body)) :=
  (truthful_succeeding label hbody).whenConnected

theorem candid_driving (packet : Packet) (duration : Number) (async : Bool) :
    candid.Holds (do send packet; runMotors duration async; return true : Act Bool) :=
  (candid_send packet).bind fun _ => (candid_runMotors duration async).giving

theorem truthful_driveWheels (left right duration : Number) (async : Bool) :
    Truthful (driveWheels left right duration async) :=
  truthful_guarded _ ((keeps_calculate _).bind fun _ => (keeps_calculate _).bind fun _ =>
    candid_driving _ _ _)

theorem truthful_moveLift (speed duration : Number) (async : Bool) :
    Truthful (moveLift speed duration async) :=
  truthful_guarded _ ((keeps_calculate _).bind fun _ => candid_driving _ _ _)

theorem truthful_moveForward (distance speed : Number) (async : Bool) :
    Truthful (moveForward distance speed async) :=
  .bind (keeps_calculate _) fun _ => .bind (keeps_calculate _) fun _ =>
    .bind (keeps_calculate _) fun _ => .bind (keeps_print _) fun _ => truthful_driveWheels _ _ _ _

theorem truthful_setHeadAngle (angle : Number) (async : Bool) :
    Truthful (setHeadAngle angle async) := by
  refine truthful_guarded _ ((candid_request fun h => by cases h).bind fun _ => ?_)
  split
  · exact (keeps_pause _).giving
  · exact holds_pure _

theorem truthful_goToPose (x y angle : Number) : Truthful (goToPose x y angle) :=
  truthful_guarded _ ((candid_request fun h => by cases h).giving)

theorem truthful_calibrateMotors (head lift : Bool) : Truthful (calibrateMotors head lift) :=
  truthful_guarded _ ((candid_send _).bind fun _ => (keeps_print _).bind fun _ =>
    (keeps_pause _).giving)

theorem truthful_setVolume (level : Number) : Truthful (setVolume level) :=
  truthful_guarded _ ((keeps_calculate _).bind fun _ => (candid_send _).bind fun _ =>
    (keeps_print _).giving)

theorem truthful_setAllLights (color : String) : Truthful (setAllLights color) :=
  truthful_guarded _ ((candid_request fun h => by cases h).giving)

theorem truthful_setEachLight (colors : List String) : Truthful (setEachLight colors) := by
  refine truthful_guarded _ ?_
  split
  · exact (keeps_print _).giving
  · exact (candid_request fun h => by cases h).giving

theorem truthful_setHeadLight (on : Bool) : Truthful (setHeadLight on) :=
  truthful_guarded _ ((candid_request fun h => by cases h).bind fun _ =>
    (keeps_print _).giving)

/-! ## Turning on the spot -/

/-- An action that answers that it succeeded whenever a call failed and was not interrupted. -/
def Oblivious (x : Act Bool) : Prop :=
  ∀ s : System, s.Uninterrupted → CallFailed s (after x s) → ∃ t, x.run s = .ok true t

theorem Oblivious.bind_settled {x : Act α} {value : Option α} {f : α → Act Bool}
    (hx : Settles x value) (hf : ∀ a, Oblivious (f a)) : Oblivious (x >>= f) := by
  cases value with
  | some a =>
    rw [show x = pure a from hx, pure_bind]
    exact hf a
  | none =>
    obtain ⟨failure, rfl⟩ := hx
    intro s _ hfailed
    exact absurd hfailed (not_callFailed_of_calls rfl)

theorem Oblivious.print_bind {x : Act Bool} (hx : Oblivious x) (text : String) :
    Oblivious (print text >>= fun _ => x) := by
  intro s hs hfailed
  have hprint : (print text).run s = .ok () (s.record (.print text)) := rfl
  rw [after_bind_of_ok hprint] at hfailed
  obtain ⟨t, hrun⟩ := hx (s.record (.print text)) hs hfailed
  exact ⟨t, by rw [EStateM.run_bind, hprint]; exact hrun⟩

theorem Oblivious.whenConnected (hbody : Oblivious body) :
    Oblivious (whenConnected body) := by
  intro s hs hfailed
  cases hconnected : s.controller.connected with
  | true =>
    have hrun : (Robot.whenConnected body).run s = body.run s := by
      unfold Robot.whenConnected controller
      simp [hconnected]
    unfold after at hfailed
    rw [hrun] at hfailed ⊢
    exact hbody s hs hfailed
  | false =>
    have hrun : (Robot.whenConnected body).run s = .ok false s := by
      unfold Robot.whenConnected controller
      simp [hconnected]
    rw [after_of_ok hrun] at hfailed
    exact absurd hfailed (not_callFailed_of_calls rfl)

theorem Oblivious.succeeding (hbody : Oblivious body) (label : String) :
    Oblivious (succeeding label body) := by
  intro s hs hfailed
  -- a report makes no call, so it was in the body that one failed
  have hcalls : (after (Robot.succeeding label body) s).calls = (after body s).calls := by
    unfold Robot.succeeding
    cases hout : body.run s with
    | ok a t => rw [after_of_ok hout, after_of_ok (run_handling_of_ok hout)]
    | error e t =>
      rw [after_of_error hout]
      cases hinterrupt : e.isInterrupt with
      | true => rw [after_of_error (run_handling_of_interrupt hout hinterrupt)]
      | false =>
        unfold after
        rw [run_handling_of_failure hout hinterrupt]
        rfl
  have hbodyFailed : CallFailed s (after body s) := by
    obtain ⟨name, count, hname, hlow, hhigh, hfails⟩ := hfailed
    refine ⟨name, count, hname, hlow, ?_, hfails⟩
    simpa only [System.callCount, hcalls] using hhigh
  obtain ⟨t, hrun⟩ := hbody s hs hbodyFailed
  exact ⟨t, run_handling_of_ok hrun⟩

/-- A report handles the failure of a call, so that there is always an answer. -/
theorem answers_guarded (label : String) (hbody : candid.Holds body) {s : System}
    (hs : s.Uninterrupted) : ∃ a t, (whenConnected (succeeding label body)).run s = .ok a t := by
  have hbody : ∃ a t, (succeeding label body).run s = .ok a t := by
    unfold succeeding
    cases hout : body.run s with
    | ok a t => exact ⟨a, t, run_handling_of_ok hout⟩
    | error e t =>
      have hinterrupt : e.isInterrupt = false := ((hbody s).fails hout).2 hs
      exact ⟨false, _, run_handling_of_failure hout hinterrupt⟩
  unfold whenConnected controller
  cases hconnected : s.controller.connected with
  | true =>
    obtain ⟨a, t, hrun⟩ := hbody
    exact ⟨a, t, by simpa [hconnected] using hrun⟩
  | false => exact ⟨false, s, by simp [hconnected]⟩

theorem oblivious_turnInPlace (degrees : Number) (async : Bool) :
    Oblivious (turnInPlace degrees async) := by
  refine Oblivious.whenConnected (Oblivious.succeeding ?_ _)
  refine Oblivious.bind_settled (settles_calculate _) fun duration => ?_
  refine Oblivious.bind_settled (settles_calculate _) fun angle => Oblivious.print_bind ?_ _
  intro s hs _
  have hwheels : ∀ left right time, ∃ a t, (driveWheels left right time async).run s = .ok a t :=
    fun _ _ _ => answers_guarded _ ((keeps_calculate _).bind fun _ =>
      (keeps_calculate _).bind fun _ => candid_driving _ _ _) hs
  obtain ⟨a, t, hrun⟩ := hwheels _ _ _
  exact ⟨t, by rw [EStateM.run_bind, hrun]; rfl⟩

end RobotConsole.Robot

namespace RobotConsole.Console

open Command (Setting Options Verb)
open Robot Contract

/-! ## Commands -/

/-- Whether a command only has the robot move, light up or sound, and says how that went. -/
def isDirect : Verb → Bool
  | .move | .turn | .goto | .head | .lift | .volume | .lights | .ir | .calibrate => true
  | _ => false

theorem candid_argumentAt (args : List String) (position : Nat) :
    candid.Holds (argumentAt args position) := by
  unfold argumentAt
  split
  · exact holds_pure _
  · exact candid_throw rfl

theorem truthful_realAt {args : List String} {position : Nat} {f : Number → Act Bool}
    (hf : ∀ x, Truthful (f x)) :
    Truthful (argumentAt args position >>= fun text => realNumber text >>= f) :=
  .bind (candid_argumentAt args position) fun text => .bind (keeps_realNumber text) hf

theorem truthful_carryOut {verb : Verb} (hdirect : isDirect verb = true) (hturn : verb ≠ .turn)
    (args : List String) (options : Options) : Truthful (carryOut verb args options) := by
  unfold carryOut
  dsimp only
  cases verb with
  | move =>
    exact truthful_realAt fun _ => .bind (keeps_realSetting _) fun _ => truthful_moveForward _ _ _
  | turn => exact absurd rfl hturn
  | goto =>
    refine truthful_realAt fun _ => truthful_realAt fun _ => ?_
    exact .bind (keeps_realSetting _) fun _ => .bind (keeps_calculate _) fun _ =>
      truthful_goToPose _ _ _
  | head => exact .bind (keeps_headAngle _) fun _ => truthful_setHeadAngle _ _
  | lift =>
    exact truthful_realAt fun _ => .bind (keeps_realSetting _) fun _ => truthful_moveLift _ _ _
  | volume =>
    exact .bind (candid_argumentAt args 0) fun _ => .bind (keeps_wholeNumber _) fun _ =>
      truthful_setVolume _
  | lights =>
    dsimp only
    split
    · exact truthful_setEachLight _
    · exact truthful_setAllLights _
  | ir => exact truthful_setHeadLight _
  | calibrate => exact truthful_calibrateMotors _ _
  | _ => cases hdirect

theorem oblivious_turn (args : List String) (options : Options) :
    Oblivious (carryOut .turn args options) :=
  .bind_settled (settles_argumentAt args 0) fun text =>
    .bind_settled (settles_realNumber text) fun degrees => oblivious_turnInPlace degrees _

/-- After a call to the robot failed, and was not interrupted, a command that only has the robot
move, light up or sound answers that it succeeded exactly if it is a turn on the spot. Every other
one answers that it did not, or fails. -/
theorem failed_call_hidden_iff_turn {c : Command} {s : System} (hdirect : isDirect c.verb = true)
    (hs : s.Uninterrupted) (hfailed : CallFailed s (after (execute c) s)) :
    (∃ t, (execute c).run s = .ok true t) ↔ c.verb = .turn := by
  constructor
  · rintro ⟨t, hrun⟩
    rw [after_of_ok hrun] at hfailed
    apply Decidable.byContradiction
    intro hturn
    have htruthful : Truthful (execute c) := by
      unfold execute executeNamed
      rw [Verb.ofName?_name]
      exact .bind (keeps_print _) fun _ => truthful_carryOut hdirect hturn c.args c.options
    exact htruthful s t hrun hfailed
  · intro hturn
    have hoblivious : Oblivious (execute c) := by
      unfold execute executeNamed
      rw [Verb.ofName?_name, hturn]
      exact (oblivious_turn c.args c.options).print_bind _
    exact hoblivious s hs hfailed

/-- A linked robot to which nothing can be sent. -/
def deafSystem : System :=
  { freshSystem with world := { freshSystem.world with faults := [("send", {})] } }

theorem deafSystem_uninterrupted : deafSystem.Uninterrupted := by
  rintro name fault (hplan | hplan)
  · change Dict.get? [("send", _)] name = some fault at hplan
    rw [Dict.get?_cons] at hplan
    split at hplan
    · cases hplan
      exact fun h => by cases h
    · cases hplan
  · cases hplan

theorem callFailed_deafSystem {t : System} (h : t.callCount "send" = 1) :
    CallFailed deafSystem t :=
  ⟨"send", 0, by decide, Nat.le_refl _, by omega, {}, .inl rfl, rfl⟩

theorem exists_unsent (line : String) (verb : Verb)
    (h : Command.parsesTo line (fun c => c.verb == verb &&
      (after (execute c) deafSystem).callCount "send" == 1) = true) :
    ∃ c, Command.parse line = .ok (some c) ∧ c.verb = verb ∧
      CallFailed deafSystem (after (execute c) deafSystem) := by
  obtain ⟨c, hparse, hcheck⟩ := Command.exists_of_parsesTo h
  obtain ⟨hverb, hcount⟩ := Bool.and_eq_true_iff.mp hcheck
  exact ⟨c, hparse, eq_of_beq hverb, callFailed_deafSystem (eq_of_beq hcount)⟩

/-- Where nothing can be sent a quarter turn counts as done, and moving the lift does not. -/
theorem turn_counts_as_done_unsent :
    ∃ turn lift, Command.parse "turn 90" = .ok (some turn) ∧
      Command.parse "lift 1" = .ok (some lift) ∧
      (∃ t, (execute turn).run deafSystem = .ok true t) ∧
      ¬∃ t, (execute lift).run deafSystem = .ok true t := by
  obtain ⟨turn, hturn, hturnVerb, hturnFailed⟩ := exists_unsent "turn 90" .turn (by decide +kernel)
  obtain ⟨lift, hlift, hliftVerb, hliftFailed⟩ := exists_unsent "lift 1" .lift (by decide +kernel)
  refine ⟨turn, lift, hturn, hlift, ?_, ?_⟩
  · exact (failed_call_hidden_iff_turn (by rw [hturnVerb]; rfl) deafSystem_uninterrupted
      hturnFailed).mpr hturnVerb
  · rw [failed_call_hidden_iff_turn (by rw [hliftVerb]; rfl) deafSystem_uninterrupted hliftFailed,
      hliftVerb]
    exact fun h => by cases h

end RobotConsole.Console
