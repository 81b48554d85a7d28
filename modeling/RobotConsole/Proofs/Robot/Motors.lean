import RobotConsole.Proofs.Robot.Quiet

/-!
# When motors are left running

A movement starts the motors, pauses while they run, and then asks the robot to stop them. The
pause can fail: its length comes from the command line, and a length that is negative, not a number
or beyond the clock is refused. The request to stop is then never made. This is the only way in
which a synchronous command leaves motors running (`motors_stopped_iff_pauses_kept`).
-/

namespace RobotConsole.Robot

open Contract

variable {α : Type}
variable {events first second : List Event} {id : ClientId} {packet : Packet} {time : Number}
  {body : Act Bool}

/-- Every start of a motor in a trace is followed, later in the trace, by a request to stop the
motors. -/
def MotorsStopped : List Event → Prop
  | [] => True
  | e :: later =>
    (e.startsMotors = true → ∃ id, Event.call id .stopAllMotors ∈ later) ∧ MotorsStopped later

theorem MotorsStopped.of_append (h : MotorsStopped (first ++ second)) :
    MotorsStopped second := by
  induction first with
  | nil => exact h
  | cons e first ih => exact ih h.2

theorem MotorsStopped.append (hfirst : MotorsStopped first)
    (hsecond : MotorsStopped second) : MotorsStopped (first ++ second) := by
  induction first with
  | nil => exact hsecond
  | cons e first ih =>
    refine ⟨fun he => ?_, ih hfirst.2⟩
    obtain ⟨id, hid⟩ := hfirst.1 he
    exact ⟨id, List.mem_append_left second hid⟩

theorem motorsStopped_of_quiet
    (h : ∀ e ∈ events, e.startsMotors = false) : MotorsStopped events := by
  induction events with
  | nil => trivial
  | cons e events ih =>
    refine ⟨fun he => ?_, ih fun e' he' => h e' (List.mem_cons_of_mem e he')⟩
    rw [h e List.mem_cons_self] at he
    cases he

theorem MotorsStopped.append_of_stop
    (hstop : Event.call id .stopAllMotors ∈ second) (hsecond : MotorsStopped second) :
    MotorsStopped (first ++ second) := by
  induction first with
  | nil => exact hsecond
  | cons e first ih => exact ⟨fun _ => ⟨id, List.mem_append_right first hstop⟩, ih⟩

/-! ## Worlds in which packets go through -/

/-- No packet fails to be sent, by any client there is or is planned, and no pause is
interrupted. -/
structure System.SendsSucceed (s : System) : Prop where
  world : Dict.get? s.world.faults "send" = none
  pauses : ∀ fault, Dict.get? s.world.faults "sleep" = some fault → fault.kind ≠ .interrupt
  known : ∀ (id : ClientId) (client : Client), s.clients[id]? = some client →
    Dict.get? client.faults "send" = none
  planned : ∀ count, Dict.get? (s.world.clientAfter count).faults "send" = none

theorem System.SendsSucceed.of_grows {P : Event → Prop} {s t : System} (hs : s.SendsSucceed)
    (h : Grows P s t) : t.SendsSucceed := by
  refine ⟨by rw [h.world]; exact hs.world, by rw [h.world]; exact hs.pauses, ?_,
    by rw [h.world]; exact hs.planned⟩
  intro id client hclient
  rcases h.clients id client hclient with hknown | ⟨count, hplan⟩
  · exact hs.known id client hknown
  · rw [hplan]
    exact hs.planned count

theorem System.SendsSucceed.pauseCut?_eq {s : System} (hs : s.SendsSucceed) (seconds : Number) :
    s.pauseCut? seconds = pauseFailure? seconds := by
  unfold System.pauseCut?
  rw [System.interrupt?_of_plain hs.pauses, Option.or_none]

/-- A controller that counts as connected and has a client. -/
def System.Linked (s : System) : Prop :=
  s.controller.connected = true ∧ s.controller.client.isSome = true

instance (s : System) : Decidable s.Linked :=
  inferInstanceAs (Decidable (_ ∧ _))

theorem Appends.linked_iff {s t : System} (h : Appends events s t) :
    t.Linked ↔ s.Linked := by
  unfold System.Linked
  rw [h.controller]

theorem clientState_sends {s : System} (hs : s.SendsSucceed) (id : ClientId) :
    ∃ client, (clientState id).run s = .ok client s ∧ Dict.get? client.faults "send" = none := by
  refine ⟨_, rfl, ?_⟩
  cases hclient : s.clients[id]? with
  | none => rfl
  | some client => exact hs.known id client hclient

theorem run_send {s : System} (hs : s.SendsSucceed)
    (hid : s.controller.client = some id) :
    ∃ t, (send packet).run s = .ok () t ∧ Appends [.send id packet] s t := by
  obtain ⟨t, hemit, ht⟩ := run_emit (.send id packet) s
  have hst : t.SendsSucceed := hs.of_grows (P := fun _ => True) (ht.grows fun _ _ => trivial)
  obtain ⟨client, hstate, hclient⟩ := clientState_sends hst id
  obtain ⟨u, hmeet, hu⟩ := run_meetFault hst.world hclient
  refine ⟨u, ?_, ht.trans hu⟩
  unfold send
  simp only [EStateM.run_bind, run_clientFor hid, hemit, hstate, hmeet]

/-! ## Movements -/

/-- A change in which the motors are started once and run for a time; they are asked to stop exactly
if that time can be waited for. -/
structure Spins (time : Number) (s t : System) : Prop where
  grows : Grows (fun _ => True) s t
  trace : ∃ before start later, t.trace.toList = s.trace.toList ++ (before ++ start :: later) ∧
    start.startsMotors = true ∧ (∀ e ∈ later, e.startsMotors = false) ∧
    ((∃ id, Event.call id .stopAllMotors ∈ later) ↔ pauseFailure? time = none)

theorem Spins.motorsStopped_iff {s t : System} (h : Spins time s t) :
    MotorsStopped t.trace.toList ↔ pauseFailure? time = none := by
  obtain ⟨before, start, later, htrace, hstart, hlater, hstop⟩ := h.trace
  rw [htrace]
  constructor
  · intro hstopped
    have hsuffix : MotorsStopped (start :: later) := hstopped.of_append.of_append
    exact hstop.mp (hsuffix.1 hstart)
  · intro hkept
    obtain ⟨id, hid⟩ := hstop.mpr hkept
    have hsuffix : MotorsStopped (start :: later) :=
      ⟨fun _ => ⟨id, hid⟩, motorsStopped_of_quiet hlater⟩
    have hmem : Event.call id .stopAllMotors ∈ start :: later := List.mem_cons_of_mem start hid
    exact .append_of_stop (List.mem_append_right before hmem) (.append_of_stop hmem hsuffix)

theorem MotorsStopped.of_quiet {s t : System} (hstopped : MotorsStopped s.trace.toList)
    (h : Grows (fun e => e.startsMotors = false) s t) : MotorsStopped t.trace.toList := by
  obtain ⟨events, htrace, hevents⟩ := h.trace
  rw [htrace]
  exact hstopped.append (motorsStopped_of_quiet hevents)

/-- More events after a movement change nothing about it, as long as they neither start nor stop
motors. -/
theorem Spins.append {s t u : System} (h : Spins time s t)
    (hu : Appends events t u)
    (hevents : ∀ e ∈ events, e.startsMotors = false ∧ ∀ id, e ≠ .call id .stopAllMotors) :
    Spins time s u := by
  refine ⟨h.grows.trans (hu.grows fun _ _ => trivial), ?_⟩
  obtain ⟨before, start, later, htrace, hstart, hlater, hstop⟩ := h.trace
  refine ⟨before, start, later ++ events, ?_, hstart, ?_, ?_⟩
  · rw [hu.trace, htrace]
    simp only [List.append_assoc, List.cons_append]
  · intro e he
    rcases List.mem_append.mp he with he | he
    · exact hlater e he
    · exact (hevents e he).1
  · rw [← hstop]
    constructor
    · rintro ⟨id, hid⟩
      rcases List.mem_append.mp hid with hid | hid
      · exact ⟨id, hid⟩
      · exact absurd rfl ((hevents _ hid).2 id)
    · rintro ⟨id, hid⟩
      exact ⟨id, List.mem_append_left events hid⟩

theorem Spins.prepend {s t u : System}
    (hs : Appends events s t) (h : Spins time t u) : Spins time s u := by
  refine ⟨Grows.trans (hs.grows fun _ _ => trivial) h.grows, ?_⟩
  obtain ⟨before, start, later, htrace, rest⟩ := h.trace
  refine ⟨events ++ before, start, later, ?_, rest⟩
  rw [htrace, hs.trace]
  simp only [List.append_assoc]

/-- An action that runs the motors for a time on a linked robot, and else leaves them alone. -/
def Drives (time : Number) (x : Act α) : Prop :=
  ∀ s : System, s.SendsSucceed →
    (s.Linked → Spins time s (after x s)) ∧
    (¬s.Linked → Grows (fun e => e.startsMotors = false) s (after x s))

theorem after_succeeding (label : String) (body : Act Bool) (s : System) :
    ∃ events, Appends events (after body s) (after (succeeding label body) s) ∧
      ∀ e ∈ events, e.startsMotors = false ∧ ∀ id, e ≠ .call id .stopAllMotors := by
  cases hbody : body.run s with
  | ok a t =>
    have hrun : (succeeding label body).run s = .ok a t := run_handling_of_ok hbody
    rw [after_of_ok hbody, after_of_ok hrun]
    exact ⟨[], ⟨rfl, rfl, rfl, by simp⟩, by simp⟩
  | error failure t =>
    rw [after_of_error hbody]
    cases hint : failure.isInterrupt with
    | true =>
      have hrun : (succeeding label body).run s = .error failure t :=
        run_handling_of_interrupt hbody hint
      rw [after_of_error hrun]
      exact ⟨[], ⟨rfl, rfl, rfl, by simp⟩, by simp⟩
    | false =>
      obtain ⟨u, hprint, hu⟩ := run_emit (.print (label ++ failure.message)) t
      have hrun : (succeeding label body).run s = .ok false u := by
        unfold succeeding
        rw [run_handling_of_failure hbody hint, EStateM.run_bind, print, hprint]
        rfl
      rw [after_of_ok hrun]
      refine ⟨_, hu, ?_⟩
      intro e he
      rw [List.mem_singleton.mp he]
      exact ⟨rfl, fun id h => by cases h⟩

theorem Drives.succeeding (h : Drives time body)
    (label : String) : Drives time (succeeding label body) := by
  intro s hs
  obtain ⟨events, happ, hevents⟩ := after_succeeding label body s
  refine ⟨fun hlinked => ((h s hs).1 hlinked).append happ hevents, fun hlinked => ?_⟩
  exact ((h s hs).2 hlinked).trans (happ.grows fun e he => (hevents e he).1)

theorem drives_whenConnected
    (h : ∀ s : System, s.SendsSucceed → s.controller.connected = true →
      (s.Linked → Spins time s (after body s)) ∧
      (¬s.Linked → Grows (fun e => e.startsMotors = false) s (after body s))) :
    Drives time (whenConnected body) := by
  intro s hs
  cases hconn : s.controller.connected with
  | true =>
    have hafter : after (whenConnected body) s = after body s := by
      unfold whenConnected controller after
      simp [hconn]
    rw [hafter]
    exact h s hs hconn
  | false =>
    have hafter : after (whenConnected body) s = s := by
      unfold whenConnected controller after
      simp [hconn]
    have hlinked : ¬s.Linked := by simp [System.Linked, hconn]
    rw [hafter]
    exact ⟨fun h => absurd h hlinked, fun _ => Grows.refl s⟩

theorem Drives.print_bind {x : Act α} (h : Drives time x) (text : String) :
    Drives time (print text >>= fun _ => x) := by
  intro s hs
  obtain ⟨t, hprint, ht⟩ := run_emit (.print text) s
  have hgrows : Grows (fun e => e.startsMotors = false) s t :=
    ht.grows (by simp [Event.startsMotors])
  have hafter : after (print text >>= fun _ => x) s = after x t := by
    unfold after
    rw [EStateM.run_bind, print, hprint]
  rw [hafter]
  refine ⟨fun hlinked => .prepend ht ((h t (hs.of_grows hgrows)).1 (ht.linked_iff.mpr hlinked)), ?_⟩
  intro hlinked
  refine hgrows.trans ((h t (hs.of_grows hgrows)).2 fun hlinked' => ?_)
  exact hlinked (ht.linked_iff.mp hlinked')

theorem Drives.bind_pure {x : Act α} (h : Drives time x) {β : Type} (b : β) :
    Drives time (x >>= fun _ => pure b) := by
  intro s hs
  rw [after_bind_pure]
  exact h s hs

/-- The steps of a movement: a packet that starts motors, a pause, and a request to stop. -/
theorem spins_motion {s : System}
    (hstart : ∀ id, (Event.send id packet).startsMotors = true) (hs : s.SendsSucceed)
    (hid : s.controller.client = some id) :
    Spins time s (after (send packet >>= fun _ => runMotors time false) s) := by
  obtain ⟨t, hsend, ht⟩ : ∃ t, (send packet).run s = .ok () t ∧ Appends [.send id packet] s t :=
    run_send hs hid
  obtain ⟨u, hu, hpause⟩ := run_pause time t
  have hst : t.SendsSucceed := hs.of_grows (P := fun _ => True) (ht.grows fun _ _ => trivial)
  rw [hst.pauseCut?_eq] at hpause
  have hstu : Appends [.send id packet, .sleep time] s u := ht.trans hu
  cases hfail : pauseFailure? time with
  | some failure =>
    -- a refused pause ends the movement right there, ahead of the request to stop
    have hrun : (send packet >>= fun _ => runMotors time false).run s = .error failure u := by
      rw [hfail] at hpause
      simp only [EStateM.run_bind, hsend, runMotors]
      simp [hpause]
    rw [after_of_error hrun]
    refine ⟨hstu.grows fun _ _ => trivial, [], _, [.sleep time], hstu.trace, hstart id, ?_, ?_⟩
    · simp [Event.startsMotors]
    · simp [hfail]
  | none =>
    have hid' : u.controller.client = some id := by rw [hstu.controller, hid]
    have hafter : after (send packet >>= fun _ => runMotors time false) s =
        after (request .stopAllMotors) u := by
      rw [hfail] at hpause
      unfold after
      simp only [EStateM.run_bind, hsend, runMotors]
      simp [hpause]
    have hall := hstu.trans (after_request (r := .stopAllMotors) (fun h => by cases h) hid')
    rw [hafter]
    refine ⟨hall.grows fun _ _ => trivial, [], _, [.sleep time, .call id .stopAllMotors],
      hall.trace, hstart id, ?_, ?_⟩
    · simp [Event.startsMotors]
    · simp [hfail]

theorem drives_movement (label : String) (time : Number)
    (hstart : ∀ id, (Event.send id packet).startsMotors = true) :
    Drives time (whenConnected <| succeeding label do
      send packet
      runMotors time false
      return true) := by
  have hbody : ∀ s, after (do send packet; runMotors time false; return true : Act Bool) s =
      after (send packet >>= fun _ => runMotors time false) s := by
    intro s
    have hassoc : (do send packet; runMotors time false; return true : Act Bool) =
        (send packet >>= fun _ => runMotors time false) >>= fun _ => pure true :=
      (bind_assoc _ _ _).symm
    rw [hassoc, after_bind_pure]
  refine drives_whenConnected fun s hs hconn => ?_
  obtain ⟨events, happ, hevents⟩ :=
    after_succeeding label (do send packet; runMotors time false; return true) s
  rw [hbody s] at happ
  cases hid : s.controller.client with
  | some id =>
    have hlinked : s.Linked := ⟨hconn, by rw [hid]; rfl⟩
    exact ⟨fun _ => (spins_motion hstart hs hid).append happ hevents, fun h => absurd hlinked h⟩
  | none =>
    -- there is no client to send through, so nothing is sent
    have hlinked : ¬s.Linked := by simp [System.Linked, hid]
    have hrun : (send packet >>= fun _ => runMotors time false).run s =
        .error (.noClient "conn") s := by
      unfold send clientFor controller
      simp only [EStateM.run_bind, EStateM.run_get, EStateM.run_pure, hid]
      rfl
    rw [after_of_error hrun] at happ
    exact ⟨fun h => absurd h hlinked, fun _ => happ.grows fun e he => (hevents e he).1⟩

/-- What an action does to the motors: it runs them for a time, or leaves them alone. -/
def Moves : Option Number → Act α → Prop
  | some time, x => Drives time x
  | none, x => quiet.Holds x

theorem Moves.sendsSucceed {time : Option Number} {x : Act α} {s : System} (hx : Moves time x)
    (hs : s.SendsSucceed) : (after x s).SendsSucceed := by
  cases time with
  | none => exact hs.of_grows (Grows.of_quiet hx s)
  | some time =>
    by_cases hlinked : s.Linked
    · exact hs.of_grows ((hx s hs).1 hlinked).grows
    · exact hs.of_grows ((hx s hs).2 hlinked)

/-- Motors that stood still before an action stand still after it exactly if the robot is out of
reach or the pause is accepted. -/
theorem Moves.motorsStopped_iff {time : Option Number} {x : Act α} {s : System} (hx : Moves time x)
    (hs : s.SendsSucceed) (hstopped : MotorsStopped s.trace.toList) :
    MotorsStopped (after x s).trace.toList ↔
      (s.Linked → ∀ seconds, time = some seconds → pauseFailure? seconds = none) := by
  cases time with
  | none => simpa using hstopped.of_quiet (Grows.of_quiet hx s)
  | some time =>
    by_cases hlinked : s.Linked
    · simpa [hlinked] using ((hx s hs).1 hlinked).motorsStopped_iff
    · simpa [hlinked] using hstopped.of_quiet ((hx s hs).2 hlinked)

theorem Moves.succeeding {time : Option Number} (h : Moves time body)
    (label : String) : Moves time (succeeding label body) := by
  cases time with
  | some time => exact Drives.succeeding h label
  | none => exact keeps_succeeding (c := quiet) h

theorem Moves.whenConnected {time : Option Number} (h : Moves time body) :
    Moves time (whenConnected body) := by
  cases time with
  | some time => exact drives_whenConnected fun s hs _ => h s hs
  | none => exact holds_whenConnected h

theorem Moves.print_bind {time : Option Number} {x : Act α} (h : Moves time x) (text : String) :
    Moves time (print text >>= fun _ => x) := by
  cases time with
  | some time => exact Drives.print_bind h text
  | none => exact (keeps_print text).bind fun _ => h

/-- A calculation that consults no state: it yields a value or fails, and does nothing else. -/
def Settles (x : Act α) : Option α → Prop
  | some a => x = pure a
  | none => ∃ failure, x = throw failure

theorem Settles.map {β : Type} {x : Act α} {value : Option α} (hx : Settles x value) (g : α → β) :
    Settles (x >>= fun a => pure (g a)) (value.map g) := by
  cases value with
  | some a =>
    rw [show x = pure a from hx, pure_bind]
    rfl
  | none =>
    obtain ⟨failure, hfail⟩ := hx
    exact ⟨failure, by rw [hfail]; rfl⟩

theorem settles_calculate (result : Except NumberError α) :
    Settles (calculate result) result.toOption := by
  cases result with
  | ok a => rfl
  | error cause => exact ⟨_, rfl⟩

/-- A calculation ahead of a movement decides for how long the motors run, if at all. -/
theorem Moves.bind_map {β γ : Type} {x : Act β} {value : Option γ} {g : γ → β}
    {time : γ → Option Number} {f : β → Act α} (hx : Settles x (value.map g))
    (hf : ∀ c, Moves (time c) (f (g c))) : Moves (value.bind time) (x >>= f) := by
  cases value with
  | some c =>
    rw [show x = pure (g c) from hx, pure_bind]
    exact hf c
  | none =>
    obtain ⟨failure, hfail⟩ := hx
    have hstop : (throw failure >>= f : Act α) = throw failure := rfl
    rw [hfail, hstop]
    exact quiet_throw failure

theorem Moves.bind {β : Type} {x : Act β} {value : Option β} {time : β → Option Number}
    {f : β → Act α} (hx : Settles x value) (hf : ∀ b, Moves (time b) (f b)) :
    Moves (value.bind time) (x >>= f) :=
  Moves.bind_map (g := id) (by simpa using hx) hf

theorem drives_driveWheels {left right : Number} {l r : Float} (hleft : left.toReal = .ok l)
    (hright : right.toReal = .ok r) (time : Number) :
    Drives time (driveWheels left right time false) := by
  unfold driveWheels
  rw [hleft, hright]
  exact drives_movement "Error driving wheels: " time fun _ => rfl

theorem drives_moveLift (speed : Float) (time : Number) :
    Drives time (moveLift (.real speed) time false) :=
  drives_movement "Error moving lift: " time fun _ => rfl

theorem moves_moveForward (distance speed : Float) :
    Moves (((Number.real distance).divide (.real speed)).toOption.map .real)
      (moveForward (.real distance) (.real speed) false) := by
  unfold moveForward
  rw [Option.map_eq_bind]
  refine Moves.bind (settles_calculate _) fun duration => ?_
  have hdrives : Moves (some (.real duration))
      (driveWheels (.real speed) (.real speed) (.real duration) false) :=
    drives_driveWheels rfl rfl _
  exact hdrives.print_bind _

/-- A turn takes a second for every quarter of a circle, whichever way it goes. -/
theorem moves_turnInPlace (degrees : Float) :
    Moves (((Number.real degrees).size.divide (.real 90.0)).toOption.map .real)
      (turnInPlace (.real degrees) false) := by
  unfold turnInPlace
  refine Moves.whenConnected (Moves.succeeding ?_ _)
  rw [Option.map_eq_bind]
  refine Moves.bind (settles_calculate _) fun duration => ?_
  have hdrives : Moves (some (.real duration)) (do
      let speed : Int := if (Number.real degrees).isPositive then 100 else -100
      let _ ← driveWheels (.int (-speed)) (.int speed) (.real duration) false
      return true) := by
    refine Drives.bind_pure ?_ true
    cases (Number.real degrees).isPositive with
    | true => exact drives_driveWheels rfl rfl _
    | false => exact drives_driveWheels rfl rfl _
  exact hdrives.print_bind _

end RobotConsole.Robot

namespace RobotConsole.Console

open Command (Setting Options Verb)
open Robot Contract

/-! ## Commands -/

/-- The value of an option as a double. -/
def doubleOf? : Setting → Option Float
  | .absent => none
  | .flag b => some (if b then 1.0 else 0.0)
  | .int n => (Number.int n).toReal.toOption
  | .real x => some x
  | .text s => (Decimal.readFloat s).toOption

/-- For how many seconds a command runs wheels or lift, as far as its arguments and options tell:
the quotient of distance and speed, a second for a quarter turn, or the duration that is given. -/
def motionTime? (c : Command) : Option Number := do
  let option := optionOf c.verb c.options
  match c.verb with
  | .move =>
    let distance ← (Decimal.readFloat (← c.args[0]?)).toOption
    let speed ← doubleOf? (option "speed")
    ((Number.real distance).divide (.real speed)).toOption.map .real
  | .turn =>
    let degrees ← (Decimal.readFloat (← c.args[0]?)).toOption
    ((Number.real degrees).size.divide (.real 90.0)).toOption.map .real
  | .lift =>
    let _ ← (Decimal.readFloat (← c.args[0]?)).toOption
    (doubleOf? (option "duration")).map .real
  | _ => none

theorem settles_argumentAt (args : List String) (position : Nat) :
    Settles (argumentAt args position) args[position]? := by
  unfold argumentAt
  cases args[position]? with
  | some text => rfl
  | none => exact ⟨_, rfl⟩

theorem settles_realNumber (text : String) :
    Settles (realNumber text) ((Decimal.readFloat text).toOption.map .real) := by
  unfold realNumber
  cases Decimal.readFloat text with
  | ok x => rfl
  | error cause => exact ⟨_, rfl⟩

theorem settles_realSetting (value : Setting) :
    Settles (realSetting value) ((doubleOf? value).map .real) := by
  cases value with
  | absent => exact ⟨_, rfl⟩
  | flag b => rfl
  | int n => exact (settles_calculate _).map Number.real
  | real x => rfl
  | text s => exact settles_realNumber s

/-- What a command does to the motors is told by its arguments and options. -/
theorem moves_carryOut (c : Command)
    (hasync : movesMotors c.verb = true → (optionOf c.verb c.options "async").isSet = false) :
    Moves (motionTime? c) (carryOut c.verb c.args c.options) := by
  obtain ⟨verb, args, options⟩ := c
  cases hverb : movesMotors verb with
  | false =>
    have htime : motionTime? ⟨verb, args, options⟩ = none := by
      cases verb <;> first | rfl | cases hverb
    rw [htime]
    exact quiet_carryOut verb args options hverb
  | true =>
    have hoption : (optionOf verb options "async").isSet = false := hasync hverb
    unfold motionTime? carryOut
    dsimp only
    cases verb with
    | move =>
      rw [hoption]
      refine Moves.bind (settles_argumentAt args 0) fun text => ?_
      refine Moves.bind_map (settles_realNumber text) fun distance => ?_
      refine Moves.bind_map (settles_realSetting _) fun speed => ?_
      exact moves_moveForward _ _
    | turn =>
      rw [hoption]
      refine Moves.bind (settles_argumentAt args 0) fun text => ?_
      refine Moves.bind_map (settles_realNumber text) fun degrees => ?_
      exact moves_turnInPlace _
    | lift =>
      rw [hoption]
      refine Moves.bind (settles_argumentAt args 0) fun text => ?_
      refine Moves.bind_map (settles_realNumber text) fun speed => ?_
      rw [Option.map_eq_bind]
      exact Moves.bind_map (settles_realSetting _) fun duration => drives_moveLift _ _
    | _ => cases hverb

theorem moves_execute (c : Command)
    (hasync : movesMotors c.verb = true → (optionOf c.verb c.options "async").isSet = false) :
    Moves (motionTime? c) (execute c) := by
  unfold execute executeNamed
  rw [Verb.ofName?_name]
  exact (moves_carryOut c hasync).print_bind _

/-- The system after commands have been executed in order, whatever came of each. -/
def afterAll : List Command → System → System
  | [], s => s
  | c :: rest, s => afterAll rest (after (execute c) s)

/-- Whether the motors stand still after each of a sequence of synchronous commands: they do exactly
if every pause of a movement that reaches the robot is accepted. A negative distance makes for a
pause that is not. -/
theorem motors_stopped_iff_pauses_kept (commands : List Command) (s : System) (hs : s.SendsSucceed)
    (hstopped : MotorsStopped s.trace.toList)
    (hasync : ∀ c ∈ commands, movesMotors c.verb = true →
      (optionOf c.verb c.options "async").isSet = false) :
    (∀ n, MotorsStopped (afterAll (commands.take n) s).trace.toList) ↔
      ∀ n c, commands[n]? = some c → (afterAll (commands.take n) s).Linked →
        ∀ seconds, motionTime? c = some seconds → pauseFailure? seconds = none := by
  induction commands generalizing s with
  | nil => simpa [afterAll] using hstopped
  | cons c rest ih =>
    have hmoves : Moves (motionTime? c) (execute c) :=
      moves_execute c (hasync c List.mem_cons_self)
    have hrest : ∀ c ∈ rest, movesMotors c.verb = true →
        (optionOf c.verb c.options "async").isSet = false :=
      fun c hc => hasync c (List.mem_cons_of_mem _ hc)
    have hstep := hmoves.motorsStopped_iff hs hstopped
    -- the first command decides the prefix of length one; longer prefixes start after it
    constructor
    · intro hall n c' hc'
      have hnext : MotorsStopped (after (execute c) s).trace.toList := hall 1
      cases n with
      | zero =>
        cases hc'
        exact hstep.mp hnext
      | succ n =>
        exact (ih _ (hmoves.sendsSucceed hs) hnext hrest).mp (fun n => hall (n + 1)) n c' hc'
    · intro hall n
      have hnext : MotorsStopped (after (execute c) s).trace.toList := hstep.mpr (hall 0 c rfl)
      cases n with
      | zero => exact hstopped
      | succ n =>
        exact (ih _ (hmoves.sendsSucceed hs) hnext hrest).mpr
          (fun n c' hc' => hall (n + 1) c' hc') n

/-- A linked robot to which nothing has been sent yet. -/
def freshSystem : System where
  world := { clock := 0, directory := { root := "/", names := [] } }
  files := []
  controller := { client := some 0, connected := true }
  clients := #[{}]

theorem freshSystem_sendsSucceed : freshSystem.SendsSucceed := by
  refine ⟨rfl, fun _ h => (by cases h), ?_, fun _ => rfl⟩
  intro id client hclient
  cases id with
  | zero =>
    cases hclient
    rfl
  | succ id => cases hclient

/-- Driving backward by a negative distance is accepted, and leaves the wheels running. -/
theorem motors_left_running_by_move_back :
    ∃ c, Command.parse "move -100" = .ok (some c) ∧ freshSystem.Linked ∧
      ¬∀ n, MotorsStopped (afterAll ([c].take n) freshSystem).trace.toList := by
  have hread : ((Command.parse "move -100").toOption.bind id).any (fun c =>
      decide ((optionOf c.verb c.options "async").isSet = false ∧
        (motionTime? c).bind pauseFailure? = some .pauseNegative)) = true := by decide +kernel
  have hlinked : freshSystem.Linked := by decide
  cases hparse : Command.parse "move -100" with
  | error cause =>
    rw [hparse] at hread
    cases hread
  | ok result =>
    rw [hparse] at hread
    cases result with
    | none => cases hread
    | some c =>
      obtain ⟨hset, hrefused⟩ := of_decide_eq_true hread
      obtain ⟨seconds, htime, hfail⟩ := Option.bind_eq_some_iff.mp hrefused
      have hasync : ∀ c' ∈ [c], movesMotors c'.verb = true →
          (optionOf c'.verb c'.options "async").isSet = false := by
        intro c' hc' _
        rw [List.mem_singleton.mp hc']
        exact hset
      refine ⟨c, rfl, hlinked, fun hall => ?_⟩
      have hkept : pauseFailure? seconds = none :=
        (motors_stopped_iff_pauses_kept [c] freshSystem freshSystem_sendsSucceed trivial
          hasync).mp hall 0 c rfl hlinked seconds htime
      rw [hfail] at hkept
      cases hkept

end RobotConsole.Console
