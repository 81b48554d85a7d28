import RobotConsole.Proofs.Console.Agreement
import RobotConsole.Proofs.Robot.Calls

/-!
# Attempts to connect

How an attempt to connect goes follows from which of its calls fail, whether its client is gone once
it has connected, and what the client reports (`Behaviour.course`). All of that is planned: a world
and the calls made so far (`Ledger`) determine how the next attempt behaves, and the attempt makes
exactly the calls of its course (`ends_attemptConnection`). Connecting therefore stops at the first
healthy attempt, and what it does on the way is known to the event.
-/

namespace RobotConsole.Robot

open Contract

/-! ## How attempts behave -/

/-- The calls of an attempt that may fail, in their order. -/
inductive Call where
  | creation
  | start
  | connect
  | handler
  | head
  | cliffHandler
  | cliffSend
  deriving Repr, DecidableEq

namespace Call

/-- The name of a call, by which faults are planned. -/
def name : Call → String
  | .creation => "Client"
  | .start => "start"
  | .connect => "connect"
  | .handler | .cliffHandler => "add_handler"
  | .head => "set_head_angle"
  | .cliffSend => "send"

/-- How many calls of the same name an attempt has made before. -/
def earlier : Call → Nat
  | .cliffHandler => 1
  | _ => 0

/-- Whether a call is made for the edges of tables only. -/
def isForCliffs : Call → Bool
  | .cliffHandler | .cliffSend => true
  | _ => false

/-- All calls. -/
def all : List Call :=
  [.creation, .start, .connect, .handler, .head, .cliffHandler, .cliffSend]

theorem mem_all (call : Call) : call ∈ all := by
  cases call <;> decide

theorem name_ne_sleep (call : Call) : call.name ≠ "sleep" := by
  cases call <;> decide

theorem eq_of_earlier {c d : Call} (hname : c.name = d.name) (hearlier : c.earlier = d.earlier) :
    c = d := by
  revert hname hearlier
  cases c <;> cases d <;> decide

end Call

/-- How an attempt to connect behaves: which of its calls fail, whether the client is gone once it
has connected, and what it reports. -/
structure Behaviour where
  raises : Call → Bool
  vanishes : Bool
  serial : Number
  battery : Number

/-- How an attempt to connect goes. -/
inductive Course where
  | fails (call : Call)
  | vanishes
  /-- The client reports no robot, and is stopped. -/
  | released
  | healthy
  deriving Repr, DecidableEq

/-- Whether an attempt ends with a failure. -/
def Course.isFailure : Course → Bool
  | .fails _ => true
  | _ => false

namespace Behaviour

/-- An attempt is healthy if no call fails that it makes, its client stays, and there is a robot
behind it. -/
structure Healthy (cliff : Bool) (b : Behaviour) : Prop where
  calls : ∀ call, (call.isForCliffs = true → cliff = true) → b.raises call = false
  stays : b.vanishes = false
  serial : b.serial.isZero = false
  battery : b.battery.isZero = false

/-- How an attempt goes that behaves so, with or without the calls for edges. -/
def course (cliff : Bool) (b : Behaviour) : Course :=
  if b.raises .creation then .fails .creation
  else if b.raises .start then .fails .start
  else if b.raises .connect then .fails .connect
  else if b.vanishes then .vanishes
  else if b.raises .handler then .fails .handler
  else if b.serial.isZero then .released
  else if b.battery.isZero then .released
  else if b.raises .head then .fails .head
  else if cliff && b.raises .cliffHandler then .fails .cliffHandler
  else if cliff && b.raises .cliffSend then .fails .cliffSend
  else .healthy

/-- A course that ends well has passed each point at which it could have ended otherwise. -/
theorem healthy_of_ite {p : Bool} {c rest : Course} (h : (if p then c else rest) = .healthy)
    (hc : c ≠ .healthy) : p = false ∧ rest = .healthy := by
  cases p with
  | true => exact absurd h hc
  | false => exact ⟨rfl, h⟩

theorem course_eq_healthy_iff (cliff : Bool) (b : Behaviour) :
    b.course cliff = .healthy ↔ b.Healthy cliff := by
  constructor
  · intro h
    unfold course at h
    obtain ⟨hcreation, h⟩ := healthy_of_ite h (by decide)
    obtain ⟨hstart, h⟩ := healthy_of_ite h (by decide)
    obtain ⟨hconnect, h⟩ := healthy_of_ite h (by decide)
    obtain ⟨hstays, h⟩ := healthy_of_ite h (by decide)
    obtain ⟨hhandler, h⟩ := healthy_of_ite h (by decide)
    obtain ⟨hserial, h⟩ := healthy_of_ite h (by decide)
    obtain ⟨hbattery, h⟩ := healthy_of_ite h (by decide)
    obtain ⟨hhead, h⟩ := healthy_of_ite h (by decide)
    obtain ⟨hcliffHandler, h⟩ := healthy_of_ite h (by decide)
    obtain ⟨hcliffSend, -⟩ := healthy_of_ite h (by decide)
    refine ⟨fun call hcliff => ?_, hstays, hserial, hbattery⟩
    cases call with
    | creation => exact hcreation
    | start => exact hstart
    | connect => exact hconnect
    | handler => exact hhandler
    | head => exact hhead
    | cliffHandler =>
      rw [hcliff rfl] at hcliffHandler
      exact hcliffHandler
    | cliffSend =>
      rw [hcliff rfl] at hcliffSend
      exact hcliffSend
  · intro h
    have hcall (call : Call) (hcall : call.isForCliffs = false) : b.raises call = false :=
      h.calls call fun hcliff => by rw [hcall] at hcliff; cases hcliff
    have hcliff {call : Call} : (cliff && b.raises call) = false := by
      cases cliff with
      | false => rfl
      | true => exact h.calls call fun _ => rfl
    unfold course
    simp only [hcall .creation rfl, hcall .start rfl, hcall .connect rfl, hcall .handler rfl,
      hcall .head rfl, h.stays, h.serial, h.battery, hcliff, Bool.false_eq_true, if_false]

instance (cliff : Bool) (b : Behaviour) : Decidable (b.Healthy cliff) :=
  decidable_of_iff _ (course_eq_healthy_iff cliff b)

end Behaviour

/-! ## The calls of an attempt -/

/-- The call that an event is, by its name. -/
def Event.callName? : Event → Option String
  | .create _ => some "Client"
  | .call _ r => some r.name
  | .send _ _ => some "send"
  | _ => none

theorem Event.callName?_ne_sleep (e : Event) : e.callName? ≠ some "sleep" := by
  cases e with
  | call _ r => cases r <;> simp [Event.callName?, Request.name]
  | _ => simp [Event.callName?]

/-- The client that an event brings into being. -/
def Event.created? : Event → Option ClientId
  | .create id => some id
  | _ => none

/-- The length of the pause that an event is. -/
def Event.slept? : Event → Option Number
  | .sleep seconds => some seconds
  | _ => none

/-- What an attempt does with its client until it is through, apart from what it prints. -/
def attemptPath (id : ClientId) : List Event :=
  [.create id, .call id .start, .call id .connect, .sleep (.int 3),
    .call id (.addHandler .robotState), .sleep (.int 1),
    .call id (.setHeadAngle (.real 0.17)), .sleep (.real 0.5),
    .call id (.addHandler .cliff), .send id (.stopOnCliff true)]

namespace Course

/-- How far an attempt gets. -/
def length (cliff : Bool) : Course → Nat
  | .fails .creation => 1
  | .fails .start => 2
  | .fails .connect => 3
  | .vanishes => 4
  | .fails .handler => 5
  | .released => 6
  | .fails .head => 7
  | .fails .cliffHandler => 9
  | .fails .cliffSend => 10
  | .healthy => if cliff then 10 else 8

/-- What an attempt does, apart from what it prints: it goes along its path as far as it gets, and
stops a client that reports no robot. -/
def steps (cliff : Bool) (id : ClientId) (c : Course) : List Event :=
  (attemptPath id).take (c.length cliff) ++ if c = .released then [.call id .stop] else []

/-- How many clients an attempt makes. -/
def created : Course → Nat
  | .fails .creation => 0
  | _ => 1

theorem created?_steps (cliff : Bool) (id : ClientId) (c : Course) :
    (c.steps cliff id).filterMap Event.created? = [id] := by
  cases c with
  | fails call => cases call <;> rfl
  | healthy => cases cliff <;> rfl
  | vanishes => rfl
  | released => rfl

theorem stops?_steps (cliff : Bool) (id : ClientId) (c : Course) :
    (c.steps cliff id).filterMap Event.stops? = if c = .released then [id] else [] := by
  cases c with
  | fails call => cases call <;> rfl
  | healthy => cases cliff <;> rfl
  | vanishes => rfl
  | released => rfl

theorem slept?_steps (cliff : Bool) (id : ClientId) (c : Course) :
    (c.steps cliff id).filterMap Event.slept? <+: [.int 3, .int 1, .real 0.5] := by
  have hprefix (count : Nat) : ((attemptPath id).take count).filterMap Event.slept? <+:
      [.int 3, .int 1, .real 0.5] := (List.take_prefix _ _).filterMap _
  unfold steps
  rw [List.filterMap_append]
  split
  · exact (List.append_nil _).symm ▸ hprefix _
  · exact (List.append_nil _).symm ▸ hprefix _

end Course

/-! ## What is planned -/

/-- What the plans of a world are counted by: the clients there have been, and the calls made. -/
structure Ledger where
  created : Nat
  calls : String → Nat

/-- The ledger of a system. Pauses are not in it. -/
def System.ledger (s : System) : Ledger where
  created := s.clients.size
  calls name := if name = "sleep" then 0 else s.callCount name

theorem System.calls_ledger (s : System) {name : String} (h : name ≠ "sleep") :
    s.ledger.calls name = s.callCount name :=
  if_neg h

namespace Ledger

/-- The fault that is planned for a call of the next attempt. -/
def fault? (l : Ledger) (w : World) (call : Call) : Option Fault :=
  w.fault? (if call = .creation then [] else (w.clientAfter l.created).faults) call.name
    (l.calls call.name + call.earlier)

/-- How the next attempt will behave. -/
def prospect (l : Ledger) (w : World) : Behaviour where
  raises call := (l.fault? w call).isSome
  vanishes := (w.clientAfter l.created).vanishes
  serial := (w.clientAfter l.created).serial
  battery := (w.clientAfter l.created).battery

/-- The ledger after an attempt. -/
def next (l : Ledger) (cliff : Bool) (c : Course) : Ledger where
  created := l.created + c.created
  calls name := l.calls name + ((c.steps cliff l.created).filterMap Event.callName?).count name

end Ledger

/-- What an attempt that behaves in one way has in common with one that behaves in another, as far
as it can be told: if no client can be made, there is nothing else to tell. -/
def Behaviour.Agrees (b b' : Behaviour) : Prop :=
  b = b' ∨ b.raises .creation = true ∧ b'.raises .creation = true

theorem Behaviour.Agrees.course {b b' : Behaviour} (h : b.Agrees b') (cliff : Bool) :
    b.course cliff = b'.course cliff := by
  rcases h with rfl | ⟨hb, hb'⟩
  · rfl
  · unfold Behaviour.course
    rw [if_pos hb, if_pos hb']

/-- A world has planned attempts one after the other that behave in these ways. -/
def Ledger.Foresees (w : World) (cliff : Bool) : Ledger → List Behaviour → Prop
  | _, [] => True
  | l, b :: bs => (l.prospect w).Agrees b ∧ (l.next cliff (b.course cliff)).Foresees w cliff bs

/-- A world none of whose planned faults is an interrupt. -/
structure World.Uninterrupted (w : World) : Prop where
  faults : ∀ name fault, Dict.get? w.faults name = some fault → fault.kind ≠ .interrupt
  clients : ∀ count name fault, Dict.get? (w.clientAfter count).faults name = some fault →
    fault.kind ≠ .interrupt

theorem World.Uninterrupted.fault {w : World} (h : w.Uninterrupted) {l : Ledger} {call : Call}
    {fault : Fault} (hfault : l.fault? w call = some fault) :
    fault.failure.isInterrupt = false := by
  apply Fault.isInterrupt_failure
  unfold Ledger.fault? World.fault? at hfault
  rcases Option.or_eq_some_iff.mp hfault with hworld | ⟨-, hown⟩
  · exact h.faults _ _ (Option.filter_eq_some_iff.mp hworld).1
  · have hget := (Option.filter_eq_some_iff.mp hown).1
    split at hget
    · cases hget
    · exact h.clients _ _ _ hget

/-! ## One attempt -/

/-- The events of a system other than what it has printed. -/
def System.events (s : System) : List Event :=
  s.trace.toList.filter fun e => !e.isPrint

/-- What has changed since an attempt began: these events are new, and their calls are counted. -/
structure Underway (s : System) (log : List Event) (t : System) : Prop where
  world : t.world = s.world
  events : t.events = s.events ++ log
  calls : ∀ name, name ≠ "sleep" →
    t.callCount name = s.callCount name + (log.filterMap Event.callName?).count name
  pool : t.controller.pool = s.controller.pool
  cliff : t.controller.cliffEnabled = s.controller.cliffEnabled

namespace Underway

variable {s t : System} {log : List Event}

theorem refl (s : System) : Underway s [] s :=
  ⟨rfl, (List.append_nil _).symm, fun _ _ => rfl, rfl, rfl⟩

theorem print (h : Underway s log t) (text : String) : Underway s log (t.record (.print text)) where
  world := h.world
  events := by
    rw [← h.events]
    unfold System.events
    rw [System.trace_record, List.filter_append]
    exact List.append_nil _
  calls := h.calls
  pool := h.pool
  cliff := h.cliff

theorem sleep (h : Underway s log t) (seconds : Number) :
    Underway s (log ++ [.sleep seconds]) (t.calling (.sleep seconds) "sleep") where
  world := h.world
  events := by
    rw [← List.append_assoc, ← h.events]
    unfold System.events
    rw [System.trace_calling, List.filter_append]
    rfl
  calls name hname := by
    rw [List.filterMap_append, List.filterMap_cons_none rfl, List.filterMap_nil, List.append_nil,
      System.callCount_calling, if_neg hname]
    exact h.calls name hname
  pool := h.pool
  cliff := h.cliff

theorem calling (h : Underway s log t) {e : Event} {name : String} (he : e.callName? = some name) :
    Underway s (log ++ [e]) (t.calling e name) where
  world := h.world
  events := by
    have hprint : e.isPrint = false := by
      cases e <;> first | rfl | cases he
    rw [← List.append_assoc, ← h.events]
    unfold System.events
    rw [System.trace_calling, List.filter_append]
    simp [hprint]
  calls other hother := by
    rw [System.callCount_calling, List.filterMap_append, List.count_append, ← Nat.add_assoc,
      ← h.calls other hother]
    by_cases hname : other = name
    · simp [hname, he]
    · simp [hname, he, Ne.symm hname]
  pool := h.pool
  cliff := h.cliff

/-- Clients, the current client and the flag of a connection may change besides. -/
theorem of_same {u : System} (h : Underway s log t) (hworld : u.world = t.world)
    (htrace : u.trace = t.trace) (hcalls : u.calls = t.calls)
    (hpool : u.controller.pool = t.controller.pool)
    (hcliff : u.controller.cliffEnabled = t.controller.cliffEnabled) : Underway s log u where
  world := hworld.trans h.world
  events := by
    rw [← h.events]
    unfold System.events
    rw [htrace]
  calls name hname := by
    rw [← h.calls name hname]
    unfold System.callCount
    rw [hcalls]
  pool := hpool.trans h.pool
  cliff := hcliff.trans h.cliff

end Underway

/-- The client of an attempt, as it is planned. -/
def System.nextClient (s : System) : Client :=
  s.world.clientAfter s.clients.size

/-- An attempt is under way and has its client. -/
structure Aboard (s : System) (log : List Event) (t : System) : Prop extends Underway s log t where
  clients : t.clients = s.clients.push s.nextClient
  client : t.controller.client = some s.clients.size

namespace Aboard

variable {s t : System} {log : List Event}

theorem found (h : Aboard s log t) : (t.clients[s.clients.size]?).getD {} = s.nextClient := by
  rw [h.clients, Array.getElem?_push_size]
  rfl

theorem print (h : Aboard s log t) (text : String) : Aboard s log (t.record (.print text)) :=
  ⟨h.toUnderway.print text, h.clients, h.client⟩

theorem sleep (h : Aboard s log t) (seconds : Number) :
    Aboard s (log ++ [.sleep seconds]) (t.calling (.sleep seconds) "sleep") :=
  ⟨h.toUnderway.sleep seconds, h.clients, h.client⟩

theorem calling (h : Aboard s log t) {e : Event} {name : String} (he : e.callName? = some name) :
    Aboard s (log ++ [e]) (t.calling e name) :=
  ⟨h.toUnderway.calling he, h.clients, h.client⟩

/-- The fault that comes with a call is the one that was planned for it. -/
theorem fault (h : Aboard s log t) (call : Call) (hcreation : call ≠ .creation)
    (hearlier : (log.filterMap Event.callName?).count call.name = call.earlier) :
    t.world.fault? (t.faultsOf s.clients.size) call.name (t.callCount call.name) =
      s.ledger.fault? s.world call := by
  unfold Ledger.fault? System.faultsOf
  rw [h.found, h.world, h.calls _ call.name_ne_sleep, hearlier, if_neg hcreation,
    s.calls_ledger call.name_ne_sleep]
  rfl

end Aboard

/-- What is left of an attempt when it is over. -/
structure Reached (s : System) (c : Course) (t : System) : Prop
    extends Underway s (c.steps s.controller.cliffEnabled s.clients.size) t where
  created : t.clients.size = s.clients.size + c.created

/-- An attempt ends as its course says. -/
inductive Ends (s : System) : Course → EStateM.Result Failure System Attempt → Prop
  | failed {call : Call} {e : Failure} {t : System} : e.isInterrupt = false →
      Reached s (.fails call) t → Ends s (.fails call) (.error e t)
  | vanished {t : System} : Reached s .vanishes t → Ends s .vanishes (.ok .rejected t)
  | released {t : System} : Reached s .released t → Ends s .released (.ok .rejected t)
  | healthy {t : System} : Reached s .healthy t → t.controller.connected = true →
      t.controller.client = some s.clients.size → Ends s .healthy (.ok .connected t)

theorem Aboard.reached {s t : System} {log : List Event} (h : Aboard s log t) {c : Course}
    (hlog : log = c.steps s.controller.cliffEnabled s.clients.size) (hcreated : c.created = 1) :
    Reached s c t :=
  ⟨hlog ▸ h.toUnderway, by rw [h.clients, Array.size_push, hcreated]⟩

section Parts

variable {s t : System} {log : List Event} {rest : Course} {f : Unit → Act Attempt}

theorem ends_of_callResult (hplan : s.world.Uninterrupted) {call : Call} {u : System}
    {x : Act Unit} (hx : x.run t = callResult (s.ledger.fault? s.world call) u)
    (hfails : Reached s (.fails call) u) (hrest : Ends s rest ((f ()).run u)) :
    Ends s (if (s.ledger.prospect s.world).raises call then .fails call else rest)
      ((x >>= f).run t) := by
  show Ends s (if (s.ledger.fault? s.world call).isSome then .fails call else rest) _
  rw [EStateM.run_bind, hx]
  cases hfault : s.ledger.fault? s.world call with
  | some fault => exact .failed (hplan.fault hfault) hfails
  | none => exact hrest

theorem ends_request (hplan : s.world.Uninterrupted) (h : Aboard s log t) {r : Request}
    (hr : r ≠ .connect) {call : Call} (hname : r.name = call.name) (hcreation : call ≠ .creation)
    (hearlier : (log.filterMap Event.callName?).count call.name = call.earlier)
    (hlog : log ++ [.call s.clients.size r] =
      (Course.fails call).steps s.controller.cliffEnabled s.clients.size)
    (hrest : ∀ u, Aboard s (log ++ [.call s.clients.size r]) u → Ends s rest ((f ()).run u)) :
    Ends s (if (s.ledger.prospect s.world).raises call then .fails call else rest)
      ((request r >>= f).run t) := by
  have hcalling : Aboard s (log ++ [.call s.clients.size r])
      (t.calling (.call s.clients.size r) r.name) := h.calling rfl
  have hrun := run_request_planned hr h.client
  rw [hname, h.fault call hcreation hearlier, ← hname] at hrun
  have hcreated : (Course.fails call).created = 1 := by
    cases call <;> first | rfl | exact absurd rfl hcreation
  exact ends_of_callResult hplan hrun (hcalling.reached hlog hcreated) (hrest _ hcalling)

theorem run_pause_underway (hplan : s.world.Uninterrupted) (h : Underway s log t)
    {seconds : Number} (hpause : pauseFailure? seconds = none) :
    (pause seconds).run t = .ok () (t.calling (.sleep seconds) "sleep") :=
  run_pause_planned hpause fun fault hfault => hplan.faults "sleep" fault (h.world ▸ hfault)

theorem ends_pause (hplan : s.world.Uninterrupted) (h : Aboard s log t) {seconds : Number}
    (hpause : pauseFailure? seconds = none)
    (hrest : ∀ u, Aboard s (log ++ [.sleep seconds]) u → Ends s rest ((f ()).run u)) :
    Ends s rest ((pause seconds >>= f).run t) := by
  rw [EStateM.run_bind, run_pause_underway hplan h.toUnderway hpause]
  exact hrest _ (h.sleep seconds)

/-- A client that reports no robot is stopped, whatever comes of that. -/
theorem ends_released (hidle : s.controller.pool.tracked = []) (h : Aboard s log t)
    (hlog : log ++ [.call s.clients.size .stop] =
      Course.released.steps s.controller.cliffEnabled s.clients.size) (text : String) :
    Ends s .released ((do print text; disconnect; return .rejected : Act Attempt).run t) := by
  let u := (t.record (.print text)).calling (.call s.clients.size .stop) "stop"
  have hprinted : Aboard s log (t.record (.print text)) := h.print text
  have hu : Aboard s (log ++ [.call s.clients.size .stop]) u := hprinted.calling rfl
  have hstop : (regardless (request .stop)).run (t.record (.print text)) = .ok () u := by
    unfold regardless
    rw [run_tryCatch, run_request_planned (fun hr => by cases hr) hprinted.client]
    unfold callResult
    cases World.fault? _ _ _ _ <;> rfl
  -- without tasks there is nothing to wait for, so the stop is the only call
  have hawait : (awaitTasks releaseTimeout).run (t.record (.print text)) =
      .ok () (t.record (.print text)) := by
    have htracked : (t.record (.print text)).controller.pool.tracked = [] := by
      rw [hprinted.pool, hidle]
    unfold awaitTasks controller
    simp only [EStateM.run_bind, EStateM.run_get, EStateM.run_pure, htracked, List.isEmpty_nil,
      if_true]
  have hhangUp : hangUp.run (t.record (.print text)) = .ok () u.closed := by
    unfold hangUp controller
    simp only [EStateM.run_bind, EStateM.run_get, EStateM.run_pure, hprinted.client,
      Option.isSome_some, if_true, hstop]
    rfl
  have hrun : (do print text; disconnect; return .rejected : Act Attempt).run t =
      .ok .rejected u.closed := by
    rw [disconnect_eq]
    unfold print
    simp only [EStateM.run_bind, run_emit_eq, hawait, hhangUp]
    rfl
  have hreached : Reached s .released u := hu.reached hlog rfl
  have hcleared : Underway s (Course.released.steps s.controller.cliffEnabled s.clients.size)
      { u with controller := { u.controller with client := none, connected := false } } :=
    hreached.toUnderway.of_same rfl rfl rfl rfl rfl
  rw [hrun]
  exact .released ⟨hcleared.print _, hreached.created⟩

theorem ends_reading (h : Aboard s log t) (reading : Client → Number) (member : String)
    {x : Act Attempt} {y : Act Attempt} {c : Course}
    (hzero : Ends s c (x.run t)) (hrest : Ends s rest (y.run t)) :
    Ends s (if (reading s.nextClient).isZero then c else rest)
      ((do if (← clientReading reading member).isZero then x else y : Act Attempt).run t) := by
  rw [EStateM.run_bind, run_clientReading h.client, h.found]
  dsimp only
  split
  · exact hzero
  · exact hrest

theorem ends_cliffs (hplan : s.world.Uninterrupted) (h : Aboard s log t)
    (hlog : log = (attemptPath s.clients.size).take 8)
    (hrest : ∀ log u, log = Course.healthy.steps s.controller.cliffEnabled s.clients.size →
      Aboard s log u → Ends s .healthy ((f ()).run u)) :
    Ends s
      (if s.controller.cliffEnabled && (s.ledger.prospect s.world).raises .cliffHandler then
        .fails .cliffHandler
      else if s.controller.cliffEnabled && (s.ledger.prospect s.world).raises .cliffSend then
        .fails .cliffSend
      else .healthy)
      ((do if (← controller).cliffEnabled then setupCliffDetection
           f () : Act Attempt).run t) := by
  have hflag := h.cliff
  have hsetup : setupCliffDetection.run t =
      (do request (.addHandler .cliff); send (.stopOnCliff true) : Act Unit).run t := by
    unfold setupCliffDetection controller
    simp only [EStateM.run_bind, EStateM.run_get, EStateM.run_pure, h.client, Option.isSome_some,
      if_true]
  unfold controller
  simp only [EStateM.run_bind, EStateM.run_get, EStateM.run_pure, hflag]
  cases hcliff : s.controller.cliffEnabled with
  | false =>
    simp only [Bool.false_and, Bool.false_eq_true, if_false]
    exact hrest log t (by rw [hlog, hcliff]; rfl) h
  | true =>
    -- both calls are steps of the path of an attempt, and either may fail
    subst hlog
    have hboth : (do setupCliffDetection; f ()).run t =
        (do request (.addHandler .cliff); send (.stopOnCliff true); f ()).run t := by
      rw [EStateM.run_bind, hsetup]
      simp only [EStateM.run_bind]
      cases (request (.addHandler .cliff)).run t <;> rfl
    simp only [Bool.true_and, if_true]
    rw [hboth]
    refine ends_request hplan h (fun hr => by cases hr) rfl (by decide) rfl (by rw [hcliff]; rfl)
      fun u hu => ?_
    have hsend : (send (.stopOnCliff true)).run u =
        callResult (s.ledger.fault? s.world .cliffSend)
          (u.calling (.send s.clients.size (.stopOnCliff true)) "send") := by
      rw [run_send_planned _ hu.client]
      exact congrArg (callResult · _) (hu.fault .cliffSend (by decide) rfl)
    have hsent := hu.calling (e := .send s.clients.size (.stopOnCliff true)) rfl
    refine ends_of_callResult hplan hsend (hsent.reached (by rw [hcliff]; rfl) rfl) ?_
    exact hrest _ _ (by rw [hcliff]; rfl) hsent

/-- Numbers that can be written down are announced, and then there is a connection. -/
theorem ends_announce (hlegible : s.nextClient.Legible)
    (hlog : log = Course.healthy.steps s.controller.cliffEnabled s.clients.size)
    (h : Aboard s log t) : Ends s .healthy (announce.run t) := by
  obtain ⟨hserial, text, htext⟩ := hlegible
  let t' := { t with controller := { t.controller with connected := true } }
  have hset : (update fun c => { c with connected := true }).run t = .ok () t' := rfl
  have ht' : Aboard s log t' :=
    ⟨h.toUnderway.of_same rfl rfl rfl rfl rfl, h.clients, h.client⟩
  have hwritten (u : System) : (calculate s.nextClient.serial.written).run u =
      .ok s.nextClient.serial.plain u := by
    rw [written_eq hserial]
    rfl
  have hcalculate (u : System) : (calculate (s.nextClient.battery.fixed 2)).run u = .ok text u := by
    rw [htext]
    rfl
  have hfirst := ht'.print "✓ Connected to Cozmo!"
  have hsecond := hfirst.print s!"   Serial: {s.nextClient.serial.plain}"
  have hthird := (hsecond.print s!"   Battery: {text}V").print
    s!"   Cliff detection: enabled (reaction={t.controller.cliffReaction.name})"
  unfold announce print
  simp only [EStateM.run_bind, hset, run_emit_eq, run_clientReading hfirst.client, hfirst.found,
    run_clientReading hsecond.client, hsecond.found, hwritten, hcalculate]
  exact .healthy (hthird.reached hlog rfl) rfl hthird.client

/-- Either there is a client, which is now the current one, or the attempt is over. -/
theorem ends_createClient (hplan : s.world.Uninterrupted)
    (hrest : (s.ledger.prospect s.world).raises .creation = false →
      ∀ u, Aboard s [.create s.clients.size] u → Ends s rest ((f ()).run u)) :
    Ends s (if (s.ledger.prospect s.world).raises .creation then .fails .creation else rest)
      ((createClient >>= f).run s) := by
  have hcalling : Underway s [.create s.clients.size]
      (s.calling (.create s.clients.size) "Client") := (Underway.refl s).calling rfl
  have hfault : s.world.fault? [] "Client" (s.callCount "Client") =
      s.ledger.fault? s.world .creation :=
    congrArg (s.world.fault? [] "Client") (s.calls_ledger Call.creation.name_ne_sleep).symm
  show Ends s (if (s.ledger.fault? s.world .creation).isSome then _ else rest) _
  rw [EStateM.run_bind, run_createClient_planned, hfault]
  cases hplanned : s.ledger.fault? s.world .creation with
  | some fault => exact .failed (hplan.fault hplanned) ⟨hcalling, rfl⟩
  | none =>
    have hcreated : (s.ledger.prospect s.world).raises .creation = false :=
      congrArg Option.isSome hplanned
    exact hrest hcreated _ ⟨hcalling.of_same rfl rfl rfl rfl rfl, rfl, rfl⟩

theorem ends_requestConnect (hplan : s.world.Uninterrupted)
    (h : Aboard s ((attemptPath s.clients.size).take 2) t)
    (hgone : ∀ u, Reached s (.fails .connect) u → u.controller.client = none →
      Ends s .vanishes ((f ()).run u))
    (hrest : ∀ u, Aboard s ((attemptPath s.clients.size).take 3) u → Ends s rest ((f ()).run u)) :
    Ends s
      (if (s.ledger.prospect s.world).raises .connect then .fails .connect
      else if s.nextClient.vanishes then .vanishes
      else rest)
      ((request .connect >>= f).run t) := by
  have hcalling : Aboard s ((attemptPath s.clients.size).take 3)
      (t.calling (.call s.clients.size .connect) "connect") := h.calling rfl
  have hreached : Reached s (.fails .connect)
      (t.calling (.call s.clients.size .connect) "connect") := hcalling.reached rfl rfl
  have hfault : t.world.fault? (t.faultsOf s.clients.size) "connect" (t.callCount "connect") =
      s.ledger.fault? s.world .connect := h.fault .connect (by decide) rfl
  show Ends s (if (s.ledger.fault? s.world .connect).isSome then _ else _) _
  rw [EStateM.run_bind, run_requestConnect_planned h.client, hfault, h.found]
  cases hplanned : s.ledger.fault? s.world .connect with
  | some fault => exact .failed (hplan.fault hplanned) hreached
  | none =>
    cases s.nextClient.vanishes with
    | true =>
      exact hgone _ ⟨hreached.toUnderway.of_same rfl rfl rfl rfl rfl, hreached.created⟩ rfl
    | false =>
      exact hrest _ ⟨hcalling.toUnderway.of_same rfl rfl rfl rfl rfl, hcalling.clients, rfl⟩

theorem ends_vanished (hplan : s.world.Uninterrupted) (h : Reached s (.fails .connect) t)
    (hnone : t.controller.client = none) : Ends s .vanishes (verifyConnection.run t) := by
  have hthree : pauseFailure? (.int 3) = none := by decide +kernel
  have hpause := run_pause_underway hplan h.toUnderway hthree
  have hclient : (t.calling (.sleep (.int 3)) "sleep").controller.client = none := hnone
  unfold verifyConnection examine controller
  simp only [EStateM.run_bind, hpause, EStateM.run_get, EStateM.run_pure, hclient,
    Option.isNone_none, if_true]
  exact .vanished ⟨(h.toUnderway.sleep (.int 3)).print _, h.created⟩

theorem ends_verifyConnection (hidle : s.controller.pool.tracked = [])
    (hplan : s.world.Uninterrupted) (hlegible : s.nextClient.Legible)
    (h : Aboard s ((attemptPath s.clients.size).take 3) t) :
    Ends s
      (if (s.ledger.prospect s.world).raises .handler then .fails .handler
      else if s.nextClient.serial.isZero then .released
      else if s.nextClient.battery.isZero then .released
      else if (s.ledger.prospect s.world).raises .head then .fails .head
      else if s.controller.cliffEnabled && (s.ledger.prospect s.world).raises .cliffHandler then
        .fails .cliffHandler
      else if s.controller.cliffEnabled && (s.ledger.prospect s.world).raises .cliffSend then
        .fails .cliffSend
      else .healthy)
      (verifyConnection.run t) := by
  unfold verifyConnection examine
  simp only [bind_assoc, apply_ite (· >>= conclude), pure_bind]
  refine ends_pause hplan h (by decide +kernel) fun t₁ h₁ => ?_
  have hclient : controller.run t₁ = .ok t₁.controller t₁ := rfl
  rw [EStateM.run_bind, hclient]
  simp only [h₁.client, Option.isNone_some, Bool.false_eq_true, if_false]
  refine ends_request hplan h₁ (fun hr => by cases hr) rfl (by decide) rfl rfl fun t₂ h₂ => ?_
  refine ends_pause hplan h₂ (by decide +kernel) fun t₃ h₃ => ?_
  refine ends_reading h₃ (·.serial) _ (ends_released hidle h₃ rfl _) ?_
  refine ends_reading h₃ (·.battery) _ (ends_released hidle h₃ rfl _) ?_
  refine ends_request hplan h₃ (fun hr => by cases hr) rfl (by decide) rfl rfl fun t₄ h₄ => ?_
  refine ends_pause hplan h₄ (by decide +kernel) fun t₅ h₅ => ?_
  exact ends_cliffs (f := fun _ => announce) hplan h₅ rfl fun log u => ends_announce hlegible

end Parts

theorem ends_attemptConnection {s : System} (hidle : s.controller.pool.tracked = [])
    (hplan : s.world.Uninterrupted)
    (hlegible : (s.ledger.prospect s.world).raises .creation = false → s.nextClient.Legible) :
    Ends s ((s.ledger.prospect s.world).course s.controller.cliffEnabled)
      (attemptConnection.run s) := by
  rw [attemptConnection_eq]
  refine ends_createClient hplan fun hcreated t ht => ?_
  refine ends_request hplan ht (fun hr => by cases hr) rfl (by decide) rfl rfl fun u hu => ?_
  exact ends_requestConnect hplan hu (fun _ => ends_vanished hplan)
    fun _ => ends_verifyConnection hidle hplan (hlegible hcreated)

/-! ## One attempt after another -/

/-- The pause after an attempt: only a failure is followed by one, unless it was the last attempt.
-/
def Course.retryPause (c : Course) (delay : Number) (left : Nat) : List Event :=
  if c.isFailure && left != 0 then [.sleep delay] else []

theorem callName?_retryPause (c : Course) (delay : Number) (left : Nat) :
    (c.retryPause delay left).filterMap Event.callName? = [] := by
  unfold Course.retryPause
  split <;> rfl

/-- What is left of an attempt, the pause after it included. -/
structure Passed (s : System) (c : Course) (delay : Number) (left : Nat) (t : System) : Prop
    extends Underway s (c.steps s.controller.cliffEnabled s.clients.size ++
      c.retryPause delay left) t where
  created : t.clients.size = s.clients.size + c.created

theorem Passed.ledger {s t : System} {c : Course} {delay : Number} {left : Nat}
    (h : Passed s c delay left t) : t.ledger = s.ledger.next s.controller.cliffEnabled c := by
  have hcalls (name : String) : t.ledger.calls name =
      (s.ledger.next s.controller.cliffEnabled c).calls name := by
    show _ = s.ledger.calls name + List.count name
      ((c.steps s.controller.cliffEnabled s.clients.size).filterMap Event.callName?)
    by_cases hname : name = "sleep"
    · -- there are no pauses among the calls
      have hnone : "sleep" ∉ (c.steps s.controller.cliffEnabled s.clients.size).filterMap
          Event.callName? := fun hmem => by
        obtain ⟨e, -, he⟩ := List.mem_filterMap.mp hmem
        exact e.callName?_ne_sleep he
      rw [hname, List.count_eq_zero_of_not_mem hnone]
      rfl
    · rw [t.calls_ledger hname, s.calls_ledger hname, h.calls name hname, List.filterMap_append,
        callName?_retryPause, List.append_nil]
  exact congr (congrArg Ledger.mk h.created) (funext hcalls)

theorem underway_printLines {s t : System} {log : List Event} (h : Underway s log t)
    (lines : List String) : ∃ u, (lines.forM print).run t = .ok () u ∧ Underway s log u ∧
      u.clients = t.clients := by
  induction lines generalizing t with
  | nil => exact ⟨t, rfl, h, rfl⟩
  | cons line lines ih =>
    obtain ⟨u, hrun, hu, hclients⟩ := ih (h.print line)
    exact ⟨u, hrun, hu, hclients⟩

theorem passed_report {s t : System} (hplan : s.world.Uninterrupted) {call : Call}
    (h : Reached s (.fails call) t) {delay : Number} (hdelay : pauseFailure? delay = none)
    (left : Nat) (failure : Failure) :
    ∃ u, (do print s!"✗ Connection failed: {failure.message}"
             if left == 0 then troubleshooting.forM print else pause delay
             return .rejected : Act Attempt).run t = .ok .rejected u ∧
      Passed s (.fails call) delay left u := by
  have hprinted := h.toUnderway.print s!"✗ Connection failed: {failure.message}"
  unfold print
  simp only [EStateM.run_bind, run_emit_eq]
  cases left with
  | zero =>
    obtain ⟨u, hrun, hu, hclients⟩ := underway_printLines hprinted troubleshooting
    refine ⟨u, ?_, ?_, ?_⟩
    · simp only [beq_self_eq_true, if_true, EStateM.run_bind]
      unfold print at hrun
      rw [hrun]
      rfl
    · show Underway s (_ ++ []) u
      rw [List.append_nil]
      exact hu
    · rw [hclients]
      exact h.created
  | succ left =>
    have hpause := run_pause_underway hplan hprinted hdelay
    refine ⟨_, ?_, hprinted.sleep delay, h.created⟩
    simp only [Nat.add_eq_zero_iff, Nat.one_ne_zero, and_false, beq_iff_eq, if_false,
      EStateM.run_bind, hpause]
    rfl

/-- An attempt with what comes after it: the result says whether it was healthy. -/
theorem run_tryConnection_planned {s : System} (hidle : s.controller.pool.tracked = [])
    (hplan : s.world.Uninterrupted)
    (hlegible : (s.ledger.prospect s.world).raises .creation = false → s.nextClient.Legible)
    {delay : Number} (hdelay : pauseFailure? delay = none) (total : Int) (number left : Nat)
    {c : Course} (hc : (s.ledger.prospect s.world).course s.controller.cliffEnabled = c) :
    ∃ t, (tryConnection total delay number left).run s =
        .ok (if c = .healthy then .connected else .rejected) t ∧ Passed s c delay left t ∧
      (c = .healthy → t.controller.connected = true ∧
        t.controller.client = some s.clients.size) := by
  let noted := s.record (attemptNote total number)
  have hnoted : Underway s [] noted := (Underway.refl s).print _
  have hends : Ends noted c (attemptConnection.run noted) :=
    hc ▸ ends_attemptConnection (s := noted) hidle hplan hlegible
  -- what is said before an attempt is no event that counts
  have hback {c : Course} {t : System} (h : Reached noted c t) : Reached s c t := by
    refine ⟨⟨h.world, ?_, h.calls, h.pool, h.cliff⟩, h.created⟩
    rw [h.events, hnoted.events, List.append_nil]
    rfl
  have hrun : (do print s!"Connecting to Cozmo... (attempt {number}/{total})"
                  attemptConnection : Act Attempt).run s = attemptConnection.run noted := rfl
  have hpassed {c : Course} {t : System} (hcourse : c.isFailure = false) (h : Reached noted c t) :
      Passed s c delay left t := by
    refine ⟨?_, (hback h).created⟩
    unfold Course.retryPause
    rw [hcourse]
    exact (List.append_nil _).symm ▸ (hback h).toUnderway
  unfold tryConnection
  revert hends hrun
  generalize attemptConnection.run noted = result
  intro hends hrun
  cases hends with
  | failed hinterrupt hreached =>
    obtain ⟨u, hreport, hu⟩ := passed_report hplan (hback hreached) hdelay left _
    refine ⟨u, ?_, hu, fun h => by cases h⟩
    rw [run_handling_of_failure hrun hinterrupt]
    exact hreport
  | vanished hreached =>
    exact ⟨_, run_handling_of_ok hrun, hpassed rfl hreached, fun h => by cases h⟩
  | released hreached =>
    exact ⟨_, run_handling_of_ok hrun, hpassed rfl hreached, fun h => by cases h⟩
  | healthy hreached hconnected hclient =>
    exact ⟨_, run_handling_of_ok hrun, hpassed rfl hreached, fun _ => ⟨hconnected, hclient⟩⟩

/-- A behaviour whose serial number and battery voltage can be written down. -/
structure Behaviour.Legible (b : Behaviour) : Prop where
  serial : b.serial.isWritable = true
  battery : ∃ text, b.battery.fixed 2 = .ok text

/-- The numbers that a client takes from the messages of its robot can: a serial number of 32 bits,
and a voltage that is a double. -/
theorem Behaviour.legible_of_reported {b : Behaviour} {serial : UInt32} {volts : Float}
    (hserial : b.serial = .int serial.toNat) (hbattery : b.battery = .real volts) : b.Legible := by
  have hdigits : (Nat.toDigits 10 serial.toNat).length ≤ 10 :=
    (Nat.length_toDigits_le_iff (by decide) (by decide)).mpr
      (Nat.lt_trans serial.toNat_lt (by decide))
  refine ⟨?_, ?_⟩
  · rw [hserial]
    exact decide_eq_true (Nat.le_trans hdigits (by decide))
  · rw [hbattery]
    exact ⟨_, rfl⟩

/-- If a client can be made at all, it is as the behaviour says. -/
theorem Behaviour.Agrees.legible {s : System} {b : Behaviour}
    (h : (s.ledger.prospect s.world).Agrees b) (hb : b.Legible)
    (hcreated : (s.ledger.prospect s.world).raises .creation = false) : s.nextClient.Legible := by
  rcases h with heq | ⟨hfails, -⟩
  · have hserial : s.nextClient.serial = b.serial := congrArg Behaviour.serial heq
    have hbattery : s.nextClient.battery = b.battery := congrArg Behaviour.battery heq
    exact ⟨hserial ▸ hb.serial, hbattery ▸ hb.battery⟩
  · rw [hcreated] at hfails
    cases hfails

/-- What the attempts do, one after the other, until one is healthy. -/
def attemptLogs (cliff : Bool) (delay : Number) : ClientId → List Behaviour → List (List Event)
  | _, [] => []
  | id, b :: bs =>
    ((b.course cliff).steps cliff id ++ (b.course cliff).retryPause delay bs.length) ::
      if b.course cliff = .healthy then []
      else attemptLogs cliff delay (id + (b.course cliff).created) bs

theorem length_attemptLogs (cliff : Bool) (delay : Number) (id : ClientId) (bs : List Behaviour) :
    (attemptLogs cliff delay id bs).length =
      min (bs.findIdx (fun b => decide (b.Healthy cliff)) + 1) bs.length := by
  induction bs generalizing id with
  | nil => rfl
  | cons b bs ih =>
    unfold attemptLogs
    rw [List.findIdx_cons, List.length_cons, List.length_cons]
    by_cases h : b.course cliff = .healthy
    · rw [if_pos h, decide_eq_true ((b.course_eq_healthy_iff cliff).mp h)]
      simp
    · have hunhealthy : ¬b.Healthy cliff := fun hb => h ((b.course_eq_healthy_iff cliff).mpr hb)
      rw [if_neg h, ih, decide_eq_false hunhealthy]
      show min _ _ + 1 = min (_ + 1 + 1) (_ + 1)
      omega

/-- What an attempt does is known from its behaviour, up to the number of its client. -/
theorem getElem?_attemptLogs {cliff : Bool} {delay : Number} {id : ClientId} {bs : List Behaviour}
    {i : Nat} {b : Behaviour} {log : List Event} (hb : bs[i]? = some b)
    (hlog : (attemptLogs cliff delay id bs)[i]? = some log) :
    ∃ id, log = (b.course cliff).steps cliff id ++
      (b.course cliff).retryPause delay (bs.length - (i + 1)) := by
  induction bs generalizing id i with
  | nil => cases hb
  | cons b' bs ih =>
    unfold attemptLogs at hlog
    cases i with
    | zero =>
      cases hb
      cases hlog
      exact ⟨id, by simp⟩
    | succ i =>
      rw [List.getElem?_cons_succ] at hb hlog
      split at hlog
      · cases hlog
      · obtain ⟨id', hlog'⟩ := ih hb hlog
        refine ⟨id', ?_⟩
        rw [hlog', List.length_cons, Nat.add_sub_add_right]

/-- The attempts that are made are those up to the first healthy one. -/
theorem run_connectFrom_planned {delay : Number} (hdelay : pauseFailure? delay = none) (total : Int)
    {bs : List Behaviour} (hlegible : ∀ b ∈ bs, b.Legible) (number : Nat) {s : System}
    (hidle : s.controller.pool.tracked = []) (hplan : s.world.Uninterrupted)
    (hforesees : s.ledger.Foresees s.world s.controller.cliffEnabled bs) :
    ∃ answer t, (connectFrom total delay number bs.length).run s = .ok answer t ∧
      (answer = true ↔ ∃ b ∈ bs, b.Healthy s.controller.cliffEnabled) ∧
      t.events = s.events ++
        (attemptLogs s.controller.cliffEnabled delay s.clients.size bs).flatten ∧
      (answer = true → t.controller.connected = true ∧ ∃ id log,
        (attemptLogs s.controller.cliffEnabled delay s.clients.size bs).getLast? = some log ∧
        log.filterMap Event.created? = [id] ∧ t.controller.client = some id) := by
  induction bs generalizing number s with
  | nil => exact ⟨false, s, rfl, by simp, by simp [attemptLogs], fun h => by cases h⟩
  | cons b bs ih =>
    obtain ⟨hagrees, hrest⟩ := hforesees
    have hcourse := hagrees.course s.controller.cliffEnabled
    have hclient := hagrees.legible (hlegible b List.mem_cons_self)
    obtain ⟨t, hrun, hpassed, hhealthy⟩ :=
      run_tryConnection_planned hidle hplan hclient hdelay total number bs.length hcourse
    have hiff := b.course_eq_healthy_iff s.controller.cliffEnabled
    rw [List.length_cons, connectFrom_succ, EStateM.run_bind, hrun]
    unfold attemptLogs
    by_cases hc : b.course s.controller.cliffEnabled = .healthy
    · obtain ⟨hconnected, hcurrent⟩ := hhealthy hc
      simp only [hc, if_true]
      refine ⟨true, t, rfl, ?_, ?_,
        fun _ => ⟨hconnected, _, _, List.getLast?_singleton, ?_, hcurrent⟩⟩
      · exact iff_of_true rfl ⟨b, List.mem_cons_self, hiff.mp hc⟩
      · have hevents := hpassed.events
        rw [hc] at hevents
        simpa using hevents
      · rw [List.filterMap_append, Course.created?_steps]
        rfl
    · -- the attempt left the plan of the world as it was, so the others go as foreseen
      simp only [hc, if_false]
      have hworld : t.world = s.world := hpassed.world
      have hcliff : t.controller.cliffEnabled = s.controller.cliffEnabled := hpassed.cliff
      have hthere : t.ledger.Foresees t.world t.controller.cliffEnabled bs := by
        rw [hpassed.ledger, hworld, hcliff]
        exact hrest
      obtain ⟨answer, u, hmore, hanswer, hevents, hlast⟩ :=
        ih (fun b' hb' => hlegible b' (List.mem_cons_of_mem b hb')) (number + 1)
          (by rw [hpassed.pool, hidle]) (hworld ▸ hplan) hthere
      rw [hcliff] at hanswer hevents hlast
      rw [hpassed.created] at hevents hlast
      refine ⟨answer, u, hmore, ?_, ?_, ?_⟩
      · have hunhealthy : ¬b.Healthy s.controller.cliffEnabled := fun hb => hc (hiff.mpr hb)
        rw [hanswer]
        simp only [List.mem_cons, exists_eq_or_imp, hunhealthy, false_or]
      · rw [hevents, hpassed.events]
        simp
      · intro hyes
        obtain ⟨hconnected, id, log, hlog, hcreated, hcurrent⟩ := hlast hyes
        refine ⟨hconnected, id, log, ?_, hcreated, hcurrent⟩
        rw [List.getLast?_cons, hlog]
        rfl

/-! ## A world for every sequence of behaviours -/

namespace Behaviour

/-- A fault that comes with those calls of a name that fail in an attempt, and with no other call of
it. -/
def fault (b : Behaviour) (l : Ledger) (name : String) : Fault where
  spared := (Call.all.filter fun call => call.name == name && !b.raises call).map fun call =>
    l.calls name + call.earlier

/-- A client that behaves so in the next attempt. -/
def client (b : Behaviour) (l : Ledger) : Client where
  serial := b.serial
  battery := b.battery
  vanishes := b.vanishes
  faults := ["start", "connect", "add_handler", "set_head_angle", "send"].map fun name =>
    (name, b.fault l name)

/-- The planned fault comes with a call just if that call is to fail. -/
theorem isDue_fault (b : Behaviour) (l : Ledger) (call : Call) :
    (b.fault l call.name).isDue (l.calls call.name + call.earlier) = b.raises call := by
  have hspared : (b.fault l call.name).spared.contains (l.calls call.name + call.earlier) =
      !b.raises call := by
    rw [Bool.eq_iff_iff]
    simp only [fault, List.contains_iff_mem, List.mem_map, List.mem_filter, Call.mem_all,
      Bool.and_eq_true, beq_iff_eq, true_and, Nat.add_left_cancel_iff]
    constructor
    · rintro ⟨other, ⟨hname, hraises⟩, hearlier⟩
      rwa [Call.eq_of_earlier hname hearlier] at hraises
    · exact fun hraises => ⟨call, ⟨rfl, hraises⟩, rfl⟩
  unfold Fault.isDue
  rw [hspared, Bool.not_not]
  show (decide ((0 : Int) ≤ (l.calls call.name + call.earlier : Nat)) && b.raises call) = _
  rw [decide_eq_true (Int.natCast_nonneg _), Bool.true_and]

end Behaviour

/-- The clients that attempts need that are to behave in these ways. -/
def plannedClients (cliff : Bool) : Ledger → List Behaviour → List Client
  | _, [] => []
  | l, b :: bs =>
    (if b.raises .creation then [] else [b.client l]) ++
      plannedClients cliff (l.next cliff (b.course cliff)) bs

theorem calls_next (l : Ledger) (cliff : Bool) (c : Course) :
    (l.next cliff c).calls "Client" = l.calls "Client" + 1 := by
  show _ + ((c.steps cliff l.created).filterMap Event.callName?).count "Client" = _
  cases c with
  | fails call => cases call <;> rfl
  | healthy => cases cliff <;> rfl
  | vanishes => rfl
  | released => rfl

theorem clientAfter_of_drop {w : World} {count : Nat} {client : Client} {rest : List Client}
    (h : w.clients.drop count = client :: rest) : w.clientAfter count = client := by
  have hget : w.clients[count]? = some client := by
    rw [← Nat.add_zero count, ← List.getElem?_drop, h]
    rfl
  have hlt : count < w.clients.length := (List.getElem?_eq_some_iff.mp hget).1
  unfold World.clientAfter
  rw [Nat.min_eq_left (by omega), hget]
  rfl

section Planning

variable {w : World} {spared : List Nat}

theorem prospect_creation (hfaults : w.faults = [("Client", { spared })]) (l : Ledger) :
    (l.prospect w).raises .creation = !spared.contains (l.calls "Client") := by
  show (w.fault? [] "Client" (l.calls "Client")).isSome = _
  have hdue : Fault.isDue { spared } (l.calls "Client") = !spared.contains (l.calls "Client") := by
    unfold Fault.isDue
    rw [decide_eq_true (Int.natCast_nonneg _), Bool.true_and]
  unfold World.fault?
  rw [hfaults, Dict.get?_cons, if_pos rfl, Option.filter_some, hdue]
  cases spared.contains (l.calls "Client") <;> rfl

theorem prospect_client (hfaults : w.faults = [("Client", { spared })]) {l : Ledger}
    {b : Behaviour} (hclient : w.clientAfter l.created = b.client l)
    (hcreation : (l.prospect w).raises .creation = b.raises .creation) : l.prospect w = b := by
  have hraises (call : Call) : (l.prospect w).raises call = b.raises call := by
    by_cases hcall : call = .creation
    · rw [hcall, hcreation]
    · have hworld : Dict.get? w.faults call.name = none := by
        rw [hfaults]
        cases call <;> first | rfl | exact absurd rfl hcall
      have hown : Dict.get? (b.client l).faults call.name = some (b.fault l call.name) := by
        cases call <;> first | rfl | exact absurd rfl hcall
      show (l.fault? w call).isSome = _
      unfold Ledger.fault? World.fault?
      rw [if_neg hcall, hclient, hworld, hown, Option.filter_none, Option.none_or,
        Option.filter_some, b.isDue_fault]
      cases b.raises call <;> rfl
  have hparts : (l.prospect w).vanishes = b.vanishes ∧ (l.prospect w).serial = b.serial ∧
      (l.prospect w).battery = b.battery := by
    unfold Ledger.prospect
    rw [hclient]
    exact ⟨rfl, rfl, rfl⟩
  obtain ⟨raises, vanishes, serial, battery⟩ := b
  obtain ⟨hvanishes, hserial, hbattery⟩ := hparts
  exact congr (congr (congr (congrArg Behaviour.mk (funext hraises)) hvanishes) hserial) hbattery

theorem foresees_planned (cliff : Bool) (hfaults : w.faults = [("Client", { spared })])
    {bs : List Behaviour} {l : Ledger}
    (hspared : ∀ i b, bs[i]? = some b →
      spared.contains (l.calls "Client" + i) = !b.raises .creation)
    (hclients : w.clients.drop l.created = plannedClients cliff l bs) :
    l.Foresees w cliff bs := by
  induction bs generalizing l with
  | nil => trivial
  | cons b bs ih =>
    have hcreation : (l.prospect w).raises .creation = b.raises .creation := by
      have hfirst := hspared 0 b rfl
      rw [Nat.add_zero] at hfirst
      rw [prospect_creation hfaults, hfirst, Bool.not_not]
    have hlater : ∀ i b', bs[i]? = some b' →
        spared.contains ((l.next cliff (b.course cliff)).calls "Client" + i) =
          !b'.raises .creation := by
      intro i b' hb'
      rw [calls_next, Nat.add_assoc, Nat.add_comm 1 i]
      exact hspared (i + 1) b' hb'
    unfold plannedClients at hclients
    cases hb : b.raises .creation with
    | true =>
      -- no client is used up
      have hcourse : b.course cliff = .fails .creation := if_pos hb
      rw [hb, if_pos rfl, List.nil_append] at hclients
      refine ⟨.inr ⟨hcreation.trans hb, hb⟩, ih hlater ?_⟩
      rw [← hclients, hcourse]
      rfl
    | false =>
      have hcreated : (b.course cliff).created = 1 := by
        unfold Behaviour.course
        rw [if_neg (by simp [hb])]
        repeat' split
        all_goals rfl
      rw [hb, if_neg Bool.false_ne_true, List.singleton_append] at hclients
      refine ⟨.inl (prospect_client hfaults (clientAfter_of_drop hclients) hcreation),
        ih hlater ?_⟩
      show w.clients.drop (l.created + (b.course cliff).created) = _
      rw [hcreated, ← List.drop_drop, hclients]
      rfl

end Planning

/-- A world in which attempts behave in these ways, one after the other. -/
def worldFor (w : World) (cliff : Bool) (l : Ledger) (bs : List Behaviour) : World :=
  { w with
    clients := List.replicate l.created {} ++ plannedClients cliff l bs
    faults := [("Client", { spared :=
      (bs.zipIdx.filter fun b => !b.1.raises .creation).map fun b => l.calls "Client" + b.2 })] }

theorem foresees_worldFor (w : World) (cliff : Bool) (l : Ledger) (bs : List Behaviour) :
    l.Foresees (worldFor w cliff l bs) cliff bs := by
  refine foresees_planned cliff rfl (fun i b hb => ?_) ?_
  · rw [Bool.eq_iff_iff]
    simp only [List.contains_iff_mem, List.mem_map, List.mem_filter,
      List.mk_mem_zipIdx_iff_getElem?, Prod.exists, Nat.add_left_cancel_iff]
    constructor
    · rintro ⟨b', j, ⟨hb', hraises⟩, rfl⟩
      rw [hb] at hb'
      cases hb'
      exact hraises
    · exact fun hraises => ⟨b, i, ⟨hb, hraises⟩, rfl⟩
  · exact List.drop_left' List.length_replicate

theorem kind_of_mem_plannedClients {cliff : Bool} {l : Ledger} {bs : List Behaviour}
    {client : Client} (h : client ∈ plannedClients cliff l bs) {name : String} {fault : Fault}
    (hfault : Dict.get? client.faults name = some fault) : fault.kind = .general := by
  induction bs generalizing l with
  | nil => cases h
  | cons b bs ih =>
    unfold plannedClients at h
    rcases List.mem_append.mp h with hfirst | hlater
    · split at hfirst
      · cases hfirst
      · rw [List.mem_singleton.mp hfirst] at hfault
        simp only [Behaviour.client, List.map_cons, List.map_nil, Dict.get?_cons] at hfault
        repeat' split at hfault
        all_goals first | cases hfault; rfl | cases hfault
    · exact ih hlater

theorem uninterrupted_worldFor (w : World) (cliff : Bool) (l : Ledger) (bs : List Behaviour) :
    (worldFor w cliff l bs).Uninterrupted := by
  constructor
  · intro name fault hfault
    have hkind : fault.kind = .general := by
      simp only [worldFor, Dict.get?_cons] at hfault
      split at hfault
      · cases hfault
        rfl
      · cases hfault
    rw [hkind]
    decide
  · intro count name fault hfault
    have hkind : fault.kind = .general := by
      unfold World.clientAfter at hfault
      cases hget : (worldFor w cliff l bs).clients[min count
          ((worldFor w cliff l bs).clients.length - 1)]? with
      | none =>
        rw [hget] at hfault
        cases hfault
      | some client =>
        rw [hget] at hfault
        rcases List.mem_append.mp (List.mem_of_getElem? hget) with hmem | hmem
        · rw [(List.mem_replicate.mp hmem).2] at hfault
          cases hfault
        · exact kind_of_mem_plannedClients hmem hfault
    rw [hkind]
    decide

/-- A system in another world. -/
def System.inWorld (s : System) (world : World) : System :=
  { s with world }

/-- The attempts of a system will behave in these ways, and none of them is interrupted. -/
structure System.Anticipates (s : System) (bs : List Behaviour) : Prop where
  uninterrupted : s.world.Uninterrupted
  foresees : s.ledger.Foresees s.world s.controller.cliffEnabled bs

end RobotConsole.Robot

namespace RobotConsole.Console

open Robot

/-- How connecting goes, by the behaviour of its attempts, for a controller without tasks in the
background whatever else there was before. Every sequence of behaviours occurs in some world. Where
the numbers of clients can be written down, as those that a robot reports can
(`Behaviour.legible_of_reported`), connecting answers whether an attempt is healthy. It makes a
client in every attempt up to the first healthy one, or in all of them; the client of that attempt
is the current one then. A client that reports no robot is stopped once, before the next is made,
and the pause between attempts comes after failures only. -/
theorem connect_stops_at_first_healthy {s : System} {delay : Number} {bs : List Behaviour}
    (hidle : s.controller.pool.tracked = []) (hdelay : pauseFailure? delay = none)
    (hlegible : ∀ b ∈ bs, b.Legible) :
    (∃ world, (s.inWorld world).Anticipates bs) ∧
    ∀ world, (s.inWorld world).Anticipates bs →
      ∃ (answer : Bool) (t : System) (logs : List (List Event)),
      (connect bs.length delay).run (s.inWorld world) = .ok answer t ∧
      t.events = s.events ++ logs.flatten ∧
      (answer = true ↔ ∃ b ∈ bs, b.Healthy s.controller.cliffEnabled) ∧
      logs.length =
        min (bs.findIdx (fun b => decide (b.Healthy s.controller.cliffEnabled)) + 1) bs.length ∧
      (∀ (i : Nat) (b : Behaviour) (log : List Event), bs[i]? = some b → logs[i]? = some log →
        ∃ id body, body.filterMap Event.created? = [id] ∧
          body.filterMap Event.stops? =
            (if b.course s.controller.cliffEnabled = .released then [id] else []) ∧
          body.filterMap Event.slept? <+: [.int 3, .int 1, .real 0.5] ∧
          log = body ++ if (b.course s.controller.cliffEnabled).isFailure = true ∧ i + 1 < bs.length
            then [.sleep delay] else []) ∧
      (answer = true → t.controller.connected = true ∧ ∃ (id : ClientId) (log : List Event),
        logs.getLast? = some log ∧ log.filterMap Event.created? = [id] ∧
        t.controller.client = some id) := by
  constructor
  · exact ⟨worldFor s.world s.controller.cliffEnabled s.ledger bs,
      uninterrupted_worldFor _ _ _ _, foresees_worldFor _ _ _ _⟩
  · intro world hanticipates
    obtain ⟨answer, t, hrun, hanswer, hevents, hlast⟩ :=
      run_connectFrom_planned hdelay bs.length hlegible 1 (s := s.inWorld world) hidle
        hanticipates.uninterrupted hanticipates.foresees
    refine ⟨answer, t, _, hrun, hevents, hanswer, length_attemptLogs _ _ _ _, ?_, hlast⟩
    intro i b log hb hlog
    obtain ⟨id, rfl⟩ := getElem?_attemptLogs hb hlog
    refine ⟨id, (b.course s.controller.cliffEnabled).steps s.controller.cliffEnabled id,
      Course.created?_steps _ _ _, Course.stops?_steps _ _ _, Course.slept?_steps _ _ _, ?_⟩
    show _ ++ Course.retryPause (b.course s.controller.cliffEnabled) delay _ = _
    unfold Course.retryPause
    have hleft : (bs.length - (i + 1) != 0) = decide (i + 1 < bs.length) := by
      rw [Bool.eq_iff_iff]
      simp only [bne_iff_ne, ne_eq, decide_eq_true_eq]
      omega
    rw [hleft]
    simp only [Bool.and_eq_true, decide_eq_true_eq]
    rfl

/-- An attempt at which nothing fails, with a client that reports this serial number. -/
def smoothAttempt (serial : Number) : Behaviour where
  raises _ := false
  vanishes := false
  serial
  battery := .real 3.95

/-- No client at first, then one without a robot behind it, and then one with it. -/
def improvingAttempts : List Behaviour :=
  [{ smoothAttempt (.int 12345) with raises := fun call => call == .creation },
    smoothAttempt (.int 0), smoothAttempt (.int 12345)]

/-- The third attempt connects where the first makes no client and the second makes one in vain. -/
theorem third_attempt_connects :
    (∀ b ∈ improvingAttempts, b.Legible) ∧ pauseFailure? (.real 2.0) = none ∧
      ∃ world t, (System.inWorld answeredSystem world).Anticipates improvingAttempts ∧
        (connect 3 (.real 2.0)).run (System.inWorld answeredSystem world) = .ok true t ∧
        t.controller.connected = true := by
  have hlegible : ∀ b ∈ improvingAttempts, b.Legible := by
    intro b hb
    simp only [improvingAttempts, List.mem_cons, List.not_mem_nil, or_false] at hb
    rcases hb with rfl | rfl | rfl <;> exact ⟨by decide +kernel, _, rfl⟩
  have hdelay : pauseFailure? (.real 2.0) = none := by decide +kernel
  have hhealthy : ∃ b ∈ improvingAttempts, b.Healthy true :=
    ⟨smoothAttempt (.int 12345), by simp [improvingAttempts], by decide +kernel⟩
  obtain ⟨⟨world, hworld⟩, hconnect⟩ := connect_stops_at_first_healthy
    (s := answeredSystem) rfl hdelay hlegible
  obtain ⟨answer, t, logs, hrun, -, hanswer, -, -, hconnected⟩ := hconnect world hworld
  obtain rfl : answer = true := hanswer.mpr hhealthy
  exact ⟨hlegible, hdelay, world, t, hworld, hrun, (hconnected rfl).1⟩

end RobotConsole.Console
