import RobotConsole.Proofs.Robot.Growth

/-!
# Calls, one at a time

Creating a client, asking something of it and sending it a packet are calls. A call is an event, it
is counted under its name, and it fails if the world or the client has planned a fault for a call
that so many of its kind came before (`World.fault?`). What comes of a call is thus known before it
is made, and it leaves the system as `System.calling` says, whether it fails or not.
-/

namespace RobotConsole.Robot

/-- The fault that comes with a call, the world's before that of the client. -/
def World.fault? (w : World) (own : Dict Fault) (name : String) (count : Nat) : Option Fault :=
  ((Dict.get? w.faults name).filter (·.isDue count)).or
    ((Dict.get? own name).filter (·.isDue count))

/-- The faults that a client has planned. -/
def System.faultsOf (s : System) (id : ClientId) : Dict Fault :=
  ((s.clients[id]?).getD {}).faults

/-- The system with one more call made. -/
def System.calling (s : System) (e : Event) (name : String) : System :=
  (s.record e).counted name

/-- What comes of a call, by the fault that comes with it. -/
def callResult (fault : Option Fault) (t : System) : EStateM.Result Failure System Unit :=
  match fault with
  | some fault => .error fault.failure t
  | none => .ok () t

section Calling

variable (s : System) (e : Event) (name : String)

@[simp] theorem System.controller_calling : (s.calling e name).controller = s.controller := rfl

@[simp] theorem System.trace_calling :
    (s.calling e name).trace.toList = s.trace.toList ++ [e] :=
  s.trace_record e

theorem System.callCount_calling (other : String) :
    (s.calling e name).callCount other =
      if other = name then s.callCount name + 1 else s.callCount other :=
  (s.record e).callCount_counted name other

end Calling

theorem run_meetFault_planned (name : String) (own : Dict Fault) (s : System) :
    (meetFault name own).run s =
      callResult (s.world.fault? own name (s.callCount name)) (s.counted name) := by
  rw [run_meetFault_eq]
  unfold World.fault? callResult
  cases Option.or _ _ <;> rfl

/-- A request is a call; only making the connection does more than that. -/
theorem run_request_planned {r : Request} {s : System} {id : ClientId} (hr : r ≠ .connect)
    (hid : s.controller.client = some id) :
    (request r).run s =
      callResult (s.world.fault? (s.faultsOf id) r.name (s.callCount r.name))
        (s.calling (.call id r) r.name) := by
  rw [run_request hr hid]
  exact run_meetFault_planned _ _ (s.record (.call id r))

theorem run_send_planned {s : System} {id : ClientId} (packet : Packet)
    (hid : s.controller.client = some id) :
    (send packet).run s =
      callResult (s.world.fault? (s.faultsOf id) "send" (s.callCount "send"))
        (s.calling (.send id packet) "send") := by
  have hstate : (clientState id).run (s.record (.send id packet)) =
      .ok ((s.clients[id]?).getD {}) (s.record (.send id packet)) := rfl
  unfold send
  simp only [EStateM.run_bind, run_clientFor hid, run_emit_eq, hstate]
  exact run_meetFault_planned _ _ (s.record (.send id packet))

/-- A pause is counted like a call. Where no interrupt is planned for it, it is kept. -/
theorem run_pause_planned {s : System} {seconds : Number} (hlength : pauseFailure? seconds = none)
    (hplain : ∀ fault, Dict.get? s.world.faults "sleep" = some fault → fault.kind ≠ .interrupt) :
    (pause seconds).run s = .ok () (s.calling (.sleep seconds) "sleep") := by
  have hkept : (s.record (.sleep seconds)).interrupt? "sleep" = none :=
    System.interrupt?_of_plain hplain
  have hmeet := run_meetInterrupt "sleep" (s.record (.sleep seconds))
  rw [hkept] at hmeet
  unfold pause
  rw [EStateM.run_bind, run_emit_eq, hlength]
  exact hmeet

theorem run_send_of_none {s : System} (packet : Packet) (hnone : s.controller.client = none) :
    (send packet).run s = .error (.noClient "conn") s := by
  unfold send clientFor controller
  simp only [EStateM.run_bind, EStateM.run_get, EStateM.run_pure, hnone]
  rfl

/-- The system with another current client, or none. -/
def System.withClient (s : System) (client : Option ClientId) : System :=
  { s with controller := { s.controller with client } }

theorem System.withClient_eq_self {s : System} {client : Option ClientId}
    (h : s.controller.client = client) : s.withClient client = s := by
  subst h
  rfl

/-- A client that is gone once it has connected leaves the controller without one. -/
theorem run_requestConnect_planned {s : System} {id : ClientId}
    (hid : s.controller.client = some id) :
    (request .connect).run s =
      match s.world.fault? (s.faultsOf id) "connect" (s.callCount "connect") with
      | some fault => .error fault.failure (s.calling (.call id .connect) "connect")
      | none => .ok () ((s.calling (.call id .connect) "connect").withClient
          (if ((s.clients[id]?).getD {}).vanishes then none else some id)) := by
  have hstate : (clientState id).run (s.record (.call id .connect)) =
      .ok ((s.clients[id]?).getD {}) (s.record (.call id .connect)) := rfl
  have hmeet : (meetFault Request.connect.name ((s.clients[id]?).getD {}).faults).run
      (s.record (.call id .connect)) =
        callResult (s.world.fault? (s.faultsOf id) "connect" (s.callCount "connect"))
          (s.calling (.call id .connect) "connect") :=
    run_meetFault_planned _ _ _
  unfold request
  simp only [EStateM.run_bind, run_clientFor hid, run_emit_eq, hstate, hmeet]
  cases s.world.fault? (s.faultsOf id) "connect" (s.callCount "connect") with
  | some fault => rfl
  | none =>
    cases ((s.clients[id]?).getD {}).vanishes with
    | true => rfl
    | false =>
      have hsame : (s.calling (.call id .connect) "connect").withClient (some id) =
          s.calling (.call id .connect) "connect" := System.withClient_eq_self hid
      simp only [Bool.false_eq_true, if_false, hsame]
      rfl

/-- The next client that the world has planned comes into being, unless that fails. -/
theorem run_createClient_planned (s : System) :
    createClient.run s =
      match s.world.fault? [] "Client" (s.callCount "Client") with
      | some fault => .error fault.failure (s.calling (.create s.clients.size) "Client")
      | none => .ok () (System.withClient
          { s.calling (.create s.clients.size) "Client" with
            clients := s.clients.push (s.world.clientAfter s.clients.size) }
          (some s.clients.size)) := by
  have hmeet : (meetFault "Client" []).run (s.record (.create s.clients.size)) =
      callResult (s.world.fault? [] "Client" (s.callCount "Client"))
        (s.calling (.create s.clients.size) "Client") :=
    run_meetFault_planned _ _ _
  unfold createClient
  simp only [EStateM.run_bind, EStateM.run_get, run_emit_eq, hmeet]
  cases s.world.fault? [] "Client" (s.callCount "Client") <;> rfl

end RobotConsole.Robot
