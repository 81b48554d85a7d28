import RobotConsole.Proofs.Robot.Walk

/-!
# What actions add to the trace

The trace only ever grows, the world stays as it is, and every client behaves as the world planned.
`grows P` is the contract of the actions that do so with events of one kind only. The primitive
actions keep it if their own event is of that kind, and so whatever is built from them does
(`admitsTasks_grows`).
-/

namespace RobotConsole.Robot

open Contract

variable {α : Type}
variable {r : Request} {name : String} {id : ClientId}

/-- Whether an event brings a client into being. -/
def Event.isCreation : Event → Bool
  | .create _ => true
  | _ => false

/-- Whether an event stops a client for good. -/
def Event.isStop : Event → Bool
  | .call _ .stop => true
  | _ => false

theorem Event.not_isStop {e : Event} (h : e.isLifecycle = false) : e.isStop = false := by
  unfold isStop
  split
  · cases h
  · rfl

/-- How a system may change while events of one kind are added to its trace. -/
structure Grows (P : Event → Prop) (s t : System) : Prop where
  world : t.world = s.world
  trace : ∃ events : List Event, t.trace.toList = s.trace.toList ++ events ∧ ∀ e ∈ events, P e
  clients : ∀ (id : ClientId) (client : Client), t.clients[id]? = some client →
    s.clients[id]? = some client ∨ ∃ count, client = s.world.clientAfter count

namespace Grows

variable {P : Event → Prop} {s t u : System}

theorem refl (s : System) : Grows P s s :=
  ⟨rfl, ⟨[], by simp, by simp⟩, fun _ _ h => .inl h⟩

theorem trans (h₁ : Grows P s t) (h₂ : Grows P t u) : Grows P s u := by
  refine ⟨h₂.world.trans h₁.world, ?_, ?_⟩
  · obtain ⟨events₁, htrace₁, hall₁⟩ := h₁.trace
    obtain ⟨events₂, htrace₂, hall₂⟩ := h₂.trace
    refine ⟨events₁ ++ events₂, by rw [htrace₂, htrace₁, List.append_assoc], ?_⟩
    intro e he
    rcases List.mem_append.mp he with he | he
    · exact hall₁ e he
    · exact hall₂ e he
  · intro id client hu
    rcases h₂.clients id client hu with ht | ⟨count, hplan⟩
    · exact h₁.clients id client ht
    · exact .inr ⟨count, by rw [hplan, h₁.world]⟩

theorem of_same (hworld : t.world = s.world) (hclients : t.clients = s.clients)
    (htrace : t.trace = s.trace) : Grows P s t := by
  refine ⟨hworld, ⟨[], by simp [htrace], by simp⟩, ?_⟩
  intro id client h
  rw [hclients] at h
  exact .inl h

end Grows

/-- The contract of actions that only add events of one kind, also when they fail. -/
def grows (P : Event → Prop) : Contract Failure System where
  yields := Grows P
  fails _ := Grows P
  refl := Grows.refl
  trans := Grows.trans
  fails_after := Grows.trans

theorem Grows.of_holds {P : Event → Prop} {x : Act α} (hx : (grows P).Holds x) (s : System) :
    Grows P s (after x s) := by
  cases hr : x.run s with
  | ok a t =>
    rw [after_of_ok hr]
    exact (hx s).yields hr
  | error e t =>
    rw [after_of_error hr]
    exact (hx s).fails hr

/-! ## Primitive actions -/

variable {P : Event → Prop}

theorem grows_emit {e : Event} (he : P e) : (grows P).Holds (emit e) := by
  intro s
  refine .of_ok rfl ⟨rfl, ⟨[e], ?_, ?_⟩, fun _ _ h => .inl h⟩
  · show (s.trace.push e).toList = _
    rw [Array.toList_push]
  · intro e' he'
    rw [List.mem_singleton.mp he']
    exact he

theorem grows_throw (failure : Failure) : (grows P).Holds (throw failure : Act α) :=
  holds_throw Grows.refl

theorem grows_meetFault (name : String) (own : Dict Fault) :
    (grows P).Holds (meetFault name own) := by
  unfold meetFault
  refine holds_get_bind fun s => holdsAt_set_bind (Grows.of_same rfl rfl rfl) ?_
  dsimp only
  split
  · exact grows_throw _ _
  · exact holds_pure _ _

theorem grows_clientFor (member : String) : (grows P).Holds (clientFor member) := by
  unfold clientFor
  refine holds_controller.bind fun c => ?_
  split
  · exact holds_pure _
  · exact grows_throw _

theorem grows_request (hr : ∀ id, P (.call id r)) : (grows P).Holds (request r) := by
  unfold request
  refine (grows_clientFor _).bind fun id => (grows_emit (hr id)).bind fun _ => ?_
  refine (holds_clientState id).bind fun client => (grows_meetFault _ _).bind fun _ => ?_
  split
  · split
    · exact holds_modify fun _ => Grows.of_same rfl rfl rfl
    · exact holds_pure _
  · exact holds_pure _

theorem grows_send {packet : Packet} (hpacket : ∀ id, P (.send id packet)) :
    (grows P).Holds (send packet) := by
  unfold send
  refine (grows_clientFor _).bind fun id => (grows_emit (hpacket id)).bind fun _ => ?_
  exact (holds_clientState id).bind fun client => grows_meetFault _ _

/-- The client that comes into being is the next one that the world has planned. -/
theorem grows_pushClient (s : System) (c : Controller) :
    Grows P s { s with clients := s.clients.push (s.world.clientAfter s.clients.size),
                       controller := c } := by
  refine ⟨rfl, ⟨[], by simp, by simp⟩, ?_⟩
  intro id client h
  rw [Array.getElem?_push] at h
  split at h
  · exact .inr ⟨s.clients.size, (Option.some.inj h).symm⟩
  · exact .inl h

theorem grows_createClient (hP : ∀ id, P (.create id)) : (grows P).Holds createClient := by
  unfold createClient
  refine holds_get.bind fun s => (grows_emit (hP _)).bind fun _ => ?_
  exact (grows_meetFault _ _).bind fun _ => holds_modify fun s => grows_pushClient s _

theorem grows_askAssets {r : AssetRequest} (hr : P (.asset r)) : (grows P).Holds (askAssets r) :=
  (grows_emit hr).bind fun _ => grows_meetFault _ _

theorem grows_runTool {command : List String} (hcommand : P (.run command))
    (output : Storage.Path) : (grows P).Holds (runTool command output) :=
  holds_runTool (grows_emit hcommand) (grows_meetFault · _) fun _ _ => Grows.of_same rfl rfl rfl

theorem grows_update (change : Controller → Controller) : (grows P).Holds (update change) :=
  holds_modify fun _ => Grows.of_same rfl rfl rfl

theorem grows_loadAnimations (hP : ∀ e : Event, e.startsMotors = false → e.isCreation = false →
    e.isLifecycle = false → e.InRange → P e) : (grows P).Holds loadAnimations := by
  have : AdmitsLocal (grows P) :=
    { throw := fun _ _ s => Grows.refl s
      tell := fun {e} he => grows_emit (by
        cases e <;> first | exact hP _ rfl rfl rfl trivial | cases he)
      meetInterrupt := holds_meetInterrupt id (grows_meetFault "sleep" [])
      recovers := id
      same := fun hworld hclients htrace _ => Grows.of_same hworld hclients htrace }
  exact holds_loadAnimations (grows_request fun _ => hP _ rfl rfl rfl trivial) (grows_update _)

/-- Events of a kind that leaves out at most starting motors, creating, starting and stopping
clients, and what is beyond the limits. -/
theorem admitsTasks_grows (hP : ∀ e : Event, e.startsMotors = false → e.isCreation = false →
    e.isLifecycle = false → e.InRange → P e) : AdmitsTasks (grows P) where
  recovers h := h
  fails_then := Grows.trans
  same hworld hclients htrace _ _ _ _ _ := Grows.of_same hworld hclients htrace
  throw _ := Grows.refl
  emit {e} he := grows_emit (by cases e <;> first | exact hP _ rfl rfl rfl trivial | cases he)
  request hr _ hrange := grows_request fun _ => hP _ rfl rfl hr hrange
  send hpacket hrange := grows_send fun id => hP _ (hpacket id) rfl rfl hrange
  runTool hrange output := grows_runTool (hP _ rfl rfl rfl hrange) output
  meetFault name := grows_meetFault name []
  loadAnimations := grows_loadAnimations hP
  finish _ := grows_update _
  sweep := grows_update _
  startTask := holds_startTask (fun _ => grows_update _) (grows_emit (hP _ rfl rfl rfl trivial))
    (holds_meetRefusal id (grows_meetFault _ _) Grows.refl)

theorem admitsLink_grows (hP : ∀ e : Event, e.startsMotors = false → e.isCreation = false →
    e.InRange → P e) : AdmitsLink (grows P) :=
  { admitsTasks_grows fun e hmotors hcreation _ => hP e hmotors hcreation,
    admitsLibrary_of_learning (grows_loadAnimations fun e hmotors hcreation _ =>
      hP e hmotors hcreation) (fun _ => grows_askAssets (hP _ rfl rfl trivial))
      fun _ _ _ => grows_update _ with
    lifecycle := fun _ hrange => grows_request fun _ => hP _ rfl rfl hrange
    update := fun _ => grows_update _ }

/-- Whatever a command does, the trace only grows. -/
instance : AdmitsLink (grows fun _ => True) :=
  admitsLink_grows fun _ _ _ _ => trivial

/-! ## Changes known to the event -/

/-- A change that appends given events to the trace, and touches neither controller nor world nor
clients. -/
structure Appends (events : List Event) (s t : System) : Prop where
  controller : t.controller = s.controller
  world : t.world = s.world
  clients : t.clients = s.clients
  trace : t.trace.toList = s.trace.toList ++ events

namespace Appends

variable {events more : List Event} {s t u : System}

theorem trans (h₁ : Appends events s t) (h₂ : Appends more t u) : Appends (events ++ more) s u :=
  ⟨h₂.controller.trans h₁.controller, h₂.world.trans h₁.world, h₂.clients.trans h₁.clients,
    by rw [h₂.trace, h₁.trace, List.append_assoc]⟩

theorem grows {P : Event → Prop} (h : Appends events s t) (hP : ∀ e ∈ events, P e) :
    Grows P s t := by
  refine ⟨h.world, ⟨events, h.trace, hP⟩, ?_⟩
  intro id client hclient
  rw [h.clients] at hclient
  exact .inl hclient

end Appends

/-- The system with one more event in its trace. -/
def System.record (s : System) (e : Event) : System :=
  { s with trace := s.trace.push e }

theorem run_emit_eq (e : Event) (s : System) : (emit e).run s = .ok () (s.record e) := rfl

@[simp] theorem System.trace_record (s : System) (e : Event) :
    (s.record e).trace.toList = s.trace.toList ++ [e] :=
  Array.toList_push

theorem run_emit (e : Event) (s : System) : ∃ t, (emit e).run s = .ok () t ∧ Appends [e] s t :=
  ⟨s.record e, rfl, rfl, rfl, rfl, s.trace_record e⟩

/-- How often a kind of call has been made. -/
def System.callCount (s : System) (name : String) : Nat :=
  (Dict.get? s.calls name).getD 0

/-- The system with one more call counted. -/
def System.counted (s : System) (name : String) : System :=
  { s with calls := Dict.put s.calls name (s.callCount name + 1) }

theorem System.callCount_counted (s : System) (name other : String) :
    (s.counted name).callCount other =
      if other = name then s.callCount name + 1 else s.callCount other := by
  unfold System.callCount System.counted
  simp only [Dict.get?_put]
  split <;> rfl

theorem Fault.isInterrupt_failure {fault : Fault} (h : fault.kind ≠ .interrupt) :
    fault.failure.isInterrupt = false := by
  show Failure.isInterrupt (.fault fault.kind fault.message) = false
  unfold Failure.isInterrupt
  split
  next heq => injection heq with hkind; exact absurd hkind h
  next => rfl

theorem run_meetFault_eq (name : String) (own : Dict Fault) (s : System) :
    (meetFault name own).run s =
      match ((Dict.get? s.world.faults name).filter (·.isDue (s.callCount name))).or
        ((Dict.get? own name).filter (·.isDue (s.callCount name))) with
      | some fault => .error fault.failure (s.counted name)
      | none => .ok () (s.counted name) := by
  unfold meetFault
  simp only [EStateM.run_bind, EStateM.run_get, EStateM.run_set]
  show EStateM.run (match ((Dict.get? s.world.faults name).filter (·.isDue (s.callCount name))).or
    ((Dict.get? own name).filter (·.isDue (s.callCount name))) with
    | some fault => throw fault.failure
    | none => pure ()) (s.counted name) = _
  cases Option.or _ _ <;> rfl

theorem fault_of_meetFault {own : Dict Fault} {s t : System} {e : Failure}
    (h : (meetFault name own).run s = .error e t) :
    ∃ fault, (Dict.get? s.world.faults name = some fault ∨ Dict.get? own name = some fault) ∧
      e = fault.failure := by
  rw [run_meetFault_eq] at h
  split at h
  next fault hsome =>
    cases h
    refine ⟨fault, ?_, rfl⟩
    rcases Option.or_eq_some_iff.mp hsome with hworld | ⟨_, hown⟩
    · exact .inl (Option.filter_eq_some_iff.mp hworld).1
    · exact .inr (Option.filter_eq_some_iff.mp hown).1
  next => cases h

theorem after_meetFault (name : String) (own : Dict Fault) (s : System) :
    Appends [] s (after (meetFault name own) s) := by
  unfold after
  rw [run_meetFault_eq]
  cases Option.or _ _ with
  | none => exact ⟨rfl, rfl, rfl, by simp [System.counted]⟩
  | some fault => exact ⟨rfl, rfl, rfl, by simp [System.counted]⟩

theorem run_meetFault {own : Dict Fault} {s : System}
    (hworld : Dict.get? s.world.faults name = none) (hown : Dict.get? own name = none) :
    ∃ t, (meetFault name own).run s = .ok () t ∧ Appends [] s t := by
  refine ⟨_, ?_, after_meetFault name own s⟩
  unfold after
  rw [run_meetFault_eq, hworld, hown]
  rfl

theorem run_clientFor {member : String} {s : System}
    (hid : s.controller.client = some id) : (clientFor member).run s = .ok id s := by
  unfold clientFor controller
  simp [hid]

/-- The interrupt that falls into a step of a name, if one does. -/
def System.interrupt? (s : System) (name : String) : Option Failure :=
  (((Dict.get? s.world.faults name).filter (·.isDue (s.callCount name))).map Fault.failure).filter
    Failure.isInterrupt

theorem System.interrupt?_of_plain {s : System}
    (h : ∀ fault, Dict.get? s.world.faults name = some fault → fault.kind ≠ .interrupt) :
    s.interrupt? name = none := by
  unfold System.interrupt?
  rw [Option.filter_eq_none_iff]
  intro failure hfailure
  obtain ⟨fault, hfault, rfl⟩ := Option.map_eq_some_iff.mp hfailure
  rw [Fault.isInterrupt_failure (h fault (Option.filter_eq_some_iff.mp hfault).1)]
  exact Bool.false_ne_true

/-- Of the faults that may come with a step only an interrupt is met. -/
theorem run_meetInterrupt (name : String) (s : System) :
    (meetInterrupt name).run s =
      match s.interrupt? name with
      | some failure => .error failure (s.counted name)
      | none => .ok () (s.counted name) := by
  have hmeet := run_meetFault_eq name [] s
  unfold meetInterrupt System.interrupt?
  cases hdue : (Dict.get? s.world.faults name).filter (·.isDue (s.callCount name)) with
  | none =>
    rw [hdue] at hmeet
    exact run_handling_of_ok hmeet
  | some fault =>
    rw [hdue, Option.some_or] at hmeet
    rw [Option.map_some, Option.filter_some]
    cases hinterrupt : fault.failure.isInterrupt with
    | true => exact run_handling_of_interrupt hmeet hinterrupt
    | false => exact run_handling_of_failure hmeet hinterrupt

/-- What cuts a pause short, if anything does: its length is refused, or an interrupt falls into
it. -/
def System.pauseCut? (s : System) (seconds : Number) : Option Failure :=
  (pauseFailure? seconds).or (s.interrupt? "sleep")

theorem run_pause (seconds : Number) (s : System) :
    ∃ t, Appends [.sleep seconds] s t ∧
      (pause seconds).run s =
        match s.pauseCut? seconds with
        | some failure => .error failure t
        | none => .ok () t := by
  have hrecord : Appends [.sleep seconds] s (s.record (.sleep seconds)) :=
    ⟨rfl, rfl, rfl, s.trace_record _⟩
  unfold pause System.pauseCut?
  simp only [EStateM.run_bind, run_emit_eq]
  cases pauseFailure? seconds with
  | some failure => exact ⟨_, hrecord, rfl⟩
  | none =>
    have hcounted : Appends [.sleep seconds] s ((s.record (.sleep seconds)).counted "sleep") :=
      ⟨rfl, rfl, rfl, s.trace_record _⟩
    exact ⟨_, hcounted, run_meetInterrupt "sleep" _⟩

/-- A request is an event and a call; only making the connection does more than that. -/
theorem run_request {s : System} (hr : r ≠ .connect)
    (hid : s.controller.client = some id) :
    (request r).run s =
      (meetFault r.name ((s.clients[id]?).getD {}).faults).run (s.record (.call id r)) := by
  have hstate : (clientState id).run (s.record (.call id r)) =
      .ok ((s.clients[id]?).getD {}) (s.record (.call id r)) := rfl
  unfold request
  simp only [EStateM.run_bind, run_clientFor hid, run_emit_eq, hstate]
  cases (meetFault r.name ((s.clients[id]?).getD {}).faults).run (s.record (.call id r)) with
  | error failure u => rfl
  | ok a u =>
    cases r with
    | connect => exact absurd rfl hr
    | _ => rfl

theorem after_request {s : System} (hr : r ≠ .connect)
    (hid : s.controller.client = some id) : Appends [.call id r] s (after (request r) s) := by
  have hafter : after (request r) s =
      after (meetFault r.name ((s.clients[id]?).getD {}).faults) (s.record (.call id r)) := by
    unfold after
    rw [run_request hr hid]
  have hrecord : Appends [.call id r] s (s.record (.call id r)) :=
    ⟨rfl, rfl, rfl, s.trace_record _⟩
  rw [hafter]
  exact hrecord.trans (after_meetFault _ _ _)

/-- A request fails with a fault that the world or the client plans for it. -/
theorem fault_of_request {s t : System} {e : Failure}
    (hr : r ≠ .connect) (hid : s.controller.client = some id)
    (h : (request r).run s = .error e t) :
    ∃ fault, (Dict.get? s.world.faults r.name = some fault ∨
      Dict.get? ((s.clients[id]?).getD {}).faults r.name = some fault) ∧ e = fault.failure := by
  rw [run_request hr hid] at h
  exact fault_of_meetFault (s := s.record (.call id r)) h

end RobotConsole.Robot
