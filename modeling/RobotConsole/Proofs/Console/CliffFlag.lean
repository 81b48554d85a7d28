import RobotConsole.Proofs.Console.Agreement
import RobotConsole.Proofs.Robot.Calls

/-!
# What the controller says about edges

The controller has a flag that says whether the robot stops at the edge of a table. The robot itself
knows only what the packets say that reach it. The flag is set before its packet is sent, and stays
so when sending fails. It therefore always says what the current client was last asked for
(`System.Minded`), which is what the client last received unless a later packet was lost
(`cliff_flag_true_iff`).
-/

namespace RobotConsole.Robot

open Contract

variable {α : Type}

/-! ## Packets that arrive -/

/-- The packet that an event sends, with the client that it is for. -/
def Event.sent? : Event → Option (ClientId × Packet)
  | .send id packet => some (id, packet)
  | _ => none

/-- The packets sent so far, whether they arrived or not. -/
def System.sends (s : System) : List (ClientId × Packet) :=
  s.trace.toList.filterMap Event.sent?

/-- Whether a packet for a client arrives that so many others were sent before. -/
def System.arrives (s : System) (id : ClientId) (count : Nat) : Bool :=
  (s.world.fault? (s.faultsOf id) "send" count).isNone

/-- The packets that arrived. -/
def System.delivered (s : System) : List (ClientId × Packet) :=
  (s.sends.zipIdx.filter fun sent => s.arrives sent.1.1 sent.2).map (·.1)

/-- What a packet tells a client about edges. -/
def cliffSetting? (id : ClientId) : ClientId × Packet → Option Bool
  | (receiver, .stopOnCliff enable) => if receiver = id then some enable else none
  | _ => none

/-- What a client was told about edges, whether it arrived or not. -/
def System.asked (s : System) (id : ClientId) : List Bool :=
  s.sends.filterMap (cliffSetting? id)

/-- What a client was told about edges and has received. -/
def System.received (s : System) (id : ClientId) : List Bool :=
  s.delivered.filterMap (cliffSetting? id)

/-- The flag of a connected controller says what the current client has last received, if that has
received anything. -/
def System.FlagTrue (s : System) : Prop :=
  s.controller.connected = true → ∀ id, s.controller.client = some id →
    ∀ enable ∈ (s.received id).getLast?, enable = s.controller.cliffEnabled

theorem System.sends_record (s : System) {e : Event} (he : e.sent? = none) :
    (s.record e).sends = s.sends := by
  unfold System.sends
  rw [System.trace_record, List.filterMap_append, List.filterMap_cons_none he, List.filterMap_nil,
    List.append_nil]

theorem System.sends_calling (s : System) (id : ClientId) (packet : Packet) :
    (s.calling (.send id packet) "send").sends = s.sends ++ [(id, packet)] := by
  unfold System.sends
  rw [System.trace_calling, List.filterMap_append]
  rfl

theorem System.delivered_record (s : System) {e : Event} (he : e.sent? = none) :
    (s.record e).delivered = s.delivered := by
  unfold System.delivered
  rw [s.sends_record he]
  rfl

/-- A packet is among those that arrived just if no fault came with it. -/
theorem System.delivered_calling (s : System) (id : ClientId) (packet : Packet) :
    (s.calling (.send id packet) "send").delivered =
      s.delivered ++ if s.arrives id s.sends.length then [(id, packet)] else [] := by
  have harrives (receiver : ClientId) (count : Nat) :
      (s.calling (.send id packet) "send").arrives receiver count = s.arrives receiver count := rfl
  unfold System.delivered
  simp only [s.sends_calling, harrives, List.zipIdx_append, List.filter_append, List.map_append,
    List.zipIdx_cons, List.zipIdx_nil, Nat.zero_add]
  congr 1
  cases harrive : s.arrives id s.sends.length <;> simp [harrive]

theorem System.delivered_sublist (s : System) : List.Sublist s.delivered s.sends := by
  have hall : s.sends.zipIdx.map (·.1) = s.sends := List.zipIdx_map_fst 0 s.sends
  unfold System.delivered
  conv => rhs; rw [← hall]
  exact List.filter_sublist.map _

theorem System.received_sublist (s : System) (id : ClientId) :
    List.Sublist (s.received id) (s.asked id) :=
  s.delivered_sublist.filterMap _

/-! ## What the flag says -/

/-- A system in order: its packets are all counted and went to clients that there have been, the
flag says what the current client was last asked for, and no task is kept track of. -/
structure System.Minded (s : System) : Prop where
  counted : s.callCount "send" = s.sends.length
  known : ∀ sent ∈ s.sends, sent.1 < s.clients.size
  current : ∀ id, s.controller.client = some id → id < s.clients.size
  asked : ∀ id, s.controller.client = some id →
    ∀ enable ∈ (s.asked id).getLast?, enable = s.controller.cliffEnabled
  idle : s.controller.pool.tracked = []

/-- A client to which nothing was sent yet was asked for nothing. -/
theorem asked_eq_nil {s : System} {id : ClientId} (h : ∀ sent ∈ s.sends, sent.1 ≠ id) :
    s.asked id = [] := by
  refine List.filterMap_eq_nil_iff.mpr fun sent hsent => ?_
  unfold cliffSetting?
  split
  · exact if_neg (h _ hsent)
  · rfl

/-- Changes that touch neither flag nor client nor tasks, and send nothing. -/
theorem System.Minded.of_same {s t : System} (hs : s.Minded) (hsends : t.sends = s.sends)
    (hcount : t.callCount "send" = s.callCount "send") (hclients : t.clients = s.clients)
    (hclient : t.controller.client = s.controller.client)
    (hflag : t.controller.cliffEnabled = s.controller.cliffEnabled)
    (hpool : t.controller.pool = s.controller.pool) : t.Minded := by
  refine ⟨?_, ?_, ?_, ?_, ?_⟩
  · rw [hcount, hsends]
    exact hs.counted
  · rw [hsends, hclients]
    exact hs.known
  · rw [hclient, hclients]
    exact hs.current
  · unfold System.asked
    rw [hclient, hsends, hflag]
    exact hs.asked
  · rw [hpool]
    exact hs.idle

theorem System.Minded.record {s : System} (hs : s.Minded) {e : Event} (he : e.sent? = none) :
    (s.record e).Minded :=
  hs.of_same (s.sends_record he) rfl rfl rfl rfl rfl

/-- The contract of actions that keep a system in order and leave the flag alone. -/
def mindful : Contract Failure System where
  yields s t := s.Minded → t.Minded ∧ t.controller.cliffEnabled = s.controller.cliffEnabled
  fails _ s t := s.Minded → t.Minded ∧ t.controller.cliffEnabled = s.controller.cliffEnabled
  refl _ hs := ⟨hs, rfl⟩
  trans h₁ h₂ hs := ⟨(h₂ (h₁ hs).1).1, (h₂ (h₁ hs).1).2.trans (h₁ hs).2⟩
  fails_after h₁ h₂ hs := ⟨(h₂ (h₁ hs).1).1, (h₂ (h₁ hs).1).2.trans (h₁ hs).2⟩

theorem mindful_after {x : Act α} {s : System} (hx : mindful.HoldsAt s x) (hs : s.Minded) :
    (after x s).Minded := by
  cases hrun : x.run s with
  | ok a t =>
    rw [after_of_ok hrun]
    exact (hx.yields hrun hs).1
  | error e t =>
    rw [after_of_error hrun]
    exact (hx.fails hrun hs).1

theorem mindful_emit {e : Event} (he : e.sent? = none) : mindful.Holds (emit e) :=
  holds_modify fun _ hs => ⟨hs.record he, rfl⟩

theorem mindful_meetFault {name : String} (hname : name ≠ "send") (own : Dict Fault) :
    mindful.Holds (meetFault name own) := by
  intro s
  have hcounted : s.Minded → (s.counted name).Minded := fun hs => by
    refine hs.of_same rfl ?_ rfl rfl rfl rfl
    rw [s.callCount_counted, if_neg (Ne.symm hname)]
  have hrun := run_meetFault_planned name own s
  unfold callResult at hrun
  refine .of_outcomes ?_ ?_
  · intro a t h
    rw [hrun] at h
    split at h
    · cases h
    · cases h
      exact fun hs => ⟨hcounted hs, rfl⟩
  · intro e t h
    rw [hrun] at h
    split at h
    · cases h
      exact fun hs => ⟨hcounted hs, rfl⟩
    · cases h

instance : AdmitsTelling mindful where
  throw _ _ _ hs := ⟨hs, rfl⟩
  tell {e} he := mindful_emit (by cases e <;> first | rfl | cases he)
  meetInterrupt := holds_meetInterrupt id (mindful_meetFault (by decide) [])

theorem Request.name_ne_send (r : Request) : r.name ≠ "send" := by
  cases r <;> simp [Request.name]

theorem System.Minded.withoutClient {s t : System} (hs : s.Minded) (htrace : t.trace = s.trace)
    (hcalls : t.calls = s.calls) (hclients : t.clients = s.clients)
    (hnone : t.controller.client = none) (hpool : t.controller.pool = s.controller.pool) :
    t.Minded := by
  have hsends : t.sends = s.sends := by
    unfold System.sends
    rw [htrace]
  refine ⟨?_, ?_, ?_, ?_, ?_⟩
  · unfold System.callCount
    rw [hcalls, hsends]
    exact hs.counted
  · rw [hsends, hclients]
    exact hs.known
  · intro id hid
    rw [hnone] at hid
    cases hid
  · intro id hid
    rw [hnone] at hid
    cases hid
  · rw [hpool]
    exact hs.idle

theorem mindful_request (r : Request) : mindful.Holds (request r) := by
  unfold request
  refine (keeps_clientFor _).bind fun id => (mindful_emit rfl).bind fun _ => ?_
  refine (holds_clientState id).bind fun client =>
    (mindful_meetFault r.name_ne_send _).bind fun _ => ?_
  split
  · split
    · exact holds_modify fun s hs => ⟨hs.withoutClient rfl rfl rfl rfl rfl, rfl⟩
    · exact holds_pure _
  · exact holds_pure _

theorem mindful_createClient : mindful.Holds createClient := by
  unfold createClient
  refine holds_get.bind fun s => (mindful_emit rfl).bind fun _ => ?_
  refine (mindful_meetFault (by decide) _).bind fun _ => holds_modify fun s hs => ⟨?_, rfl⟩
  have hnew : s.asked s.clients.size = [] :=
    asked_eq_nil fun sent hsent => Nat.ne_of_lt (hs.known sent hsent)
  refine ⟨hs.counted, ?_, ?_, ?_, hs.idle⟩
  · intro sent hsent
    rw [Array.size_push]
    exact Nat.lt_succ_of_lt (hs.known sent hsent)
  · intro id hid
    cases hid
    rw [Array.size_push]
    exact Nat.lt_succ_self _
  · intro id hid enable henable
    cases hid
    replace henable : enable ∈ (s.asked s.clients.size).getLast? := henable
    rw [hnew] at henable
    cases henable

theorem mindful_clientReading (reading : Client → Number) (member : String) :
    mindful.Holds (clientReading reading member) :=
  (keeps_clientFor member).bind fun id => (holds_clientState id).giving

theorem run_awaitTasks_of_idle {s : System} (h : s.controller.pool.tracked = [])
    (timeout : Number) : (awaitTasks timeout).run s = .ok () s := by
  unfold awaitTasks controller
  simp [h]

theorem mindful_disconnect : mindful.Holds disconnect := by
  intro s
  by_cases hidle : s.controller.pool.tracked = []
  · have hawait : mindful.HoldsAt s (awaitTasks (.real 30.0)) :=
      .of_ok (run_awaitTasks_of_idle hidle _) (mindful.refl s)
    refine hawait.bind fun _ t _ => ?_
    refine (holds_controller.bind fun c => holds_when (fun rest => ?_) ?_) t
    · exact ((mindful_request .stop).tryCatch (fun h => h) fun _ => holds_pure _).bind
        fun _ => rest
    · exact Holds.bind (holds_modify fun u hu => ⟨hu.withoutClient rfl rfl rfl rfl rfl, rfl⟩)
        fun _ => keeps_print _
  · -- a system in order keeps track of no task
    exact .of_outcomes (fun _ _ _ hs => absurd hs.idle hidle) fun _ _ _ hs =>
      absurd hs.idle hidle

/-! ## Connecting -/

theorem minded_calling {s : System} {id : ClientId} {enable : Bool}
    (hcounted : s.callCount "send" = s.sends.length)
    (hknown : ∀ sent ∈ s.sends, sent.1 < s.clients.size) (hid : s.controller.client = some id)
    (hcurrent : id < s.clients.size) (henable : enable = s.controller.cliffEnabled)
    (hidle : s.controller.pool.tracked = []) :
    (s.calling (.send id (.stopOnCliff enable)) "send").Minded := by
  refine ⟨?_, ?_, ?_, ?_, hidle⟩
  · rw [s.sends_calling, s.callCount_calling, if_pos rfl, hcounted, List.length_append]
    rfl
  · intro sent hsent
    rw [s.sends_calling] at hsent
    rcases List.mem_append.mp hsent with hsent | hsent
    · exact hknown sent hsent
    · rw [List.mem_singleton.mp hsent]
      exact hcurrent
  · intro other hother
    rw [System.controller_calling, hid] at hother
    cases hother
    exact hcurrent
  · intro other hother
    rw [System.controller_calling, hid] at hother
    cases hother
    unfold System.asked
    rw [s.sends_calling, List.filterMap_append]
    simp [cliffSetting?, henable]

theorem mindful_of_minded {s : System} {x : Act α} (h : s.Minded → mindful.HoldsAt s x) :
    mindful.HoldsAt s x := by
  by_cases hs : s.Minded
  · exact h hs
  · exact .of_outcomes (fun _ _ _ hminded => absurd hminded hs) fun _ _ _ hminded =>
      absurd hminded hs

theorem mindful_send {s : System} {enable : Bool} (henable : enable = s.controller.cliffEnabled) :
    mindful.HoldsAt s (send (.stopOnCliff enable)) := by
  refine mindful_of_minded fun hs => ?_
  cases hid : s.controller.client with
  | none =>
    have hrun := run_send_of_none (.stopOnCliff enable) hid
    refine .of_outcomes (fun a t h => ?_) fun e t h => ?_
    · rw [hrun] at h
      cases h
    · rw [hrun] at h
      cases h
      exact mindful.refl s
  | some id =>
    have hrun := run_send_planned (.stopOnCliff enable) hid
    have hcalling : (s.calling (.send id (.stopOnCliff enable)) "send").Minded :=
      minded_calling hs.counted hs.known hid (hs.current id hid) henable hs.idle
    refine .of_outcomes (fun a t h => ?_) fun e t h => ?_
    all_goals
      rw [hrun] at h
      unfold callResult at h
      split at h <;> cases h
      exact fun _ => ⟨hcalling, rfl⟩

/-- Where the flag is set, the client is told to stop the robot at edges. -/
theorem mindful_setupCliffDetection {s : System} (hflag : s.controller.cliffEnabled = true) :
    mindful.HoldsAt s setupCliffDetection := by
  refine mindful_of_minded fun hs => ?_
  unfold setupCliffDetection
  refine (holds_controller s).bind fun c t hc => ?_
  obtain ⟨rfl, rfl⟩ : s.controller = c ∧ s = t := by
    cases hc
    exact ⟨rfl, rfl⟩
  split
  · refine (mindful_request _ s).bind fun _ u hrequest => ?_
    have hkept := ((mindful_request _ s).yields hrequest hs).2
    exact mindful_send (by rw [hkept, hflag])
  · exact holds_pure _ s

theorem mindful_examine : mindful.Holds examine := by
  unfold examine
  refine (keeps_pause _).bind fun _ => holds_controller.bind fun c => ?_
  split
  · exact (keeps_print _).giving
  refine (mindful_request _).bind fun _ => (keeps_pause _).bind fun _ => ?_
  refine (mindful_clientReading _ _).bind fun serial => ?_
  split
  · exact (keeps_print _).bind fun _ => mindful_disconnect.giving
  refine (mindful_clientReading _ _).bind fun battery => ?_
  split
  · exact (keeps_print _).bind fun _ => mindful_disconnect.giving
  refine (mindful_request _).bind fun _ => (keeps_pause _).bind fun _ => fun s => ?_
  -- the flag is read in the state in which it is acted upon
  refine (holds_controller s).bind fun c t hc => ?_
  obtain ⟨rfl, rfl⟩ : s.controller = c ∧ s = t := by
    cases hc
    exact ⟨rfl, rfl⟩
  split
  · rename_i hflag
    exact (mindful_setupCliffDetection hflag).bind fun _ t _ => holds_pure _ t
  · exact holds_pure _ s

theorem mindful_announce : mindful.Holds announce := by
  have hset : mindful.Holds (update fun c => { c with connected := true }) :=
    holds_modify fun s hs => ⟨hs.of_same rfl rfl rfl rfl rfl rfl, rfl⟩
  unfold announce
  refine hset.bind fun _ => (keeps_print _).bind fun _ => ?_
  refine (mindful_clientReading _ _).bind fun serial => (keeps_calculate _).bind fun text => ?_
  refine (keeps_print _).bind fun _ => ?_
  refine (mindful_clientReading _ _).bind fun battery => (keeps_calculate _).bind fun text => ?_
  refine (keeps_print _).bind fun _ => holds_controller.bind fun c => ?_
  exact (keeps_print _).giving

theorem mindful_attemptConnection : mindful.Holds attemptConnection := by
  refine Holds.bind ?_ fun _ => mindful_examine.bind fun result => ?_
  · exact mindful_createClient.bind fun _ => (mindful_request _).bind fun _ => mindful_request _
  · cases result with
    | connected => exact mindful_announce
    | rejected => exact holds_pure _

theorem mindful_handling {body : Act α} {handle : Failure → Act α} (hbody : mindful.Holds body)
    (hhandle : ∀ e, mindful.Holds (handle e)) : mindful.Holds (handling body handle) := by
  refine hbody.tryCatch (fun h => h) fun e => ?_
  split
  · exact holds_throw fun s hs => ⟨hs, rfl⟩
  · exact hhandle e

theorem mindful_tryConnection (total : Int) (delay : Number) (number left : Nat) :
    mindful.Holds (tryConnection total delay number left) := by
  refine mindful_handling ((keeps_print _).bind fun _ => mindful_attemptConnection) ?_
  intro failure
  refine (keeps_print _).bind fun _ => ?_
  dsimp only
  split
  · exact (holds_forM _ fun _ _ => keeps_print _).giving
  · exact (keeps_pause _).giving

theorem mindful_connectFrom (total : Int) (delay : Number) (left : Nat) :
    ∀ number, mindful.Holds (connectFrom total delay number left) := by
  induction left with
  | zero =>
    intro number
    exact holds_pure false
  | succ left ih =>
    intro number
    rw [connectFrom_succ]
    refine (mindful_tryConnection total delay number left).bind fun result => ?_
    cases result with
    | connected => exact holds_pure true
    | rejected => exact ih (number + 1)

/-! ## Switching -/

/-- The system with the flag set. -/
def System.flagged (s : System) (enable : Bool) : System :=
  { s with controller := { s.controller with cliffEnabled := enable } }

/-- What is said about a setting that was passed on. -/
def System.settingNote (s : System) (enable : Bool) : Event :=
  let state := if enable then "enabled" else "disabled"
  .print s!"Cliff detection {state} (reaction={s.controller.cliffReaction.name})"

/-- What is said about a setting that was not. -/
def settingFailureNote (failure : Failure) : Event :=
  .print ("Error setting cliff detection: " ++ failure.message)

theorem run_enableCliffDetection_offline {s : System} (h : s.controller.connected = false)
    (enable : Bool) : (enableCliffDetection enable).run s = .ok false s := by
  unfold enableCliffDetection whenConnected controller
  simp [h]

theorem run_enableCliffDetection {s : System} (h : s.controller.connected = true)
    (enable : Bool) :
    (enableCliffDetection enable).run s =
      match (send (.stopOnCliff enable)).run (s.flagged enable) with
      | .ok _ t => .ok true (t.record (t.settingNote enable))
      | .error failure t =>
        if failure.isInterrupt then .error failure t
        else .ok false (t.record (settingFailureNote failure)) := by
  have hwhen : (enableCliffDetection enable).run s =
      (succeeding "Error setting cliff detection: " do
        update fun c => { c with cliffEnabled := enable }
        send (.stopOnCliff enable)
        let state := if enable then "enabled" else "disabled"
        print s!"Cliff detection {state} (reaction={(← controller).cliffReaction.name})"
        return true).run s := by
    unfold enableCliffDetection whenConnected controller
    simp [h]
  have hset : (update fun c => { c with cliffEnabled := enable }).run s =
      .ok () (s.flagged enable) := rfl
  rw [hwhen]
  unfold succeeding handling
  rw [run_tryCatch, EStateM.run_bind, hset]
  dsimp only
  rw [EStateM.run_bind]
  cases (send (.stopOnCliff enable)).run (s.flagged enable) with
  | ok a t => rfl
  | error failure t =>
    dsimp only
    split <;> rfl

/-- The system once a setting was sent to a client, whether it arrives or not. -/
def System.switching (s : System) (id : ClientId) (enable : Bool) : System :=
  (s.flagged enable).calling (.send id (.stopOnCliff enable)) "send"

theorem run_enableCliffDetection_of_client {s : System} {id : ClientId}
    (h : s.controller.connected = true) (hid : s.controller.client = some id) (enable : Bool) :
    (enableCliffDetection enable).run s =
      match s.world.fault? (s.faultsOf id) "send" (s.callCount "send") with
      | none => .ok true ((s.switching id enable).record (s.settingNote enable))
      | some fault =>
        if fault.failure.isInterrupt then .error fault.failure (s.switching id enable)
        else .ok false ((s.switching id enable).record (settingFailureNote fault.failure)) := by
  have hsend : (send (.stopOnCliff enable)).run (s.flagged enable) =
      callResult (s.world.fault? (s.faultsOf id) "send" (s.callCount "send"))
        (s.switching id enable) :=
    run_send_planned (s := s.flagged enable) _ hid
  rw [run_enableCliffDetection h, hsend]
  cases s.world.fault? (s.faultsOf id) "send" (s.callCount "send") <;> rfl

theorem run_enableCliffDetection_of_none {s : System} (h : s.controller.connected = true)
    (hnone : s.controller.client = none) (enable : Bool) :
    (enableCliffDetection enable).run s =
      .ok false ((s.flagged enable).record (settingFailureNote (.noClient "conn"))) := by
  rw [run_enableCliffDetection h, run_send_of_none (s := s.flagged enable) _ hnone]
  rfl

/-- Switching sets the flag in order, whether its packet arrives or not. -/
theorem minded_enableCliffDetection {s : System} (hs : s.Minded) (enable : Bool) :
    (after (enableCliffDetection enable) s).Minded := by
  cases hconnected : s.controller.connected with
  | false =>
    rw [after_of_ok (run_enableCliffDetection_offline hconnected enable)]
    exact hs
  | true =>
    cases hid : s.controller.client with
    | none =>
      have hflagged : (s.flagged enable).Minded := hs.withoutClient rfl rfl rfl hid rfl
      rw [after_of_ok (run_enableCliffDetection_of_none hconnected hid enable)]
      exact hflagged.record rfl
    | some id =>
      have hswitching : (s.switching id enable).Minded :=
        minded_calling (s := s.flagged enable) hs.counted hs.known hid (hs.current id hid) rfl
          hs.idle
      unfold after
      rw [run_enableCliffDetection_of_client hconnected hid]
      cases s.world.fault? (s.faultsOf id) "send" (s.callCount "send") with
      | none => exact hswitching.record rfl
      | some fault =>
        dsimp only
        cases fault.failure.isInterrupt with
        | true => exact hswitching
        | false => exact hswitching.record rfl

theorem received_switching {s : System} (hs : s.Minded) (id : ClientId) (enable : Bool) {e : Event}
    (he : e.sent? = none) :
    ((s.switching id enable).record e).received id =
      s.received id ++ if s.arrives id (s.callCount "send") then [enable] else [] := by
  have hdelivered : ((s.switching id enable).record e).delivered =
      s.delivered ++ if s.arrives id s.sends.length then [(id, .stopOnCliff enable)] else [] :=
    ((s.switching id enable).delivered_record he).trans
      ((s.flagged enable).delivered_calling id (.stopOnCliff enable))
  unfold System.received
  rw [hdelivered, List.filterMap_append, hs.counted]
  congr 1
  split
  · simp [cliffSetting?]
  · rfl

/-- Whatever its answer, switching sets the flag; and the client has received the setting just if
the answer is that it was passed on. -/
theorem answer_enableCliffDetection {s t : System} {enable answer : Bool} (hs : s.Minded)
    (hconnected : s.controller.connected = true)
    (hrun : (enableCliffDetection enable).run s = .ok answer t) :
    t.controller.cliffEnabled = enable ∧ ∀ id, s.controller.client = some id →
      t.received id = s.received id ++ if answer then [enable] else [] := by
  cases hid : s.controller.client with
  | none =>
    rw [run_enableCliffDetection_of_none hconnected hid] at hrun
    cases hrun
    exact ⟨rfl, fun _ h => by cases h⟩
  | some id =>
    rw [run_enableCliffDetection_of_client hconnected hid] at hrun
    have harrives : s.arrives id (s.callCount "send") =
        (s.world.fault? (s.faultsOf id) "send" (s.callCount "send")).isNone := rfl
    cases hfault : s.world.fault? (s.faultsOf id) "send" (s.callCount "send") with
    | none =>
      rw [hfault] at hrun harrives
      cases hrun
      refine ⟨rfl, fun _ h => ?_⟩
      cases h
      rw [received_switching hs id enable rfl, harrives]
      rfl
    | some fault =>
      rw [hfault] at hrun harrives
      dsimp only at hrun
      split at hrun
      · cases hrun
      · cases hrun
        refine ⟨rfl, fun _ h => ?_⟩
        cases h
        rw [received_switching hs id enable rfl, harrives]
        rfl

/-- What the flag says is what the client was last asked for, so it is true just if that is what the
client has last received. -/
theorem System.Minded.flagTrue_iff {s : System} (hs : s.Minded) :
    s.FlagTrue ↔ (s.controller.connected = true → ∀ id, s.controller.client = some id →
      s.received id ≠ [] → (s.received id).getLast? = (s.asked id).getLast?) := by
  have hasked {id : ClientId} (hid : s.controller.client = some id)
      (hreceived : s.received id ≠ []) :
      (s.asked id).getLast? = some s.controller.cliffEnabled := by
    cases hlast : (s.asked id).getLast? with
    | some enable => rw [hs.asked id hid enable hlast]
    | none =>
      have hsublist := s.received_sublist id
      rw [List.getLast?_eq_none_iff.mp hlast] at hsublist
      exact absurd (List.sublist_nil.mp hsublist) hreceived
  constructor
  · intro h hconnected id hid hreceived
    rw [hasked hid hreceived, List.getLast?_eq_some_getLast hreceived]
    congr 1
    exact h hconnected id hid _ (List.getLast?_eq_some_getLast hreceived)
  · intro h hconnected id hid enable henable
    have hreceived : s.received id ≠ [] := by
      intro hnil
      rw [hnil] at henable
      cases henable
    have hlast := h hconnected id hid hreceived
    rw [hasked hid hreceived, Option.mem_def.mp henable] at hlast
    exact Option.some.inj hlast

end RobotConsole.Robot

namespace RobotConsole.Console

open Contract Robot
open Command (Verb)

/-- Whether an operation has to do with the link to the robot or with edges, and nothing else. -/
def Operation.mindsEdges : Operation → Bool
  | .connect _ _ | .disconnect => true
  | .execute c => c.verb == .connect || c.verb == .cliff

theorem minded_connect {s : System} (hs : s.Minded) (retries : Int) (delay : Number) :
    (after (connect retries delay) s).Minded :=
  mindful_after (mindful_connectFrom retries delay _ 1 s) hs

theorem mindful_setCliffReaction (name : String) : mindful.Holds (setCliffReaction name) := by
  unfold setCliffReaction
  dsimp only
  split
  · exact (keeps_print _).giving
  · exact Holds.bind (holds_modify fun s hs => ⟨hs.of_same rfl rfl rfl rfl rfl rfl, rfl⟩) fun _ =>
      (keeps_print _).giving

theorem minded_cliff {s : System} (hs : s.Minded) (args : List String) (options : Command.Options) :
    (after (carryOut .cliff args options) s).Minded := by
  have hreaction (name : String) := mindful_setCliffReaction name s
  unfold carryOut
  dsimp only
  cases hrun : (setCliffReaction (optionOf .cliff options "reaction").plain).run s with
  | ok answer t =>
    rw [after_bind_of_ok hrun]
    exact minded_enableCliffDetection ((hreaction _).yields hrun hs).1 _
  | error e t =>
    rw [after_bind_of_error hrun]
    exact ((hreaction _).fails hrun hs).1

theorem Operation.minded_perform {op : Operation} (hop : op.mindsEdges = true) {s : System}
    (hs : s.Minded) : (after op.perform s).Minded := by
  cases op with
  | connect retries delay =>
    unfold Operation.perform
    rw [after_bind_pure]
    exact minded_connect hs retries delay
  | disconnect => exact mindful_after (mindful_disconnect s) hs
  | execute c =>
    have hnote : (s.record (commandNote c)).Minded := hs.record rfl
    unfold Operation.perform
    rw [after_bind_pure, after_execute]
    rcases Bool.or_eq_true_iff.mp hop with hverb | hverb
    · rw [beq_iff_eq.mp hverb]
      exact minded_connect hnote _ _
    · rw [beq_iff_eq.mp hverb]
      exact minded_cliff hnote _ _

theorem minded_afterOperations {ops : List Operation} (hops : ∀ op ∈ ops, op.mindsEdges = true)
    {s : System} (hs : s.Minded) : (afterOperations ops s).Minded := by
  induction ops generalizing s with
  | nil => exact hs
  | cons op rest ih =>
    have hop : op.mindsEdges = true := hops op List.mem_cons_self
    exact ih (fun other hother => hops other (List.mem_cons_of_mem _ hother))
      (op.minded_perform hop hs)

theorem minded_fresh (world : World) (files : Storage.Files) :
    System.Minded { world, files } where
  counted := rfl
  known sent hsent := by cases hsent
  current id hid := by cases hid
  asked id hid := by cases hid
  idle := rfl

/-- When the flag about edges tells the truth, after any operations on a fresh controller that have
to do with its link or with edges, in any world. It is true just if what the current client has last
received is also what it was last asked for. Switching sets the flag whatever comes of its packet,
so that a switch which is answered with no leaves the flag as it was only if there is no connection,
or nothing to switch. -/
theorem cliff_flag_true_iff {world : World} {files : Storage.Files} {ops : List Operation}
    (hops : ∀ op ∈ ops, op.mindsEdges = true) {s : System}
    (hs : afterOperations ops { world, files } = s) :
    (s.FlagTrue ↔ (s.controller.connected = true → ∀ id, s.controller.client = some id →
      s.received id ≠ [] → (s.received id).getLast? = (s.asked id).getLast?)) ∧
    (∀ enable answer t, s.controller.connected = true →
      (enableCliffDetection enable).run s = .ok answer t →
        t.controller.cliffEnabled = enable ∧ ∀ id, s.controller.client = some id →
          t.received id = s.received id ++ if answer then [enable] else []) ∧
    ∀ enable t, (enableCliffDetection enable).run s = .ok false t →
      (t.controller.cliffEnabled = s.controller.cliffEnabled ↔
        s.controller.connected = false ∨ enable = s.controller.cliffEnabled) := by
  have hminded : s.Minded := hs ▸ minded_afterOperations hops (minded_fresh world files)
  refine ⟨hminded.flagTrue_iff, ?_, ?_⟩
  · intro enable answer t hconnected hrun
    exact answer_enableCliffDetection hminded hconnected hrun
  · intro enable t hrun
    cases hconnected : s.controller.connected with
    | false =>
      rw [run_enableCliffDetection_offline hconnected] at hrun
      cases hrun
      simp
    | true =>
      obtain ⟨hflag, -⟩ := answer_enableCliffDetection hminded hconnected hrun
      rw [hflag]
      simp

/-- A world in which every packet but the first is lost. -/
def lossyWorld : World :=
  { clock := 0
    directory := { root := "/", names := [] }
    faults := [("send", { skip := 1 })] }

/-- The operations that connect and then carry out a command. -/
def connectAnd (c : Command) : List Operation :=
  [.connect 1 (.real 2.0), .execute c]

/-- Whether the controller is connected through a client that was asked to stop minding edges and
has not heard of it. -/
def isMisled (s : System) (id : ClientId) : Bool :=
  s.controller.connected && s.controller.client == some id && s.received id == [true] &&
    s.asked id == [true, false]

/-- A controller that is connected and has its packet lost says that the robot does not stop at
edges, though it does. -/
theorem cliff_flag_false_once_lost :
    ∃ c, Command.parse "cliff enable=false" = .ok (some c) ∧
      (∀ op ∈ connectAnd c, op.mindsEdges = true) ∧
      isMisled (afterOperations (connectAnd c) { world := lossyWorld, files := [] }) 0 = true ∧
      ¬(afterOperations (connectAnd c) { world := lossyWorld, files := [] }).FlagTrue := by
  have hcheck : Command.parsesTo "cliff enable=false" (fun c => c.verb == .cliff &&
      isMisled (afterOperations (connectAnd c) { world := lossyWorld, files := [] }) 0) = true := by
    decide +kernel
  obtain ⟨c, hparse, hc⟩ := Command.exists_of_parsesTo hcheck
  obtain ⟨hverb, hmisled⟩ := Bool.and_eq_true_iff.mp hc
  have hops : ∀ op ∈ connectAnd c, op.mindsEdges = true := by
    intro op hop
    rcases List.mem_cons.mp hop with rfl | hop
    · rfl
    · rw [List.mem_singleton.mp hop]
      exact Bool.or_eq_true_iff.mpr (.inr hverb)
  refine ⟨c, hparse, hops, hmisled, fun htrue => ?_⟩
  unfold isMisled at hmisled
  simp only [Bool.and_eq_true, beq_iff_eq] at hmisled
  obtain ⟨⟨⟨hconnected, hclient⟩, hreceived⟩, hasked⟩ := hmisled
  have hlast := (cliff_flag_true_iff hops rfl).1.mp htrue hconnected 0 hclient
    (by rw [hreceived]; exact List.cons_ne_nil _ _)
  rw [hreceived, hasked] at hlast
  cases hlast

end RobotConsole.Console
