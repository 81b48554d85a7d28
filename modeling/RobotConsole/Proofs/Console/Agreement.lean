import RobotConsole.Proofs.Console.Leaks
import RobotConsole.Proofs.Robot.Governing

/-!
# The answer of connecting

Connecting answers whether there is a connection, and the controller has a flag that says so, too.
An attempt to connect has three parts: a client is made and asked to connect, it is examined, and
the connection is announced. The flag is set where the announcement begins, and cleared where the
examination rejects the client. So what becomes of it follows from the verdicts of the attempts
(`connected_connectFrom`), and an attempt without a verdict leaves it as it was.
-/

namespace RobotConsole.Robot

open Contract

variable {α : Type}

/-- The ways in which the controller keeps its client and its flag. -/
def linkKept : Ways where
  allow c d := d.client = c.client ∧ d.connected = c.connected
  refl _ := ⟨rfl, rfl⟩
  trans h₁ h₂ := ⟨h₂.1.trans h₁.1, h₂.2.trans h₁.2⟩

/-- The ways in which the controller keeps its flag. -/
def flagKept : Ways where
  allow c d := d.connected = c.connected
  refl _ := rfl
  trans h₁ h₂ := h₂.trans h₁

instance : AdmitsTasks (governs linkKept) where
  toAdmits := admits_governs fun hclient hconnected _ => ⟨hclient, hconnected⟩
  finish _ := holds_modify fun _ => ⟨rfl, rfl⟩
  sweep := holds_modify fun _ => ⟨rfl, rfl⟩
  startTask := holds_startTask (fun _ => holds_modify fun _ => ⟨rfl, rfl⟩) (governs_emit _)
    (holds_meetRefusal id (governs_meetFault _ []) fun _ => ⟨rfl, rfl⟩)

instance : Admits (governs flagKept) :=
  admits_governs fun _ hconnected _ => hconnected

theorem connected_of_flagKept {x : Act α} (hx : (governs flagKept).Holds x) (s : System) :
    (after x s).controller.connected = s.controller.connected :=
  yields_after hx s

/-! ## The parts of an attempt -/

/-- The contract of actions that leave the link to the robot alone. -/
abbrev sparing : Contract Failure System :=
  (governs linkKept).and (grows fun _ => True)

/-- What has become of the link when an examination is over: it is as it was if the client is
accepted, and gone if it is rejected. -/
def Examined (s : System) : EStateM.Result Failure System Attempt → Prop
  | .ok .connected t => sparing.yields s t
  | .ok .rejected t => t.controller.connected = false
  | .error _ t => t.controller.connected = s.controller.connected

/-- An action that examines the current client. -/
def Examines (x : Act Attempt) : Prop :=
  ∀ s id, s.controller.client = some id → Examined s (x.run s)

theorem Examines.bind {x : Act α} {f : α → Act Attempt} (hx : sparing.Holds x)
    (hf : ∀ a, Examines (f a)) : Examines (x >>= f) := by
  intro s id hid
  rw [EStateM.run_bind]
  cases hrun : x.run s with
  | error e t => exact ((hx s).fails hrun).1.2
  | ok a t =>
    have ht : sparing.yields s t := (hx s).yields hrun
    have hexamined := hf a t id (ht.1.1.trans hid)
    dsimp only
    cases hrest : (f a).run t with
    | error e u =>
      rw [hrest] at hexamined
      exact hexamined.trans ht.1.2
    | ok result u =>
      rw [hrest] at hexamined
      cases result with
      | connected => exact sparing.trans ht hexamined
      | rejected => exact hexamined

/-- A disconnection clears the flag, unless the wait for the tasks fails. -/
theorem examines_rejected : Examines (do disconnect; return .rejected) := by
  intro s id _
  rw [disconnect_eq, bind_assoc, EStateM.run_bind]
  cases hrun : (awaitTasks releaseTimeout).run s with
  | error e t => exact ((keeps_awaitTasks (c := governs linkKept) _ s).fails hrun).2
  | ok a t =>
    obtain ⟨u, hup, -⟩ := run_hangUp t
    dsimp only
    rw [EStateM.run_bind, hup]
    rfl

theorem examines_client {rest refused : Act Attempt} (hrest : Examines rest) :
    Examines (controller >>= fun c => if c.client.isNone then refused else rest) := by
  intro s id hid
  show Examined s ((if s.controller.client.isNone then refused else rest).run s)
  rw [hid]
  exact hrest s id hid

theorem examines_examine : Examines examine :=
  examine_of_steps .bind examines_client examines_rejected fun s _ _ => sparing.refl s

theorem isNone_of_accepted {s t : System} (h : examine.run s = .ok .connected t) :
    s.controller.client.isNone = false := by
  cases hclient : s.controller.client with
  | some id => rfl
  | none =>
    obtain ⟨u, -, -, hrun | ⟨failure, hrun⟩⟩ := run_examine_of_none hclient <;>
    · rw [hrun] at h
      cases h

/-- Once it is set the flag stays so, whatever becomes of the announcement. -/
theorem connected_announce (s : System) : (after announce s).controller.connected = true := by
  have hset : (update fun c => { c with connected := true }).run s =
      .ok () { s with controller := { s.controller with connected := true } } := rfl
  unfold announce
  rw [after_bind_of_ok hset, connected_of_flagKept]
  refine (keeps_print _).bind fun _ => (keeps_clientReading _ _).bind fun serial => ?_
  refine (keeps_calculate _).bind fun text => (keeps_print _).bind fun _ => ?_
  refine (keeps_clientReading _ _).bind fun battery => ?_
  refine (keeps_calculate _).bind fun text => (keeps_print _).bind fun _ => ?_
  exact holds_controller.bind fun c => (keeps_print _).giving

/-! ## The verdict of an attempt -/

/-- Whether the client of an attempt is accepted. There is no verdict if the attempt fails before
its examination is over, or loses its client. -/
def verdict? (s : System) : Option Bool :=
  match connectClient.run s with
  | .error _ _ => none
  | .ok _ t =>
    if t.controller.client.isNone then none
    else
      match examine.run t with
      | .ok .connected _ => some true
      | .ok .rejected _ => some false
      | .error _ _ => none

/-- The client that an attempt makes, if both its start and its connecting come to their end. -/
def answeredClient? (s : System) : Option ClientId :=
  match connectClient.run s with
  | .error _ _ => none
  | .ok _ _ => some s.clients.size

theorem keeps_connectClient :
    ((governs flagKept).and (grows fun _ => True)).Holds connectClient := by
  have hcreate : ((governs flagKept).and (grows fun _ => True)).Holds createClient :=
    (governs_createClient fun _ _ => rfl).and (grows_createClient fun _ => trivial)
  have hrequest (r : Request) : ((governs flagKept).and (grows fun _ => True)).Holds (request r) :=
    (governs_request fun _ _ => rfl).and (grows_request fun _ => trivial)
  exact hcreate.bind fun _ => (hrequest _).bind fun _ => hrequest _

/-- The flag after an attempt is its verdict, and what it was before if there is none. -/
theorem connected_attemptConnection (s : System) :
    (after attemptConnection s).controller.connected =
      (verdict? s).getD s.controller.connected := by
  rw [attemptConnection]
  unfold verdict?
  cases hconnect : connectClient.run s with
  | error e t =>
    rw [after_bind_of_error hconnect]
    exact ((keeps_connectClient s).fails hconnect).1
  | ok a t =>
    have ht : t.controller.connected = s.controller.connected :=
      ((keeps_connectClient s).yields hconnect).1
    rw [after_bind_of_ok hconnect, ← ht]
    dsimp only
    cases hclient : t.controller.client with
    | none =>
      -- rejected as well, but without a disconnection
      obtain ⟨u, hu, -, hexamine | ⟨failure, hexamine⟩⟩ := run_examine_of_none hclient
      · rw [after_bind_of_ok hexamine]
        exact congrArg Controller.connected hu
      · rw [after_bind_of_error hexamine]
        exact congrArg Controller.connected hu
    | some id =>
      have hexamined := examines_examine t id hclient
      rw [if_neg (by simp)]
      cases hexamine : examine.run t with
      | error e u =>
        rw [hexamine] at hexamined
        rw [after_bind_of_error hexamine]
        exact hexamined
      | ok result u =>
        rw [hexamine] at hexamined
        rw [after_bind_of_ok hexamine]
        cases result with
        | connected => exact connected_announce u
        | rejected => exact hexamined

/-- An attempt that ends with a connection has accepted its client, which has answered. -/
theorem verdict_of_connected {s t : System} (h : attemptConnection.run s = .ok .connected t) :
    verdict? s = some true ∧ answeredClient? s = some s.clients.size := by
  rw [attemptConnection] at h
  obtain ⟨⟨⟩, u, hconnect, h⟩ := run_of_bind_ok h
  obtain ⟨result, v, hexamine, h⟩ := run_of_bind_ok h
  cases result with
  | rejected => cases h
  | connected =>
    unfold verdict? answeredClient?
    rw [hconnect]
    dsimp only
    rw [isNone_of_accepted hexamine, hexamine]
    exact ⟨rfl, rfl⟩

theorem attemptOutcome_of_connected {s t : System}
    (h : attemptConnection.run s = .ok .connected t) : attemptOutcome s = .connected := by
  rw [attemptConnection_eq] at h
  obtain ⟨⟨⟩, u, hcreate, h⟩ := run_of_bind_ok h
  obtain ⟨⟨⟩, v, hstart, h⟩ := run_of_bind_ok h
  obtain ⟨⟨⟩, w, hconnect, hverify⟩ := run_of_bind_ok h
  have hclient : w.controller.client.isNone = false := by
    obtain ⟨result, x, hexamine, h⟩ := run_of_bind_ok hverify
    cases result with
    | rejected => cases h
    | connected => exact isNone_of_accepted hexamine
  unfold attemptOutcome
  rw [hcreate]
  dsimp only
  rw [hstart]
  dsimp only
  rw [hconnect]
  dsimp only
  rw [hclient, hverify]
  rfl

/-! ## Clients whose numbers can be written down -/

/-- A client whose serial number and battery voltage can be written down. -/
structure Client.Legible (client : Client) : Prop where
  serial : client.serial.isWritable = true
  battery : ∃ text, client.battery.fixed 2 = .ok text

/-- A system all of whose clients, those to come included, have numbers that can be written down. -/
structure System.Legible (s : System) : Prop where
  planned : ∀ count, (s.world.clientAfter count).Legible
  created : ∀ (id : ClientId) (client : Client), s.clients[id]? = some client → client.Legible

theorem Grows.legible {P : Event → Prop} {s t : System} (h : Grows P s t) (hs : s.Legible) :
    t.Legible := by
  refine ⟨fun count => ?_, fun id client hclient => ?_⟩
  · rw [h.world]
    exact hs.planned count
  · rcases h.clients id client hclient with hclient | ⟨count, rfl⟩
    · exact hs.created id client hclient
    · exact hs.planned count

theorem System.Legible.client {s : System} (hs : s.Legible) (id : ClientId) :
    ((s.clients[id]?).getD {}).Legible := by
  cases hclient : s.clients[id]? with
  | none => exact ⟨rfl, _, rfl⟩
  | some client => exact hs.created id client hclient

theorem run_clientReading {s : System} {id : ClientId} (hid : s.controller.client = some id)
    (reading : Client → Number) (member : String) :
    (clientReading reading member).run s = .ok (reading ((s.clients[id]?).getD {})) s := by
  unfold clientReading
  rw [EStateM.run_bind, run_clientFor hid]
  rfl

/-- The numbers of the client are all that an announcement can fail at. -/
theorem run_announce {s : System} {id : ClientId} (hid : s.controller.client = some id)
    (hs : s.Legible) : ∃ t, announce.run s = .ok .connected t := by
  obtain ⟨hserial, text, htext⟩ := hs.client id
  let t := { s with controller := { s.controller with connected := true } }
  have hset : (update fun c => { c with connected := true }).run s = .ok () t := rfl
  have hread (u : System) (hu : u.controller.client = some id) (hclients : u.clients = s.clients)
      (reading : Client → Number) (member : String) :
      (clientReading reading member).run u = .ok (reading ((s.clients[id]?).getD {})) u := by
    rw [run_clientReading hu, hclients]
  have hwritten (u : System) :
      (calculate ((s.clients[id]?).getD {}).serial.written).run u =
        .ok ((s.clients[id]?).getD {}).serial.plain u := by
    rw [written_eq hserial]
    rfl
  have hcalculate (u : System) :
      (calculate (((s.clients[id]?).getD {}).battery.fixed 2)).run u = .ok text u := by
    rw [htext]
    rfl
  unfold announce print
  simp only [EStateM.run_bind, hset, run_emit_eq]
  rw [hread (t.record _) hid rfl]
  dsimp only
  rw [hwritten]
  dsimp only
  rw [hread ((t.record _).record _) hid rfl]
  dsimp only
  rw [hcalculate]
  exact ⟨_, rfl⟩

/-- An attempt that accepts its client ends with a connection if its numbers can be written down. -/
theorem run_attemptConnection_of_accepted {s : System} (hs : s.Legible)
    (h : verdict? s = some true) : ∃ t, attemptConnection.run s = .ok .connected t := by
  unfold verdict? at h
  rw [attemptConnection, EStateM.run_bind]
  cases hconnect : connectClient.run s with
  | error e t =>
    rw [hconnect] at h
    cases h
  | ok a t =>
    have hgrows : Grows _ s t := ((keeps_connectClient s).yields hconnect).2
    rw [hconnect] at h
    dsimp only at h ⊢
    cases hclient : t.controller.client with
    | none =>
      rw [hclient] at h
      cases h
    | some id =>
      have hexamined := examines_examine t id hclient
      rw [hclient] at h
      rw [EStateM.run_bind]
      cases hexamine : examine.run t with
      | error e u =>
        rw [hexamine] at h
        cases h
      | ok result u =>
        rw [hexamine] at h hexamined
        cases result with
        | rejected => cases h
        | connected =>
          obtain ⟨⟨hlink, -⟩, hmore⟩ := hexamined
          exact run_announce (hlink.trans hclient) (hmore.legible (hgrows.legible hs))

/-! ## Connecting -/

theorem keeps_attemptReport {c : Contract Failure System} [AdmitsLocal c] (delay : Number)
    (left : Nat) (failure : Failure) : c.Holds (do
      print s!"✗ Connection failed: {failure.message}"
      if left == 0 then troubleshooting.forM print else pause delay
      return Attempt.rejected) := by
  refine (keeps_print _).bind fun _ => ?_
  dsimp only
  split
  · exact (keeps_printLines _ _).giving
  · exact (keeps_pause _).giving

theorem connected_handling (body : Act α) {handle : Failure → Act α}
    (hhandle : ∀ e, (governs flagKept).Holds (handle e)) (s : System) :
    (after (handling body handle) s).controller.connected =
      (after body s).controller.connected := by
  cases hbody : body.run s with
  | ok a t => rw [after_of_ok (run_handling_of_ok hbody), after_of_ok hbody]
  | error failure t =>
    rw [after_of_error hbody]
    cases hinterrupt : failure.isInterrupt with
    | true => rw [after_of_error (run_handling_of_interrupt hbody hinterrupt)]
    | false =>
      have hafter : after (handling body handle) s = after (handle failure) t := by
        unfold after
        rw [run_handling_of_failure hbody hinterrupt]
      rw [hafter]
      exact connected_of_flagKept (hhandle failure) t

theorem connected_tryConnection (total : Int) (delay : Number) (number left : Nat) (s : System) :
    (after (tryConnection total delay number left) s).controller.connected =
      (verdict? (s.record (attemptNote total number))).getD s.controller.connected := by
  unfold tryConnection
  rw [connected_handling _ (keeps_attemptReport delay left)]
  exact connected_attemptConnection (s.record (attemptNote total number))

/-- The result of an attempt is a connection just if the attempt has not failed and says so. -/
theorem run_tryConnection {total : Int} {delay : Number} {number left : Nat} {s t : System}
    {result : Attempt} (h : (tryConnection total delay number left).run s = .ok result t) :
    result = .connected ↔
      ∃ u, attemptConnection.run (s.record (attemptNote total number)) = .ok .connected u := by
  have hattempt : (do print s!"Connecting to Cozmo... (attempt {number}/{total})"
                      attemptConnection : Act Attempt).run s =
      attemptConnection.run (s.record (attemptNote total number)) := rfl
  unfold tryConnection at h
  cases hbody : attemptConnection.run (s.record (attemptNote total number)) with
  | ok a u =>
    rw [hbody] at hattempt
    rw [run_handling_of_ok hattempt] at h
    cases h
    simp
  | error failure u =>
    rw [hbody] at hattempt
    cases hinterrupt : failure.isInterrupt with
    | true =>
      rw [run_handling_of_interrupt hattempt hinterrupt] at h
      cases h
    | false =>
      rw [run_handling_of_failure hattempt hinterrupt] at h
      have hresult : result = .rejected := by
        obtain ⟨⟨⟩, v, -, h⟩ := run_of_bind_ok h
        dsimp only at h
        split at h <;>
        · obtain ⟨⟨⟩, w, -, h⟩ := run_of_bind_ok h
          cases h
          rfl
      simp [hresult]

/-- The states in which the attempts begin, from the attempt `number` on. -/
def attemptsFrom (total : Int) (delay : Number) (number : Nat) : Nat → System → List System
  | 0, _ => []
  | left + 1, s =>
    s.record (attemptNote total number) ::
      match (tryConnection total delay number left).run s with
      | .ok .rejected t => attemptsFrom total delay (number + 1) left t
      | _ => []

/-- The states in which the attempts to connect begin. -/
def connectionAttempts (retries : Int) (delay : Number) (s : System) : List System :=
  attemptsFrom retries delay 1 retries.toNat s

/-- The last verdict of attempts, or what there was before if they have none. -/
def lastVerdict (before : Bool) (attempts : List System) : Bool :=
  (attempts.filterMap verdict?).getLast?.getD before

theorem lastVerdict_cons (before : Bool) (s : System) (rest : List System) :
    lastVerdict before (s :: rest) = lastVerdict ((verdict? s).getD before) rest := by
  unfold lastVerdict
  cases hverdict : verdict? s with
  | none => simp [hverdict]
  | some verdict => simp [hverdict, List.getLast?_cons]

/-- Where no client is accepted the last verdict is a rejection as soon as there is one. -/
theorem lastVerdict_eq_false_iff {attempts : List System}
    (h : ∀ u ∈ attempts, verdict? u ≠ some true) (before : Bool) :
    lastVerdict before attempts = false ↔
      before = false ∨ ∃ u ∈ attempts, verdict? u = some false := by
  induction attempts generalizing before with
  | nil => simp [lastVerdict]
  | cons s rest ih =>
    rw [lastVerdict_cons, ih fun u hu => h u (List.mem_cons_of_mem _ hu)]
    cases hverdict : verdict? s with
    | none => simp [hverdict]
    | some verdict =>
      cases verdict with
      | false => simp [hverdict]
      | true => exact absurd hverdict (h s List.mem_cons_self)

theorem connected_connectFrom (total : Int) (delay : Number) (left : Nat) :
    ∀ number s, (after (connectFrom total delay number left) s).controller.connected =
      lastVerdict s.controller.connected (attemptsFrom total delay number left s) := by
  induction left with
  | zero => exact fun _ _ => rfl
  | succ left ih =>
    intro number s
    have hattempt := connected_tryConnection total delay number left s
    rw [connectFrom_succ]
    unfold attemptsFrom
    -- the flag after this attempt is the one that the attempts to come start with
    rw [lastVerdict_cons, ← hattempt]
    cases hrun : (tryConnection total delay number left).run s with
    | error e t =>
      rw [after_bind_of_error hrun, after_of_error hrun]
      rfl
    | ok result t =>
      rw [after_bind_of_ok hrun, after_of_ok hrun]
      cases result with
      | connected => rfl
      | rejected => exact ih _ t

/-- A connection that is made is one with a client that has answered. -/
theorem connected_of_connectFrom (total : Int) (delay : Number) (left : Nat) :
    ∀ number s {t}, (connectFrom total delay number left).run s = .ok true t →
      t.controller.connected = true ∧
        ∃ id ∈ (attemptsFrom total delay number left s).filterMap answeredClient?,
          t.controller.client = some id := by
  induction left with
  | zero =>
    intro number s t h
    cases h
  | succ left ih =>
    intro number s t h
    rw [connectFrom_succ] at h
    obtain ⟨result, u, hrun, h⟩ := run_of_bind_ok h
    unfold attemptsFrom
    rw [hrun, List.filterMap_cons]
    cases result with
    | connected =>
      cases h
      obtain ⟨v, hattempt⟩ := (run_tryConnection hrun).mp rfl
      obtain ⟨hverdict, hanswered⟩ := verdict_of_connected hattempt
      have hconnected := connected_tryConnection total delay number left s
      have hbooks := books_tryConnection total delay number left s
      rw [after_of_ok hrun, hverdict] at hconnected
      rw [after_of_ok hrun, attemptOutcome_of_connected hattempt] at hbooks
      -- by the books the current client is the one that this attempt has made
      rw [hanswered]
      exact ⟨hconnected, _, List.mem_cons_self, congrArg Books.client hbooks⟩
    | rejected =>
      obtain ⟨hconnected, id, hid, hclient⟩ := ih (number + 1) u h
      refine ⟨hconnected, id, ?_, hclient⟩
      split
      · exact hid
      · exact List.mem_cons_of_mem _ hid

theorem grows_tryConnection (total : Int) (delay : Number) (number left : Nat) :
    (grows fun _ => True).Holds (tryConnection total delay number left) :=
  keeps_handling ((keeps_print _).bind fun _ =>
    keeps_attemptConnection (grows_createClient fun _ => trivial)) (keeps_attemptReport delay left)

/-- Where the numbers of clients can be written down, connecting without success has accepted no
client. -/
theorem verdict_of_connectFrom (total : Int) (delay : Number) (left : Nat) :
    ∀ number s, s.Legible → ∀ {t}, (connectFrom total delay number left).run s = .ok false t →
      ∀ u ∈ attemptsFrom total delay number left s, verdict? u ≠ some true := by
  induction left with
  | zero =>
    intro number s _ t _ u hu
    cases hu
  | succ left ih =>
    intro number s hs t h v hv
    rw [connectFrom_succ] at h
    obtain ⟨result, u, hrun, h⟩ := run_of_bind_ok h
    have hgrows : Grows _ s u := (grows_tryConnection total delay number left s).yields hrun
    unfold attemptsFrom at hv
    rw [hrun] at hv
    cases result with
    | connected => cases h
    | rejected =>
      -- had this attempt accepted its client, it would have led to a connection
      rcases List.mem_cons.mp hv with rfl | hv
      · intro haccepted
        have hlegible : (s.record (attemptNote total number)).Legible :=
          ⟨hs.planned, hs.created⟩
        cases (run_tryConnection hrun).mpr
          (run_attemptConnection_of_accepted hlegible haccepted)
      · exact ih (number + 1) u (hgrows.legible hs) h v hv

end RobotConsole.Robot

namespace RobotConsole.Console

open Contract Robot

/-- The states in which the attempts to connect begin that are part of an operation. -/
def Operation.attempts : Operation → System → List System
  | .connect retries delay, s => connectionAttempts retries delay s
  | .disconnect, _ => []
  | .execute c, s =>
    if c.verb = .connect then
      connectionAttempts defaultRetries defaultDelay (s.record (commandNote c))
    else []

/-- The clients that have answered during operations: both their start and their connecting came to
their end. -/
def answeredClients : List Operation → System → List ClientId
  | [], _ => []
  | op :: rest, s =>
    (op.attempts s).filterMap answeredClient? ++ answeredClients rest (after op.perform s)

theorem answeredClients_append (ops more : List Operation) (s : System) :
    answeredClients (ops ++ more) s =
      answeredClients ops s ++ answeredClients more (afterOperations ops s) := by
  induction ops generalizing s with
  | nil => rfl
  | cons op rest ih =>
    show (op.attempts s).filterMap answeredClient? ++ answeredClients (rest ++ more) _ = _
    rw [ih, ← List.append_assoc]
    rfl

/-- The answer of connecting agrees with the controller. It is that there is a connection just if
the flag says so and the current client is one that has answered; and if it is that there is none,
the flag says that, too. -/
structure Agrees (answer : Bool) (t : System) (answered : List ClientId) : Prop where
  right : answer = true ↔
    t.controller.connected = true ∧ ∃ id ∈ answered, t.controller.client = some id
  refused : answer = false → t.controller.connected = false

theorem agrees_of_connected {t : System} {answered : List ClientId}
    (hconnected : t.controller.connected = true)
    (hclient : ∃ id ∈ answered, t.controller.client = some id) : Agrees true t answered :=
  ⟨⟨fun _ => ⟨hconnected, hclient⟩, fun _ => rfl⟩, fun h => by cases h⟩

/-- An answer that there is no connection is for the flag to agree with. -/
theorem agrees_false_iff {t : System} {answered : List ClientId} :
    Agrees false t answered ↔ t.controller.connected = false := by
  refine ⟨fun h => h.refused rfl, fun h => ⟨⟨fun h => (by cases h), fun hright => ?_⟩, fun _ => h⟩⟩
  rw [h] at hright
  cases hright.1

theorem legible_afterOperations {world : World} (files : Storage.Files)
    (hworld : ∀ count, (world.clientAfter count).Legible) (ops : List Operation) :
    (afterOperations ops { world, files }).Legible := by
  have hfresh : System.Legible { world, files } := ⟨hworld, fun id client h => by simp at h⟩
  have hgrows : Grows (fun _ => True) { world, files } (afterOperations ops { world, files }) :=
    yields_afterOperations (grows_createClient fun _ => trivial)
      (fun _ => grows_send fun _ => trivial) ops _
  exact hgrows.legible hfresh

/-- When the answer of connecting agrees with the controller, after any operations on a fresh one:
if there is a connection now, or the last verdict on a client was its rejection, or there was none
and no connection before. Where the numbers of clients can be written down, only an earlier
connection stands in the way: the answer agrees unless the controller was connected and its attempts
all fail without a verdict. Then connecting denies a connection which the controller goes on to
report. -/
theorem connect_answer_agrees_iff {world : World} {files : Storage.Files} (ops : List Operation)
    {s t : System} {retries : Int} {delay : Number} {answer : Bool}
    (hs : afterOperations ops { world, files } = s)
    (hrun : (connect retries delay).run s = .ok answer t) :
    (Agrees answer t (answeredClients (ops ++ [.connect retries delay]) { world, files }) ↔
      answer = true ∨
        lastVerdict s.controller.connected (connectionAttempts retries delay s) = false) ∧
    ((∀ count, (world.clientAfter count).Legible) →
      (Agrees answer t (answeredClients (ops ++ [.connect retries delay]) { world, files }) ↔
        answer = true ∨ s.controller.connected = false ∨
          ∃ u ∈ connectionAttempts retries delay s, verdict? u = some false)) := by
  cases answer with
  | true =>
    obtain ⟨hconnected, id, hid, hclient⟩ := connected_of_connectFrom retries delay _ 1 s hrun
    have hagrees : Agrees true t
        (answeredClients (ops ++ [.connect retries delay]) { world, files }) := by
      refine agrees_of_connected hconnected ⟨id, ?_, hclient⟩
      rw [answeredClients_append, hs]
      exact List.mem_append_right _ (List.mem_append_left _ hid)
    exact ⟨iff_of_true hagrees (.inl rfl), fun _ => iff_of_true hagrees (.inl rfl)⟩
  | false =>
    have hflag : t.controller.connected =
        lastVerdict s.controller.connected (connectionAttempts retries delay s) :=
      after_of_ok hrun ▸ connected_connectFrom retries delay _ 1 s
    simp only [agrees_false_iff, hflag, Bool.false_eq_true, false_or, true_and]
    intro hworld
    have hlegible : s.Legible := hs ▸ legible_afterOperations files hworld ops
    exact lastVerdict_eq_false_iff (verdict_of_connectFrom retries delay _ 1 s hlegible hrun) _

/-- A world in which only the first client can turn the head. -/
def jammedHead : World :=
  { clock := 0
    directory := { root := "/", names := [] }
    clients := [{}, { faults := [("set_head_angle", {})] }] }

/-- The answer of an action together with the flag after it. -/
def answerAndFlag? : EStateM.Result Failure System Bool → Option (Bool × Bool)
  | .ok answer t => some (answer, t.controller.connected)
  | .error _ _ => none

theorem eq_ok_of_answerAndFlag? {r : EStateM.Result Failure System Bool} {answer flag : Bool}
    (h : answerAndFlag? r = some (answer, flag)) :
    ∃ t, r = .ok answer t ∧ t.controller.connected = flag := by
  cases r with
  | error e t => cases h
  | ok a t =>
    cases h
    exact ⟨t, rfl, rfl⟩

theorem legible_jammedHead (count : Nat) : (jammedHead.clientAfter count).Legible := by
  cases count with
  | zero => exact ⟨rfl, _, rfl⟩
  | succ count =>
    have hsecond : min (count + 1) (jammedHead.clients.length - 1) = 1 := by
      show min (count + 1) 1 = 1
      omega
    unfold World.clientAfter
    rw [hsecond]
    exact ⟨rfl, _, rfl⟩

/-- A second connection is denied, and the first one still reported. -/
theorem connection_denied_yet_reported :
    ∃ t, (connect 1 (.real 2.0)).run
        (afterOperations [.connect 1 (.real 2.0)] { world := jammedHead, files := [] }) =
          .ok false t ∧
      t.controller.connected = true ∧
      ¬Agrees false t (answeredClients [.connect 1 (.real 2.0), .connect 1 (.real 2.0)]
        { world := jammedHead, files := [] }) := by
  have hcheck : answerAndFlag? ((connect 1 (.real 2.0)).run
      (afterOperations [.connect 1 (.real 2.0)] { world := jammedHead, files := [] })) =
        some (false, true) := by decide +kernel
  obtain ⟨t, hrun, hflag⟩ := eq_ok_of_answerAndFlag? hcheck
  refine ⟨t, hrun, hflag, fun hagrees => ?_⟩
  have hcases := ((connect_answer_agrees_iff _ rfl hrun).2 legible_jammedHead).mp hagrees
  revert hcases
  decide +kernel

end RobotConsole.Console
