import RobotConsole.Proofs.Console.Release

/-!
# The custody of clients

A client that was started is in somebody's custody until it is stopped: the controller's, while it
is the current client, and nobody's after that. `Books` is what of a system has to do with this.
What an action does to the books is known exactly. Connecting is a series of attempts, each with one
of six outcomes (`books_connect`); disconnecting is one release (`books_disconnect`); and whatever
else there is leaves the books alone (`minding`).

From the books in turn one reads whether some client is still running that should not be. `Custody`
follows the steps of a run and says so at its end (`Custody.describes_replay`).
-/

namespace RobotConsole.Robot

open Contract

variable {α β : Type}

/-! ## Books -/

/-- The client that an event connects. It is asked to connect as soon as its start has come to an
end, and only then. -/
def Event.connects? : Event → Option ClientId
  | .call id .connect => some id
  | _ => none

/-- The client that an event stops. -/
def Event.stops? : Event → Option ClientId
  | .call id .stop => some id
  | _ => none

/-- What of a system has to do with the custody of clients. -/
structure Books where
  /-- The clients whose start came to an end. -/
  started : List ClientId := []
  /-- The clients that were stopped. -/
  stopped : List ClientId := []
  /-- The current client. -/
  client : Option ClientId := none
  /-- How many clients there have been. -/
  created : Nat := 0

/-- The books of a system, read off its trace, its controller and its clients. -/
def System.books (s : System) : Books where
  started := s.trace.toList.filterMap Event.connects?
  stopped := s.trace.toList.filterMap Event.stops?
  client := s.controller.client
  created := s.clients.size

theorem Event.connects?_eq_none {e : Event} (h : e.isLifecycle = false) : e.connects? = none := by
  unfold connects?
  split
  · cases h
  · rfl

theorem Event.stops?_eq_none {e : Event} (h : e.isLifecycle = false) : e.stops? = none := by
  unfold stops?
  split
  · cases h
  · rfl

theorem Appends.books {events : List Event} {s t : System} (h : Appends events s t) :
    t.books =
      { s.books with
        started := s.books.started ++ events.filterMap Event.connects?
        stopped := s.books.stopped ++ events.filterMap Event.stops? } := by
  simp only [System.books, h.controller, h.clients, h.trace, List.filterMap_append]

theorem Appends.books_eq {events : List Event} {s t : System} (h : Appends events s t)
    (hconnects : events.filterMap Event.connects? = [])
    (hstops : events.filterMap Event.stops? = []) : t.books = s.books := by
  rw [h.books, hconnects, hstops, List.append_nil, List.append_nil]

theorem System.books_record (s : System) {e : Event} (he : e.isLifecycle = false) :
    (s.record e).books = s.books := by
  have happends : Appends [e] s (s.record e) := ⟨rfl, rfl, rfl, s.trace_record e⟩
  exact happends.books_eq (List.filterMap_cons_none (Event.connects?_eq_none he))
    (List.filterMap_cons_none (Event.stops?_eq_none he))

/-! ## Work that leaves the books alone -/

/-- The contract of actions that neither start nor stop a client, nor change the current one. -/
def minding : Contract Failure System where
  yields s t := t.books = s.books
  fails _ s t := t.books = s.books
  refl _ := rfl
  trans h₁ h₂ := h₂.trans h₁
  fails_after h₁ h₂ := h₂.trans h₁

theorem books_of_minding {x : Act α} (hx : minding.Holds x) (s : System) :
    (after x s).books = s.books := by
  cases hrun : x.run s with
  | ok a t => exact after_of_ok hrun ▸ (hx s).yields hrun
  | error e t => exact after_of_error hrun ▸ (hx s).fails hrun

/-- What is done afterwards leaves the books alone, or is not done at all. -/
theorem books_bind (x : Act α) {f : α → Act β} (hf : ∀ a, minding.Holds (f a)) (s : System) :
    (after (x >>= f) s).books = (after x s).books := by
  cases hrun : x.run s with
  | error e t => rw [after_bind_of_error hrun, after_of_error hrun]
  | ok a t => rw [after_bind_of_ok hrun, after_of_ok hrun, books_of_minding (hf a)]

theorem minding_emit {e : Event} (he : e.isLifecycle = false) : minding.Holds (emit e) :=
  holds_modify fun s => s.books_record he

theorem minding_meetFault (name : String) (own : Dict Fault) :
    minding.Holds (meetFault name own) := by
  intro s
  have hbooks : (after (meetFault name own) s).books = s.books :=
    (after_meetFault name own s).books_eq rfl rfl
  exact .of_outcomes (fun _ _ hrun => after_of_ok hrun ▸ hbooks) fun _ _ hrun =>
    after_of_error hrun ▸ hbooks

theorem minding_clientFor (member : String) : minding.Holds (clientFor member) := by
  unfold clientFor
  refine holds_controller.bind fun c => ?_
  split
  · exact holds_pure _
  · exact holds_throw fun _ => rfl

theorem minding_request {r : Request} (hr : r.isLifecycle = false) :
    minding.Holds (request r) := by
  unfold request
  refine (minding_clientFor _).bind fun id => (minding_emit (e := .call id r) hr).bind fun _ => ?_
  refine (holds_clientState id).bind fun client => (minding_meetFault _ _).bind fun _ => ?_
  split
  · cases hr
  · exact holds_pure _

theorem minding_send (packet : Packet) : minding.Holds (send packet) := by
  unfold send
  refine (minding_clientFor _).bind fun id => (minding_emit rfl).bind fun _ => ?_
  exact (holds_clientState id).bind fun client => minding_meetFault _ _

theorem minding_runTool (command : List String) (output : Storage.Path) :
    minding.Holds (runTool command output) :=
  holds_runTool (minding_emit rfl) (minding_meetFault · _) fun _ _ => rfl

theorem books_of_same {s t : System} (hclients : t.clients = s.clients) (htrace : t.trace = s.trace)
    (hclient : t.controller.client = s.controller.client) : t.books = s.books := by
  simp only [System.books, hclients, htrace, hclient]

instance : AdmitsLocal minding where
  recovers h := h
  same _ hclients htrace hwork := books_of_same hclients htrace hwork.client
  throw _ _ _ := rfl
  tell {e} he := minding_emit (by cases e <;> first | rfl | cases he)
  meetInterrupt := holds_meetInterrupt id (minding_meetFault "sleep" [])

instance : AdmitsTasks minding where
  recovers h := h
  fails_then h₁ h₂ := h₂.trans h₁
  same _ hclients htrace hclient _ _ _ _ := books_of_same hclients htrace hclient
  throw _ _ := rfl
  emit {e} he := minding_emit (by cases e <;> first | rfl | cases he)
  request hr _ _ := minding_request hr
  send {packet} _ _ := minding_send packet
  runTool _ output := minding_runTool _ output
  meetFault name := minding_meetFault name []
  loadAnimations := holds_loadAnimations (minding_request rfl) (holds_modify fun _ => rfl)
  finish _ := holds_modify fun _ => rfl
  sweep := holds_modify fun _ => rfl
  startTask := holds_startTask (fun _ => holds_modify fun _ => rfl) (minding_emit rfl)
    (holds_meetRefusal id (minding_meetFault _ []) fun _ => rfl)

instance : AdmitsLibrary minding :=
  admitsLibrary_of_learning Admits.loadAnimations
    (fun _ => (minding_emit rfl).bind fun _ => minding_meetFault _ _)
    fun hlink _ _ => holds_modify fun s => books_of_same rfl rfl (hlink s.controller).client

/-! ## Steps -/

/-- What can come of an attempt to connect. -/
inductive Outcome where
  /-- No client could be made. -/
  | uncreated
  /-- The client could not be started. -/
  | unstarted
  /-- Something failed after the start of the client, which was left at that. -/
  | abandoned
  /-- The controller had lost the client once it was connected. -/
  | vanished
  /-- The client did not report a robot, and was stopped. -/
  | released
  /-- There is a connection. -/
  | connected
  deriving Repr, DecidableEq

/-- A step that has to do with the custody of clients. -/
inductive Step where
  | attempt (outcome : Outcome)
  | release
  deriving Repr, DecidableEq

namespace Books

/-- The current client is stopped, and is the current one no more. -/
def release (b : Books) : Books :=
  { b with stopped := b.stopped ++ b.client.toList, client := none }

/-- The current client is asked to connect. -/
def connect (b : Books) : Books :=
  { b with started := b.started ++ b.client.toList }

/-- There is a new client, and it is the current one. -/
def create (b : Books) : Books :=
  { b with client := some b.created, created := b.created + 1 }

/-- What an attempt to connect does, by its outcome. -/
def attempt (b : Books) : Outcome → Books
  | .uncreated => b
  | .unstarted => b.create
  | .abandoned | .connected => b.create.connect
  | .vanished => { b.create.connect with client := none }
  | .released => b.create.connect.release

/-- What a step does to the books. -/
def step (b : Books) : Step → Books
  | .attempt outcome => b.attempt outcome
  | .release => b.release

/-- What steps do to the books, one after the other. -/
def replay (b : Books) (steps : List Step) : Books :=
  steps.foldl step b

theorem replay_append (b : Books) (steps more : List Step) :
    b.replay (steps ++ more) = (b.replay steps).replay more :=
  List.foldl_append

end Books

/-! ## Disconnecting -/

/-- The step that a disconnection is: none if the wait for the tasks is interrupted, or comes to a
task that was never started. -/
def releaseSteps (s : System) : List Step :=
  match disconnect.run s with
  | .ok _ _ => [.release]
  | .error _ _ => []

theorem Appends.books_closed {s t : System}
    (h : Appends (s.controller.client.map fun id => Event.call id .stop).toList s t) :
    t.closed.books = s.books.release := by
  have hclosed : t.closed.books = { t.books with client := none } :=
    System.books_record
      { t with controller := { t.controller with client := none, connected := false } } rfl
  rw [hclosed, h.books]
  unfold Books.release System.books
  cases s.controller.client with
  | none => simp
  | some id => simp [Event.connects?, Event.stops?]

theorem books_disconnect (s : System) :
    (after disconnect s).books = s.books.replay (releaseSteps s) := by
  have hawait := keeps_awaitTasks (c := minding) releaseTimeout s
  unfold releaseSteps
  rw [disconnect_eq, EStateM.run_bind]
  cases hrun : (awaitTasks releaseTimeout).run s with
  | error e t =>
    rw [after_bind_of_error hrun]
    exact hawait.fails hrun
  | ok a t =>
    have hbooks : t.books = s.books := hawait.yields hrun
    obtain ⟨u, hup, hu⟩ := run_hangUp t
    rw [after_bind_of_ok hrun, after_of_ok hup, hu.books_closed, hbooks]
    simp only [hup]
    rfl

/-! ## One attempt to connect -/

/-- A new client is the current one, unless it could not be made. -/
theorem run_createClient (s : System) :
    (∃ e t, createClient.run s = .error e t ∧ t.books = s.books) ∨
    ∃ t, createClient.run s = .ok () t ∧ t.books = s.books.create := by
  obtain ⟨t, hemit, ht⟩ := run_emit (.create s.clients.size) s
  have hbooks : t.books = s.books := ht.books_eq rfl rfl
  have hmeet := minding_meetFault "Client" [] t
  unfold createClient
  simp only [EStateM.run_bind, EStateM.run_get, hemit]
  cases hrun : (meetFault "Client" []).run t with
  | error e u => exact .inl ⟨e, u, rfl, (hmeet.fails hrun).trans hbooks⟩
  | ok a u =>
    have hu : u.books = s.books := (hmeet.yields hrun).trans hbooks
    refine .inr ⟨_, rfl, ?_⟩
    rw [← hu]
    unfold Books.create System.books
    simp

/-- A start counts once it has come to its end, so that asking for it changes nothing. -/
theorem run_requestStart {s : System} {id : ClientId} (hid : s.controller.client = some id) :
    (∃ e t, (request .start).run s = .error e t ∧ t.books = s.books) ∨
    ∃ t, (request .start).run s = .ok () t ∧ t.books = s.books := by
  have hbooks : (after (request .start) s).books = s.books :=
    (after_request (fun h => by cases h) hid).books_eq rfl rfl
  cases hrun : (request .start).run s with
  | error e t => exact .inl ⟨e, t, rfl, after_of_error hrun ▸ hbooks⟩
  | ok a t => exact .inr ⟨t, rfl, after_of_ok hrun ▸ hbooks⟩

/-- A client that is asked to connect counts as started. It stays the current one, unless it is gone
once it has connected. -/
theorem run_requestConnect {s : System} {id : ClientId} (hid : s.controller.client = some id) :
    (∃ e t, (request .connect).run s = .error e t ∧ t.books = s.books.connect) ∨
    (∃ t, (request .connect).run s = .ok () t ∧ t.books = s.books.connect) ∨
    ∃ t, (request .connect).run s = .ok () t ∧
      t.books = { s.books.connect with client := none } := by
  obtain ⟨t, hemit, ht⟩ := run_emit (.call id .connect) s
  have hbooks : t.books = s.books.connect := by
    rw [ht.books]
    simp [Books.connect, System.books, hid, Event.connects?, Event.stops?]
  obtain ⟨client, hstate⟩ : ∃ client, (clientState id).run t = .ok client t := ⟨_, rfl⟩
  have hmeet := minding_meetFault Request.connect.name client.faults t
  unfold request
  simp only [EStateM.run_bind, run_clientFor hid, hemit, hstate]
  cases hrun : (meetFault Request.connect.name client.faults).run t with
  | error e u => exact .inl ⟨e, u, rfl, (hmeet.fails hrun).trans hbooks⟩
  | ok a u =>
    have hu : u.books = s.books.connect := (hmeet.yields hrun).trans hbooks
    cases client.vanishes with
    | false => exact .inr (.inl ⟨u, rfl, hu⟩)
    | true =>
      refine .inr (.inr ⟨_, rfl, ?_⟩)
      rw [← hu]
      rfl

/-- The client that has been made is examined, and the connection announced. -/
def verifyConnection : Act Attempt := do
  conclude (← examine)

theorem attemptConnection_eq : attemptConnection = (do
    createClient
    request .start
    request .connect
    verifyConnection) := by
  unfold attemptConnection connectClient verifyConnection
  simp only [bind_assoc]

/-- A property of actions holds of an examination if it passes from the rest of one to the whole,
over the steps that keep a contract and over the look at the client, and holds of its two ends. -/
theorem examine_of_steps {c : Contract Failure System} [Admits c] {P : Act Attempt → Prop}
    (hbind : ∀ {β : Type} {x : Act β} {f : β → Act Attempt}, c.Holds x → (∀ a, P (f a)) →
      P (x >>= f))
    (hclient : ∀ {rest refused : Act Attempt}, P rest →
      P (controller >>= fun c => if c.client.isNone then refused else rest))
    (hrejected : P (do disconnect; return .rejected)) (hconnected : P (pure .connected)) :
    P examine := by
  unfold examine
  refine hbind (keeps_pause _) fun _ => hclient ?_
  refine hbind (Admits.request rfl rfl trivial) fun _ => hbind (keeps_pause _) fun _ => ?_
  refine hbind (keeps_clientReading _ _) fun serial => ?_
  split
  · exact hbind (keeps_print _) fun _ => hrejected
  refine hbind (keeps_clientReading _ _) fun battery => ?_
  split
  · exact hbind (keeps_print _) fun _ => hrejected
  refine hbind (Admits.request rfl rfl raisedHead_inRange) fun _ => ?_
  refine hbind (keeps_pause _) fun _ => hbind holds_controller fun c => ?_
  split
  · exact hbind keeps_setupCliffDetection fun _ => hconnected
  · exact hconnected

/-- What has become of the books when something with the result of an attempt is over. -/
def Books.afterVerifying (b : Books) : EStateM.Result Failure System Attempt → Books
  | .ok .rejected _ => b.release
  | _ => b

/-- An action that ends with a connection, or with the release of the current client, or fails and
leaves the client as it is. -/
def Verifies (x : Act Attempt) : Prop :=
  ∀ s id, s.controller.client = some id →
    (after x s).books = s.books.afterVerifying (x.run s)

theorem Verifies.bind {x : Act α} {f : α → Act Attempt} (hx : minding.Holds x)
    (hf : ∀ a, Verifies (f a)) : Verifies (x >>= f) := by
  intro s id hid
  rw [EStateM.run_bind]
  cases hrun : x.run s with
  | error e t =>
    rw [after_bind_of_error hrun]
    exact (hx s).fails hrun
  | ok a t =>
    have ht : t.books = s.books := (hx s).yields hrun
    have hclient : t.controller.client = some id := (congrArg Books.client ht).trans hid
    rw [after_bind_of_ok hrun, ← ht]
    exact hf a t id hclient

theorem verifies_connected : Verifies (pure .connected) := fun _ _ _ => rfl

theorem verifies_rejected : Verifies (do disconnect; return .rejected) := by
  intro s id _
  have hbooks := books_disconnect s
  unfold releaseSteps at hbooks
  rw [EStateM.run_bind, after_bind_pure]
  cases hrun : disconnect.run s with
  | ok a t => rw [hbooks, hrun]; rfl
  | error e t => rw [hbooks, hrun]; rfl

theorem verifies_client {rest refused : Act Attempt} (hrest : Verifies rest) :
    Verifies (controller >>= fun c => if c.client.isNone then refused else rest) := by
  intro s id hid
  have hrun : (controller >>= fun c => if c.client.isNone then refused else rest).run s =
      rest.run s := by
    show (if s.controller.client.isNone then refused else rest).run s = _
    rw [hid]
    rfl
  unfold after
  rw [hrun]
  exact hrest s id hid

theorem verifies_examine : Verifies examine :=
  examine_of_steps .bind verifies_client verifies_rejected verifies_connected

theorem verifies_announce : Verifies announce := by
  unfold announce
  refine .bind (holds_modify fun _ => rfl) fun _ => .bind (keeps_print _) fun _ => ?_
  refine .bind (keeps_clientReading _ _) fun serial => .bind (keeps_calculate _) fun text => ?_
  refine .bind (keeps_print _) fun _ => ?_
  refine .bind (keeps_clientReading _ _) fun battery => .bind (keeps_calculate _) fun text => ?_
  refine .bind (keeps_print _) fun _ => .bind holds_controller fun c => ?_
  exact .bind (keeps_print _) fun _ => verifies_connected

theorem verifies_verifyConnection : Verifies verifyConnection := by
  intro s id hid
  have hexamined := verifies_examine s id hid
  unfold verifyConnection
  rw [EStateM.run_bind]
  cases hrun : examine.run s with
  | error e t =>
    rw [after_of_error hrun, hrun] at hexamined
    rw [after_bind_of_error hrun]
    exact hexamined
  | ok result t =>
    rw [after_of_ok hrun, hrun] at hexamined
    rw [after_bind_of_ok hrun]
    cases result with
    | rejected => exact hexamined
    | connected =>
      have ht : t.books = s.books := hexamined
      rw [← ht]
      exact verifies_announce t id ((congrArg Books.client ht).trans hid)

/-- Without a client the attempt is given up, if it does not fail, and nothing else happens. -/
theorem run_examine_of_none {s : System} (h : s.controller.client = none) :
    ∃ t, t.controller = s.controller ∧ t.books = s.books ∧
      (examine.run s = .ok .rejected t ∨ ∃ failure, examine.run s = .error failure t) := by
  obtain ⟨t, ht, hpause⟩ := run_pause (.int 3) s
  have hbooks : t.books = s.books := ht.books_eq rfl rfl
  have hnone : t.controller.client = none := by rw [ht.controller, h]
  unfold examine controller
  cases hcut : s.pauseCut? (.int 3) with
  | some failure =>
    rw [hcut] at hpause
    refine ⟨t, ht.controller, hbooks, .inr ⟨failure, ?_⟩⟩
    simp only [EStateM.run_bind, hpause]
  | none =>
    rw [hcut] at hpause
    refine ⟨t.record (.print "✗ Connection failed: cli is None"), ht.controller,
      (t.books_record rfl).trans hbooks, .inl ?_⟩
    simp only [EStateM.run_bind, hpause, EStateM.run_get, EStateM.run_pure, hnone,
      Option.isNone_none, if_true]
    rfl

theorem books_verifyConnection_of_none {s : System} (h : s.controller.client = none) :
    (after verifyConnection s).books = s.books := by
  obtain ⟨t, -, hbooks, hrun | ⟨failure, hrun⟩⟩ := run_examine_of_none h
  · exact (congrArg System.books (after_bind_of_ok hrun)).trans hbooks
  · exact (congrArg System.books (after_bind_of_error hrun)).trans hbooks

/-- What comes of an attempt to connect. -/
def attemptOutcome (s : System) : Outcome :=
  match createClient.run s with
  | .error _ _ => .uncreated
  | .ok _ s =>
    match (request .start).run s with
    | .error _ _ => .unstarted
    | .ok _ s =>
      match (request .connect).run s with
      | .error _ _ => .abandoned
      | .ok _ s =>
        if s.controller.client.isNone then .vanished
        else
          match verifyConnection.run s with
          | .ok .connected _ => .connected
          | .ok .rejected _ => .released
          | .error _ _ => .abandoned

theorem books_attemptConnection (s : System) :
    (after attemptConnection s).books = s.books.attempt (attemptOutcome s) := by
  rw [attemptConnection_eq]
  unfold attemptOutcome
  rcases run_createClient s with ⟨e, t, hcreate, ht⟩ | ⟨t, hcreate, ht⟩
  · rw [after_bind_of_error hcreate, hcreate]
    exact ht
  rw [after_bind_of_ok hcreate, hcreate]
  dsimp only
  have hid : t.controller.client = some s.clients.size := congrArg Books.client ht
  rcases run_requestStart hid with ⟨e, u, hstart, hu⟩ | ⟨u, hstart, hu⟩
  · rw [after_bind_of_error hstart, hstart]
    exact hu.trans ht
  rw [after_bind_of_ok hstart, hstart]
  dsimp only
  rw [ht] at hu
  have hid : u.controller.client = some s.clients.size := congrArg Books.client hu
  rcases run_requestConnect hid with
    ⟨e, v, hconnect, hv⟩ | ⟨v, hconnect, hv⟩ | ⟨v, hconnect, hv⟩
  · rw [after_bind_of_error hconnect, hconnect, hv, hu]
    rfl
  · -- the client is there, and what it reports decides
    rw [hu] at hv
    have hid : v.controller.client = some s.clients.size := congrArg Books.client hv
    rw [after_bind_of_ok hconnect, hconnect, verifies_verifyConnection v _ hid, hv]
    dsimp only
    rw [if_neg (by simp [hid])]
    cases verifyConnection.run v with
    | error e w => rfl
    | ok result w => cases result <;> rfl
  · rw [hu] at hv
    have hnone : v.controller.client = none := congrArg Books.client hv
    rw [after_bind_of_ok hconnect, hconnect, books_verifyConnection_of_none hnone, hv]
    dsimp only
    rw [if_pos (by rw [hnone]; rfl)]
    rfl

/-- The client that an attempt makes, if its start comes to its end. -/
def startedClient? (s : System) : Option ClientId :=
  match createClient.run s with
  | .error _ _ => none
  | .ok _ t =>
    match (request .start).run t with
    | .error _ _ => none
    | .ok _ _ => some s.clients.size

/-- In the books a client counts as started once its start has come to its end. -/
theorem started_attemptConnection (s : System) :
    (after attemptConnection s).books.started = s.books.started ++ (startedClient? s).toList := by
  rw [books_attemptConnection]
  unfold attemptOutcome startedClient?
  cases createClient.run s with
  | error e t => exact (List.append_nil _).symm
  | ok a t =>
    dsimp only
    cases (request .start).run t with
    | error e u => exact (List.append_nil _).symm
    | ok a u =>
      dsimp only
      split
      · rfl
      · split
        · rfl
        · split <;> rfl

/-! ## Connecting -/

/-- What is said before an attempt. -/
def attemptNote (total : Int) (number : Nat) : Event :=
  .print s!"Connecting to Cozmo... (attempt {number}/{total})"

/-- An attempt whose failure is reported, with what is done after that. -/
def tryConnection (total : Int) (delay : Number) (number left : Nat) : Act Attempt := do
  let attempt : Act Attempt := do
    print s!"Connecting to Cozmo... (attempt {number}/{total})"
    attemptConnection
  handling attempt fun failure => do
    print s!"✗ Connection failed: {failure.message}"
    if left == 0 then troubleshooting.forM print else pause delay
    return .rejected

theorem connectFrom_succ (total : Int) (delay : Number) (number left : Nat) :
    connectFrom total delay number (left + 1) = (do
      match ← tryConnection total delay number left with
      | .connected => return true
      | .rejected => connectFrom total delay (number + 1) left) := rfl

/-- The steps of connecting, from the attempt `number` on. -/
def connectSteps (total : Int) (delay : Number) (number : Nat) : Nat → System → List Step
  | 0, _ => []
  | left + 1, s =>
    .attempt (attemptOutcome (s.record (attemptNote total number))) ::
      match (tryConnection total delay number left).run s with
      | .ok .rejected t => connectSteps total delay (number + 1) left t
      | _ => []

/-- A handler that leaves the books alone leaves them as the failure did. -/
theorem books_tryCatch (body : Act α) {handle : Failure → Act α}
    (hhandle : ∀ e, minding.Holds (handle e)) (s : System) :
    (after (tryCatch body handle) s).books = (after body s).books := by
  have hrun := run_tryCatch body handle s
  cases hbody : body.run s with
  | ok a t =>
    rw [hbody] at hrun
    rw [after_of_ok hrun, after_of_ok hbody]
  | error e t =>
    rw [hbody] at hrun
    have hafter : after (tryCatch body handle) s = after (handle e) t := by
      unfold after
      rw [hrun]
    rw [hafter, books_of_minding (hhandle e), after_of_error hbody]

theorem books_handling (body : Act α) {handle : Failure → Act α}
    (hhandle : ∀ e, minding.Holds (handle e)) (s : System) :
    (after (handling body handle) s).books = (after body s).books := by
  refine books_tryCatch body (fun e => ?_) s
  split
  · exact holds_throw fun _ => rfl
  · exact hhandle e

theorem books_tryConnection (total : Int) (delay : Number) (number left : Nat) (s : System) :
    (after (tryConnection total delay number left) s).books =
      s.books.attempt (attemptOutcome (s.record (attemptNote total number))) := by
  have hnote : (s.record (attemptNote total number)).books = s.books := s.books_record rfl
  unfold tryConnection
  rw [books_handling]
  · exact (books_attemptConnection (s.record (attemptNote total number))).trans (by rw [hnote])
  · intro failure
    refine (keeps_print _).bind fun _ => ?_
    dsimp only
    split
    · exact (keeps_printLines _ _).giving
    · exact (keeps_pause _).giving

/-- Connecting does to the books what its attempts do, one after the other. -/
theorem books_connectFrom (total : Int) (delay : Number) (left : Nat) :
    ∀ number s, (after (connectFrom total delay number left) s).books =
      s.books.replay (connectSteps total delay number left s) := by
  induction left with
  | zero => exact fun _ _ => rfl
  | succ left ih =>
    intro number s
    have hattempt := books_tryConnection total delay number left s
    rw [connectFrom_succ]
    unfold connectSteps
    cases hrun : (tryConnection total delay number left).run s with
    | error e t =>
      rw [after_of_error hrun] at hattempt
      rw [after_bind_of_error hrun, hattempt]
      rfl
    | ok result t =>
      rw [after_of_ok hrun] at hattempt
      rw [after_bind_of_ok hrun]
      cases result with
      | connected => exact hattempt
      | rejected =>
        dsimp only
        rw [ih, hattempt]
        rfl

/-- The steps of connecting. -/
def connectionSteps (retries : Int) (delay : Number) (s : System) : List Step :=
  connectSteps retries delay 1 retries.toNat s

theorem books_connect (retries : Int) (delay : Number) (s : System) :
    (after (connect retries delay) s).books =
      s.books.replay (connectionSteps retries delay s) :=
  books_connectFrom retries delay _ 1 s

/-! ## Custody -/

/-- Who has custody of the clients that were started and not stopped. -/
inductive Custody where
  /-- There is none. -/
  | free
  /-- It is the current client, and no other. -/
  | running
  /-- There is one that the controller does not know any more. -/
  | lost
  deriving Repr, DecidableEq

/-- What an attempt leads to when no client is running. -/
def Outcome.custody : Outcome → Custody
  | .uncreated | .unstarted | .released => .free
  | .abandoned | .connected => .running
  | .vanished => .lost

/-- Every client that was started was stopped, unless it is still the current one. -/
def Books.NoneLost (b : Books) : Prop :=
  ∀ id ∈ b.started, id ∈ b.stopped ∨ b.client = some id

/-- Every client that was started was stopped. -/
def Books.NoneRunning (b : Books) : Prop :=
  ∀ id ∈ b.started, id ∈ b.stopped

namespace Custody

/-- A client that is running is lost as soon as there is a new one; what is lost stays lost. -/
def next : Custody → Step → Custody
  | .lost, _ => .lost
  | _, .release => .free
  | custody, .attempt .uncreated => custody
  | .running, .attempt _ => .lost
  | .free, .attempt outcome => outcome.custody

/-- The custody after steps, when at first no client is running. -/
def afterSteps (steps : List Step) : Custody :=
  steps.foldl next .free

/-- What the books say in each case of custody. -/
def Describes : Custody → Books → Prop
  | .free, b => b.NoneRunning
  | .running, b => ∃ id ∈ b.started, id ∉ b.stopped ∧ b.client = some id ∧
      ∀ other ∈ b.started, other ∈ b.stopped ∨ other = id
  | .lost, b => ∃ id ∈ b.started, id ∉ b.stopped ∧ b.client ≠ some id

end Custody

/-- Books in order: no client is in them that there has not been. -/
structure Books.Orderly (b : Books) : Prop where
  started : ∀ id ∈ b.started, id < b.created
  stopped : ∀ id ∈ b.stopped, id < b.created
  client : ∀ id, b.client = some id → id < b.created

namespace Books

variable {b : Books}

theorem Orderly.create (h : b.Orderly) : b.create.Orderly where
  started id hid := Nat.lt_succ_of_lt (h.started id hid)
  stopped id hid := Nat.lt_succ_of_lt (h.stopped id hid)
  client id hid := by
    cases hid
    exact Nat.lt_succ_self _

theorem Orderly.connect (h : b.Orderly) : b.connect.Orderly where
  started id hid := by
    rcases List.mem_append.mp hid with hid | hid
    · exact h.started id hid
    · exact h.client id (Option.mem_toList.mp hid)
  stopped := h.stopped
  client := h.client

theorem Orderly.release (h : b.Orderly) : b.release.Orderly where
  started := h.started
  stopped id hid := by
    rcases List.mem_append.mp hid with hid | hid
    · exact h.stopped id hid
    · exact h.client id (Option.mem_toList.mp hid)
  client id hid := by cases hid

theorem Orderly.step (h : b.Orderly) (x : Step) : (b.step x).Orderly := by
  cases x with
  | release => exact h.release
  | attempt outcome =>
    cases outcome with
    | uncreated => exact h
    | unstarted => exact h.create
    | abandoned => exact h.create.connect
    | connected => exact h.create.connect
    | released => exact h.create.connect.release
    | vanished =>
      have hconnect := h.create.connect
      exact ⟨hconnect.started, hconnect.stopped, fun _ hid => by cases hid⟩

end Books

namespace Custody

variable {b : Books}

/-- A client that is running when there is a new one is lost, whatever comes of the new one. -/
theorem lost_of_attempt (hb : b.Orderly) {id : ClientId} (hstarted : id ∈ b.started)
    (hstopped : id ∉ b.stopped) {outcome : Outcome} (h : outcome ≠ .uncreated) :
    lost.Describes (b.attempt outcome) := by
  have hne : id ≠ b.created := Nat.ne_of_lt (hb.started id hstarted)
  refine ⟨id, ?_, ?_, ?_⟩
  · cases outcome <;> simp [Books.attempt, Books.create, Books.connect, Books.release, hstarted]
  · cases outcome <;>
      simp [Books.attempt, Books.create, Books.connect, Books.release, hstopped, hne]
  · cases outcome with
    | uncreated => exact absurd rfl h
    | unstarted | abandoned | connected => exact fun heq => hne (Option.some.inj heq).symm
    | vanished | released => exact fun heq => by cases heq

theorem describes_attempt_of_free (hb : b.Orderly) (h : free.Describes b) (outcome : Outcome) :
    outcome.custody.Describes (b.attempt outcome) := by
  have hnew : b.created ∈ b.create.connect.started := by simp [Books.create, Books.connect]
  have hrunning : b.created ∉ b.stopped := fun hid => Nat.lt_irrefl _ (hb.stopped _ hid)
  have hothers : ∀ id ∈ b.create.connect.started, id ∈ b.stopped ∨ id = b.created := by
    intro id hid
    rcases List.mem_append.mp hid with hid | hid
    · exact .inl (h id hid)
    · exact .inr (List.mem_singleton.mp hid)
  cases outcome with
  | uncreated | unstarted => exact h
  | abandoned | connected => exact ⟨b.created, hnew, hrunning, rfl, hothers⟩
  | vanished => exact ⟨b.created, hnew, hrunning, fun heq => by cases heq⟩
  | released =>
    intro id hid
    rcases hothers id hid with hid | rfl
    · exact List.mem_append_left _ hid
    · exact List.mem_append_right _ (List.mem_singleton.mpr rfl)

theorem describes_release {custody : Custody} (h : custody.Describes b) :
    (custody.next .release).Describes b.release := by
  cases custody with
  | free => exact fun id hid => List.mem_append_left _ (h id hid)
  | running =>
    obtain ⟨id, _, _, hclient, hothers⟩ := h
    intro other hother
    rcases hothers other hother with hstopped | rfl
    · exact List.mem_append_left _ hstopped
    · exact List.mem_append_right _ (Option.mem_toList.mpr hclient)
  | lost =>
    obtain ⟨id, hstarted, hstopped, hclient⟩ := h
    refine ⟨id, hstarted, fun hid => ?_, fun heq => by cases heq⟩
    rcases List.mem_append.mp hid with hid | hid
    · exact hstopped hid
    · exact hclient (Option.mem_toList.mp hid)

theorem describes_step (hb : b.Orderly) {custody : Custody} (h : custody.Describes b) (x : Step) :
    (custody.next x).Describes (b.step x) := by
  cases x with
  | release => exact describes_release h
  | attempt outcome =>
    by_cases hcreated : outcome = .uncreated
    · subst hcreated
      cases custody <;> exact h
    cases custody with
    | free =>
      have hnext : free.next (.attempt outcome) = outcome.custody := by cases outcome <;> rfl
      rw [hnext]
      exact describes_attempt_of_free hb h outcome
    | running =>
      obtain ⟨id, hstarted, hstopped, _⟩ := h
      have hnext : running.next (.attempt outcome) = lost := by
        cases outcome <;> first | rfl | exact absurd rfl hcreated
      rw [hnext]
      exact lost_of_attempt hb hstarted hstopped hcreated
    | lost =>
      obtain ⟨id, hstarted, hstopped, _⟩ := h
      exact lost_of_attempt hb hstarted hstopped hcreated

theorem describes_replay (hb : b.Orderly) {custody : Custody} (h : custody.Describes b)
    (steps : List Step) : (steps.foldl next custody).Describes (b.replay steps) := by
  induction steps generalizing b custody with
  | nil => exact h
  | cons x steps ih => exact ih (hb.step x) (describes_step hb h x)

theorem Describes.noneLost_iff {custody : Custody} (h : custody.Describes b) :
    b.NoneLost ↔ custody ≠ .lost := by
  cases custody with
  | free => exact ⟨fun _ => by decide, fun _ id hid => .inl (h id hid)⟩
  | running =>
    obtain ⟨id, _, _, hclient, hothers⟩ := h
    refine ⟨fun _ => by decide, fun _ other hother => ?_⟩
    rcases hothers other hother with hstopped | rfl
    · exact .inl hstopped
    · exact .inr hclient
  | lost =>
    obtain ⟨id, hstarted, hstopped, hclient⟩ := h
    exact ⟨fun hall => absurd (hall id hstarted) (not_or.mpr ⟨hstopped, hclient⟩),
      fun hne => absurd rfl hne⟩

theorem Describes.noneRunning_iff {custody : Custody} (h : custody.Describes b) :
    b.NoneRunning ↔ custody = .free := by
  cases custody with
  | free => exact ⟨fun _ => rfl, fun _ => h⟩
  | running | lost =>
    obtain ⟨id, hstarted, hstopped, _⟩ := h
    exact ⟨fun hall => absurd (hall id hstarted) hstopped, fun heq => by cases heq⟩

/-- Where there has been no client yet, the steps alone tell the custody at the end. -/
theorem describes_afterSteps (steps : List Step) :
    (afterSteps steps).Describes (({} : Books).replay steps) := by
  have hempty : ({} : Books).Orderly := by constructor <;> simp
  have hfree : free.Describes {} := by simp [Describes, Books.NoneRunning]
  exact describes_replay hempty hfree steps

end Custody

end RobotConsole.Robot
