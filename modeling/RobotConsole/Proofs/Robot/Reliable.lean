import RobotConsole.Proofs.Robot.Starting

/-!
# Systems without faults

In a system where no call is planned to fail, no action is interrupted (`steady`). Most actions
handle every failure but an interrupt (`resilient`), whatever they do in between. Together: in such
a system they cannot fail (`sure_of_resilient`). What is left are the starts of tasks and the lines
that tell the state of the robot, which nothing handles; there they do not fail either.
-/

namespace RobotConsole.Robot

open Contract

variable {α : Type}

/-- No call to a client is planned to fail, the voltage that it reports is a double, and its serial
number can be written. -/
structure Client.Reliable (client : Client) : Prop where
  faults : client.faults = []
  battery : ∃ volts, client.battery = .real volts
  serial : client.serial.isWritable = true

/-- What is known of the robot can be written, and the tasks that are kept track of were started. -/
structure Controller.Orderly (c : Controller) : Prop where
  battery : c.batteryVoltage.isWritable = true
  headAngle : c.headAngle.isWritable = true
  pool : c.pool.allStarted = true

/-- No call is planned to fail, by any client there is or is planned, and the controller is in
order. -/
structure System.Reliable (s : System) : Prop where
  world : s.world.faults = []
  known : ∀ (id : ClientId) (client : Client), s.clients[id]? = some client → client.Reliable
  planned : ∀ count, (s.world.clientAfter count).Reliable
  controller : s.controller.Orderly

theorem Controller.Orderly.of_same {c d : Controller} (hc : c.Orderly) (hpool : d.pool = c.pool)
    (hreadings : d.SameReadings c) : d.Orderly :=
  ⟨by rw [hreadings.batteryVoltage]; exact hc.battery,
    by rw [hreadings.headAngle]; exact hc.headAngle, by rw [hpool]; exact hc.pool⟩

/-- The ways in which the controller stays in order. -/
def orderKept : Ways where
  allow c d := c.Orderly → d.Orderly
  refl _ := id
  trans h₁ h₂ hc := h₂ (h₁ hc)

theorem System.Reliable.of_grows {P : Event → Prop} {s t : System} (hs : s.Reliable)
    (h : Grows P s t) (hcontroller : s.controller.Orderly → t.controller.Orderly) :
    t.Reliable := by
  refine ⟨by rw [h.world]; exact hs.world, ?_, by rw [h.world]; exact hs.planned,
    hcontroller hs.controller⟩
  intro id client hclient
  rcases h.clients id client hclient with hknown | ⟨count, hplan⟩
  · exact hs.known id client hknown
  · rw [hplan]
    exact hs.planned count

theorem System.Reliable.record {s : System} (hs : s.Reliable) (e : Event) :
    (s.record e).Reliable :=
  ⟨hs.world, hs.known, hs.planned, hs.controller⟩

theorem System.Reliable.client {s : System} (hs : s.Reliable) (id : ClientId) :
    ((s.clients[id]?).getD {}).Reliable := by
  cases hclient : s.clients[id]? with
  | none => exact ⟨rfl, ⟨_, rfl⟩, rfl⟩
  | some client => exact hs.known id client hclient

/-- The contract of actions that keep a system without faults one, and fail there in certain ways
only. -/
def faultless (F : Failure → Prop) : Contract Failure System where
  yields s t := s.Reliable → t.Reliable
  fails e s t := s.Reliable → t.Reliable ∧ F e
  refl _ hs := hs
  trans h₁ h₂ hs := h₂ (h₁ hs)
  fails_after h₁ h₂ hs := h₂ (h₁ hs)

section Primitives

variable {F : Failure → Prop}

/-- That there are no faults stays true as the trace grows, so only the controller and the failures
count. -/
theorem faultless_of_grows {P : Event → Prop} {x : Act α} (hx : (grows P).Holds x)
    (hkept : (governs orderKept).Holds x)
    (hfail : ∀ s e t, s.Reliable → x.run s = .error e t → F e) : (faultless F).Holds x := by
  intro s
  refine .of_outcomes ?_ ?_
  · intro a t hrun hs
    exact hs.of_grows ((hx s).yields hrun) ((hkept s).yields hrun)
  · intro e t hrun hs
    exact ⟨hs.of_grows ((hx s).fails hrun) ((hkept s).fails hrun), hfail s e t hs hrun⟩

theorem faultless_same {s t : System} (hworld : t.world = s.world)
    (hclients : t.clients = s.clients) (htrace : t.trace = s.trace)
    (hcontroller : s.controller.Orderly → t.controller.Orderly) : (faultless F).yields s t :=
  fun hs => hs.of_grows (P := fun _ => True) (.of_same hworld hclients htrace) hcontroller

theorem faultless_emit (e : Event) : (faultless F).Holds (emit e) :=
  faultless_of_grows (grows_emit (P := fun _ => True) trivial) (governs_emit e)
    fun _ _ _ _ hrun => by cases hrun

theorem faultless_throw {failure : Failure} (h : F failure) :
    (faultless F).Holds (throw failure : Act α) :=
  holds_throw fun _ hs => ⟨hs, h⟩

theorem faultless_meetFault (name : String) : (faultless F).Holds (meetFault name []) := by
  refine faultless_of_grows (grows_meetFault (P := fun _ => True) name [])
    (governs_meetFault name []) ?_
  intro s e t hs hrun
  have hnone : Dict.get? s.world.faults name = none := by
    rw [hs.world]
    rfl
  obtain ⟨u, hmeet, _⟩ : ∃ u, (meetFault name []).run s = .ok () u ∧ Appends [] s u :=
    run_meetFault hnone rfl
  rw [hmeet] at hrun
  cases hrun

/-- What is done with a client need only be right for a reliable one. -/
theorem faultless_clientState_bind {id : ClientId} {f : Client → Act α}
    (hf : ∀ client : Client, client.Reliable → (faultless F).Holds (f client)) :
    (faultless F).Holds (clientState id >>= f) := by
  intro s
  have hrun : (clientState id >>= f).run s = (f ((s.clients[id]?).getD {})).run s := rfl
  refine .of_outcomes ?_ ?_
  · intro a t h hs
    rw [hrun] at h
    exact (hf _ (hs.client id) s).yields h hs
  · intro e t h hs
    rw [hrun] at h
    exact (hf _ (hs.client id) s).fails h hs

/-- A change of the controller is harmless if it leaves it in order. -/
theorem faultless_update {change : Controller → Controller}
    (h : ∀ c, c.Orderly → (change c).Orderly) : (faultless F).Holds (update change) :=
  holds_modify fun s => faultless_same rfl rfl rfl (h s.controller)

/-- What is done with the controller need only be right for one that is in order. -/
theorem faultless_controller_bind {f : Controller → Act α}
    (hf : ∀ c : Controller, c.Orderly → (faultless F).Holds (f c)) :
    (faultless F).Holds (controller >>= f) := by
  intro s
  have hrun : (controller >>= f).run s = (f s.controller).run s := rfl
  refine .of_outcomes ?_ ?_
  · intro a t h hs
    rw [hrun] at h
    exact (hf _ hs.controller s).yields h hs
  · intro e t h hs
    rw [hrun] at h
    exact (hf _ hs.controller s).fails h hs

/-- Where no fault is planned every task that is to be started is. -/
theorem faultless_startTask (job : Job) (threading : Threading) :
    (faultless F).Holds (startTask job threading) := by
  have hgrows := AdmitsTasks.startTask (c := grows fun _ => True) job threading
  have hfault {s : System} (hs : s.Reliable) {e : Failure} {t : System}
      (hrun : (startTask job threading).run s = .error e t) : False := by
    obtain ⟨-, fault, hfault⟩ := controller_of_startTask.2 e t hrun
    rw [hs.world] at hfault
    cases hfault
  intro s
  refine .of_outcomes ?_ fun e t hrun hs => (hfault hs hrun).elim
  intro id t hrun hs
  refine hs.of_grows ((hgrows s).yields hrun) fun hc => ?_
  rw [controller_of_startTask.1 id t hrun]
  exact ⟨hc.battery, hc.headAngle,
    Pool.allStarted_launched (Pool.allStarted_sweep hc.pool) job threading⟩

end Primitives

/-! ## No interrupts -/

/-- The contract of actions that are not interrupted where there are no faults. -/
abbrev steady : Contract Failure System :=
  faultless fun e => e.isInterrupt = false

theorem steady_clientFor (member : String) : steady.Holds (clientFor member) := by
  unfold clientFor
  refine holds_controller.bind fun c => ?_
  split
  · exact holds_pure _
  · exact faultless_throw rfl

theorem steady_request (r : Request) : steady.Holds (request r) := by
  unfold request
  refine (steady_clientFor _).bind fun id => (faultless_emit _).bind fun _ => ?_
  refine faultless_clientState_bind fun client hclient => ?_
  rw [hclient.faults]
  refine (faultless_meetFault _).bind fun _ => ?_
  split
  · split
    · exact faultless_update fun _ hc => ⟨hc.battery, hc.headAngle, hc.pool⟩
    · exact holds_pure _
  · exact holds_pure _

theorem steady_send (packet : Packet) : steady.Holds (send packet) := by
  unfold send
  refine (steady_clientFor _).bind fun id => (faultless_emit _).bind fun _ => ?_
  refine faultless_clientState_bind fun client hclient => ?_
  rw [hclient.faults]
  exact faultless_meetFault _

theorem steady_createClient : steady.Holds createClient := by
  unfold createClient
  refine holds_get.bind fun s => (faultless_emit _).bind fun _ => ?_
  refine (faultless_meetFault _).bind fun _ => holds_modify fun s hs => ?_
  exact hs.of_grows (P := fun _ => True) (grows_pushClient s _)
    fun hc => ⟨hc.battery, hc.headAngle, hc.pool⟩

theorem steady_runTool (command : List String) (output : Storage.Path) :
    steady.Holds (runTool command output) :=
  holds_runTool (faultless_emit _) faultless_meetFault fun _ _ => faultless_same rfl rfl rfl id

instance : AdmitsLocal steady where
  throw hinterrupt _ _ hs := ⟨hs, hinterrupt⟩
  tell {e} _ := faultless_emit e
  meetInterrupt := holds_meetInterrupt (fun h hs => (h hs).1) (faultless_meetFault "sleep")
  recovers h hs := (h hs).1
  same hworld hclients htrace hwork := faultless_same hworld hclients htrace fun hc =>
    hc.of_same hwork.pool hwork.toSameReadings

instance : AdmitsTasks steady where
  recovers h hs := (h hs).1
  fails_then h₁ h₂ hs := ⟨h₂ (h₁ hs).1, (h₁ hs).2⟩
  same hworld hclients htrace _ _ hpool _ hreadings :=
    faultless_same hworld hclients htrace fun hc => hc.of_same hpool hreadings
  throw hfailure _ hs := ⟨hs, hfailure⟩
  emit {e} _ := faultless_emit e
  request {r} _ _ _ := steady_request r
  send {packet} _ _ := steady_send packet
  runTool _ output := steady_runTool _ output
  meetFault := faultless_meetFault
  loadAnimations := holds_loadAnimations (steady_request _)
    (faultless_update fun _ hc => ⟨hc.battery, hc.headAngle, hc.pool⟩)
  finish id := faultless_update fun _ hc =>
    ⟨hc.battery, hc.headAngle, Pool.allStarted_finish hc.pool id⟩
  sweep := faultless_update fun _ hc =>
    ⟨hc.battery, hc.headAngle, Pool.allStarted_sweep hc.pool⟩
  startTask := faultless_startTask

instance : AdmitsLibrary steady :=
  admitsLibrary_of_learning Admits.loadAnimations
    (fun _ => (faultless_emit _).bind fun _ => faultless_meetFault _) fun _ hpool hreadings =>
      faultless_update fun c hc => hc.of_same (hpool c) (hreadings c)

instance : AdmitsLink steady where
  toAdmitsTasks := inferInstance
  askAssets := AdmitsLibrary.askAssets
  readClipTable := AdmitsLibrary.readClipTable
  readGroupTable := AdmitsLibrary.readGroupTable
  keepDuration := AdmitsLibrary.keepDuration
  lifecycle _ _ := steady_request _
  update hkept := faultless_update fun c hc => hc.of_same (hkept c).1 (hkept c).2.2

/-- Also an action that fails leaves a system without faults one. -/
theorem steady_after {x : Act α} (hx : steady.Holds x) {s : System} (hs : s.Reliable) :
    (after x s).Reliable := by
  cases hrun : x.run s with
  | ok a t =>
    rw [after_of_ok hrun]
    exact (hx s).yields hrun hs
  | error e t =>
    rw [after_of_error hrun]
    exact ((hx s).fails hrun hs).1

/-! ## Failures that are handled -/

/-- The contract of actions that only an interrupt makes fail. -/
def resilient : Contract Failure System where
  yields _ _ := True
  fails e _ _ := e.isInterrupt = true
  refl _ := trivial
  trans _ _ := trivial
  fails_after _ h := h

/-- The contract of actions that cannot fail where there are no faults. -/
abbrev sure : Contract Failure System :=
  faultless fun _ => False

theorem sure_of_resilient {x : Act α} (hsteady : steady.Holds x) (hx : resilient.Holds x) :
    sure.Holds x := by
  intro s
  refine .of_outcomes ?_ ?_
  · intro a t hrun hs
    exact (hsteady s).yields hrun hs
  · -- only an interrupt could make it fail, and there is none
    intro e t hrun hs
    have hinterrupt : e.isInterrupt = true := (hx s).fails hrun
    rw [((hsteady s).fails hrun hs).2] at hinterrupt
    cases hinterrupt

theorem run_of_sure {x : Act α} (hx : sure.Holds x) {s : System} (hs : s.Reliable) :
    ∃ a t, x.run s = .ok a t ∧ t.Reliable := by
  cases hrun : x.run s with
  | ok a t => exact ⟨a, t, rfl, (hx s).yields hrun hs⟩
  | error e t => exact absurd ((hx s).fails hrun hs).2 id

theorem resilient_emit (e : Event) : resilient.Holds (emit e) :=
  holds_modify fun _ => trivial

theorem resilient_print (text : String) : resilient.Holds (print text) :=
  resilient_emit _

theorem resilient_update (change : Controller → Controller) : resilient.Holds (update change) :=
  holds_modify fun _ => trivial

theorem resilient_printLines (lines : List α) (text : α → String) :
    resilient.Holds (lines.forM fun line => print (text line)) :=
  holds_forM lines fun line _ => resilient_print (text line)

/-- Whatever is done under a handler, only an interrupt gets past it. -/
theorem resilient_handling {body : Act α} {handle : Failure → Act α}
    (hhandle : ∀ e, resilient.Holds (handle e)) : resilient.Holds (handling body handle) := by
  intro s
  refine .of_outcomes (fun _ _ _ => trivial) ?_
  intro e t hrun
  cases hbody : body.run s with
  | ok a u =>
    rw [run_handling_of_ok hbody] at hrun
    cases hrun
  | error failure u =>
    cases hint : failure.isInterrupt with
    | true =>
      rw [run_handling_of_interrupt hbody hint] at hrun
      cases hrun
      exact hint
    | false =>
      rw [run_handling_of_failure hbody hint] at hrun
      exact (hhandle failure u).fails hrun

theorem resilient_reporting (label : String) (body : Act Unit) :
    resilient.Holds (reporting label body) :=
  resilient_handling fun _ => resilient_print _

theorem resilient_succeeding (label : String) (body : Act Bool) :
    resilient.Holds (succeeding label body) :=
  resilient_handling fun _ => (resilient_print _).giving

/-- What is done with a connection, and what it says when it fails, leaves nothing to fail. -/
theorem resilient_connected (label : String) (body : Act Bool) :
    resilient.Holds (whenConnected (succeeding label body)) :=
  holds_whenConnected (resilient_succeeding label body)

theorem resilient_pause {seconds : Number} (h : pauseFailure? seconds = none) :
    resilient.Holds (pause seconds) := by
  unfold pause
  rw [h]
  exact (resilient_emit _).bind fun _ => resilient_handling fun _ => holds_pure _

/-! ## Work in the background -/

/-- A task that is interrupted is finished before the interrupt is passed on. -/
theorem resilient_runTask (id : TaskId) (job : Job) : resilient.Holds (runTask id job) := by
  refine Holds.bind ?_ fun _ => resilient_update _
  refine (resilient_reporting _ job.perform).tryCatch_of_outcomes ?_ ?_
  · intro e s t a u _ _
    trivial
  · intro e s t e' u hfail hrun
    cases hrun
    exact hfail

theorem sure_launch (job : Job) : sure.Holds (launch job) := by
  unfold launch
  refine holds_world.bind fun w => (faultless_startTask job _).bind fun id => ?_
  split
  · exact sure_of_resilient (keeps_runTask id job) (resilient_runTask id job)
  · exact holds_pure _

theorem resilient_job {job : Job} (h : job ≠ .idle) : resilient.Holds job.perform := by
  cases job with
  | idle => exact absurd rfl h
  | _ => exact resilient_reporting _ _

theorem sure_perform {job : Job} (hjob : job ≠ .idle) (async : Bool) :
    sure.Holds (perform job async) := by
  unfold perform
  dsimp only
  split
  · exact (sure_launch job).giving
  · exact (sure_of_resilient (keeps_perform_job job) (resilient_job hjob)).giving

theorem sure_print (text : String) : sure.Holds (print text) :=
  faultless_emit _

theorem sure_sayText (speech : Speech) (async : Bool) : sure.Holds (sayText speech async) :=
  holds_sayText sure_print (sure_perform (fun h => by cases h) async)

theorem resilient_animationDuration (name : String) :
    resilient.Holds (animationDuration name) := by
  unfold animationDuration
  refine holds_controller.bind fun c => ?_
  split
  · exact holds_pure _
  · exact resilient_handling fun _ => holds_pure _

theorem resilient_groupDuration (name : String) : resilient.Holds (groupDuration name) := by
  unfold groupDuration
  refine holds_controller.bind fun c => ?_
  split
  · exact holds_pure _
  · exact resilient_handling fun _ => holds_pure _

theorem sure_playAnimation (name : String) (async : Bool) (wait : Option Number) :
    sure.Holds (playAnimation name async wait) :=
  holds_playAnimation sure_print
    (fun _ => sure_of_resilient (keeps_animationDuration name) (resilient_animationDuration name))
    fun _ => sure_perform (fun h => by cases h) async

theorem sure_playGroup (name : String) (async : Bool) (wait : Option Number) :
    sure.Holds (playGroup name async wait) :=
  holds_playGroup sure_print
    (fun _ => sure_of_resilient (keeps_groupDuration name) (resilient_groupDuration name))
    fun _ => sure_perform (fun h => by cases h) async

theorem sure_playSound (name file : Option String) (async : Bool) :
    sure.Holds (playSound name file async) :=
  holds_playSound sure_print (sure_perform (fun h => by cases h) async)

/-! ## The state of the robot -/

theorem written_eq {a : Number} (h : a.isWritable = true) : a.written = .ok a.plain := by
  unfold Number.written
  rw [if_pos h]

theorem sure_readStatus_bind {f : Status → Act α}
    (hf : ∀ status, (∀ entry ∈ status.entries, ∃ text, entry.2 = .ok text) →
      sure.Holds (f status)) : sure.Holds (readStatus >>= f) := by
  have hoffline : sure.Holds (f .offline) := hf .offline fun entry hentry => by
    rcases List.mem_cons.mp hentry with rfl | hentry
    · exact ⟨_, rfl⟩
    · rw [List.mem_singleton.mp hentry]
      exact ⟨_, rfl⟩
  unfold readStatus liveClient?
  simp only [bind_assoc]
  refine holds_controller.bind fun c => ?_
  split
  · simp only [bind_assoc]
    refine faultless_clientState_bind fun client hclient => ?_
    split
    · simp only [pure_bind, bind_assoc]
      refine faultless_controller_bind fun c hc => hf _ fun entry hentry => ?_
      simp only [Status.entries, List.mem_cons, List.not_mem_nil, or_false] at hentry
      rcases hentry with rfl | rfl | rfl | rfl | rfl
      · exact ⟨_, rfl⟩
      · exact ⟨_, written_eq hclient.serial⟩
      · exact ⟨_, written_eq hc.battery⟩
      · exact ⟨_, written_eq hc.headAngle⟩
      · exact ⟨_, rfl⟩
    · exact hoffline
  · exact hoffline

theorem sure_show {status : Status}
    (h : ∀ entry ∈ status.entries, ∃ text, entry.2 = .ok text) : sure.Holds status.show := by
  refine holds_forM _ fun entry hentry => ?_
  obtain ⟨text, htext⟩ := h entry hentry
  rw [htext]
  exact Holds.bind (holds_pure text) fun _ => faultless_emit _

/-! ## Connecting and the camera -/

theorem resilient_connectFrom (total : Int) {delay : Number} (hdelay : pauseFailure? delay = none)
    (left : Nat) : ∀ number, resilient.Holds (connectFrom total delay number left) := by
  induction left with
  | zero =>
    intro number
    exact holds_pure false
  | succ left ih =>
    intro number
    unfold connectFrom
    refine (resilient_handling fun failure => ?_).bind fun outcome => ?_
    · refine (resilient_print _).bind fun _ => ?_
      dsimp only
      split
      · exact (resilient_printLines _ _).giving
      · exact (resilient_pause hdelay).giving
    · cases outcome with
      | connected => exact holds_pure true
      | rejected => exact ih (number + 1)

theorem resilient_setCliffReaction (name : String) :
    resilient.Holds (setCliffReaction name) := by
  unfold setCliffReaction
  dsimp only
  split
  · exact (resilient_print _).giving
  · exact (resilient_update _).bind fun _ => (resilient_print _).giving

theorem resilient_captureImage (output : String) : resilient.Holds (captureImage output) := by
  unfold captureImage
  refine holds_controller.bind fun c => ?_
  split
  · exact holds_pure _
  · exact resilient_handling fun _ => (resilient_print _).giving

end RobotConsole.Robot
