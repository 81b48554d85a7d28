import RobotConsole.Proofs.Robot.Governing
import RobotConsole.Proofs.Robot.Growth

/-!
# Tasks that were started

A task is kept track of before it is started. If its start fails, or an interrupt falls in between,
it stays on the list, and waiting for it fails. Where no start is planned to fail this does not
happen: every task that is kept track of was started, whatever is done (`starting`).
-/

namespace RobotConsole.Robot

open Contract

variable {α : Type}

namespace Pool

/-- Whether a task can be waited for: one that was never started cannot. -/
def isJoinable (p : Pool) (id : TaskId) : Bool :=
  (p.tasks[id]?).all (·.started)

/-- Whether every task that is kept track of was started. -/
def allStarted (p : Pool) : Bool :=
  p.tracked.all p.isJoinable

theorem allStarted_iff {p : Pool} :
    p.allStarted = true ↔ ∀ id ∈ p.tracked, p.isJoinable id = true :=
  List.all_eq_true

/-- The task that will be launched next, started. -/
def launched (p : Pool) (job : Job) (threading : Threading) : Pool :=
  (p.enlist job threading).start p.tasks.size

@[simp] theorem isJoinable_finish (p : Pool) (id j : TaskId) :
    (p.finish id).isJoinable j = p.isJoinable j := by
  unfold isJoinable finish
  rw [Array.getElem?_modify]
  by_cases hj : id = j
  · rw [if_pos hj]
    cases p.tasks[j]? <;> rfl
  · rw [if_neg hj]

theorem isJoinable_launched {p : Pool} {j : TaskId} (h : p.isJoinable j = true) (job : Job)
    (threading : Threading) : (p.launched job threading).isJoinable j = true := by
  unfold isJoinable launched start enlist at *
  dsimp only
  rw [Array.getElem?_modify, Array.getElem?_push]
  by_cases hj : p.tasks.size = j
  · rw [if_pos hj, if_pos hj.symm]
    rfl
  · rwa [if_neg hj, if_neg fun heq => hj heq.symm]

theorem isJoinable_launched_self (p : Pool) (job : Job) (threading : Threading) :
    (p.launched job threading).isJoinable p.tasks.size = true := by
  unfold isJoinable launched start enlist
  dsimp only
  rw [Array.getElem?_modify, Array.getElem?_push, if_pos rfl, if_pos rfl]
  rfl

theorem allStarted_sweep {p : Pool} (h : p.allStarted = true) : p.sweep.allStarted = true := by
  rw [allStarted_iff] at h ⊢
  exact fun id hid => h id (List.mem_filter.mp hid).1

theorem allStarted_finish {p : Pool} (h : p.allStarted = true) (id : TaskId) :
    (p.finish id).allStarted = true := by
  rw [allStarted_iff] at h ⊢
  intro j hj
  rw [isJoinable_finish]
  exact h j hj

theorem allStarted_launched {p : Pool} (h : p.allStarted = true) (job : Job)
    (threading : Threading) : (p.launched job threading).allStarted = true := by
  rw [allStarted_iff] at h ⊢
  intro id hid
  rcases List.mem_append.mp hid with hid | hid
  · exact isJoinable_launched (h id hid) job threading
  · rw [List.mem_singleton.mp hid]
    exact p.isJoinable_launched_self job threading

end Pool

/-! ## The start of a task -/

/-- The controller with other tasks. -/
def Controller.withPool (c : Controller) (pool : Pool) : Controller :=
  { c with pool }

/-- Why a task cannot be started now, if it cannot: an interrupt falls in before, or the start is
refused. -/
def System.startFailure? (s : System) : Option Failure :=
  ((Dict.get? s.world.faults "thread").filter (·.isDue (s.callCount "thread"))).map fun fault =>
    if fault.failure.isInterrupt then fault.failure else .taskRefused

theorem System.startFailure?_eq_some {s : System} {failure : Failure}
    (h : s.startFailure? = some failure) :
    (∃ fault, Dict.get? s.world.faults "thread" = some fault) ∧
      (failure.isInterrupt = true ∨ failure = .taskRefused) := by
  obtain ⟨fault, hfault, hfailure⟩ := Option.map_eq_some_iff.mp h
  refine ⟨⟨fault, (Option.filter_eq_some_iff.mp hfault).1⟩, ?_⟩
  split at hfailure
  next hinterrupt =>
    rw [← hfailure]
    exact .inl hinterrupt
  next => exact .inr hfailure.symm

theorem run_meetRefusal (s : System) :
    meetRefusal.run s =
      match s.startFailure? with
      | some failure => .error failure (s.counted "thread")
      | none => .ok () (s.counted "thread") := by
  have hmeet := run_meetFault_eq "thread" [] s
  unfold meetRefusal System.startFailure?
  cases hdue : (Dict.get? s.world.faults "thread").filter (·.isDue (s.callCount "thread")) with
  | none =>
    rw [hdue] at hmeet
    exact run_handling_of_ok hmeet
  | some fault =>
    rw [hdue, Option.some_or] at hmeet
    rw [Option.map_some]
    cases hinterrupt : fault.failure.isInterrupt with
    | true => exact run_handling_of_interrupt hmeet hinterrupt
    | false => exact run_handling_of_failure hmeet hinterrupt

/-- The system with a task on its list that has not been started. -/
def System.listing (s : System) (job : Job) (threading : Threading) : System :=
  ({ s with
      controller := s.controller.withPool (s.controller.pool.sweep.enlist job threading) }.record
    .startTask).counted "thread"

theorem run_startTask (job : Job) (threading : Threading) (s : System) :
    (startTask job threading).run s =
      match s.startFailure? with
      | some failure => .error failure (s.listing job threading)
      | none => .ok s.controller.pool.tasks.size
          { s.listing job threading with
            controller :=
              s.controller.withPool (s.controller.pool.sweep.launched job threading) } := by
  let listed : System :=
    { s with controller := s.controller.withPool (s.controller.pool.sweep.enlist job threading) }
  have hrun : (startTask job threading).run s =
      (do
        meetRefusal
        update fun c => c.withPool (c.pool.start s.controller.pool.tasks.size)
        return s.controller.pool.tasks.size : Act TaskId).run (listed.record .startTask) := rfl
  have hfailure : (listed.record .startTask).startFailure? = s.startFailure? := rfl
  rw [hrun, EStateM.run_bind, run_meetRefusal, hfailure]
  cases s.startFailure? <;> rfl

/-- The task is on the list, dead, if its start fails, and alive otherwise. -/
theorem controller_of_startTask {job : Job} {threading : Threading} {s : System} :
    (∀ id t, (startTask job threading).run s = .ok id t →
      t.controller = s.controller.withPool (s.controller.pool.sweep.launched job threading)) ∧
    ∀ e t, (startTask job threading).run s = .error e t →
      t.controller = s.controller.withPool (s.controller.pool.sweep.enlist job threading) ∧
        ∃ fault, Dict.get? s.world.faults "thread" = some fault := by
  rw [run_startTask]
  cases hfailure : s.startFailure? with
  | none => exact ⟨fun _ _ h => (by cases h; rfl), fun _ _ h => by cases h⟩
  | some failure =>
    refine ⟨fun _ _ h => (by cases h), fun e t h => ?_⟩
    cases h
    exact ⟨rfl, (System.startFailure?_eq_some hfailure).1⟩

/-! ## Systems that start their tasks -/

/-- No start of a task is planned to fail, and every task that is kept track of was started. -/
structure System.StartsTasks (s : System) : Prop where
  world : Dict.get? s.world.faults "thread" = none
  pool : s.controller.pool.allStarted = true

theorem System.StartsTasks.record {s : System} (hs : s.StartsTasks) (e : Event) :
    (s.record e).StartsTasks :=
  ⟨hs.world, hs.pool⟩

/-- The contract of actions that keep a system one that starts its tasks. -/
def starting : Contract Failure System where
  yields s t := s.StartsTasks → t.StartsTasks
  fails _ s t := s.StartsTasks → t.StartsTasks
  refl _ hs := hs
  trans h₁ h₂ hs := h₂ (h₁ hs)
  fails_after h₁ h₂ hs := h₂ (h₁ hs)

/-- The ways in which the controller keeps its tasks. -/
def poolKept : Ways where
  allow c d := d.pool = c.pool
  refl _ := rfl
  trans h₁ h₂ := h₂.trans h₁

instance : Admits (governs poolKept) :=
  admits_governs fun _ _ hpool => hpool

instance : AdmitsLibrary (governs poolKept) :=
  admitsLibrary_governs fun _ _ hpool => hpool

theorem starting_of_poolKept {x : Act α} (hgrows : (grows fun _ => True).Holds x)
    (hpool : (governs poolKept).Holds x) : starting.Holds x := by
  have hkept {s t : System} (hst : Grows (fun _ => True) s t)
      (hsame : t.controller.pool = s.controller.pool) (hs : s.StartsTasks) : t.StartsTasks :=
    ⟨by rw [hst.world]; exact hs.world, by rw [hsame]; exact hs.pool⟩
  exact fun s => .of_outcomes
    (fun _ _ hrun => hkept ((hgrows s).yields hrun) ((hpool s).yields hrun))
    fun _ _ hrun => hkept ((hgrows s).fails hrun) ((hpool s).fails hrun)

theorem starting_startTask (job : Job) (threading : Threading) :
    starting.Holds (startTask job threading) := by
  intro s
  have hworld : ∀ {t}, Grows (fun _ => True) s t → s.StartsTasks →
      Dict.get? t.world.faults "thread" = none := fun ht hs => by rw [ht.world]; exact hs.world
  have hgrows := AdmitsTasks.startTask (c := grows fun _ => True) job threading s
  refine .of_outcomes (fun id t hrun hs => ⟨hworld (hgrows.yields hrun) hs, ?_⟩)
    fun e t hrun hs => ?_
  · rw [controller_of_startTask.1 id t hrun]
    exact Pool.allStarted_launched (Pool.allStarted_sweep hs.pool) job threading
  · obtain ⟨-, fault, hfault⟩ := controller_of_startTask.2 e t hrun
    rw [hs.world] at hfault
    cases hfault

instance : AdmitsLink starting where
  recovers h := h
  fails_then h₁ h₂ hs := h₂ (h₁ hs)
  same hworld _ _ _ _ hpool _ _ hs :=
    ⟨by rw [hworld]; exact hs.world, by rw [hpool]; exact hs.pool⟩
  throw _ _ hs := hs
  emit he := starting_of_poolKept (Admits.emit he) (Admits.emit he)
  request hr hload hrange :=
    starting_of_poolKept (Admits.request hr hload hrange) (Admits.request hr hload hrange)
  send hpacket hrange :=
    starting_of_poolKept (Admits.send hpacket hrange) (Admits.send hpacket hrange)
  runTool hrange output :=
    starting_of_poolKept (Admits.runTool hrange output) (Admits.runTool hrange output)
  meetFault name := starting_of_poolKept (Admits.meetFault name) (Admits.meetFault name)
  loadAnimations := starting_of_poolKept Admits.loadAnimations Admits.loadAnimations
  finish id := holds_modify fun _ hs => ⟨hs.world, Pool.allStarted_finish hs.pool id⟩
  sweep := holds_modify fun _ hs => ⟨hs.world, Pool.allStarted_sweep hs.pool⟩
  startTask := starting_startTask
  askAssets hr := starting_of_poolKept (AdmitsLibrary.askAssets hr) (AdmitsLibrary.askAssets hr)
  readClipTable := starting_of_poolKept AdmitsLibrary.readClipTable AdmitsLibrary.readClipTable
  readGroupTable := starting_of_poolKept AdmitsLibrary.readGroupTable AdmitsLibrary.readGroupTable
  keepDuration key duration := starting_of_poolKept (AdmitsLibrary.keepDuration key duration)
    (AdmitsLibrary.keepDuration key duration)
  lifecycle hload hrange :=
    starting_of_poolKept (AdmitsLink.lifecycle hload hrange) (governs_request fun _ _ => rfl)
  update hkept := holds_modify fun s hs => ⟨hs.world, by rw [(hkept s.controller).1]; exact hs.pool⟩

theorem starting_createClient : starting.Holds createClient :=
  starting_of_poolKept (grows_createClient fun _ => trivial) (governs_createClient fun _ _ => rfl)

theorem starting_send (packet : Packet) : starting.Holds (send packet) :=
  starting_of_poolKept (grows_send fun _ => trivial) (governs_send packet)

end RobotConsole.Robot
