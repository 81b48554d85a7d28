import RobotConsole.Proofs.Console.Reading
import RobotConsole.Proofs.Robot.Starting

/-!
# The robot is always released

Once the program has its connection, it gives the robot back whatever its commands do
(`robot_released`): they may fail, be interrupted, connect anew or lose the client. What it then
does is known to the event. It waits for the tasks it keeps track of (`Awaited`), stops the client
if there is one, and says goodbye (`Released`). Only an interrupt in one of these tasks could still
come in between, so that there is none is asked for (`System.isUndisturbed`). A task that is kept
track of but was never started cannot be waited for, and then the robot is not given back; where
tasks that are to be started do start (`System.StartsTasks`) there is no such task.
-/

namespace RobotConsole.Robot

open Contract

variable {timeout : Number} {commands : List (Option Command)} {lines : List String}

/-- How long the end of a connection waits for a task, in seconds. -/
def releaseTimeout : Number := .real 30.0

/-! ## Waiting for tasks -/

/-- The job that is done while a task is waited for: that of a task put off until then. -/
def System.pending? (s : System) (id : TaskId) : Option Job :=
  match s.controller.pool.tasks[id]? with
  | some task => if task.alive && task.threading = .deferred then some task.job else none
  | none => none

/-- Whether a job that is done now is cut short by an interrupt. -/
def Job.isInterrupted (job : Job) (s : System) : Bool :=
  match job.perform.run s with
  | .ok _ _ => false
  | .error failure _ => failure.isInterrupt

/-- Waiting for tasks one after the other, with the events of it. A task that was put off works in
the meantime. -/
inductive Awaited (timeout : Number) : System → List TaskId → List Event → System → Prop
  | none {s : System} : Awaited timeout s [] [] s
  | idle {s u : System} {id : TaskId} {ids : List TaskId} {events : List Event} :
      s.pending? id = none →
      Awaited timeout (s.record (.joinTask timeout)) ids events u →
      Awaited timeout s (id :: ids) (.joinTask timeout :: events) u
  | works {s t u : System} {id : TaskId} {ids : List TaskId} {job : Job}
      {work events : List Event} :
      s.pending? id = some job →
      (runTask id job).run (s.record (.joinTask timeout)) = .ok () t →
      t.trace.toList = (s.record (.joinTask timeout)).trace.toList ++ work →
      (∀ e ∈ work, e.isStop = false) →
      Awaited timeout t ids events u →
      Awaited timeout s (id :: ids) (.joinTask timeout :: work ++ events) u

/-- Whether no task is interrupted while these are waited for. -/
def isUndisturbed (timeout : Number) : List TaskId → System → Bool
  | [], _ => true
  | id :: ids, s =>
    (s.pending? id).all (fun job => !job.isInterrupted (s.record (.joinTask timeout))) &&
      isUndisturbed timeout ids (after (join timeout id) s)

theorem Awaited.trace {s u : System} {ids : List TaskId} {events : List Event}
    (h : Awaited timeout s ids events u) : u.trace.toList = s.trace.toList ++ events := by
  induction h with
  | none => rw [List.append_nil]
  | idle _ _ ih => rw [ih, System.trace_record, List.append_assoc, List.singleton_append]
  | works _ _ hwork _ _ ih =>
    rw [ih, hwork, System.trace_record, List.append_assoc, List.append_assoc,
      List.singleton_append, List.cons_append]

/-- The jobs of tasks stop no client. -/
instance : AdmitsTasks (grows fun e => e.isStop = false) :=
  admitsTasks_grows fun _ _ _ hlifecycle _ => Event.not_isStop hlifecycle

/-- A task ends well unless it is interrupted: other failures are reported. -/
theorem run_runTask (id : TaskId) {job : Job} {s : System} (h : job.isInterrupted s = false) :
    ∃ t, (runTask id job).run s = .ok () t := by
  have hbody : ∃ t, (reporting "Background task error: " job.perform).run s = .ok () t := by
    unfold Job.isInterrupted at h
    cases hjob : job.perform.run s with
    | ok a t => exact ⟨t, run_handling_of_ok hjob⟩
    | error failure t =>
      rw [hjob] at h
      exact ⟨_, run_handling_of_failure hjob h⟩
  obtain ⟨t, ht⟩ := hbody
  unfold runTask
  simp only [EStateM.run_bind, run_tryCatch, ht]
  exact ⟨_, rfl⟩

/-- Waiting for a task does the job that was put off, if there is one. A task that was never
started cannot be waited for. -/
theorem run_join (timeout : Number) (id : TaskId) (s : System) :
    (join timeout id).run s =
      if s.controller.pool.isJoinable id then
        match s.pending? id with
        | some job => (runTask id job).run (s.record (.joinTask timeout))
        | none => .ok () (s.record (.joinTask timeout))
      else .error .taskNotStarted (s.record (.joinTask timeout)) := by
  have hpool : (s.record (.joinTask timeout)).controller = s.controller := rfl
  unfold join controller System.pending? Pool.isJoinable
  simp only [EStateM.run_bind, EStateM.run_get, EStateM.run_pure, run_emit_eq, hpool]
  cases s.controller.pool.tasks[id]? with
  | none => rfl
  | some task =>
    cases hstarted : task.started with
    | false => simp only [hstarted, Option.all_some]; rfl
    | true =>
      cases hwork : task.alive && decide (task.threading = .deferred) with
      | false => simp only [hstarted, hwork, Option.all_some]; rfl
      | true => simp only [hstarted, hwork, Option.all_some]; rfl

/-- The ways in which it stays the same which tasks can be waited for. -/
def joinableKept : Ways where
  allow c d := ∀ id, d.pool.isJoinable id = c.pool.isJoinable id
  refl _ _ := rfl
  trans h₁ h₂ id := (h₂ id).trans (h₁ id)

instance : Admits (governs joinableKept) :=
  admits_governs fun _ _ hpool id => by rw [hpool]

/-- Waiting for one task does not decide whether another can be waited for. -/
theorem isJoinable_of_join {id : TaskId} {s t : System}
    (h : (join timeout id).run s = .ok () t) (other : TaskId) :
    t.controller.pool.isJoinable other = s.controller.pool.isJoinable other := by
  have hfinish : (governs joinableKept).Holds
      (update fun k => { k with pool := k.pool.finish id }) :=
    holds_modify fun s other => s.controller.pool.isJoinable_finish id other
  exact (keeps_join_of_finish hfinish timeout s).yields h other

/-- Undisturbed tasks that were all started are waited for one after the other, to the end. -/
theorem awaited_of_isUndisturbed {ids : List TaskId} {s : System}
    (h : isUndisturbed timeout ids s = true)
    (hstarted : ∀ id ∈ ids, s.controller.pool.isJoinable id = true) :
    ∃ events u, (ids.forM (join timeout)).run s = .ok () u ∧ Awaited timeout s ids events u := by
  induction ids generalizing s with
  | nil => exact ⟨[], s, rfl, .none⟩
  | cons id ids ih =>
    rw [isUndisturbed, Bool.and_eq_true] at h
    obtain ⟨hjob, hrest⟩ := h
    have hstep : ((id :: ids).forM (join timeout)).run s =
        (do join timeout id; ids.forM (join timeout) : Act Unit).run s := rfl
    rw [hstep, EStateM.run_bind]
    have hjoin := run_join timeout id s
    rw [if_pos (hstarted id List.mem_cons_self)] at hjoin
    have hlater {t : System} (hrun : (join timeout id).run s = .ok () t) :
        ∀ other ∈ ids, t.controller.pool.isJoinable other = true := fun other hother =>
      (isJoinable_of_join hrun other).trans (hstarted other (List.mem_cons_of_mem id hother))
    cases hpending : s.pending? id with
    | none =>
      rw [hpending] at hjoin
      rw [after_of_ok hjoin] at hrest
      obtain ⟨events, u, hrun, hevents⟩ := ih hrest (hlater hjoin)
      exact ⟨_, u, by rw [hjoin]; exact hrun, .idle hpending hevents⟩
    | some job =>
      rw [hpending, Option.all_some, Bool.not_eq_true'] at hjob
      obtain ⟨t, htask⟩ := run_runTask id hjob
      rw [hpending] at hjoin
      replace hjoin := hjoin.trans htask
      rw [after_of_ok hjoin] at hrest
      obtain ⟨events, u, hrun, hevents⟩ := ih hrest (hlater hjoin)
      -- a task only adds to the trace, and never a stop
      have hgrows : Grows (fun e => e.isStop = false) _ t :=
        (keeps_runTask (c := grows fun e => e.isStop = false) id job _).yields htask
      obtain ⟨work, hwork, hstop⟩ := hgrows.trace
      exact ⟨_, u, by rw [hjoin]; exact hrun,
        .works hpending htask hwork hstop hevents⟩

/-- Tasks that have been waited for to the end were all started. -/
theorem isJoinable_of_awaited {ids : List TaskId} {s u : System}
    (h : (ids.forM (join timeout)).run s = .ok () u) :
    ∀ id ∈ ids, s.controller.pool.isJoinable id = true := by
  induction ids generalizing s with
  | nil => simp
  | cons id ids ih =>
    have hstep : (do join timeout id; ids.forM (join timeout) : Act Unit).run s = .ok () u := h
    obtain ⟨⟨⟩, t, hjoin, hrest⟩ := run_of_bind_ok hstep
    refine List.forall_mem_cons.mpr ⟨?_, fun other hother => ?_⟩
    · rw [run_join] at hjoin
      split at hjoin
      · assumption
      · cases hjoin
    · rw [← isJoinable_of_join hjoin other]
      exact ih hrest other hother

/-! ## Disconnecting -/

/-- What is said before tasks are waited for. -/
def System.waitingNote (s : System) : Event :=
  .print s!"Waiting for {s.controller.pool.tracked.length} background task(s)..."

/-- Whether no task is interrupted when the connection is ended now. -/
def System.isUndisturbed (s : System) : Bool :=
  Robot.isUndisturbed releaseTimeout s.controller.pool.tracked (s.record s.waitingNote)

/-- The wait for all tasks that are kept track of, with its events: none if there is no task. -/
inductive Drained (s : System) : List Event → System → Prop
  | none : s.controller.pool.tracked = [] → Drained s [] s
  | some {events : List Event} {u : System} : s.controller.pool.tracked ≠ [] →
      Awaited releaseTimeout (s.record s.waitingNote) s.controller.pool.tracked events u →
      Drained s (s.waitingNote :: events) u

/-- How a connection ends: tasks are waited for, the client is stopped if there is one, and that is
all there is. -/
structure Released (s t : System) : Prop where
  connected : t.controller.connected = false
  client : t.controller.client = none
  trace : ∃ waits u, Drained s waits u ∧
    t.trace.toList = s.trace.toList ++ waits ++
      (u.controller.client.map fun id => Event.call id .stop).toList ++
      [.print "Disconnected from Cozmo"]

theorem Drained.trace {s u : System} {waits : List Event} (h : Drained s waits u) :
    u.trace.toList = s.trace.toList ++ waits := by
  cases h with
  | none _ => rw [List.append_nil]
  | some _ hevents => rw [hevents.trace, System.trace_record, List.append_assoc,
      List.singleton_append]

/-- Tasks that were started and are not interrupted are waited for to the end. -/
theorem run_awaitTasks {s : System} (h : s.isUndisturbed = true)
    (hstarted : s.controller.pool.allStarted = true) :
    ∃ waits u t, Drained s waits u ∧ (awaitTasks releaseTimeout).run s = .ok () t ∧
      t.trace = u.trace ∧ t.controller.client = u.controller.client := by
  unfold awaitTasks controller print
  simp only [EStateM.run_bind, EStateM.run_get, EStateM.run_pure]
  cases htracked : s.controller.pool.tracked with
  | nil => exact ⟨[], s, s, .none htracked, rfl, rfl, rfl⟩
  | cons id ids =>
    have hnote : (emit (.print s!"Waiting for {(id :: ids).length} background task(s)...")).run s
        = .ok () (s.record s.waitingNote) := by
      unfold System.waitingNote
      rw [htracked, run_emit_eq]
    unfold System.isUndisturbed at h
    rw [htracked] at h
    have hjoinable : ∀ other ∈ id :: ids, s.controller.pool.isJoinable other = true := by
      rw [← htracked]
      exact Pool.allStarted_iff.mp hstarted
    obtain ⟨events, u, hrun, hevents⟩ := awaited_of_isUndisturbed h hjoinable
    rw [← htracked] at hevents
    have hsome : s.controller.pool.tracked ≠ [] := by
      rw [htracked]
      exact List.cons_ne_nil id ids
    let swept := { u.controller with pool := u.controller.pool.sweep }
    refine ⟨_, u, { u with controller := swept }, .some hsome hevents, ?_, rfl, rfl⟩
    simp only [List.isEmpty_cons, Bool.false_eq_true, if_false, EStateM.run_bind, hnote, hrun]
    rfl

theorem allStarted_of_awaitTasks {s t : System}
    (h : (awaitTasks releaseTimeout).run s = .ok () t) : s.controller.pool.allStarted = true := by
  refine Pool.allStarted_iff.mpr ?_
  unfold awaitTasks controller print at h
  simp only [EStateM.run_bind, EStateM.run_get, EStateM.run_pure] at h
  cases htracked : s.controller.pool.tracked with
  | nil => simp
  | cons id ids =>
    rw [htracked] at h
    simp only [List.isEmpty_cons, Bool.false_eq_true, if_false] at h
    obtain ⟨⟨⟩, u, hnote, h⟩ := run_of_bind_ok h
    obtain ⟨⟨⟩, v, hjoined, -⟩ := run_of_bind_ok h
    rw [run_emit_eq] at hnote
    cases hnote
    have hjoinable := isJoinable_of_awaited hjoined
    exact hjoinable

/-- Stopping the client is in the trace, and a failure of it is passed over. -/
theorem run_stopClient {s : System} {id : ClientId} (hid : s.controller.client = some id) :
    ∃ t, (regardless (request .stop)).run s = .ok () t ∧ Appends [.call id .stop] s t := by
  refine ⟨after (request .stop) s, ?_, after_request (fun h => by cases h) hid⟩
  unfold regardless after
  rw [run_tryCatch]
  cases (request .stop).run s <;> rfl

/-- What ends a connection once no task is waited for any more. -/
def hangUp : Act Unit := do
  if (← controller).client.isSome then regardless (request .stop)
  update fun c => { c with client := none, connected := false }
  print "Disconnected from Cozmo"

theorem disconnect_eq : disconnect = (do awaitTasks releaseTimeout; hangUp) := rfl

/-- The system once a connection has been ended. -/
def System.closed (s : System) : System :=
  let closed := { s.controller with client := none, connected := false }
  { s with controller := closed }.record (.print "Disconnected from Cozmo")

/-- The client is stopped if there is one, and then the controller is without it. -/
theorem run_hangUp (s : System) :
    ∃ t, hangUp.run s = .ok () t.closed ∧
      Appends (s.controller.client.map fun id => Event.call id .stop).toList s t := by
  unfold hangUp controller
  simp only [EStateM.run_bind, EStateM.run_get, EStateM.run_pure]
  cases hid : s.controller.client with
  | none => exact ⟨s, rfl, rfl, rfl, rfl, (List.append_nil _).symm⟩
  | some id =>
    obtain ⟨t, hstop, ht⟩ := run_stopClient hid
    refine ⟨t, ?_, ht⟩
    rw [Option.isSome_some, if_pos rfl, EStateM.run_bind, hstop]
    rfl

/-- Ending a connection comes to its end if all tasks were started. -/
theorem run_disconnect {s : System} (h : s.isUndisturbed = true)
    (hstarted : s.controller.pool.allStarted = true) :
    ∃ t, disconnect.run s = .ok () t ∧ Released s t := by
  obtain ⟨waits, u, t, hdrained, hawait, htrace, hclient⟩ := run_awaitTasks h hstarted
  obtain ⟨v, hrun, hv⟩ := run_hangUp t
  refine ⟨v.closed, ?_, rfl, rfl, waits, u, hdrained, ?_⟩
  · rw [disconnect_eq, EStateM.run_bind, hawait]
    exact hrun
  · rw [← hdrained.trace, ← htrace, ← hclient, ← hv.trace]
    exact System.trace_record _ _

end RobotConsole.Robot

namespace RobotConsole.Console

open Contract Robot

/-! ## The whole program -/

/-- The program's own connection. -/
def openConnection : Act Bool := do
  print "Connecting to Cozmo..."
  prepare
  connect defaultRetries defaultDelay

/-- The system in which the first command is executed, if the commands need the robot and the
connection to it is made. -/
def opened? (commands : List (Option Command)) (s : System) : Option System :=
  match (needsRobot commands).run s with
  | .ok true s =>
    match openConnection.run s with
    | .ok _ t =>
      if t.controller.connected then
        some ((t.record (.print "Connected! Executing commands...")).record (.print Command.rule))
      else none
    | .error _ _ => none
  | _ => none

/-- The system in which the connection is ended. -/
def releasing (commands : List (Option Command)) (s : System) : System :=
  ((after (executeGuarded commands) s).record (.print Command.rule)).record
    (.print "Disconnecting...")

/-- Whatever a command does, the program goes on to end the connection. -/
theorem run_executeGuarded (commands : List (Option Command)) (s : System) :
    (executeGuarded commands).run s = .ok () (after (executeGuarded commands) s) := by
  unfold after executeGuarded
  rw [run_tryCatch]
  cases (executeAll commands).run s with
  | ok a t => rfl
  | error failure t => cases hint : failure.isInterrupt <;> simp only [hint] <;> rfl

theorem run_session (commands : List (Option Command)) (s : System) :
    (session commands).run s = disconnect.run (releasing commands s) := by
  have hsession : session commands = (do
      executeGuarded commands
      print Command.rule
      print "Disconnecting..."
      disconnect) := rfl
  rw [hsession, EStateM.run_bind, run_executeGuarded]
  rfl

theorem opened?_eq_some {s u : System}
    (h : opened? commands s = some u) :
    (needsRobot commands).run s = .ok true s ∧
      ∃ answer t, openConnection.run s = .ok answer t ∧ t.controller.connected = true ∧
        u = (t.record (.print "Connected! Executing commands...")).record
          (.print Command.rule) := by
  unfold opened? at h
  rw [run_needsRobot] at h ⊢
  split at h
  · rename_i s' hneeded
    split at h
    · rename_i answer t hopen
      split at h
      · rename_i hconnected
        cases h
        split at hneeded
        · cases hneeded
        · cases hneeded
        · cases hneeded
          exact ⟨rfl, answer, t, hopen, hconnected, rfl⟩
      · cases h
    · cases h
  · cases h

theorem runCommands_eq (commands : List (Option Command)) :
    runCommands commands = (do
      if !(← needsRobot commands) then
        prepare
        commands.forM fun entry => do
          let _ ← executeEntry entry
        return 0
      let _ ← openConnection
      if !(← controller).connected then
        print "Failed to connect!"
        return 1
      print "Connected! Executing commands..."
      print Command.rule
      session commands
      return 0) := rfl

theorem run_runCommands_of_opened {s u : System}
    (h : opened? commands s = some u) :
    (runCommands commands).run s = (do session commands; return 0 : Act Int).run u := by
  obtain ⟨hneeded, answer, t, hopen, hconnected, rfl⟩ := opened?_eq_some h
  rw [runCommands_eq, EStateM.run_bind, hneeded]
  simp only [Bool.not_true, Bool.false_eq_true, if_false, EStateM.run_bind, hopen]
  unfold controller
  simp only [EStateM.run_bind, EStateM.run_get, EStateM.run_pure, hconnected, Bool.not_true,
    Bool.false_eq_true, if_false]
  rfl

/-- A program whose connection was made ends with the end of that connection. -/
theorem run_of_opened {args : List String}
    {s t u : System} (hsupplies : Supplies s args lines t) (hreads : Reads lines commands)
    (hopened : opened? commands t = some u) :
    (run args).run s = (do disconnect; return some 0 : Act (Option Int)).run
      (releasing commands u) := by
  have hcommands : (runCommands commands).run t =
      (do disconnect; return 0 : Act Int).run (releasing commands u) := by
    rw [run_runCommands_of_opened hopened, EStateM.run_bind, run_session, EStateM.run_bind]
  cases hreads with
  | nil => cases hopened
  | cons hline hrest =>
    rw [hsupplies.run_eq, EStateM.run_bind, (Reads.cons hline hrest).run_runLines, hcommands]
    simp only [EStateM.run_bind]
    generalize disconnect.run _ = outcome
    cases outcome <;> rfl

/-- A program that starts its tasks comes to the end of its connection with all of them started. -/
theorem releasing_startsTasks {args : List String}
    {s t u : System} (hsupplies : Supplies s args lines t) (hopened : opened? commands t = some u)
    (hs : s.StartsTasks) : (releasing commands u).StartsTasks := by
  have ht : t.StartsTasks := by
    cases hsupplies with
    | given _ _ => exact hs
    | script _ _ hlines =>
      exact (holds_scriptCommands (c := starting) keeps_print (fun _ _ => id) _ s).yields hlines hs
  obtain ⟨-, answer, v, hopen, -, hu⟩ := opened?_eq_some hopened
  have hconnect : starting.Holds openConnection :=
    (keeps_print _).bind fun _ => keeps_prepare.bind fun _ =>
      keeps_connect starting_createClient _ _
  have hv : v.StartsTasks := (hconnect t).yields hopen ht
  have hstart : u.StartsTasks := by
    rw [hu]
    exact (hv.record _).record _
  have hexecute : starting.Holds (executeGuarded commands) :=
    keeps_executeGuarded fun command _ => keeps_execute command (fun _ => starting_createClient)
      fun _ _ _ => starting_send _
  have hend : (after (executeGuarded commands) u).StartsTasks :=
    (hexecute u).yields (run_executeGuarded commands u) hstart
  exact (hend.record _).record _

/-- Up to the end of the connection the trace only grows, by what the commands do. -/
theorem releasing_trace (commands : List (Option Command)) (s : System) :
    ∃ done, (releasing commands s).trace.toList =
      s.trace.toList ++ done ++ [.print Command.rule, .print "Disconnecting..."] := by
  have hgrows : Grows (fun _ => True) s (after (executeGuarded commands) s) :=
    Grows.of_holds (keeps_executeGuarded fun command _ => keeps_execute command
      (fun _ => grows_createClient fun _ => trivial) fun _ _ _ => grows_send fun _ => trivial) s
  obtain ⟨done, hdone, _⟩ := hgrows.trace
  refine ⟨done, ?_⟩
  unfold releasing
  rw [System.trace_record, System.trace_record, hdone, List.append_assoc _ [_] [_]]
  rfl

/-- Whether lines can be read and give commands that pass a test. -/
def readsTo (lines : List String) (s : System) (test : List (Option Command) → Bool) : Bool :=
  match (readCommands lines).run s with
  | .ok (some commands) _ => test commands
  | _ => false

theorem exists_of_readsTo {s : System} {test : List (Option Command) → Bool}
    (h : readsTo lines s test = true) :
    ∃ commands, Reads lines commands ∧ test commands = true := by
  unfold readsTo at h
  split at h
  · rename_i commands t hread
    exact ⟨commands, reads_of_run hread, h⟩
  · cases h

/-- A system in which the second of two commands is interrupted while the first is put off. -/
def busySystem : System where
  world :=
    { clock := 0
      directory := { root := "/", names := [] }
      threading := .deferred
      faults := [("wait_for_robot", { kind := .interrupt })] }
  files := []

theorem busySystem_startsTasks : busySystem.StartsTasks :=
  ⟨rfl, rfl⟩

end RobotConsole.Console
