import RobotConsole.Proofs.Console.Leaks
import RobotConsole.Proofs.Robot.Governing
import RobotConsole.Proofs.Robot.Interleaving

/-!
# No task is lost

However launches, waits and the ends of tasks are interleaved, a task that is alive is kept track
of. Therefore a disconnection waits for every task that was alive when it began before it stops the
client, and the end of its wait does not drop a task that was launched in the meantime.

What the console itself does to its pool is one of these interleavings: a launch, a wait and the end
of a task in one go each (`scheduled`).
-/

namespace RobotConsole.Robot.Interleaving

open Contract

namespace Scene

variable {u v w x : Scene} {before between : List Move} {c : Caller} {id : TaskId}

/-- A wait has waited for each task that was alive when it began before the client is stopped. -/
theorem joined_before_stop (hu : u.Sound) (hbegin : Step u (.snapshot c) v)
    (hbetween : v.Reaches between w) (hstop : Step w (.stop c) x)
    (hid : u.pool.isAlive id = true) : .join c id ∈ between := by
  have hpending : Pending c u.pool.tracked between w := (Pending.snapshot hbegin).reaches hbetween
  cases hstop with
  | stop hc =>
    rcases hpending id (hu.pool.living id hid) with hjoined | ⟨rest, hrest, -⟩
    · exact hjoined
    · rw [hc] at hrest
      cases hrest

/-- A task that was started during a wait and is not over is still kept track of after the wait has
swept the list. -/
theorem tracked_after_wait (hbefore : (calm {}).Reaches before u)
    (hbegin : Step u (.snapshot c) v) (hbetween : v.Reaches between w)
    (hassign : Step w (.assign c) x) (hstarted : Started id between)
    (hopen : .complete id ∉ between) : id ∈ x.pool.tracked := by
  have hw : (calm {}).Reaches (before ++ [.snapshot c] ++ between) w :=
    (hbefore.tail hbegin).trans hbetween
  have hx := hw.tail hassign
  refine (Sound.of_reaches hx).pool.living id (((Recorded.reaches hx).living id).mpr ⟨?_, ?_⟩)
  · exact started_append.mpr (.inl (started_append.mpr (.inr hstarted)))
  · -- the task was not over before the wait, because it was started during the wait
    obtain ⟨launcher, hstart⟩ := hstarted
    obtain ⟨first, last, rfl⟩ := List.append_of_mem hstart
    rw [← List.append_assoc] at hw
    have hearlier := Recorded.not_complete_before_start hw
    simp only [List.mem_append, List.mem_singleton, reduceCtorEq, or_false, not_or] at hearlier ⊢
    exact ⟨hearlier.1, by simpa using hopen⟩

/-! ## What is done in one go -/

theorem moveTo_moveTo (s : Scene) (c : Caller) (first second : Stage) :
    (s.moveTo c first).moveTo c second = s.moveTo c second := by
  unfold moveTo
  congr 1
  funext d
  by_cases hd : d = c <;> simp [hd]

theorem moveTo_calm (pool : Pool) (c : Caller) : (calm pool).moveTo c .idle = calm pool := by
  unfold moveTo
  congr 1
  funext d
  exact ite_self _

/-- The scene in which one caller has the lock, and all others are idle. -/
def held (pool : Pool) (c : Caller) (stage : Stage) : Scene :=
  { (calm pool).moveTo c stage with lock := some c }

theorem stage_held (pool : Pool) (c : Caller) (stage : Stage) :
    (held pool c stage).stage c = stage :=
  if_pos rfl

theorem moveTo_held (pool next : Pool) (c : Caller) (first second : Stage) :
    { (held pool c first).moveTo c second with pool := next } = held next c second := by
  show ({ ((calm pool).moveTo c first).moveTo c second with
    pool := next, lock := some c } : Scene) = _
  rw [moveTo_moveTo]
  rfl

theorem release_held (pool : Pool) (c : Caller) (first second : Stage) :
    { (held pool c first).moveTo c second with lock := none } = (calm pool).moveTo c second := by
  show ({ ((calm pool).moveTo c first).moveTo c second with lock := none } : Scene) = _
  rw [moveTo_moveTo]
  rfl

theorem Step.to {s t u : Scene} {move : Move} (h : Step s move t) (ht : t = u) : Step s move u :=
  ht ▸ h

theorem reaches_looks (pool : Pool) (c : Caller) (purpose : Purpose) (rest : List TaskId) :
    ∀ kept, ∃ moves, (held pool c (.sweeping purpose kept rest)).Reaches moves
      (held pool c (.sweeping purpose (kept ++ rest.filter pool.isAlive) [])) := by
  induction rest with
  | nil =>
    intro kept
    rw [List.filter_nil, List.append_nil]
    exact ⟨[], .refl⟩
  | cons id rest ih =>
    intro kept
    have hlook : Step (held pool c (.sweeping purpose kept (id :: rest))) (.look c)
        (held pool c (.sweeping purpose (if pool.isAlive id then kept ++ [id] else kept) rest)) :=
      (Step.look (stage_held ..)).to (moveTo_held pool pool c _ _)
    obtain ⟨moves, hmoves⟩ := ih (if pool.isAlive id then kept ++ [id] else kept)
    have hkept : (if pool.isAlive id then kept ++ [id] else kept) ++ rest.filter pool.isAlive =
        kept ++ (id :: rest).filter pool.isAlive := by
      rw [List.filter_cons]
      split <;> simp
    rw [← hkept]
    exact ⟨_, hlook.reaches.trans hmoves⟩

theorem reaches_swept (pool : Pool) (c : Caller) (purpose : Purpose) :
    ∃ moves, (held pool c (.sweeping purpose [] pool.tracked)).Reaches moves
      (held pool.sweep c (.swept purpose)) := by
  obtain ⟨moves, hmoves⟩ := reaches_looks pool c purpose pool.tracked []
  exact ⟨_, hmoves.tail ((Step.assign (stage_held ..)).to (moveTo_held pool pool.sweep c _ _))⟩

theorem reaches_enlisted (pool : Pool) (job : Job) (threading : Threading) :
    ∃ moves, (calm pool).Reaches moves
      (held (pool.sweep.enlist job threading) 0 (.enlisted pool.sweep.tasks.size)) := by
  have hbegin : Step (calm pool) (.launch 0 job threading)
      (held pool 0 (.sweeping (.launch job threading) [] pool.tracked)) := Step.launch rfl rfl
  obtain ⟨moves, hswept⟩ := reaches_swept pool 0 (.launch job threading)
  have henlist := (Step.enlist (stage_held pool.sweep 0 (.swept (.launch job threading)))).to
    (moveTo_held _ (pool.sweep.enlist job threading) 0 _ _)
  exact ⟨_, (hbegin.reaches.trans hswept).tail henlist⟩

theorem reaches_launched (pool : Pool) (job : Job) (threading : Threading) :
    ∃ moves, (calm pool).Reaches moves (calm (pool.sweep.launched job threading)) := by
  obtain ⟨moves, henlisted⟩ := reaches_enlisted pool job threading
  have hstart := (Step.start (stage_held (pool.sweep.enlist job threading) 0
    (.enlisted pool.sweep.tasks.size))).to
      (moveTo_held _ (pool.sweep.launched job threading) 0 _ _)
  have hrelease := (Step.launched (stage_held (pool.sweep.launched job threading) 0 .started)).to
    ((release_held _ 0 _ _).trans (moveTo_calm _ 0))
  exact ⟨_, (henlisted.tail hstart).tail hrelease⟩

theorem reaches_unstarted (pool : Pool) (job : Job) (threading : Threading) :
    ∃ moves, (calm pool).Reaches moves (calm (pool.sweep.enlist job threading)) := by
  obtain ⟨moves, henlisted⟩ := reaches_enlisted pool job threading
  have hrelease := (Step.failed (stage_held (pool.sweep.enlist job threading) 0
    (.enlisted pool.sweep.tasks.size))).to ((release_held _ 0 _ _).trans (moveTo_calm _ 0))
  exact ⟨_, henlisted.tail hrelease⟩

theorem step_joining (pool : Pool) (c : Caller) (id : TaskId) (rest : List TaskId) :
    Step ((calm pool).moveTo c (.joining (id :: rest))) (.join c id)
      ((calm pool).moveTo c (.joining rest)) :=
  (Step.join (stage_moveTo_self ..)).to (moveTo_moveTo (calm pool) c _ _)

theorem reaches_joined (pool : Pool) (c : Caller) (rest : List TaskId) :
    ∃ moves, ((calm pool).moveTo c (.joining rest)).Reaches moves
      ((calm pool).moveTo c (.joining [])) := by
  induction rest with
  | nil => exact ⟨[], .refl⟩
  | cons id rest ih =>
    obtain ⟨moves, hmoves⟩ := ih
    exact ⟨_, (step_joining pool c id rest).reaches.trans hmoves⟩

/-- A wait begins, and is over at once if there is nothing to wait for. -/
theorem step_snapshot (pool : Pool) (c : Caller) :
    Step (calm pool) (.snapshot c) ((calm pool).moveTo c
      (if pool.tracked.isEmpty then .waited else .joining pool.tracked)) :=
  Step.snapshot rfl rfl

theorem reaches_waited (pool : Pool) (c : Caller) :
    ∃ moves, ((calm pool).moveTo c (.joining [])).Reaches moves
      ((calm pool.sweep).moveTo c .waited) := by
  have hclean : Step ((calm pool).moveTo c (.joining [])) (.clean c)
      (held pool c (.sweeping .clean [] pool.tracked)) := by
    have h := Step.clean (stage_moveTo_self (calm pool) c (.joining [])) rfl
    rwa [moveTo_moveTo] at h
  obtain ⟨looks, hswept⟩ := reaches_swept pool c .clean
  have hrelease := (Step.cleaned (stage_held pool.sweep c (.swept .clean))).to
    (release_held _ c _ _)
  exact ⟨_, (hclean.reaches.trans hswept).tail hrelease⟩

theorem step_stop (pool : Pool) (c : Caller) :
    Step ((calm pool).moveTo c .waited) (.stop c) (calm pool) :=
  (Step.stop (stage_moveTo_self (calm pool) c .waited)).to
    ((moveTo_moveTo _ c _ _).trans (moveTo_calm _ c))

theorem reaches_sweep (pool : Pool) :
    ∃ moves, (calm pool).Reaches moves (calm pool.sweep) := by
  have hbegin := step_snapshot pool 0
  cases hempty : pool.tracked.isEmpty with
  | true =>
    obtain ⟨tasks, tracked⟩ := pool
    cases List.isEmpty_iff.mp hempty
    exact ⟨[], .refl⟩
  | false =>
    rw [hempty, if_neg Bool.false_ne_true] at hbegin
    obtain ⟨joins, hjoined⟩ := reaches_joined pool 0 pool.tracked
    obtain ⟨rest, hwaited⟩ := reaches_waited pool 0
    exact ⟨_, ((hbegin.reaches.trans hjoined).trans hwaited).tail (step_stop pool.sweep 0)⟩

theorem reaches_finish (s : Scene) (id : TaskId) :
    ∃ moves, s.Reaches moves { s with pool := s.pool.finish id } := by
  cases hid : s.pool.isAlive id with
  | true => exact ⟨_, (Step.complete hid).reaches⟩
  | false =>
    rw [Pool.finish_of_dead hid]
    exact ⟨[], .refl⟩

theorem reaches_finishes (s : Scene) (ids : List TaskId) :
    ∃ moves, s.Reaches moves { s with pool := ids.foldl Pool.finish s.pool } := by
  induction ids generalizing s with
  | nil => exact ⟨[], .refl⟩
  | cons id ids ih =>
    obtain ⟨first, hfirst⟩ := reaches_finish s id
    obtain ⟨rest, hrest⟩ := ih { s with pool := s.pool.finish id }
    exact ⟨_, hfirst.trans hrest⟩

end Scene

/-- The ways in which a pool can change with one caller doing one thing after the other. -/
def scheduled : Ways where
  allow c d := ∃ moves, (Scene.calm c.pool).Reaches moves (Scene.calm d.pool)
  refl _ := ⟨[], .refl⟩
  trans h₁ h₂ := ⟨_, h₁.choose_spec.trans h₂.choose_spec⟩

theorem scheduled_of_pool {c d : Controller} (h : d.pool = c.pool) : scheduled.allow c d := by
  show ∃ moves, (Scene.calm c.pool).Reaches moves (Scene.calm d.pool)
  rw [h]
  exact ⟨[], .refl⟩

theorem scheduled_startTask (job : Job) (threading : Threading) :
    (governs scheduled).Holds (startTask job threading) := by
  intro s
  refine .of_outcomes (fun id t hrun => ?_) fun e t hrun => ?_
  · have hcontroller := controller_of_startTask.1 id t hrun
    show scheduled.allow s.controller t.controller
    rw [hcontroller]
    exact Scene.reaches_launched s.controller.pool job threading
  · have hcontroller := (controller_of_startTask.2 e t hrun).1
    show scheduled.allow s.controller t.controller
    rw [hcontroller]
    exact Scene.reaches_unstarted s.controller.pool job threading

instance : AdmitsLink (governs scheduled) :=
  { admits_governs fun _ _ hpool => scheduled_of_pool hpool,
    admitsLibrary_governs fun _ _ hpool => scheduled_of_pool hpool with
    finish := fun id => holds_modify fun s =>
      Scene.reaches_finish (Scene.calm s.controller.pool) id
    sweep := holds_modify fun s => Scene.reaches_sweep s.controller.pool
    startTask := scheduled_startTask
    lifecycle := fun _ _ => governs_request fun _ _ => scheduled_of_pool rfl
    update := fun hkept => holds_modify fun s => scheduled_of_pool (hkept s.controller).1 }

/-! ## What a disconnection does -/

/-- The ways in which a pool changes when tasks end and nothing else happens. -/
def completing : Ways where
  allow c d := ∃ ids : List TaskId, d.pool = ids.foldl Pool.finish c.pool
  refl _ := ⟨[], rfl⟩
  trans h₁ h₂ := by
    obtain ⟨ids₁, h₁⟩ := h₁
    obtain ⟨ids₂, h₂⟩ := h₂
    exact ⟨ids₁ ++ ids₂, by rw [h₂, h₁, List.foldl_append]⟩

instance : Admits (governs completing) :=
  admits_governs fun _ _ hpool => ⟨[], hpool⟩

theorem completing_join (timeout : Number) (id : TaskId) :
    (governs completing).Holds (join timeout id) := by
  have hfinish : (governs completing).Holds
      (update fun k => { k with pool := k.pool.finish id }) := holds_modify fun _ => ⟨[id], rfl⟩
  exact keeps_join_of_finish hfinish timeout

variable {s t : System} {timeout : Number}

theorem isInterrupted_of_runTask {id : TaskId} {job : Job} (h : (runTask id job).run s = .ok () t) :
    job.isInterrupted s = false := by
  unfold Job.isInterrupted
  cases hjob : job.perform.run s with
  | ok a u => rfl
  | error failure u =>
    cases hinterrupt : failure.isInterrupt with
    | false => exact hinterrupt
    | true =>
      have hreport : (reporting "Background task error: " job.perform).run s =
          .error failure u := run_handling_of_interrupt hjob hinterrupt
      unfold runTask at h
      obtain ⟨⟨⟩, v, hcaught, -⟩ := run_of_bind_ok h
      rw [run_tryCatch, hreport] at hcaught
      cases hcaught

/-- The tasks of a list are waited for one after the other; some may end meanwhile. -/
theorem reaches_of_joins {ids : List TaskId} (h : (ids.forM (join timeout)).run s = .ok () t) :
    ∃ moves, ((Scene.calm s.controller.pool).moveTo 0 (.joining ids)).Reaches moves
      ((Scene.calm t.controller.pool).moveTo 0 (.joining [])) := by
  induction ids generalizing s with
  | nil =>
    cases h
    exact ⟨[], .refl⟩
  | cons id ids ih =>
    obtain ⟨⟨⟩, u, hjoin, hjoins⟩ := run_of_bind_ok h
    obtain ⟨ended, hended⟩ := (completing_join timeout id s).yields hjoin
    obtain ⟨first, hfirst⟩ := Scene.reaches_finishes
      ((Scene.calm s.controller.pool).moveTo 0 (.joining (id :: ids))) ended
    obtain ⟨rest, hrest⟩ := ih hjoins
    have hstep := Scene.step_joining u.controller.pool 0 id ids
    rw [hended] at hstep
    rw [hended] at hrest
    exact ⟨_, (hfirst.tail hstep).trans hrest⟩

/-- A wait of the console that comes to its end is one, from the copy of the list to its sweep. -/
theorem reaches_of_awaitTasks (h : (awaitTasks timeout).run s = .ok () t) :
    ∃ between, (Scene.calm s.controller.pool).Reaches (.snapshot 0 :: between)
      ((Scene.calm t.controller.pool).moveTo 0 .waited) := by
  have hbegin := Scene.step_snapshot s.controller.pool 0
  unfold awaitTasks at h
  obtain ⟨c, u, hread, h⟩ := run_of_bind_ok h
  cases hread
  dsimp only at h
  split at h
  · rename_i hempty
    cases h
    rw [if_pos hempty] at hbegin
    exact ⟨[], hbegin.reaches⟩
  · rename_i hsome
    rw [if_neg hsome] at hbegin
    obtain ⟨⟨⟩, u, hprint, h⟩ := run_of_bind_ok h
    cases hprint
    obtain ⟨⟨⟩, v, hjoins, h⟩ := run_of_bind_ok h
    cases h
    obtain ⟨joins, hjoined⟩ := reaches_of_joins hjoins
    obtain ⟨rest, hwaited⟩ := Scene.reaches_waited v.controller.pool 0
    exact ⟨_, hbegin.reaches.trans (hjoined.trans hwaited)⟩

theorem isJoinable_of_run_join {id : TaskId} (h : (join timeout id).run s = .ok () t) :
    s.controller.pool.isJoinable id = true := by
  cases hjoinable : s.controller.pool.isJoinable id with
  | true => rfl
  | false =>
    rw [run_join, hjoinable] at h
    cases h

theorem isJoinable_of_joins {ids : List TaskId} (h : (ids.forM (join timeout)).run s = .ok () t) :
    ∀ id ∈ ids, s.controller.pool.isJoinable id = true := by
  induction ids generalizing s with
  | nil => exact fun _ hid => by cases hid
  | cons first ids ih =>
    obtain ⟨⟨⟩, u, hjoin, hjoins⟩ := run_of_bind_ok h
    intro id hid
    rcases List.mem_cons.mp hid with rfl | hid
    · exact isJoinable_of_run_join hjoin
    · rw [← isJoinable_of_join hjoin id]
      exact ih hjoins id hid

/-- Tasks that could be waited for to the end were not interrupted. -/
theorem isUndisturbed_of_joins {ids : List TaskId}
    (h : (ids.forM (join timeout)).run s = .ok () t) : isUndisturbed timeout ids s = true := by
  induction ids generalizing s with
  | nil => rfl
  | cons id ids ih =>
    obtain ⟨⟨⟩, u, hjoin, hjoins⟩ := run_of_bind_ok h
    have hrest : isUndisturbed timeout ids (after (join timeout id) s) = true := by
      rw [after_of_ok hjoin]
      exact ih hjoins
    rw [isUndisturbed, hrest, Bool.and_true]
    have hstarted := isJoinable_of_run_join hjoin
    rw [run_join, if_pos hstarted] at hjoin
    cases hpending : s.pending? id with
    | none => rfl
    | some job =>
      rw [hpending] at hjoin
      rw [Option.all_some, Bool.not_eq_true']
      exact isInterrupted_of_runTask hjoin

/-- A wait that comes to its end was not interrupted, and found every task started. -/
theorem isUndisturbed_of_awaitTasks (h : (awaitTasks releaseTimeout).run s = .ok () t) :
    s.isUndisturbed = true ∧ s.controller.pool.allStarted = true := by
  unfold awaitTasks at h
  obtain ⟨c, u, hread, h⟩ := run_of_bind_ok h
  cases hread
  dsimp only at h
  split at h
  · rename_i hempty
    unfold System.isUndisturbed Pool.allStarted
    rw [List.isEmpty_iff.mp hempty]
    exact ⟨rfl, rfl⟩
  · obtain ⟨⟨⟩, u, hprint, h⟩ := run_of_bind_ok h
    cases hprint
    obtain ⟨⟨⟩, v, hjoins, -⟩ := run_of_bind_ok h
    have hjoinable := isJoinable_of_joins hjoins
    exact ⟨isUndisturbed_of_joins hjoins, Pool.allStarted_iff.mpr hjoinable⟩

/-- A disconnection that comes to its end has waited for each task that was kept track of before it
stopped the client. -/
theorem released_of_disconnect (h : disconnect.run s = .ok () t) : Released s t := by
  obtain ⟨⟨⟩, u, hawait, -⟩ := run_of_bind_ok (disconnect_eq ▸ h)
  obtain ⟨hundisturbed, hstarted⟩ := isUndisturbed_of_awaitTasks hawait
  obtain ⟨v, hrun, hreleased⟩ := run_disconnect hundisturbed hstarted
  rw [h] at hrun
  cases hrun
  exact hreleased

/-- A disconnection that comes to its end waits, and then stops the client. -/
theorem reaches_of_disconnect (h : disconnect.run s = .ok () t) :
    ∃ between, (Scene.calm s.controller.pool).Reaches (.snapshot 0 :: between ++ [.stop 0])
      (Scene.calm t.controller.pool) := by
  rw [disconnect_eq] at h
  obtain ⟨⟨⟩, u, hawait, hhang⟩ := run_of_bind_ok h
  obtain ⟨v, hrun, hv⟩ := run_hangUp u
  rw [hrun] at hhang
  cases hhang
  obtain ⟨between, hwaited⟩ := reaches_of_awaitTasks hawait
  have hstop := Scene.step_stop u.controller.pool 0
  rw [← hv.controller] at hwaited hstop
  exact ⟨between, hwaited.tail hstop⟩

end RobotConsole.Robot.Interleaving

namespace RobotConsole.Console

open Robot Robot.Interleaving Robot.Interleaving.Scene

/-- However launches, waits and the ends of tasks are interleaved, no task is kept track of twice,
and those that were started and are not over are alive and kept track of. So a wait has waited for
every task that was alive when it began before the client is stopped, and what was launched during a
wait is not dropped by it. What operations of the console do to its tasks is such an interleaving. A
disconnection is a wait with the stop of the client at its end, and its trace has the two in that
order. -/
theorem background_tasks_never_lost :
    (∀ moves s, (calm {}).Reaches moves s → s.pool.tracked.Nodup ∧ ∀ id,
      (s.pool.isAlive id = true ↔ Started id moves ∧ .complete id ∉ moves) ∧
        (s.pool.isAlive id = true → id ∈ s.pool.tracked)) ∧
    (∀ before u c v between w x, (calm {}).Reaches before u → Step u (.snapshot c) v →
      v.Reaches between w →
        (Step w (.stop c) x → ∀ id, u.pool.isAlive id = true → .join c id ∈ between) ∧
        (Step w (.assign c) x → ∀ id, Started id between → .complete id ∉ between →
          id ∈ x.pool.tracked)) ∧
    (∀ ops world files, ∃ moves,
      (calm {}).Reaches moves (calm (afterOperations ops { world, files }).controller.pool)) ∧
    ∀ s t, disconnect.run s = .ok () t → Released s t ∧ ∃ between,
      (calm s.controller.pool).Reaches (.snapshot 0 :: between ++ [.stop 0])
        (calm t.controller.pool) := by
  refine ⟨?_, ?_, ?_, fun _ _ h => ⟨released_of_disconnect h, reaches_of_disconnect h⟩⟩
  · intro moves s hs
    have hpool : s.pool.Tracks := (Sound.of_reaches hs).pool
    exact ⟨hpool.nodup, fun id => ⟨(Recorded.reaches hs).living id, hpool.living id⟩⟩
  · intro before u c v between w x hbefore hbegin hbetween
    refine ⟨fun hstop id => ?_, fun hassign id => ?_⟩
    · exact joined_before_stop (Sound.of_reaches hbefore) hbegin hbetween hstop
    · exact tracked_after_wait hbefore hbegin hbetween hassign
  · intro ops world files
    have hcreate : (governs scheduled).Holds createClient :=
      governs_createClient fun _ _ => scheduled_of_pool rfl
    exact yields_afterOperations hcreate (fun _ => governs_send _) ops { world, files }

/-- A caller launches the first task. -/
def firstLaunch : List Move :=
  [.launch 0 .idle .hung, .assign 0, .enlist 0, .start 0 0, .release 0]

/-- While a disconnection waits for the first task, a second is launched. The first is found alive,
and is over before the list is replaced. -/
def crossing : List Move :=
  [.launch 0 .idle .hung, .look 0, .complete 0, .assign 0, .enlist 0, .start 0 1, .release 0,
    .join 1 0, .clean 1, .look 1, .look 1]

/-- A controller with a task that will not end. -/
def hungSystem : System where
  world := { clock := 0, directory := { root := "/", names := [] } }
  files := []
  controller := { pool := ({} : Pool).launched .idle .hung }

/-- The second task is not dropped at the end of the wait, and the first was waited for. The console
does not wait for ever, either. -/
theorem crossing_tasks_not_lost :
    (∃ u v w x y z, (calm {}).Reaches firstLaunch u ∧ Step u (.snapshot 1) v ∧
      v.Reaches crossing w ∧ Step w (.assign 1) x ∧ Step x (.release 1) y ∧ Step y (.stop 1) z ∧
      x.pool.tracked.Nodup ∧ 1 ∈ x.pool.tracked ∧ .join 1 0 ∈ crossing) ∧
    ∃ t between, disconnect.run hungSystem = .ok () t ∧ Released hungSystem t ∧
      (calm hungSystem.controller.pool).Reaches (.snapshot 0 :: between ++ [.stop 0])
        (calm t.controller.pool) := by
  have hruns : ∃ u v w x y z, (calm {}).Reaches firstLaunch u ∧ Step u (.snapshot 1) v ∧
      v.Reaches crossing w ∧ Step w (.assign 1) x ∧ Step x (.release 1) y ∧
      Step y (.stop 1) z ∧ u.pool.isAlive 0 = true :=
    ⟨_, _, _, _, _, _,
      .head (.launch rfl rfl) <| .head (.assign rfl) <| .head (.enlist rfl) <|
        .head (.start rfl) <| .head (.launched rfl) .refl,
      .snapshot rfl rfl,
      .head (.launch rfl rfl) <| .head (.look rfl) <| .head (.complete rfl) <|
        .head (.assign rfl) <| .head (.enlist rfl) <| .head (.start rfl) <|
        .head (.launched rfl) <| .head (.join rfl) <| .head (.clean rfl rfl) <|
        .head (.look rfl) <| .head (.look rfl) .refl,
      .assign rfl, .cleaned rfl, .stop rfl, rfl⟩
  obtain ⟨hreached, hwaits, -, hdisconnect⟩ := background_tasks_never_lost
  refine ⟨?_, ?_⟩
  · obtain ⟨u, v, w, x, y, z, hu, hv, hw, hx, hy, hz, halive⟩ := hruns
    have hnodup : x.pool.tracked.Nodup := (hreached _ x ((hu.tail hv).trans (hw.tail hx))).1
    have hkept : 1 ∈ x.pool.tracked :=
      (hwaits firstLaunch u 1 v crossing w x hu hv hw).2 hx 1 ⟨0, by simp [crossing]⟩
        (by simp [crossing])
    have hjoined := (hwaits firstLaunch u 1 v _ y z hu hv ((hw.tail hx).tail hy)).1 hz 0 halive
    exact ⟨u, v, w, x, y, z, hu, hv, hw, hx, hy, hz, hnodup, hkept, by simpa using hjoined⟩
  · obtain ⟨t, ht⟩ : ∃ t, disconnect.run hungSystem = .ok () t := ⟨_, rfl⟩
    obtain ⟨hreleased, between, hbetween⟩ := hdisconnect hungSystem t ht
    exact ⟨t, between, ht, hreleased, hbetween⟩

end RobotConsole.Console
