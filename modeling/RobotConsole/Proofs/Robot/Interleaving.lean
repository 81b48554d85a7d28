import RobotConsole.Robot.Task

/-!
# Tasks and their callers

Tasks are launched, waited for and finished all at the same time. `Scene.Step` says what one caller
can do to the pool in one go, and that any task may be finished between any two such steps. A lock
guards the list of tasks that are kept track of. A launch holds it while it looks through the list
task by task, puts the list of the living in place of the old one, adds the new task to it and
starts the task, which may fail. A wait holds the lock to copy the list, waits for the tasks of its
copy without the lock, and takes it once more to sweep out the dead.

Whatever the order of the steps, every task that is alive is kept track of, and none is so twice
(`Scene.Sound`). `Recorded` ties this to what has happened: alive are the tasks that were started
and not completed. `Pending` follows one wait: each task of its copy was waited for or still will
be.
-/

namespace RobotConsole.Robot

variable {id : TaskId} {pool : Pool}

namespace Pool

/-- A pool whose living tasks are all kept track of, and no task twice. -/
structure Tracks (p : Pool) : Prop where
  nodup : p.tracked.Nodup
  known : ∀ id ∈ p.tracked, id < p.tasks.size
  living : ∀ id, p.isAlive id = true → id ∈ p.tracked

theorem isAlive_finish (p : Pool) (id j : TaskId) :
    (p.finish id).isAlive j = true ↔ j ≠ id ∧ p.isAlive j = true := by
  unfold isAlive finish
  rw [Array.getElem?_modify]
  by_cases hj : id = j
  · rw [if_pos hj]
    cases p.tasks[j]? <;> simp [hj]
  · rw [if_neg hj]
    exact ⟨fun h => ⟨fun hne => hj hne.symm, h⟩, fun h => h.2⟩

theorem isAlive_enlist (p : Pool) (job : Job) (threading : Threading) (j : TaskId) :
    (p.enlist job threading).isAlive j = p.isAlive j := by
  unfold isAlive enlist
  dsimp only
  rw [Array.getElem?_push]
  by_cases hj : j = p.tasks.size
  · rw [if_pos hj, hj, Array.getElem?_eq_none (Nat.le_refl _)]
  · rw [if_neg hj]

theorem isAlive_start {p : Pool} (hid : id < p.tasks.size) (j : TaskId) :
    (p.start id).isAlive j = true ↔ j = id ∨ p.isAlive j = true := by
  unfold isAlive start
  rw [Array.getElem?_modify]
  by_cases hj : id = j
  · subst hj
    rw [if_pos rfl, Array.getElem?_eq_getElem hid]
    simp
  · rw [if_neg hj]
    exact ⟨.inr, fun h => h.resolve_left fun hne => hj hne.symm⟩

theorem lt_of_isAlive {p : Pool} (h : p.isAlive id = true) : id < p.tasks.size := by
  unfold isAlive at h
  split at h
  · rename_i task htask
    exact (Array.getElem?_eq_some_iff.mp htask).1
  · cases h

theorem finish_of_dead {p : Pool} (h : p.isAlive id = false) : p.finish id = p := by
  unfold finish
  congr 1
  apply Array.ext_getElem?
  intro j
  rw [Array.getElem?_modify]
  by_cases hj : id = j
  · subst hj
    rw [if_pos rfl]
    unfold isAlive at h
    cases htask : p.tasks[id]? with
    | none => rfl
    | some task =>
      rw [htask] at h
      simp only [Option.map_some, ← h]
  · rw [if_neg hj]

namespace Tracks

variable {p : Pool}

theorem empty : Tracks {} :=
  ⟨List.nodup_nil, fun _ h => (by cases h), fun _ h => (by cases h)⟩

/-- The list may be replaced by a part of it that still has all the living. -/
theorem assign (h : p.Tracks) {kept : List TaskId} (hkept : kept.Sublist p.tracked)
    (hliving : ∀ id, p.isAlive id = true → id ∈ kept) : Tracks { p with tracked := kept } :=
  ⟨h.nodup.sublist hkept, fun id hid => h.known id (hkept.subset hid), hliving⟩

theorem enlist (h : p.Tracks) (job : Job) (threading : Threading) :
    (p.enlist job threading).Tracks := by
  refine ⟨?_, ?_, ?_⟩
  · refine List.nodup_append.mpr ⟨h.nodup, List.pairwise_singleton _ _, ?_⟩
    intro a ha b hb
    rw [List.mem_singleton.mp hb]
    exact Nat.ne_of_lt (h.known a ha)
  · intro id hid
    show id < (p.tasks.push _).size
    rw [Array.size_push]
    rcases List.mem_append.mp hid with hid | hid
    · exact Nat.lt_succ_of_lt (h.known id hid)
    · rw [List.mem_singleton.mp hid]
      exact Nat.lt_succ_self _
  · intro id hid
    rw [isAlive_enlist] at hid
    exact List.mem_append_left _ (h.living id hid)

theorem start (h : p.Tracks) (hid : id ∈ p.tracked) : (p.start id).Tracks := by
  refine ⟨h.nodup, ?_, ?_⟩
  · intro j hj
    show j < (p.tasks.modify id _).size
    rw [Array.size_modify]
    exact h.known j hj
  · intro j hj
    rcases (isAlive_start (h.known id hid) j).mp hj with rfl | hj
    · exact hid
    · exact h.living j hj

theorem finish (h : p.Tracks) (id : TaskId) : (p.finish id).Tracks := by
  refine ⟨h.nodup, ?_, ?_⟩
  · intro j hj
    show j < (p.tasks.modify id _).size
    rw [Array.size_modify]
    exact h.known j hj
  · intro j hj
    exact h.living j ((isAlive_finish p id j).mp hj).2

end Tracks

end Pool

namespace Interleaving

/-- Somebody who launches tasks and waits for them. -/
abbrev Caller := Nat

/-- What the list of tasks is swept for. -/
inductive Purpose where
  /-- A job is to be launched. -/
  | launch (job : Job) (threading : Threading)
  /-- A wait comes to its end. -/
  | clean

/-- Where a caller stands. -/
inductive Stage where
  /-- Neither launching nor waiting. -/
  | idle
  /-- With the lock, looking through the list: those found alive, and those to be looked at. -/
  | sweeping (purpose : Purpose) (kept rest : List TaskId)
  /-- With the lock, after the list of the living was put in place. -/
  | swept (purpose : Purpose)
  /-- With the lock, with a new task on the list that is yet to be started. -/
  | enlisted (id : TaskId)
  /-- With the lock, after the new task was started. -/
  | started
  /-- Without the lock, waiting for tasks. -/
  | joining (rest : List TaskId)
  /-- Without the lock, after a wait. -/
  | waited

/-- Whether a caller has the lock. -/
def Stage.holdsLock : Stage → Bool
  | .sweeping _ _ _ | .swept _ | .enlisted _ | .started => true
  | .idle | .joining _ | .waited => false

/-- The pool, the lock, and where each caller stands. -/
structure Scene where
  pool : Pool
  lock : Option Caller
  stage : Caller → Stage

/-- Something that happens in one go. -/
inductive Move where
  /-- The lock is taken for a launch. -/
  | launch (caller : Caller) (job : Job) (threading : Threading)
  /-- The next task of the list is looked at. -/
  | look (caller : Caller)
  /-- The list of the living is put in place. -/
  | assign (caller : Caller)
  /-- A new task is put on the list. -/
  | enlist (caller : Caller)
  /-- The new task is started. -/
  | start (caller : Caller) (id : TaskId)
  /-- The lock is given back. -/
  | release (caller : Caller)
  /-- A wait begins with a copy of the list. -/
  | snapshot (caller : Caller)
  /-- A task was waited for, until it was over or for long enough. -/
  | join (caller : Caller) (id : TaskId)
  /-- The lock is taken for the end of a wait. -/
  | clean (caller : Caller)
  /-- The wait is over, and the client is stopped. -/
  | stop (caller : Caller)
  /-- A task is over. -/
  | complete (id : TaskId)

namespace Scene

/-- A scene in which nobody launches or waits. -/
def calm (pool : Pool) : Scene :=
  { pool, lock := none, stage := fun _ => .idle }

/-- The scene with a caller at another stage. -/
def moveTo (s : Scene) (caller : Caller) (stage : Stage) : Scene :=
  { s with stage := fun other => if other = caller then stage else s.stage other }

@[simp] theorem stage_moveTo_self (s : Scene) (caller : Caller) (stage : Stage) :
    (s.moveTo caller stage).stage caller = stage :=
  if_pos rfl

theorem stage_moveTo_of_ne (s : Scene) {caller other : Caller} (h : other ≠ caller)
    (stage : Stage) : (s.moveTo caller stage).stage other = s.stage other :=
  if_neg h

/-- What can happen in one go. -/
inductive Step : Scene → Move → Scene → Prop
  | launch {s c job threading} : s.stage c = .idle → s.lock = none →
      Step s (.launch c job threading)
        { s.moveTo c (.sweeping (.launch job threading) [] s.pool.tracked) with lock := some c }
  | look {s c purpose kept id rest} : s.stage c = .sweeping purpose kept (id :: rest) →
      Step s (.look c) (s.moveTo c
        (.sweeping purpose (if s.pool.isAlive id then kept ++ [id] else kept) rest))
  | assign {s c purpose kept} : s.stage c = .sweeping purpose kept [] →
      Step s (.assign c)
        { s.moveTo c (.swept purpose) with pool := { s.pool with tracked := kept } }
  | enlist {s c job threading} : s.stage c = .swept (.launch job threading) →
      Step s (.enlist c)
        { s.moveTo c (.enlisted s.pool.tasks.size) with pool := s.pool.enlist job threading }
  | start {s c id} : s.stage c = .enlisted id →
      Step s (.start c id) { s.moveTo c .started with pool := s.pool.start id }
  | failed {s c id} : s.stage c = .enlisted id →
      Step s (.release c) { s.moveTo c .idle with lock := none }
  | launched {s c} : s.stage c = .started →
      Step s (.release c) { s.moveTo c .idle with lock := none }
  | snapshot {s c} : s.stage c = .idle → s.lock = none →
      Step s (.snapshot c) (s.moveTo c
        (if s.pool.tracked.isEmpty then .waited else .joining s.pool.tracked))
  | join {s c id rest} : s.stage c = .joining (id :: rest) →
      Step s (.join c id) (s.moveTo c (.joining rest))
  | clean {s c} : s.stage c = .joining [] → s.lock = none →
      Step s (.clean c)
        { s.moveTo c (.sweeping .clean [] s.pool.tracked) with lock := some c }
  | cleaned {s c} : s.stage c = .swept .clean →
      Step s (.release c) { s.moveTo c .waited with lock := none }
  | stop {s c} : s.stage c = .waited → Step s (.stop c) (s.moveTo c .idle)
  | complete {s id} : s.pool.isAlive id = true →
      Step s (.complete id) { s with pool := s.pool.finish id }

/-- What can happen one after the other. -/
inductive Reaches (s : Scene) : List Move → Scene → Prop
  | refl : Reaches s [] s
  | tail {moves t move u} : Reaches s moves t → Step t move u → Reaches s (moves ++ [move]) u

variable {s t u : Scene} {moves more : List Move} {move : Move}

theorem Reaches.trans (h₁ : s.Reaches moves t) (h₂ : t.Reaches more u) :
    s.Reaches (moves ++ more) u := by
  induction h₂ with
  | refl => rwa [List.append_nil]
  | tail _ hstep ih =>
    rw [← List.append_assoc]
    exact ih.tail hstep

theorem Reaches.eq_of_nil (h : s.Reaches [] t) : t = s := by
  generalize hall : [] = all at h
  cases h with
  | refl => rfl
  | tail _ _ => exact absurd hall.symm (List.append_ne_nil_of_right_ne_nil _ (List.cons_ne_nil _ _))

theorem Reaches.single (h : s.Reaches [move] t) : Step s move t := by
  generalize hall : [move] = all at h
  cases h with
  | refl => cases hall
  | @tail before u last _ hbefore hstep =>
    obtain ⟨hnil, hlast⟩ := List.append_inj' (show [] ++ [move] = before ++ [last] from hall) rfl
    cases hlast
    rw [← hnil] at hbefore
    rwa [hbefore.eq_of_nil] at hstep

theorem Step.reaches (h : Step s move t) : s.Reaches [move] t :=
  .tail .refl h

theorem Reaches.head (h : Step s move t) (hrest : t.Reaches moves u) :
    s.Reaches (move :: moves) u :=
  h.reaches.trans hrest

theorem Reaches.part (h : s.Reaches (moves ++ more) u) :
    ∃ t, s.Reaches moves t ∧ t.Reaches more u := by
  generalize hall : moves ++ more = all at h
  induction h generalizing more with
  | refl =>
    obtain ⟨rfl, rfl⟩ := List.append_eq_nil_iff.mp hall
    exact ⟨s, .refl, .refl⟩
  | @tail before t move u hbefore hstep ih =>
    rcases List.eq_nil_or_concat more with rfl | ⟨rest, last, rfl⟩
    · rw [List.append_nil] at hall
      subst hall
      exact ⟨u, hbefore.tail hstep, .refl⟩
    · rw [List.concat_eq_append] at hall ⊢
      rw [← List.append_assoc] at hall
      obtain ⟨hinit, hlast⟩ := List.append_inj' hall rfl
      cases hlast
      obtain ⟨v, hv, hrest⟩ := ih hinit
      exact ⟨v, hv, hrest.tail hstep⟩

end Scene

/-! ## Every living task is kept track of -/

/-- What the stage of a caller says about the pool: a sweep has not passed over a living task, and
a task about to be started is on the list. -/
def Stage.Fits (pool : Pool) : Stage → Prop
  | .sweeping _ kept rest =>
    (kept ++ rest).Sublist pool.tracked ∧ ∀ id, pool.isAlive id = true → id ∈ kept ++ rest
  | .enlisted id => id ∈ pool.tracked
  | _ => True

theorem Stage.fits_of_free {stage : Stage} (h : stage.holdsLock = false) (pool : Pool) :
    stage.Fits pool := by
  cases stage with
  | sweeping _ _ _ | enlisted _ => cases h
  | _ => trivial

theorem Stage.fits_finish {stage : Stage} (h : stage.Fits pool) (id : TaskId) :
    stage.Fits (pool.finish id) := by
  cases stage with
  | sweeping purpose kept rest =>
    exact ⟨h.1, fun j hj => h.2 j ((pool.isAlive_finish id j).mp hj).2⟩
  | enlisted j => exact h
  | _ => trivial

namespace Scene

/-- A scene in which all goes well: the living are kept track of, only the holder of the lock is at
a stage that needs it, and each stage fits the pool. -/
structure Sound (s : Scene) : Prop where
  pool : s.pool.Tracks
  holder : ∀ c, (s.stage c).holdsLock = true → s.lock = some c
  fits : ∀ c, (s.stage c).Fits s.pool

variable {s t : Scene} {move : Move} {c : Caller} {stage : Stage}

theorem Sound.calm (h : pool.Tracks) : (calm pool).Sound :=
  ⟨h, fun _ h => (by cases h), fun _ => trivial⟩

/-- While a caller has the lock or nobody has it, nobody else is at a stage that needs it. -/
theorem Sound.others_free (hs : s.Sound) (hlock : s.lock = some c ∨ s.lock = none) {d : Caller}
    (hd : d ≠ c) : (s.stage d).holdsLock = false := by
  cases hholds : (s.stage d).holdsLock with
  | false => rfl
  | true =>
    have hlock' := hs.holder d hholds
    rcases hlock with h | h
    · rw [hlock'] at h
      exact absurd (Option.some.inj h) hd
    · rw [hlock'] at h
      cases h

/-- A caller may change the pool and the lock if nobody else has the lock. -/
theorem Sound.alone (hs : s.Sound) (hlock : s.lock = some c ∨ s.lock = none)
    {lock : Option Caller} (hpool : pool.Tracks) (hfits : stage.Fits pool)
    (hholder : stage.holdsLock = true → lock = some c) :
    Sound { s.moveTo c stage with pool, lock } := by
  refine ⟨hpool, ?_, ?_⟩
  · intro d hd
    change ((s.moveTo c stage).stage d).holdsLock = true at hd
    by_cases hdc : d = c
    · subst hdc
      rw [stage_moveTo_self] at hd
      exact hholder hd
    · rw [stage_moveTo_of_ne s hdc, hs.others_free hlock hdc] at hd
      cases hd
  · intro d
    show ((s.moveTo c stage).stage d).Fits pool
    by_cases hdc : d = c
    · subst hdc
      rwa [stage_moveTo_self]
    · rw [stage_moveTo_of_ne s hdc]
      exact Stage.fits_of_free (hs.others_free hlock hdc) pool

/-- A caller may go on to a stage that needs no lock, whoever has it. -/
theorem Sound.beside (hs : s.Sound) (hstage : stage.holdsLock = false) :
    (s.moveTo c stage).Sound := by
  refine ⟨hs.pool, ?_, ?_⟩
  · intro d hd
    by_cases hdc : d = c
    · subst hdc
      rw [stage_moveTo_self, hstage] at hd
      cases hd
    · rw [stage_moveTo_of_ne s hdc] at hd
      exact hs.holder d hd
  · intro d
    by_cases hdc : d = c
    · subst hdc
      rw [stage_moveTo_self]
      exact Stage.fits_of_free hstage _
    · rw [stage_moveTo_of_ne s hdc]
      exact hs.fits d

/-- The stage of a caller that has the lock says so, and fits the pool. -/
theorem Sound.at_stage (hs : s.Sound) (hc : s.stage c = stage) (hstage : stage.holdsLock = true) :
    s.lock = some c ∧ stage.Fits s.pool := by
  subst hc
  exact ⟨hs.holder c hstage, hs.fits c⟩

/-- Looking at a task leaves it among those found alive, or it is not alive. -/
theorem fits_look {purpose : Purpose} {kept rest : List TaskId}
    (h : (Stage.sweeping purpose kept (id :: rest)).Fits pool) :
    (Stage.sweeping purpose (if pool.isAlive id then kept ++ [id] else kept) rest).Fits pool := by
  obtain ⟨hsub, hliving⟩ := h
  split
  · show (kept ++ [id] ++ rest).Sublist _ ∧ ∀ j, _ → j ∈ kept ++ [id] ++ rest
    rw [List.append_assoc]
    exact ⟨hsub, hliving⟩
  · rename_i hdead
    refine ⟨.trans (List.Sublist.append_left (List.sublist_cons_self id rest) kept) hsub, ?_⟩
    intro j hj
    have hne : j ≠ id := fun h => hdead (h ▸ hj)
    simpa [hne] using hliving j hj

theorem Sound.step (hs : s.Sound) (h : Step s move t) : t.Sound := by
  cases h with
  | launch hc hlock =>
    exact hs.alone (.inr hlock) hs.pool ⟨List.Sublist.refl _, hs.pool.living⟩ fun _ => rfl
  | look hc =>
    obtain ⟨hlock, hfits⟩ := hs.at_stage hc rfl
    exact hs.alone (.inl hlock) hs.pool (fits_look hfits) fun _ => hlock
  | assign hc =>
    -- a task found alive may be over by now, but none that was passed over is alive
    obtain ⟨hlock, hsub, hliving⟩ := hs.at_stage hc rfl
    rw [List.append_nil] at hsub hliving
    exact hs.alone (.inl hlock) (hs.pool.assign hsub hliving) trivial fun _ => hlock
  | enlist hc =>
    obtain ⟨hlock, -⟩ := hs.at_stage hc rfl
    refine hs.alone (.inl hlock) (hs.pool.enlist _ _) ?_ fun _ => hlock
    exact List.mem_append_right _ (List.mem_singleton.mpr rfl)
  | start hc =>
    obtain ⟨hlock, hid⟩ := hs.at_stage hc rfl
    exact hs.alone (.inl hlock) (hs.pool.start hid) trivial fun _ => hlock
  | failed hc =>
    obtain ⟨hlock, -⟩ := hs.at_stage hc rfl
    exact hs.alone (.inl hlock) hs.pool trivial fun h => by cases h
  | launched hc =>
    obtain ⟨hlock, -⟩ := hs.at_stage hc rfl
    exact hs.alone (.inl hlock) hs.pool trivial fun h => by cases h
  | snapshot hc hlock =>
    refine hs.beside ?_
    split <;> rfl
  | join hc => exact hs.beside rfl
  | clean hc hlock =>
    exact hs.alone (.inr hlock) hs.pool ⟨List.Sublist.refl _, hs.pool.living⟩ fun _ => rfl
  | cleaned hc =>
    obtain ⟨hlock, -⟩ := hs.at_stage hc rfl
    exact hs.alone (.inl hlock) hs.pool trivial fun h => by cases h
  | stop hc => exact hs.beside rfl
  | complete halive =>
    exact ⟨hs.pool.finish _, hs.holder, fun c => Stage.fits_finish (hs.fits c) _⟩

theorem Sound.reaches {moves : List Move} (hs : s.Sound) (h : s.Reaches moves t) : t.Sound := by
  induction h with
  | refl => exact hs
  | tail _ hstep ih => exact ih.step hstep

theorem Sound.of_reaches {moves : List Move} (h : (Scene.calm {}).Reaches moves s) : s.Sound :=
  (Sound.calm .empty).reaches h

end Scene

/-! ## What has happened -/

/-- A task was started. -/
def Started (id : TaskId) (moves : List Move) : Prop :=
  ∃ c, .start c id ∈ moves

/-- Whether a move starts or ends no task. -/
def Move.isPlain : Move → Bool
  | .start _ _ | .complete _ => false
  | _ => true

theorem started_append {moves more : List Move} :
    Started id (moves ++ more) ↔ Started id moves ∨ Started id more := by
  unfold Started
  simp only [List.mem_append, exists_or]

theorem not_started_of_isPlain {move : Move} (h : move.isPlain = true) (id : TaskId) :
    ¬Started id [move] := by
  rintro ⟨c, hc⟩
  rw [← List.mem_singleton.mp hc] at h
  cases h

theorem not_complete_of_isPlain {move : Move} (h : move.isPlain = true) (id : TaskId) :
    .complete id ∉ [move] := by
  intro hid
  rw [← List.mem_singleton.mp hid] at h
  cases h

/-- Alive are the tasks that were started and not completed. A task on the list that is yet to be
started was never heard of before. -/
structure Recorded (moves : List Move) (s : Scene) : Prop where
  known : ∀ id, Started id moves ∨ .complete id ∈ moves → id < s.pool.tasks.size
  unstarted : ∀ c id, s.stage c = .enlisted id → ¬Started id moves ∧ .complete id ∉ moves
  living : ∀ id, s.pool.isAlive id = true ↔ Started id moves ∧ .complete id ∉ moves

namespace Recorded

variable {moves : List Move} {s t : Scene} {move : Move}

theorem calm : Recorded [] (Scene.calm {}) := by
  refine ⟨?_, ?_, ?_⟩
  · rintro id (⟨c, hc⟩ | hid)
    · cases hc
    · cases hid
  · intro c id h
    cases h
  · intro id
    refine ⟨fun h => (by cases h), ?_⟩
    rintro ⟨⟨c, hc⟩, -⟩
    cases hc

/-- A move that neither starts nor ends a task, and puts at most new tasks on the list. -/
theorem plain (h : Recorded moves s) (hmove : move.isPlain = true)
    (halive : ∀ id, t.pool.isAlive id = s.pool.isAlive id)
    (hsize : s.pool.tasks.size ≤ t.pool.tasks.size)
    (hstage : ∀ c id, t.stage c = .enlisted id →
      s.stage c = .enlisted id ∨ s.pool.tasks.size ≤ id) : Recorded (moves ++ [move]) t := by
  have hstarted (id : TaskId) : Started id (moves ++ [move]) ↔ Started id moves := by
    simp [started_append, not_started_of_isPlain hmove]
  have hcomplete (id : TaskId) : .complete id ∈ moves ++ [move] ↔ .complete id ∈ moves := by
    rw [List.mem_append]
    exact or_iff_left (not_complete_of_isPlain hmove id)
  refine ⟨?_, ?_, ?_⟩
  · intro id hid
    rw [hstarted, hcomplete] at hid
    exact Nat.lt_of_lt_of_le (h.known id hid) hsize
  · intro c id hc
    rw [hstarted, hcomplete]
    rcases hstage c id hc with hc | hid
    · exact h.unstarted c id hc
    · exact ⟨fun hs => Nat.not_lt.mpr hid (h.known id (.inl hs)),
        fun hd => Nat.not_lt.mpr hid (h.known id (.inr hd))⟩
  · intro id
    rw [halive, h.living, hstarted, hcomplete]

theorem start (hs : s.Sound) (h : Recorded moves s) {c : Caller}
    (hc : s.stage c = .enlisted id) :
    Recorded (moves ++ [.start c id]) { s.moveTo c .started with pool := s.pool.start id } := by
  obtain ⟨hlock, hid⟩ := hs.at_stage hc rfl
  have hlt : id < s.pool.tasks.size := hs.pool.known id hid
  have hstarted (j : TaskId) :
      Started j (moves ++ [.start c id]) ↔ Started j moves ∨ j = id := by
    rw [started_append]
    refine or_congr_right ⟨?_, fun hj => ⟨c, by simp [hj]⟩⟩
    rintro ⟨d, hd⟩
    cases List.mem_singleton.mp hd
    rfl
  have hcomplete (j : TaskId) : .complete j ∈ moves ++ [.start c id] ↔ .complete j ∈ moves := by
    simp
  refine ⟨?_, ?_, ?_⟩
  · intro j hj
    show j < (s.pool.tasks.modify id _).size
    rw [Array.size_modify]
    rw [hstarted, hcomplete, or_right_comm] at hj
    rcases hj with hj | rfl
    · exact h.known j hj
    · exact hlt
  · -- nobody else can be about to start a task
    intro d j hd
    change (s.moveTo c .started).stage d = .enlisted j at hd
    by_cases hdc : d = c
    · subst hdc
      rw [Scene.stage_moveTo_self] at hd
      cases hd
    · rw [Scene.stage_moveTo_of_ne s hdc] at hd
      have hfree := hs.others_free (.inl hlock) hdc
      rw [hd] at hfree
      cases hfree
  · intro j
    rw [show ({ s.moveTo c .started with pool := s.pool.start id } : Scene).pool = s.pool.start id
      from rfl, Pool.isAlive_start hlt, h.living, hstarted, hcomplete]
    constructor
    · rintro (rfl | ⟨hj, hnot⟩)
      · exact ⟨.inr rfl, (h.unstarted c j hc).2⟩
      · exact ⟨.inl hj, hnot⟩
    · rintro ⟨hj | rfl, hnot⟩
      · exact .inr ⟨hj, hnot⟩
      · exact .inl rfl

theorem complete (h : Recorded moves s) (hid : s.pool.isAlive id = true) :
    Recorded (moves ++ [.complete id]) { s with pool := s.pool.finish id } := by
  have hstarted (j : TaskId) : Started j (moves ++ [.complete id]) ↔ Started j moves := by
    rw [started_append]
    refine or_iff_left ?_
    rintro ⟨c, hc⟩
    cases List.mem_singleton.mp hc
  have hcomplete (j : TaskId) :
      .complete j ∈ moves ++ [.complete id] ↔ .complete j ∈ moves ∨ j = id := by
    simp
  refine ⟨?_, ?_, ?_⟩
  · intro j hj
    show j < (s.pool.tasks.modify id _).size
    rw [Array.size_modify]
    rw [hstarted, hcomplete, ← or_assoc] at hj
    rcases hj with hj | rfl
    · exact h.known j hj
    · exact Pool.lt_of_isAlive hid
  · intro c j hc
    obtain ⟨hnot, hopen⟩ := h.unstarted c j hc
    rw [hstarted, hcomplete]
    refine ⟨hnot, ?_⟩
    rintro (hj | rfl)
    · exact hopen hj
    · exact hnot ((h.living j).mp hid).1
  · intro j
    rw [Pool.isAlive_finish, h.living, hstarted, hcomplete]
    constructor
    · rintro ⟨hne, hj, hnot⟩
      exact ⟨hj, fun h => h.elim hnot hne⟩
    · rintro ⟨hj, hnot⟩
      exact ⟨fun h => hnot (.inr h), hj, fun h => hnot (.inl h)⟩

/-- Going on to a stage that has no new task leaves the new tasks as they are. -/
theorem stage_of_moveTo {c : Caller} {stage : Stage} (hstage : ∀ id, stage ≠ .enlisted id)
    {d : Caller} (hd : (s.moveTo c stage).stage d = .enlisted id) :
    s.stage d = .enlisted id := by
  by_cases hdc : d = c
  · subst hdc
    rw [Scene.stage_moveTo_self] at hd
    exact absurd hd (hstage id)
  · rwa [Scene.stage_moveTo_of_ne s hdc] at hd

theorem step (hs : s.Sound) (h : Recorded moves s) (hstep : Scene.Step s move t) :
    Recorded (moves ++ [move]) t := by
  cases hstep with
  | start hc => exact start hs h hc
  | complete hid => exact complete h hid
  | @enlist c job threading hc =>
    refine h.plain rfl (fun id => Pool.isAlive_enlist _ _ _ id) ?_ ?_
    · show _ ≤ (s.pool.tasks.push _).size
      rw [Array.size_push]
      exact Nat.le_succ _
    · intro d id hd
      by_cases hdc : d = c
      · subst hdc
        cases (Scene.stage_moveTo_self s d _).symm.trans hd
        exact .inr (Nat.le_refl _)
      · exact .inl ((Scene.stage_moveTo_of_ne s hdc _).symm.trans hd)
  | snapshot =>
    refine h.plain rfl (fun _ => rfl) (Nat.le_refl _) fun d id hd => .inl ?_
    refine stage_of_moveTo (fun id hid => ?_) hd
    split at hid <;> cases hid
  | launch | look | assign | failed | launched | join | clean | cleaned | stop =>
    exact h.plain rfl (fun _ => rfl) (Nat.le_refl _) fun d id hd =>
      .inl (stage_of_moveTo (fun _ h => by cases h) hd)

theorem reaches (h : (Scene.calm {}).Reaches moves s) : Recorded moves s := by
  induction h with
  | refl => exact calm
  | tail hbefore hstep ih => exact step (.of_reaches hbefore) ih hstep

theorem not_complete_before_start {before rest : List Move} {c : Caller}
    (h : (Scene.calm {}).Reaches (before ++ .start c id :: rest) s) : .complete id ∉ before := by
  obtain ⟨t, hbefore, hrest⟩ := h.part
  obtain ⟨u, hstart, -⟩ := (show t.Reaches ([.start c id] ++ rest) s from hrest).part
  cases hstart.single with
  | start hc => exact ((reaches hbefore).unstarted c id hc).2

end Recorded

/-! ## A wait -/

/-- Each of some tasks was waited for, or its turn is still to come. -/
def Pending (c : Caller) (ids : List TaskId) (moves : List Move) (s : Scene) : Prop :=
  ∀ id ∈ ids, .join c id ∈ moves ∨ ∃ rest, s.stage c = .joining rest ∧ id ∈ rest

namespace Scene

variable {s t u v w : Scene} {moves between : List Move} {move : Move} {c : Caller}

/-- What a step makes of a caller that waits: it goes on waiting, for one task less if the step is
its own; only when there is nothing left to wait for it does something else. -/
theorem Step.of_joining {rest : List TaskId} (h : Step s move t) (hc : s.stage c = .joining rest) :
    t.stage c = .joining rest ∨ rest = [] ∨
      ∃ id less, rest = id :: less ∧ move = .join c id ∧ t.stage c = .joining less := by
  have hkept {d : Caller} {before : Stage} (hd : s.stage d = before)
      (hbefore : before ≠ .joining rest) (next : Stage) :
      (s.moveTo d next).stage c = .joining rest := by
    rw [stage_moveTo_of_ne s fun h => ?_, hc]
    subst h
    exact hbefore (hd.symm.trans hc)
  cases h with
  | @join d id less hd =>
    by_cases hcd : c = d
    · subst hcd
      cases hd.symm.trans hc
      exact .inr (.inr ⟨id, less, rfl, rfl, stage_moveTo_self ..⟩)
    · exact .inl ((stage_moveTo_of_ne s hcd _).trans hc)
  | @clean d hd =>
    by_cases hcd : c = d
    · subst hcd
      cases hd.symm.trans hc
      exact .inr (.inl rfl)
    · exact .inl ((stage_moveTo_of_ne s hcd _).trans hc)
  | complete => exact .inl hc
  | launch hd | look hd | assign hd | enlist hd | start hd | failed hd | launched hd | snapshot hd
  | cleaned hd | stop hd => exact .inl (hkept hd (fun h => by cases h) _)

end Scene

namespace Pending

variable {s t u v : Scene} {moves : List Move} {move : Move} {c : Caller} {ids : List TaskId}

theorem step (h : Pending c ids moves s) (hstep : Scene.Step s move t) :
    Pending c ids (moves ++ [move]) t := by
  intro id hid
  rcases h id hid with hjoined | ⟨rest, hc, hrest⟩
  · exact .inl (List.mem_append_left _ hjoined)
  · rcases hstep.of_joining hc with hc | rfl | ⟨next, less, rfl, rfl, hc⟩
    · exact .inr ⟨rest, hc, hrest⟩
    · cases hrest
    · rcases List.mem_cons.mp hrest with rfl | hless
      · exact .inl (List.mem_append_right _ (List.mem_singleton.mpr rfl))
      · exact .inr ⟨less, hc, hless⟩

theorem reaches (h : Pending c ids [] s) (hreaches : s.Reaches moves t) :
    Pending c ids moves t := by
  induction hreaches with
  | refl => exact h
  | tail _ hstep ih => exact ih.step hstep

theorem snapshot (h : Scene.Step u (.snapshot c) v) : Pending c u.pool.tracked [] v := by
  intro id hid
  cases h with
  | snapshot hc hlock =>
    refine .inr ⟨u.pool.tracked, ?_, hid⟩
    rw [Scene.stage_moveTo_self, if_neg]
    rw [List.isEmpty_iff]
    exact List.ne_nil_of_mem hid

end Pending

end Interleaving

end RobotConsole.Robot
