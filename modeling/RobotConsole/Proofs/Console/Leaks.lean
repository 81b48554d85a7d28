import RobotConsole.Proofs.Console.Custody
import RobotConsole.Proofs.Console.Values

/-!
# Clients that are never stopped

A client that was started should be stopped before the controller lets go of it, and before the
program ends. Whether this is so depends on the attempts to connect alone. An attempt that fails
after the start of its client leaves it running, and the next attempt, which makes a new client,
loses it. So does a second connection while there is one. What a run of operations or of the program
comes to can be told from its steps (`clients_stopped_iff_in_custody`).
-/

namespace RobotConsole.Console

open Contract Robot
open Command (Verb)

variable {commands : List (Option Command)} {s t : System} {args : List String}

/-! ## Operations -/

/-- What is said before a command is carried out. -/
def commandNote (c : Command) : Event :=
  .print (s!"\n>>> {c.verb.name} " ++ Text.bracketed (c.args.map Text.quoted) ++ " " ++
    Command.showOptions c.options)

/-- The steps of a command: only the one that connects has any. -/
def executeSteps (c : Command) (s : System) : List Step :=
  if c.verb = .connect then
    connectionSteps defaultRetries defaultDelay (s.record (commandNote c))
  else []

theorem minding_execute {c : Command} (hc : c.verb ≠ .connect) : minding.Holds (execute c) := by
  have hactions : ActionsKeep minding c.verb :=
    actionsKeep (fun hverb => absurd hverb hc) fun _ _ _ => minding_send _
  exact holds_execute
    (hactions.carryOut c.options fun position _ => keeps_argumentAt c.args position)

theorem after_execute (c : Command) (s : System) :
    after (execute c) s =
      after (carryOut c.verb c.args c.options) (s.record (commandNote c)) := by
  unfold execute executeNamed
  rw [Verb.ofName?_name]
  rfl

theorem books_execute (c : Command) (s : System) :
    (after (execute c) s).books = s.books.replay (executeSteps c s) := by
  unfold executeSteps
  split
  · rename_i hverb
    rw [after_execute, hverb, ← s.books_record (e := commandNote c) rfl]
    exact books_connect _ _ _
  · rename_i hverb
    exact books_of_minding (minding_execute hverb) s

/-- Something that is done with a controller. -/
inductive Operation where
  | connect (retries : Int) (delay : Number)
  | disconnect
  | execute (command : Command)

namespace Operation

/-- Does an operation. -/
def perform : Operation → Act Unit
  | .connect retries delay => do let _ ← Robot.connect retries delay
  | .disconnect => Robot.disconnect
  | .execute c => do let _ ← Console.execute c

/-- The steps of an operation that is done in a system. -/
def steps : Operation → System → List Step
  | .connect retries delay, s => connectionSteps retries delay s
  | .disconnect, s => releaseSteps s
  | .execute c, s => executeSteps c s

theorem books_perform (op : Operation) (s : System) :
    (after op.perform s).books = s.books.replay (op.steps s) := by
  cases op with
  | connect retries delay =>
    exact (books_bind _ (fun _ => holds_pure _) s).trans (books_connect retries delay s)
  | disconnect => exact books_disconnect s
  | execute c => exact (books_bind _ (fun _ => holds_pure _) s).trans (books_execute c s)

theorem keeps_perform {c : Contract Failure System} [AdmitsLink c]
    (hcreate : c.Holds createClient)
    (hmove : ∀ {packet : Packet}, packet.InRange → c.Holds (send packet)) (op : Operation) :
    c.Holds op.perform := by
  cases op with
  | connect retries delay =>
    exact (keeps_connect hcreate retries delay).giving
  | disconnect => exact keeps_disconnect
  | execute command =>
    exact (keeps_execute command (fun _ => hcreate) fun _ => hmove).giving

end Operation

/-- The system after operations in order, whatever came of each. -/
def afterOperations : List Operation → System → System
  | [], s => s
  | op :: rest, s => afterOperations rest (after op.perform s)

/-- Operations in order keep a contract that the steps of each keep. -/
theorem yields_afterOperations {c : Contract Failure System} [AdmitsLink c]
    (hcreate : c.Holds createClient)
    (hmove : ∀ {packet : Packet}, packet.InRange → c.Holds (send packet)) (ops : List Operation)
    (s : System) : c.yields s (afterOperations ops s) := by
  induction ops generalizing s with
  | nil => exact c.refl s
  | cons op rest ih => exact c.trans (yields_after (op.keeps_perform hcreate hmove) s) (ih _)

/-- The steps of operations in order. -/
def operationSteps : List Operation → System → List Step
  | [], _ => []
  | op :: rest, s => op.steps s ++ operationSteps rest (after op.perform s)

theorem books_operations (ops : List Operation) (s : System) :
    (afterOperations ops s).books = s.books.replay (operationSteps ops s) := by
  induction ops generalizing s with
  | nil => rfl
  | cons op rest ih =>
    unfold afterOperations operationSteps
    rw [ih, op.books_perform, Books.replay_append]

/-! ## The program -/

/-- The steps of entries that are executed in order, up to the first that fails. -/
def entrySteps : List (Option Command) → System → List Step
  | [], _ => []
  | none :: _, _ => []
  | some c :: rest, s =>
    executeSteps c s ++
      match (executeReported (some c)).run s with
      | .ok _ t => entrySteps rest t
      | .error _ _ => []

theorem books_executeReported (c : Command) (s : System) :
    (after (executeReported (some c)) s).books = s.books.replay (executeSteps c s) := by
  unfold executeReported executeEntry
  rw [books_bind, books_bind, books_execute]
  · exact fun _ => holds_pure _
  · intro result
    dsimp only
    split
    · exact keeps_print _
    · exact holds_pure _

theorem books_executeAll (entries : List (Option Command)) (s : System) :
    (after (executeAll entries) s).books = s.books.replay (entrySteps entries s) := by
  induction entries generalizing s with
  | nil => rfl
  | cons entry rest ih =>
    rw [executeAll_cons]
    cases entry with
    | none => rfl
    | some c =>
      have hentry := books_executeReported c s
      unfold entrySteps
      cases hrun : (executeReported (some c)).run s with
      | error e t =>
        rw [after_of_error hrun] at hentry
        rw [after_bind_of_error hrun, hentry, List.append_nil]
      | ok a t =>
        rw [after_of_ok hrun] at hentry
        rw [after_bind_of_ok hrun, ih, hentry, Books.replay_append]

/-- Where the program stands when it starts to connect. -/
def opening (s : System) : System :=
  after (do print "Connecting to Cozmo..."; prepare) s

/-- The steps of the program, once it has its commands. -/
def commandSteps (commands : List (Option Command)) (s : System) : List Step :=
  match (needsRobot commands).run s with
  | .ok true _ =>
    connectionSteps defaultRetries defaultDelay (opening s) ++
      match opened? commands s with
      | some u => entrySteps commands u ++ releaseSteps (releasing commands u)
      | none => []
  | _ => []

theorem books_openConnection (s : System) :
    (after openConnection s).books =
      s.books.replay (connectionSteps defaultRetries defaultDelay (opening s)) := by
  have hopening : (opening s).books = s.books :=
    books_of_minding ((keeps_print _).bind fun _ => holds_modify fun _ => rfl) s
  rw [← hopening]
  exact books_connect _ _ _

theorem books_releasing (commands : List (Option Command)) (s : System) :
    (releasing commands s).books = s.books.replay (entrySteps commands s) := by
  unfold releasing executeGuarded
  rw [System.books_record _ rfl, System.books_record _ rfl, books_tryCatch, books_executeAll]
  intro failure
  split <;> exact keeps_print _

theorem minding_offline
    (h : ∀ entry ∈ commands, isOffline entry = true) :
    minding.Holds (commands.forM fun entry => do let _ ← executeEntry entry) := by
  refine holds_forM commands fun entry hentry => ?_
  have hoffline := h entry hentry
  cases entry with
  | none => cases hoffline
  | some c =>
    have hverb : c.verb ≠ .connect := fun hverb => by
      rw [isOffline, hverb] at hoffline
      cases hoffline
    exact ((minding_execute hverb).giving).giving

theorem books_runCommands_of_offline
    (h : (needsRobot commands).run s = .ok false s) :
    (after (runCommands commands) s).books = s.books := by
  have hoffline : ∀ entry ∈ commands, isOffline entry = true := by
    rw [run_needsRobot] at h
    cases hfind : commands.find? fun entry => !isOffline entry with
    | some entry =>
      rw [hfind] at h
      cases entry <;> cases h
    | none =>
      intro entry hentry
      simpa using List.find?_eq_none.mp hfind entry hentry
  have hprepare : minding.Holds prepare := holds_modify fun _ => rfl
  rw [runCommands_eq, after_bind_of_ok h]
  exact books_of_minding
    (hprepare.bind fun _ => (minding_offline hoffline).giving) s

/-- Without its connection the program does no more than report that. -/
theorem books_runCommands_of_unopened
    (hneeded : (needsRobot commands).run s = .ok true s) (hopened : opened? commands s = none) :
    (after (runCommands commands) s).books = (after openConnection s).books := by
  unfold opened? at hopened
  rw [hneeded] at hopened
  dsimp only at hopened
  rw [runCommands_eq, after_bind_of_ok hneeded]
  simp only [Bool.not_true, Bool.false_eq_true, if_false]
  cases hopen : openConnection.run s with
  | error e t => rw [after_bind_of_error hopen, after_of_error hopen]
  | ok answer t =>
    rw [hopen] at hopened
    have hconnected : t.controller.connected = false := by
      cases hconnected : t.controller.connected with
      | false => rfl
      | true =>
        dsimp only at hopened
        rw [if_pos hconnected] at hopened
        cases hopened
    have hcontroller : controller.run t = .ok t.controller t := rfl
    rw [after_bind_of_ok hopen, after_of_ok hopen, after_bind_of_ok hcontroller, hconnected]
    exact t.books_record rfl

theorem books_runCommands (commands : List (Option Command)) (s : System) :
    (after (runCommands commands) s).books = s.books.replay (commandSteps commands s) := by
  have hopening := books_openConnection s
  cases hopened : opened? commands s with
  | some u =>
    obtain ⟨hneeded, answer, t, hopen, _, hu⟩ := opened?_eq_some hopened
    have hafter : after (runCommands commands) s = after disconnect (releasing commands u) := by
      unfold after
      rw [run_runCommands_of_opened hopened, EStateM.run_bind, run_session]
      cases disconnect.run (releasing commands u) <;> rfl
    have hbooks : u.books = t.books := by
      rw [hu, System.books_record _ rfl, System.books_record _ rfl]
    rw [after_of_ok hopen] at hopening
    unfold commandSteps
    rw [hafter, books_disconnect, books_releasing, hbooks, hopening, hneeded, hopened]
    dsimp only
    rw [Books.replay_append, Books.replay_append]
  | none =>
    unfold commandSteps
    have hneeds := run_needsRobot commands s
    split at hneeds
    · rw [hneeds, books_runCommands_of_offline hneeds]
      rfl
    · rw [hneeds, runCommands_eq, after_bind_of_error hneeds]
      rfl
    · rw [books_runCommands_of_unopened hneeds hopened, hopening, hneeds, hopened]
      dsimp only
      rw [List.append_nil]

theorem Supplies.books {lines : List String} (h : Supplies s args lines t) :
    t.books = s.books := by
  cases h with
  | given _ _ => rfl
  | script _ _ hlines =>
    exact (holds_scriptCommands (c := minding) keeps_print (fun _ _ => rfl) _ s).yields hlines

/-- A script without command lines is at its end when it has been loaded. -/
theorem Supplies.after_nil (h : Supplies s args [] t) :
    after (run args) s = t := by
  cases h with
  | script hflag hpath hrun =>
    rw [run_script hflag, after_bind_pure]
    unfold runScriptFile
    rw [after_bind_of_ok hpath]
    exact after_bind_of_ok hrun

/-- The program does to the books what the steps of its commands say. -/
theorem books_run {lines : List String}
    (hsupplies : Supplies s args lines t) (hreads : Reads lines commands) :
    (after (run args) s).books = s.books.replay (commandSteps commands t) := by
  rw [← hsupplies.books]
  cases hreads with
  | nil =>
    rw [hsupplies.after_nil]
    rfl
  | @cons line command lines commands hline hrest =>
    have hafter : after (run args) s = after (runCommands (command :: commands)) t := by
      rw [← after_bind_pure (runCommands (command :: commands)) some t]
      unfold after
      rw [hsupplies.run_eq, EStateM.run_bind, EStateM.run_bind,
        (Reads.cons hline hrest).run_runLines]
    rw [hafter, books_runCommands]

theorem started_of_prints (h : Grows (fun e => e.isPrint = true) s t) :
    t.books.started = s.books.started := by
  obtain ⟨events, hevents, hprints⟩ := h.trace
  have hnone : events.filterMap Event.connects? = [] := by
    refine List.filterMap_eq_nil_iff.mpr fun e he => Event.connects?_eq_none ?_
    have hprint := hprints e he
    cases e <;> first | rfl | cases hprint
  simp only [System.books, hevents, List.filterMap_append, hnone, List.append_nil]

/-- Unless all the lines that there are can be read, no client is started. -/
theorem started_of_unread
    (h : ∀ lines commands t, Supplies s args lines t → ¬Reads lines commands) :
    (after (run args) s).books.started = s.books.started := by
  rcases supplies_or_prints args s with ⟨line, rest, t, hsupplies⟩ | hprints
  · rcases reads_or_refused (line :: rest) with ⟨commands, hreads⟩ | hrefused
    · exact absurd hreads (h _ commands t hsupplies)
    · obtain ⟨u, hrun, hu⟩ := hrefused.run_runLines t
      have hafter : after (run args) s = u := by
        unfold after
        rw [hsupplies.run_eq, EStateM.run_bind, hrun]
        rfl
      rw [hafter]
      exact started_of_prints (hsupplies.grows.trans hu)
  · exact started_of_prints hprints

/-- What the books say at the end of the program is what the custody after its steps says, if it
comes to any, and is what they say while no client was started otherwise. -/
theorem run_iff_of_books (hs : s.books = {}) (args : List String) {P : Books → Prop}
    {Q : Custody → Prop} (hP : ∀ b : Books, b.started = [] → P b)
    (hPQ : ∀ b custody, custody.Describes b → (P b ↔ Q custody)) :
    P (after (run args) s).books ↔ ∀ lines commands t, Supplies s args lines t →
      Reads lines commands → Q (Custody.afterSteps (commandSteps commands t)) := by
  have hread {lines : List String} {commands : List (Option Command)} {t : System}
      (hsupplies : Supplies s args lines t) (hreads : Reads lines commands) :
      P (after (run args) s).books ↔ Q (Custody.afterSteps (commandSteps commands t)) := by
    rw [books_run hsupplies hreads, hs]
    exact hPQ _ _ (Custody.describes_afterSteps _)
  constructor
  · exact fun h lines commands t hsupplies hreads => (hread hsupplies hreads).mp h
  · intro h
    by_cases hunread : ∀ lines commands t, Supplies s args lines t → ¬Reads lines commands
    · refine hP _ ?_
      rw [started_of_unread hunread, hs]
    · simp only [Classical.not_forall, Classical.not_not] at hunread
      obtain ⟨lines, commands, t, hsupplies, hreads⟩ := hunread
      exact (hread hsupplies hreads).mpr (h lines commands t hsupplies hreads)

/-! ## Leaks -/

/-- Whether every client is stopped in time. A client counts as started once its start has come to
its end. After any operations every such client was stopped, unless it is still the current one,
just if the steps of the operations lose none; and when the program returns every such client was
stopped just if the steps of its commands leave none running. Only the current client is ever
stopped, so that one which the controller let go of without that is not stopped later. -/
theorem clients_stopped_iff_in_custody {s : System} (hs : s.books = {}) :
    (∀ u, (after attemptConnection u).books.started =
      u.books.started ++ (startedClient? u).toList) ∧
    (∀ ops, (afterOperations ops s).books.NoneLost ↔
      Custody.afterSteps (operationSteps ops s) ≠ .lost) ∧
    ∀ args,
      ((after (run args) s).books.NoneLost ↔ ∀ lines commands t, Supplies s args lines t →
        Reads lines commands → Custody.afterSteps (commandSteps commands t) ≠ .lost) ∧
      ((after (run args) s).books.NoneRunning ↔ ∀ lines commands t, Supplies s args lines t →
        Reads lines commands → Custody.afterSteps (commandSteps commands t) = .free) := by
  refine ⟨started_attemptConnection, fun ops => ?_, fun args => ⟨?_, ?_⟩⟩
  · rw [books_operations, hs]
    exact (Custody.describes_afterSteps _).noneLost_iff
  · refine run_iff_of_books hs args (fun b hb id hid => ?_) fun _ _ h => h.noneLost_iff
    rw [hb] at hid
    cases hid
  · refine run_iff_of_books hs args (fun b hb id hid => ?_) fun _ _ h => h.noneRunning_iff
    rw [hb] at hid
    cases hid

/-- A system in which nothing fails. -/
def answeredSystem : System where
  world := { clock := 0, directory := { root := "/", names := [] } }
  files := []

/-- A system whose robot does not answer. -/
def unansweredSystem : System where
  world :=
    { clock := 0
      directory := { root := "/", names := [] }
      clients := [{ faults := [("connect", {})] }] }
  files := []

/-- A second connection is harmless after a disconnection, and loses the first client without one. A
robot that does not answer costs the program every client but the last. -/
theorem unanswered_clients_lost :
    answeredSystem.books = {} ∧
    (afterOperations [.connect 3 (.real 2.0), .disconnect, .connect 3 (.real 2.0)]
      answeredSystem).books.NoneLost ∧
    ¬(afterOperations [.connect 3 (.real 2.0), .connect 3 (.real 2.0)]
      answeredSystem).books.NoneLost ∧
    unansweredSystem.books = {} ∧
    ¬(after (run ["wait"]) unansweredSystem).books.NoneLost := by
  refine ⟨rfl, ?_, ?_, rfl, fun hnone => ?_⟩
  · exact ((clients_stopped_iff_in_custody rfl).2.1 _).mpr (by decide +kernel)
  · exact fun hnone =>
      ((clients_stopped_iff_in_custody rfl).2.1 _).mp hnone (by decide +kernel)
  · have hcheck : readsTo ["wait"] unansweredSystem (fun commands =>
        Custody.afterSteps (commandSteps commands unansweredSystem) == .lost) = true := by
      decide +kernel
    obtain ⟨commands, hreads, hlost⟩ := exists_of_readsTo hcheck
    have hsupplies : Supplies unansweredSystem ["wait"] ["wait"] unansweredSystem :=
      .given (by decide) (by decide)
    have hkept := ((clients_stopped_iff_in_custody rfl).2.2 ["wait"]).1.mp hnone
    exact hkept _ commands _ hsupplies hreads (beq_iff_eq.mp hlost)

end RobotConsole.Console
