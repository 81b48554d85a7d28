import RobotConsole.Console.Program
import RobotConsole.Proofs.Robot.Growth

/-!
# Reading comes first

The program gets its command lines from its arguments or from a script, reads all of them, and does
nothing but print until then (`robot_untouched_until_all_read`). One line that cannot be read ends
the program with status one. A client comes into being only for a command that needs the robot.
-/

namespace RobotConsole.Robot

variable {lines : List String} {commands : List (Option Command)} {s t : System}

/-- Whether an event is a line of print. -/
def Event.isPrint : Event → Bool
  | .print _ => true
  | _ => false

/-- The contract of actions that print and do nothing else to the outside. -/
abbrev printing : Contract Failure System :=
  grows fun e => e.isPrint = true

instance : AdmitsLink (grows fun e => e.isCreation = false) :=
  admitsLink_grows fun _ _ hcreation _ => hcreation

theorem printing_print (text : String) : printing.Holds (print text) :=
  grows_emit rfl

theorem printing_printLines (lines : List String) : printing.Holds (lines.forM print) :=
  Contract.holds_forM lines fun line _ => printing_print line

theorem run_pathExists (path : Storage.Path) (s : System) :
    (∃ found, (pathExists path).run s = .ok found s) ∨
      ∃ failure, (pathExists path).run s = .error failure s := by
  unfold pathExists visibleFiles world
  simp only [EStateM.run_bind, EStateM.run_get, EStateM.run_pure]
  cases Storage.Files.contains _ _ path with
  | ok found => exact .inl ⟨found, rfl⟩
  | error cause => exact .inr ⟨_, rfl⟩

end RobotConsole.Robot

namespace RobotConsole.Console

open Contract Robot
open Command (Verb)
open Storage (Path)

/-! ## Getting and reading lines -/

/-- Lines that can be read, with the commands that they give; a blank line gives none. -/
inductive Reads : List String → List (Option Command) → Prop
  | nil : Reads [] []
  | cons {line : String} {command : Option Command} {lines : List String}
      {commands : List (Option Command)} :
      Command.parse line = .ok command → Reads lines commands →
      Reads (line :: lines) (command :: commands)

/-- A line among these cannot be read. -/
def Refused (lines : List String) : Prop :=
  ∃ line ∈ lines, ∃ cause, Command.parse line = .error cause

/-- The command lines that arguments stand for, and the system once they are at hand: the arguments
themselves, or what a script file expands to. -/
inductive Supplies (s : System) : List String → List String → System → Prop
  | given {arg : String} {rest : List String} :
      arg ∉ ["-h", "--help", "help"] → arg ∉ ["-s", "--script"] →
      Supplies s (arg :: rest) (arg :: rest) s
  | script {flag file : String} {rest lines : List String} {t : System} :
      flag ∈ ["-s", "--script"] → (pathExists (Path.ofText file)).run s = .ok true s →
      (scriptCommands (Path.ofText file)).run s = .ok lines t →
      Supplies s (flag :: file :: rest) lines t

theorem reads_or_refused (lines : List String) :
    (∃ commands, Reads lines commands) ∨ Refused lines := by
  induction lines with
  | nil => exact .inl ⟨[], .nil⟩
  | cons line rest ih =>
    cases hline : Command.parse line with
    | error cause => exact .inr ⟨line, List.mem_cons_self, cause, hline⟩
    | ok command =>
      -- a line that can be read leaves the matter to those after it
      rcases ih with ⟨commands, hrest⟩ | ⟨bad, hbad, hcause⟩
      · exact .inl ⟨command :: commands, .cons hline hrest⟩
      · exact .inr ⟨bad, List.mem_cons_of_mem line hbad, hcause⟩

theorem Reads.run_readCommands
    (h : Reads lines commands) (s : System) :
    (readCommands lines).run s = .ok (some commands) s := by
  induction h with
  | nil => rfl
  | cons hline _ ih =>
    unfold readCommands
    rw [hline]
    simp only [EStateM.run_bind, ih]
    rfl

/-- The first line that cannot be read is reported, and nothing else happens. -/
theorem Refused.run_readCommands (h : Refused lines) (s : System) :
    ∃ t, (readCommands lines).run s = .ok none t ∧ Grows (fun e => e.isPrint = true) s t := by
  obtain ⟨bad, hbad, cause, hcause⟩ := h
  induction lines with
  | nil => cases hbad
  | cons line rest ih =>
    unfold readCommands
    cases hline : Command.parse line with
    | error cause =>
      refine ⟨_, rfl, ?_⟩
      exact (printing_print _ s).yields rfl
    | ok command =>
      rcases List.mem_cons.mp hbad with rfl | hbad
      · rw [hcause] at hline
        cases hline
      · obtain ⟨t, hrun, ht⟩ := ih hbad
        refine ⟨t, ?_, ht⟩
        simp only [EStateM.run_bind, hrun]
        rfl

theorem reads_of_run
    (h : (readCommands lines).run s = .ok (some commands) t) : Reads lines commands := by
  rcases reads_or_refused lines with ⟨commands', hreads⟩ | hrefused
  · rw [hreads.run_readCommands] at h
    cases h
    exact hreads
  · obtain ⟨u, hrun, _⟩ := hrefused.run_readCommands s
    rw [hrun] at h
    cases h

theorem holds_scriptCommands {c : Contract Failure System} (hprint : ∀ text, c.Holds (print text))
    (hthrow : ∀ cause s, c.fails (.script cause) s s) (path : Path) :
    c.Holds (scriptCommands path) := by
  unfold scriptCommands
  refine holds_visibleFiles.bind fun files => holds_world.bind fun w => ?_
  refine Holds.bind ?_ fun _ => holds_pure _
  unfold runScript
  split
  · exact (holds_forM _ fun line _ => hprint line).giving
  · exact (holds_forM _ fun line _ => hprint line).bind fun _ => holds_throw (hthrow _)

theorem printing_scriptCommands (path : Path) : printing.Holds (scriptCommands path) :=
  holds_scriptCommands printing_print (fun _ => Grows.refl) path

/-- Nothing but lines of print comes before the command lines are at hand. -/
theorem Supplies.grows {args : List String} (h : Supplies s args lines t) :
    Grows (fun e => e.isPrint = true) s t := by
  cases h with
  | given _ _ => exact Grows.refl s
  | script _ _ hlines => exact (printing_scriptCommands _ s).yields hlines

/-! ## Which commands need the robot -/

/-- Whether an entry of the list is a command that works without a robot. -/
def isOffline : Option Command → Bool
  | some c => worksOffline c.verb
  | none => false

/-- The first entry that is not a command for work without a robot decides whether one is needed. -/
theorem run_needsRobot (commands : List (Option Command)) (s : System) :
    (needsRobot commands).run s =
      match commands.find? fun entry => !isOffline entry with
      | none => .ok false s
      | some none => .error .blankCommand s
      | some (some _) => .ok true s := by
  induction commands with
  | nil => rfl
  | cons entry rest ih =>
    cases entry with
    | none => rfl
    | some c =>
      unfold needsRobot
      rw [List.find?_cons]
      cases h : worksOffline c.verb with
      | true => simpa [isOffline, h] using ih
      | false => simp [isOffline, h]

/-- What a session does with its commands before it ends the connection. -/
def executeGuarded (commands : List (Option Command)) : Act Unit := do
  tryCatch (executeAll commands) fun failure =>
    if failure.isInterrupt then print "\n\nInterrupted by user"
    else print s!"\nError: {failure.message}"

section Keeping

variable {c : Contract Failure System} [AdmitsLink c]

theorem keeps_needsRobot (commands : List (Option Command)) : c.Holds (needsRobot commands) := by
  induction commands with
  | nil => exact holds_pure _
  | cons entry rest ih =>
    cases entry with
    | none => exact keeps_throw rfl rfl
    | some command =>
      unfold needsRobot
      split
      · exact ih
      · exact holds_pure _

theorem keeps_prepare : c.Holds prepare :=
  holds_modify fun _ => Admits.same rfl rfl rfl rfl rfl rfl ⟨rfl, rfl, rfl, rfl⟩ ⟨rfl, rfl⟩

/-- An entry keeps what its command keeps; a blank one only fails. -/
theorem keeps_executeEntry {entry : Option Command}
    (hentry : ∀ command, entry = some command → c.Holds (execute command)) :
    c.Holds (executeEntry entry) := by
  cases entry with
  | none => exact keeps_throw rfl rfl
  | some command => exact (hentry command rfl).giving

theorem keeps_executeAll
    (hcommands : ∀ command, some command ∈ commands → c.Holds (execute command)) :
    c.Holds (executeAll commands) := by
  refine holds_forM commands fun entry hentry => ?_
  refine (keeps_executeEntry fun command h => hcommands command (h ▸ hentry)).bind fun result => ?_
  dsimp only
  split
  · exact keeps_print _
  · exact holds_pure _

theorem keeps_executeGuarded
    (hcommands : ∀ command, some command ∈ commands → c.Holds (execute command)) :
    c.Holds (executeGuarded commands) := by
  refine (keeps_executeAll hcommands).tryCatch Admits.recovers fun failure => ?_
  split <;> exact keeps_print _

theorem keeps_session
    (hcommands : ∀ command, some command ∈ commands → c.Holds (execute command)) :
    c.Holds (session commands) :=
  (keeps_executeGuarded hcommands).bind fun _ => (keeps_print _).bind fun _ =>
    (keeps_print _).bind fun _ => keeps_disconnect

theorem keeps_runCommands (hcreate : c.Holds createClient)
    (hmove : ∀ {packet}, packet.InRange → c.Holds (send packet))
    (commands : List (Option Command)) : c.Holds (runCommands commands) := by
  have hcommand (command : Command) : c.Holds (execute command) :=
    keeps_execute command (fun _ => hcreate) fun _ => hmove
  unfold runCommands
  refine (keeps_needsRobot commands).bind fun needed => ?_
  split
  · refine keeps_prepare.bind fun _ => Holds.bind ?_ fun _ => holds_pure _
    refine holds_forM commands fun entry _ => ?_
    exact (keeps_executeEntry fun command _ => hcommand command).giving
  refine (keeps_print _).bind fun _ => keeps_prepare.bind fun _ => ?_
  refine (keeps_connect hcreate _ _).bind fun _ => holds_controller.bind fun controller => ?_
  split
  · exact (keeps_print _).giving
  · exact (keeps_print _).bind fun _ => (keeps_print _).bind fun _ =>
      (keeps_session fun command _ => hcommand command).giving

end Keeping

theorem movesMotors_of_worksOffline {verb : Verb} (h : worksOffline verb = true) :
    movesMotors verb = false := by
  cases verb <;> first | rfl | cases h

theorem uncreating_execute {command : Command} (h : worksOffline command.verb = true) :
    (grows fun e => e.isCreation = false).Holds (execute command) := by
  refine keeps_execute command (fun hverb => ?_) (fun hverb => ?_)
  · rw [hverb] at h
    cases h
  · rw [movesMotors_of_worksOffline h] at hverb
    cases hverb

theorem uncreating_runCommands
    (hoffline : ∀ command, some command ∈ commands → worksOffline command.verb = true) :
    (grows fun e => e.isCreation = false).Holds (runCommands commands) := by
  unfold runCommands
  intro s
  refine (keeps_needsRobot commands s).bind fun needed t hrun => ?_
  cases needed with
  | true =>
    -- only a command that needs the robot can have been found
    rw [run_needsRobot] at hrun
    split at hrun
    · cases hrun
    · cases hrun
    · rename_i command hfound
      have hmem : some command ∈ commands := List.mem_of_find?_eq_some hfound
      have hneeds := List.find?_some hfound
      rw [isOffline, hoffline command hmem] at hneeds
      cases hneeds
  | false =>
    refine (keeps_prepare.bind fun _ => Holds.bind ?_ fun _ => holds_pure _) t
    refine holds_forM commands fun entry hentry => ?_
    refine (keeps_executeEntry fun command h => ?_).giving
    exact uncreating_execute (hoffline command (h ▸ hentry))

/-- What commands add to the trace, and for whom clients are created. -/
theorem runCommands_trace (commands : List (Option Command)) (s : System) :
    ∃ events, (after (runCommands commands) s).trace.toList = s.trace.toList ++ events ∧
      ∀ e ∈ events, e.isCreation = true →
        ∃ command, some command ∈ commands ∧ worksOffline command.verb = false := by
  by_cases hneeded : ∃ command, some command ∈ commands ∧ worksOffline command.verb = false
  · have hgrows : Grows (fun _ => True) s (after (runCommands commands) s) :=
      Grows.of_holds (keeps_runCommands (grows_createClient fun _ => trivial)
        (fun _ => grows_send fun _ => trivial) commands) s
    obtain ⟨events, hevents, _⟩ := hgrows.trace
    exact ⟨events, hevents, fun _ _ _ => hneeded⟩
  · have hoffline : ∀ command, some command ∈ commands → worksOffline command.verb = true := by
      intro command hmem
      cases h : worksOffline command.verb with
      | true => rfl
      | false => exact absurd ⟨command, hmem, h⟩ hneeded
    obtain ⟨events, hevents, hnone⟩ := (Grows.of_holds (uncreating_runCommands hoffline) s).trace
    refine ⟨events, hevents, fun e he hcreation => ?_⟩
    rw [hnone e he] at hcreation
    cases hcreation

/-! ## The whole program -/

theorem Refused.run_runLines (h : Refused lines) (s : System) :
    ∃ t, (runLines lines).run s = .ok 1 t ∧ Grows (fun e => e.isPrint = true) s t := by
  obtain ⟨t, hrun, ht⟩ := h.run_readCommands s
  refine ⟨t, ?_, ht⟩
  unfold runLines
  rw [EStateM.run_bind, hrun]
  rfl

theorem Reads.run_runLines
    (h : Reads lines commands) (s : System) :
    (runLines lines).run s = (runCommands commands).run s := by
  unfold runLines
  rw [EStateM.run_bind, h.run_readCommands s]

theorem run_script {flag : String} (hflag : flag ∈ ["-s", "--script"]) (file : String)
    (rest : List String) :
    run (flag :: file :: rest) = (do return some (← runScriptFile (Path.ofText file))) := by
  have hhelp : flag ∉ ["-h", "--help", "help"] := by
    simp only [List.mem_cons, List.not_mem_nil, or_false] at hflag
    rcases hflag with rfl | rfl <;> decide
  unfold run
  simp only [List.contains_eq_mem, hhelp, hflag, decide_false, decide_true, Bool.false_eq_true,
    if_false, if_true]

/-- Once its lines are at hand, the program depends on them alone. -/
theorem Supplies.run_eq {args rest : List String} {line : String}
    (h : Supplies s args (line :: rest) t) :
    (run args).run s = (do return some (← runLines (line :: rest)) : Act (Option Int)).run t := by
  cases h with
  | given hhelp hscript =>
    unfold run
    simp only [List.contains_eq_mem, hhelp, hscript, decide_false, Bool.false_eq_true, if_false]
  | @script flag file _ _ _ hflag hpath hrun =>
    have hfile : (runScriptFile (Path.ofText file)).run s = (runLines (line :: rest)).run t := by
      unfold runScriptFile
      rw [EStateM.run_bind, hpath]
      simp only [Bool.not_true, Bool.false_eq_true, if_false, EStateM.run_bind, hrun]
      rfl
    rw [run_script hflag, EStateM.run_bind, EStateM.run_bind, hfile]

/-- Either a script file gives lines, or nothing comes of it but lines of print. -/
theorem runScriptFile_cases (path : Path) (s : System) :
    (∃ line rest t, (pathExists path).run s = .ok true s ∧
      (scriptCommands path).run s = .ok (line :: rest) t) ∨
    Grows (fun e => e.isPrint = true) s (after (runScriptFile path) s) := by
  unfold runScriptFile after
  rw [EStateM.run_bind]
  rcases run_pathExists path s with ⟨found, hpath⟩ | ⟨failure, hpath⟩
  · cases found with
    | false =>
      rw [hpath]
      exact .inr ((printing_print _ s).yields rfl)
    | true =>
      have hprints := printing_scriptCommands path s
      rw [hpath]
      simp only [Bool.not_true, Bool.false_eq_true, if_false, EStateM.run_bind]
      cases hrun : (scriptCommands path).run s with
      | error failure t => exact .inr (hprints.fails hrun)
      | ok lines t =>
        cases lines with
        | nil => exact .inr (hprints.yields hrun)
        | cons line rest => exact .inl ⟨line, rest, t, trivial, rfl⟩
  · rw [hpath]
    exact .inr (Grows.refl s)

/-- Either the arguments supply lines, or nothing comes of them but lines of print. -/
theorem supplies_or_prints (args : List String) (s : System) :
    (∃ line rest t, Supplies s args (line :: rest) t) ∨
    Grows (fun e => e.isPrint = true) s (after (run args) s) := by
  have hhelp : printing.Holds run.help := (printing_printLines _).bind fun _ => holds_pure none
  cases args with
  | nil => exact .inr (Grows.of_holds hhelp s)
  | cons arg rest =>
    unfold run
    simp only [List.contains_eq_mem, decide_eq_true_eq]
    split
    · exact .inr (Grows.of_holds hhelp s)
    rename_i hnohelp
    split
    · rename_i hscript
      cases rest with
      | nil => exact .inr ((printing_print _ s).yields rfl)
      | cons file rest =>
        dsimp only
        rw [after_bind_pure]
        rcases runScriptFile_cases (Path.ofText file) s with
          ⟨line, more, t, hpath, hrun⟩ | hprints
        · exact .inl ⟨line, more, t, .script hscript hpath hrun⟩
        · exact .inr hprints
    · rename_i hscript
      exact .inl ⟨arg, rest, s, .given hnohelp hscript⟩

/-- Where nothing but lines of print was added, any other event is ruled out. -/
theorem only_prints (h : Grows (fun e => e.isPrint = true) s t)
    {Q : Event → Prop} :
    ∃ events, t.trace.toList = s.trace.toList ++ events ∧
      ∀ e ∈ events, e.isPrint = false → Q e := by
  obtain ⟨events, hevents, hprints⟩ := h.trace
  refine ⟨events, hevents, fun e he hprint => ?_⟩
  rw [hprints e he] at hprint
  cases hprint

/-- Nothing is done to the robot, nor to anything else outside, before every command line has been
read. If one of them cannot be read, the program ends with status one and has only printed. And
whatever else it does, it does with the commands that were read from all the lines, in the system as
it stood then; a client comes into being only if one of them needs the robot. -/
theorem robot_untouched_until_all_read (args : List String) (s : System) :
    (∀ lines t, Supplies s args lines t → Refused lines →
      ∃ u, (run args).run s = .ok (some 1) u ∧ Grows (fun e => e.isPrint = true) s u) ∧
    ∃ events, (after (run args) s).trace.toList = s.trace.toList ++ events ∧
      ∀ e ∈ events, e.isPrint = false →
        ∃ lines commands t, Supplies s args lines t ∧ Reads lines commands ∧
          Grows (fun e => e.isPrint = true) s t ∧
          (run args).run s = (do return some (← runCommands commands) : Act (Option Int)).run t ∧
          (e.isCreation = true →
            ∃ command, some command ∈ commands ∧ worksOffline command.verb = false) := by
  constructor
  · intro lines t hsupplies hrefused
    cases lines with
    | nil =>
      obtain ⟨line, hline, _⟩ := hrefused
      cases hline
    | cons line rest =>
      obtain ⟨u, hrun, hu⟩ := hrefused.run_runLines t
      refine ⟨u, ?_, hsupplies.grows.trans hu⟩
      rw [hsupplies.run_eq, EStateM.run_bind, hrun]
      rfl
  · rcases supplies_or_prints args s with ⟨line, rest, t, hsupplies⟩ | hprints
    · rcases reads_or_refused (line :: rest) with ⟨commands, hreads⟩ | hrefused
      · -- everything was read: what follows is up to the commands
        have hrun : (run args).run s =
            (do return some (← runCommands commands) : Act (Option Int)).run t := by
          rw [hsupplies.run_eq, EStateM.run_bind, EStateM.run_bind, hreads.run_runLines]
        have hafter : after (run args) s = after (runCommands commands) t := by
          rw [← after_bind_pure (runCommands commands) some t]
          unfold after
          rw [hrun]
        obtain ⟨printed, hprinted, hprints⟩ := hsupplies.grows.trace
        obtain ⟨events, hevents, hcreation⟩ := runCommands_trace commands t
        refine ⟨printed ++ events, by rw [hafter, hevents, hprinted, List.append_assoc], ?_⟩
        intro e he hprint
        rcases List.mem_append.mp he with he | he
        · rw [hprints e he] at hprint
          cases hprint
        · exact ⟨_, commands, t, hsupplies, hreads, hsupplies.grows, hrun, hcreation e he⟩
      · -- a line was refused: the program has printed and is at its end
        obtain ⟨u, hrun, hu⟩ := hrefused.run_runLines t
        have hafter : after (run args) s = u := by
          refine after_of_ok (a := some 1) ?_
          rw [hsupplies.run_eq, EStateM.run_bind, hrun]
          rfl
        exact only_prints (hafter ▸ hsupplies.grows.trans hu)
    · exact only_prints hprints

end RobotConsole.Console
