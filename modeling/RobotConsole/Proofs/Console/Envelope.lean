import RobotConsole.Proofs.Console.Leaks

/-!
# The limits are kept

Every event of every run keeps the limits of the actuators: volume, head angle, the settings of the
speech tool and the size of fonts. The limits are reached from many commands, in the foreground and
in the background; what each of them asks for was looked at where the command was walked through, so
that only the trace is left to be put together here.
-/

namespace RobotConsole.Console

open Contract Robot

instance : AdmitsLink (grows Event.InRange) :=
  admitsLink_grows fun _ _ _ hrange => hrange

theorem grows_inRange_createClient : (grows Event.InRange).Holds createClient :=
  grows_createClient fun _ => trivial

theorem grows_inRange_send {packet : Packet} (h : packet.InRange) :
    (grows Event.InRange).Holds (send packet) :=
  grows_send fun _ => h

/-- What is added to an empty trace in range makes a trace in range. -/
theorem trace_of_grows {P : Event → Prop} {s t : System} (h : Grows P s t) (hs : s.trace = #[]) :
    ∀ e ∈ t.trace, P e := by
  obtain ⟨events, htrace, hevents⟩ := h.trace
  intro e he
  rw [hs, List.nil_append] at htrace
  exact hevents e (htrace ▸ Array.mem_toList_iff.mpr he)

/-- From a fresh controller on, in any world, with tasks that are done in whichever way, no
operations and no run of the program take an actuator beyond its limits. -/
theorem actuators_stay_in_limits (world : World) (files : Storage.Files) :
    (∀ ops : List Operation, ∀ e ∈ (afterOperations ops { world, files }).trace, e.InRange) ∧
      ∀ commands : List (Option Command),
        ∀ e ∈ (after (runCommands commands) { world, files }).trace, e.InRange := by
  constructor
  · intro ops
    have hgrows : Grows Event.InRange { world, files } (afterOperations ops { world, files }) :=
      yields_afterOperations grows_inRange_createClient grows_inRange_send ops _
    exact trace_of_grows hgrows rfl
  · intro commands
    have hgrows : Grows Event.InRange { world, files }
        (after (runCommands commands) { world, files }) :=
      Grows.of_holds
        (keeps_runCommands grows_inRange_createClient grows_inRange_send commands) _
    exact trace_of_grows hgrows rfl

/-- A connection is made, and the head is to be turned to where no number says. -/
def turnHeadNowhere : List Operation :=
  [.connect 1 (.real 2.0), .execute ⟨.head, ["nan"], []⟩]

/-- A world in which nothing fails. -/
def calmWorld : World :=
  { clock := 0, directory := { root := "/", names := [] } }

/-- Whether an event turns the head to above an angle. -/
def turnsHeadAbove (bound : Number) : Event → Bool
  | .call _ (.setHeadAngle angle) => bound.below angle
  | _ => false

theorem head_turned_nowhere_stays_in_limits :
    ∃ e ∈ (afterOperations turnHeadNowhere { world := calmWorld, files := [] }).trace,
      turnsHeadAbove (.real 0.77) e = true ∧ e.InRange := by
  have hturned : (afterOperations turnHeadNowhere { world := calmWorld, files := [] }).trace.any
      (turnsHeadAbove (.real 0.77)) = true := by decide +kernel
  obtain ⟨e, he, hturns⟩ := Array.any_eq_true'.mp hturned
  exact ⟨e, he, hturns, (actuators_stay_in_limits calmWorld []).1 turnHeadNowhere e he⟩

end RobotConsole.Console
