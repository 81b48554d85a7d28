import RobotConsole.Proofs.Command.Grammar
import RobotConsole.Proofs.Robot.Reliable

/-!
# What an accepted line is good for

A line is accepted exactly if it is grammatical, and the command that it gives is the one that its
words describe (`line_accepted_iff_grammatical`). Executing such a command can fail in many ways,
but it never looks for an argument or an entry that is not there: as many arguments as it needs were
counted when the line was read, and what is looked up in tables is looked up under a handler
(`provided`).
-/

namespace RobotConsole.Robot

open Contract

variable {α : Type}

/-- The contract of actions that look up nothing that is not there. -/
def provided : Contract Failure System where
  yields _ _ := True
  fails e _ _ := e.isLookup = false
  refl _ := trivial
  trans _ _ := trivial
  fails_after _ h := h

theorem isLookup_of_isInterrupt {e : Failure} (h : e.isInterrupt = true) : e.isLookup = false := by
  unfold Failure.isInterrupt at h
  split at h
  · rfl
  · cases h

/-- Where only an interrupt gets through, no failed look-up does. -/
theorem provided_of_resilient {x : Act α} (hx : resilient.Holds x) : provided.Holds x := by
  intro s
  refine .of_outcomes (fun _ _ _ => trivial) fun e t hrun => ?_
  exact isLookup_of_isInterrupt ((hx s).fails hrun)

instance : AdmitsLocal provided where
  recovers _ := trivial
  same _ _ _ _ := trivial
  throw _ hlookup _ := hlookup
  tell _ := holds_modify fun _ => trivial
  meetInterrupt := provided_of_resilient (resilient_handling fun _ => holds_pure _)

/-! ## Work in the background -/

/-- A task that cannot be started was refused, or there was an interrupt. -/
theorem provided_startTask (job : Job) (threading : Threading) :
    provided.Holds (startTask job threading) := by
  intro s
  refine .of_outcomes (fun _ _ _ => trivial) fun e t hrun => ?_
  rw [run_startTask] at hrun
  split at hrun
  next failure hfailure =>
    cases hrun
    rcases (System.startFailure?_eq_some hfailure).2 with hinterrupt | hrefused
    · exact isLookup_of_isInterrupt hinterrupt
    · rw [hrefused]
      rfl
  next => cases hrun

theorem provided_perform {job : Job} (hjob : job ≠ .idle) (async : Bool) :
    provided.Holds (perform job async) := by
  unfold perform launch
  dsimp only
  split
  · refine Holds.bind (holds_world.bind fun w => (provided_startTask job _).bind fun id => ?_)
      fun _ => holds_pure _
    split
    · exact provided_of_resilient (resilient_runTask id job)
    · exact holds_pure _
  · exact (provided_of_resilient (resilient_job hjob)).giving

end RobotConsole.Robot

namespace RobotConsole.Console

open Contract Robot
open Command

/-- The actions of commands handle what fails, so that no failed look-up gets out of them. -/
theorem provided_actions (verb : Verb) : ActionsKeep provided verb :=
  actionsKeep_of_guarded (fun label body => provided_of_resilient (resilient_connected label body))
    (fun _ => provided_of_resilient (resilient_connectFrom _ (by decide +kernel) _ _))
    (fun _ _ => holds_sayText keeps_print (provided_perform (fun h => by cases h) _))
    (fun _ _ _ => holds_playAnimation keeps_print
      (fun _ => provided_of_resilient (resilient_animationDuration _))
      fun _ => provided_perform (fun h => by cases h) _)
    (fun _ _ _ => holds_playGroup keeps_print
      (fun _ => provided_of_resilient (resilient_groupDuration _))
      fun _ => provided_perform (fun h => by cases h) _)
    (fun _ _ _ => holds_playSound keeps_print (provided_perform (fun h => by cases h) _))
    (fun _ _ => provided_of_resilient (resilient_succeeding _ _))
    (fun _ _ => provided_of_resilient (resilient_succeeding _ _))
    (fun output => provided_of_resilient (resilient_captureImage output))

theorem provided_execute {c : Command} (hc : c.WellFormed) : provided.Holds (execute c) := by
  refine holds_execute ((provided_actions c.verb).carryOut c.options fun position hposition => ?_)
  unfold argumentAt
  rw [List.getElem?_eq_getElem (Nat.lt_of_lt_of_le hposition hc.args)]
  exact holds_pure _

/-- Parsing accepts exactly the grammatical lines. A line without words is no command. Otherwise a
command comes of it if and only if the first word names one and the other words are grammatical for
it; that command is the one the words describe, and a line that is refused is refused for what is
wrong with it. Whatever is accepted can be executed, in any system, without looking for an argument
or an entry that is not there. -/
theorem line_accepted_iff_grammatical (line : String) :
    (parse line = .ok none ↔ splitWords line = []) ∧
    (∀ name words, splitWords line = name :: words →
      ((∃ c, parse line = .ok (some c)) ↔
        ∃ verb : Verb, verb.name = name ∧ Grammatical verb words) ∧
      (∀ c, parse line = .ok (some c) → c.verb.name = name ∧ Describes words c) ∧
      ((¬∃ verb : Verb, verb.name = name ∧ Grammatical verb words) →
        ∃ cause, parse line = .error cause ∧ Refusal name words cause)) ∧
    ∀ c, parse line = .ok (some c) →
      ∀ s failure t, (execute c).run s = .error failure t → failure.isLookup = false := by
  refine ⟨?_, ?_, ?_⟩
  · unfold parse
    cases splitWords line with
    | nil => exact ⟨fun _ => rfl, fun _ => rfl⟩
    | cons name words =>
      refine ⟨fun h => ?_, fun h => by cases h⟩
      rcases parseWords_cases name words with ⟨c, hparse, _⟩ | ⟨cause, hparse, _⟩ <;>
        rw [hparse] at h <;> cases h
  · intro name words hline
    unfold parse
    rw [hline]
    rcases parseWords_cases name words with
      ⟨c, hparse, hname, hwords, hdescribes⟩ | ⟨cause, hparse, hrefusal⟩
    · rw [hparse]
      have hgrammatical : ∃ verb : Verb, verb.name = name ∧ Grammatical verb words :=
        ⟨c.verb, hname, hwords⟩
      refine ⟨⟨fun _ => hgrammatical, fun _ => ⟨c, rfl⟩⟩, ?_, fun h => absurd hgrammatical h⟩
      rintro _ ⟨⟩
      exact ⟨hname, hdescribes⟩
    · rw [hparse]
      have hungrammatical : ¬∃ verb : Verb, verb.name = name ∧ Grammatical verb words :=
        fun ⟨_, hverb, hwords⟩ => hrefusal.not_grammatical hverb hwords
      refine ⟨⟨?_, fun h => absurd h hungrammatical⟩, ?_, fun _ => ⟨cause, rfl, hrefusal⟩⟩
      · rintro ⟨_, ⟨⟩⟩
      · rintro _ ⟨⟩
  · intro c hparse s failure t hrun
    exact (provided_execute (wellFormed_of_parse hparse) s).fails hrun

end RobotConsole.Console
