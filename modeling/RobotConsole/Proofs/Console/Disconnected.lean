import RobotConsole.Proofs.Robot.Growth

/-!
# Commands without a connection

Without a connection a command other than the one that makes it does nothing to the robot, nor to
anything else that moves: it prints, it pauses, and it looks at the assets. This also holds of a
controller that still has a client, left from a connection that came to nothing
(`disconnected_never_actuates`).
-/

namespace RobotConsole.Robot

open Contract

variable {α : Type}

theorem Controller.SameLink.refl (c : Controller) : c.SameLink c :=
  ⟨rfl, rfl, rfl⟩

theorem Controller.SameLink.trans {c d e : Controller} (h₁ : c.SameLink d) (h₂ : d.SameLink e) :
    c.SameLink e :=
  ⟨h₁.client.trans h₂.client, h₁.connected.trans h₂.connected,
    h₁.cliffEnabled.trans h₂.cliffEnabled⟩

/-- Whether an event neither asks anything of a client nor sets a tool or a task to work. -/
def Event.isPassive : Event → Bool
  | .print _ | .sleep _ | .asset _ => true
  | _ => false

/-- How a system without a connection changes: by passive events, with the link as it was. -/
structure Idles (s t : System) : Prop where
  link : t.controller.SameLink s.controller
  grows : Grows (fun e => e.isPassive = true) s t

theorem Idles.trans {s t u : System} (h₁ : Idles s t) (h₂ : Idles t u) : Idles s u :=
  ⟨h₂.link.trans h₁.link, h₁.grows.trans h₂.grows⟩

/-- The contract of actions that idle where there is no connection. -/
def idle : Contract Failure System where
  yields s t := s.controller.connected = false → Idles s t
  fails _ s t := s.controller.connected = false → Idles s t
  refl s _ := ⟨.refl _, .refl s⟩
  trans h₁ h₂ hs :=
    have h := h₁ hs
    h.trans (h₂ (h.link.connected.trans hs))
  fails_after h₁ h₂ hs :=
    have h := h₁ hs
    h.trans (h₂ (h.link.connected.trans hs))

/-- An action that leaves the link alone idles if its events are passive. -/
theorem idle_of_grows {x : Act α} (hx : (grows fun e => e.isPassive = true).Holds x)
    (hlink : ∀ s, (after x s).controller.SameLink s.controller) : idle.Holds x := by
  intro s
  refine .of_outcomes (fun a t hrun _ => ⟨?_, (hx s).yields hrun⟩)
    fun e t hrun _ => ⟨?_, (hx s).fails hrun⟩
  · exact after_of_ok hrun ▸ hlink s
  · exact after_of_error hrun ▸ hlink s

theorem idle_of_disconnected {x : Act α}
    (h : ∀ s, s.controller.connected = false → idle.HoldsAt s x) : idle.Holds x :=
  fun s => .of_outcomes (fun _ _ hrun hs => (h s hs).yields hrun hs)
    fun _ _ hrun hs => (h s hs).fails hrun hs

theorem idle_meetFault (name : String) : idle.Holds (meetFault name []) :=
  idle_of_grows (grows_meetFault name []) fun s => by
    rw [(after_meetFault name [] s).controller]
    exact .refl _

instance : AdmitsLocal idle where
  recovers h := h
  same hworld hclients htrace hwork _ := ⟨hwork.toSameLink, .of_same hworld hclients htrace⟩
  throw _ _ s _ := ⟨.refl _, .refl s⟩
  tell {e} he := idle_of_grows (grows_emit (by cases e <;> first | rfl | cases he)) fun s => .refl _
  meetInterrupt := holds_meetInterrupt id (idle_meetFault "sleep")

theorem idle_whenConnected (body : Act Bool) : idle.Holds (whenConnected body) := by
  refine idle_of_disconnected fun s hs => .of_ok (a := false) ?_ (idle.refl s)
  unfold whenConnected controller
  simp [hs]

/-- An action that looks for a connection first, and does something else without one. -/
theorem idle_unless {f : Controller → Act α} {otherwise : Act α} (hother : idle.Holds otherwise)
    (hf : ∀ c : Controller, c.connected = false → f c = otherwise) :
    idle.Holds (controller >>= f) := by
  refine idle_of_disconnected fun s hs => ?_
  have hrun : (controller >>= f).run s = otherwise.run s := by
    rw [← hf s.controller hs]
    rfl
  exact .of_outcomes (fun _ _ h => (hother s).yields (hrun ▸ h)) fun _ _ h =>
    (hother s).fails (hrun ▸ h)

theorem idle_askAssets (r : AssetRequest) : idle.Holds (askAssets r) := by
  refine idle_of_grows (grows_askAssets rfl) fun s => ?_
  obtain ⟨t, hemit, ht⟩ := run_emit (.asset r) s
  have hafter : after (askAssets r) s = after (meetFault r.name []) t := by
    unfold after askAssets
    rw [EStateM.run_bind, hemit]
  rw [hafter, (after_meetFault r.name [] t).controller, ht.controller]
  exact .refl _

theorem idle_refusal (text : String) (a : α) :
    idle.Holds (do print text; return a : Act α) :=
  (keeps_print text).bind fun _ => holds_pure a

instance : AdmitsLibrary idle :=
  admitsLibrary_of_learning
    (idle_unless (idle_refusal "Not connected to Cozmo" false) fun c hc => by simp [hc])
    idle_askAssets fun hlink _ _ =>
      holds_modify fun s _ => ⟨hlink s.controller, .of_same rfl rfl rfl⟩

theorem idle_sayText (speech : Speech) (async : Bool) : idle.Holds (sayText speech async) :=
  idle_unless (idle_refusal "Not connected to Cozmo" false) fun c hc => by simp [hc]

theorem idle_playSound (name file : Option String) (async : Bool) :
    idle.Holds (playSound name file async) :=
  idle_unless (idle_refusal "Not connected to robot" false) fun c hc => by simp [hc]

theorem idle_captureImage (output : String) : idle.Holds (captureImage output) :=
  idle_unless (holds_pure none) fun c hc => by simp [hc]

end RobotConsole.Robot

namespace RobotConsole.Console

open Contract Robot
open Command (Verb)

theorem idle_actions {verb : Verb} (hverb : verb ≠ .connect) : ActionsKeep idle verb :=
  actionsKeep_of_guarded (fun _ _ => idle_whenConnected _) (fun h => absurd h hverb) idle_sayText
    (fun _ _ _ => idle_whenConnected _) (fun _ _ _ => idle_whenConnected _) idle_playSound
    keeps_listAnimations keeps_listGroups idle_captureImage

theorem idle_argumentAt (args : List String) (position : Nat) :
    idle.Holds (argumentAt args position) := by
  unfold argumentAt
  split
  · exact holds_pure _
  · exact holds_throw fun s _ => ⟨.refl _, .refl s⟩

theorem idle_execute {c : Command} (hc : c.verb ≠ .connect) : idle.Holds (execute c) :=
  holds_execute ((idle_actions hc).carryOut c.options fun position _ =>
    idle_argumentAt c.args position)

/-- Without a connection a command, unless it is to make one, leaves the link to the robot as it is,
with whatever client there may be. All it does to the outside is to print, to pause and to look at
the assets: no client is made or asked for anything, no packet is sent, no tool is run and no task
started. -/
theorem disconnected_never_actuates {c : Command} {s : System}
    (hs : s.controller.connected = false) (hc : c.verb ≠ .connect) :
    (after (execute c) s).controller.SameLink s.controller ∧
      ∃ events, (after (execute c) s).trace.toList = s.trace.toList ++ events ∧
        ∀ e ∈ events, e.isPassive = true := by
  have hidles : Idles s (after (execute c) s) := by
    cases hrun : (execute c).run s with
    | ok a t => exact after_of_ok hrun ▸ (idle_execute hc s).yields hrun hs
    | error e t => exact after_of_error hrun ▸ (idle_execute hc s).fails hrun hs
  exact ⟨hidles.link, hidles.grows.trace⟩

/-- A system whose controller still has the client of a connection that came to nothing. -/
def leftoverSystem : System where
  world := { clock := 0, directory := { root := "/", names := [] } }
  files := []
  controller := { client := some 0 }
  clients := #[{}]

theorem leftover_client_not_asked :
    leftoverSystem.controller.client = some 0 ∧
      (after (execute ⟨.say, ["hi"], []⟩) leftoverSystem).controller.client = some 0 ∧
      ∃ events, (after (execute ⟨.say, ["hi"], []⟩) leftoverSystem).trace.toList = events ∧
        ∀ e ∈ events, e.isPassive = true := by
  obtain ⟨hlink, events, htrace, hpassive⟩ :=
    disconnected_never_actuates (c := ⟨.say, ["hi"], []⟩) (s := leftoverSystem) rfl (by decide)
  exact ⟨rfl, hlink.client, events, htrace, hpassive⟩

end RobotConsole.Console
