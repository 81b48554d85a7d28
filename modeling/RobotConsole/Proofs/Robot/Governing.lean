import RobotConsole.Proofs.Robot.Walk

/-!
# What actions do to the controller

Most of what a command does leaves the controller alone. `governs w` is the contract of the actions
that change it in the ways `w` only. The primitive steps keep it if `w` allows for what they do to
the controller, which for most of them is nothing.
-/

namespace RobotConsole.Robot

open Contract

variable {α : Type}

/-- Ways in which the controller may change: any number of such changes is one, too. -/
structure Ways where
  allow : Controller → Controller → Prop
  refl : ∀ c, allow c c
  trans : ∀ {c d e}, allow c d → allow d e → allow c e

/-- The contract of actions that change the controller in certain ways only, also when they fail. -/
def governs (w : Ways) : Contract Failure System where
  yields s t := w.allow s.controller t.controller
  fails _ s t := w.allow s.controller t.controller
  refl s := w.refl s.controller
  trans := w.trans
  fails_after := w.trans

variable {w : Ways}

theorem governs_emit (e : Event) : (governs w).Holds (emit e) :=
  holds_modify fun s => w.refl s.controller

theorem governs_throw (failure : Failure) : (governs w).Holds (throw failure : Act α) :=
  holds_throw fun s => w.refl s.controller

theorem governs_meetFault (name : String) (own : Dict Fault) :
    (governs w).Holds (meetFault name own) := by
  unfold meetFault
  refine holds_get_bind fun s => holdsAt_set_bind (w.refl s.controller) ?_
  dsimp only
  split
  · exact governs_throw _ _
  · exact holds_pure _ _

theorem governs_clientFor (member : String) : (governs w).Holds (clientFor member) := by
  unfold clientFor
  refine holds_controller.bind fun c => ?_
  split
  · exact holds_pure _
  · exact governs_throw _

/-- Only making the connection can do something to the controller, that is, lose the client. -/
theorem governs_request {r : Request}
    (hr : r = .connect → ∀ c, w.allow c { c with client := none }) :
    (governs w).Holds (request r) := by
  unfold request
  refine (governs_clientFor _).bind fun id => (governs_emit _).bind fun _ => ?_
  refine (holds_clientState id).bind fun client => (governs_meetFault _ _).bind fun _ => ?_
  split
  · split
    · exact holds_modify fun s => hr rfl s.controller
    · exact holds_pure _
  · exact holds_pure _

theorem governs_send (packet : Packet) : (governs w).Holds (send packet) := by
  unfold send
  refine (governs_clientFor _).bind fun id => (governs_emit _).bind fun _ => ?_
  exact (holds_clientState id).bind fun client => governs_meetFault _ _

theorem governs_askAssets (r : AssetRequest) : (governs w).Holds (askAssets r) :=
  (governs_emit _).bind fun _ => governs_meetFault _ _

theorem governs_runTool (command : List String) (output : Storage.Path) :
    (governs w).Holds (runTool command output) :=
  holds_runTool (governs_emit _) (governs_meetFault · _) fun s _ => w.refl s.controller

theorem governs_createClient (hw : ∀ c id, w.allow c { c with client := some id }) :
    (governs w).Holds createClient := by
  unfold createClient
  refine holds_get.bind fun s => (governs_emit _).bind fun _ => ?_
  exact (governs_meetFault _ _).bind fun _ => holds_modify fun s => hw s.controller s.clients.size

section Ways

variable (hw : ∀ {c d : Controller}, d.client = c.client → d.connected = c.connected →
  d.pool = c.pool → w.allow c d)
include hw

theorem governs_loadAnimations : (governs w).Holds loadAnimations := by
  have : AdmitsLocal (governs w) :=
    { throw := fun _ _ s => w.refl s.controller
      tell := fun {e} _ => governs_emit e
      meetInterrupt := holds_meetInterrupt id (governs_meetFault "sleep" [])
      recovers := id
      same := fun _ _ _ hwork => hw hwork.client hwork.connected hwork.pool }
  exact holds_loadAnimations (governs_request fun h => by cases h)
    (holds_modify fun _ => hw rfl rfl rfl)

/-- Ways that allow for any change but that of the client, of the connection and of the tasks. -/
theorem admits_governs : Admits (governs w) where
  recovers h := h
  fails_then := w.trans
  same _ _ _ hclient hconnected hpool _ _ := hw hclient hconnected hpool
  throw _ s := w.refl s.controller
  emit {e} _ := governs_emit e
  request hr _ _ := governs_request fun h => by rw [h] at hr; cases hr
  send {packet} _ _ := governs_send packet
  runTool _ output := governs_runTool _ output
  meetFault name := governs_meetFault name []
  loadAnimations := governs_loadAnimations hw

theorem admitsLibrary_governs : AdmitsLibrary (governs w) :=
  admitsLibrary_of_learning (governs_loadAnimations hw) governs_askAssets fun hlink hpool _ =>
    holds_modify fun s => hw (hlink s.controller).client (hlink s.controller).connected
      (hpool s.controller)

end Ways

end RobotConsole.Robot
