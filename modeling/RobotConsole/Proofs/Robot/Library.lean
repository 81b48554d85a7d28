import RobotConsole.Proofs.Robot.Governing
import RobotConsole.Proofs.Robot.Growth

/-!
# The library of animations

What the controller knows of the animations comes from three places: the client loads them, and the
tables of animations and of groups are read. Where the assets can be read each of these steps is
known to the event (`run_loadAnimations`, `run_readClipTable`, `run_readGroupTable`). An invariant
about the library need only be checked for them: whatever else is done leaves the library as it is
and puts none of their events into the trace (`admitsTasks_preserving`).
-/

namespace RobotConsole.Robot

open Contract

variable {α : Type}
variable {change : Controller → Controller}

/-- Whether an event has a client load the animations. -/
def Event.isLoading : Event → Bool
  | .call _ r => r.isLoading
  | _ => false

/-- Whether an event reads a table of the library. -/
def Event.isTable : Event → Bool
  | .asset r => r.isTable
  | _ => false

/-! ## Worlds whose assets can be read -/

/-- A fault is planned for loading the animations, by the world or by a client there is or will
be. -/
inductive System.PlansLoading (s : System) (fault : Fault) : Prop
  | world (h : Dict.get? s.world.faults Request.loadAnimations.name = some fault)
  | known (id : ClientId) (client : Client) (hclient : s.clients[id]? = some client)
      (h : Dict.get? client.faults Request.loadAnimations.name = some fault)
  | planned (count : Nat)
      (h : Dict.get? (s.world.clientAfter count).faults Request.loadAnimations.name = some fault)

/-- Whatever is asked of the assets is there, and only certain faults are planned for having a
client load the animations. -/
structure System.Provides (s : System) (tolerated : Fault → Prop) : Prop where
  assets : ∀ r : AssetRequest, Dict.get? s.world.faults r.name = none
  loading : ∀ fault, s.PlansLoading fault → tolerated fault

theorem System.Provides.of_grows {tolerated : Fault → Prop} {P : Event → Prop} {s t : System}
    (hs : s.Provides tolerated) (h : Grows P s t) : t.Provides tolerated := by
  refine ⟨by rw [h.world]; exact hs.assets, fun fault hplan => hs.loading fault ?_⟩
  cases hplan with
  | world hfault => exact .world (h.world ▸ hfault)
  | planned count hfault => exact .planned count (h.world ▸ hfault)
  | known id client hclient hfault =>
    rcases h.clients id client hclient with hknown | ⟨count, rfl⟩
    · exact .known id client hknown hfault
    · exact .planned count hfault

/-- Where no fault is planned at all there is none to be tolerated. -/
theorem System.provides_of_no_faults {tolerated : Fault → Prop} {s : System}
    (hworld : s.world.faults = [])
    (hknown : ∀ (id : ClientId) (client : Client), s.clients[id]? = some client →
      client.faults = [])
    (hplanned : ∀ count, (s.world.clientAfter count).faults = []) : s.Provides tolerated := by
  refine ⟨fun r => by rw [hworld]; rfl, fun fault hplan => ?_⟩
  cases hplan with
  | world h =>
    rw [hworld] at h
    cases h
  | known id client hclient h =>
    rw [hknown id client hclient] at h
    cases h
  | planned count h =>
    rw [hplanned count] at h
    cases h

/-! ## What the steps of the library do -/

/-- A change that appends given events to the trace and changes the controller in a given way. -/
structure Learns (events : List Event) (change : Controller → Controller) (s t : System) :
    Prop where
  controller : t.controller = change s.controller
  world : t.world = s.world
  clients : t.clients = s.clients
  trace : t.trace.toList = s.trace.toList ++ events

theorem Learns.grows {events : List Event} {s t : System}
    {P : Event → Prop} (h : Learns events change s t) (hP : ∀ e ∈ events, P e) : Grows P s t := by
  refine ⟨h.world, ⟨events, h.trace, hP⟩, ?_⟩
  intro id client hclient
  rw [h.clients] at hclient
  exact .inl hclient

theorem Appends.learns {events more : List Event}
    {s t u : System} (h : Appends events s t) (hlearns : Learns more change t u) :
    Learns (events ++ more) change s u := by
  refine ⟨?_, hlearns.world.trans h.world, hlearns.clients.trans h.clients, ?_⟩
  · rw [hlearns.controller, h.controller]
  · rw [hlearns.trace, h.trace, List.append_assoc]

theorem Learns.then {events more : List Event} {s t u : System}
    (h : Learns events change s t) (hmore : Appends more t u) :
    Learns (events ++ more) change s u := by
  refine ⟨hmore.controller.trans h.controller, hmore.world.trans h.world,
    hmore.clients.trans h.clients, ?_⟩
  rw [hmore.trace, h.trace, List.append_assoc]

theorem run_update (change : Controller → Controller) (s : System) :
    ∃ t, (update change).run s = .ok () t ∧ Learns [] change s t :=
  ⟨_, rfl, rfl, rfl, rfl, by simp⟩

section Steps

variable {tolerated : Fault → Prop} {s : System}

theorem run_askAssets (r : AssetRequest) (h : Dict.get? s.world.faults r.name = none) :
    ∃ t, (askAssets r).run s = .ok () t ∧ Appends [.asset r] s t := by
  obtain ⟨t, hemit, ht⟩ := run_emit (.asset r) s
  obtain ⟨u, hmeet, hu⟩ : ∃ u, (meetFault r.name []).run t = .ok () u ∧ Appends [] t u :=
    run_meetFault (by rw [ht.world]; exact h) rfl
  refine ⟨u, ?_, ht.trans hu⟩
  unfold askAssets
  rw [EStateM.run_bind, hemit]
  exact hmeet

theorem run_readClipTable (hs : s.Provides tolerated) :
    ∃ t, readClipTable.run s = .ok () t ∧
      Learns [.asset .check, .asset (.clipTable s.world.animationDirectory.text)]
        (fun k => { k with clips := Dict.ofList s.world.animations }) s t := by
  obtain ⟨t, hcheck, ht⟩ := run_askAssets .check (hs.assets _)
  obtain ⟨u, htable, hu⟩ := run_askAssets (.clipTable s.world.animationDirectory.text) (s := t)
    (by rw [ht.world]; exact hs.assets _)
  obtain ⟨v, hupdate, hv⟩ :=
    run_update (fun k => { k with clips := Dict.ofList s.world.animations }) u
  refine ⟨v, ?_, (ht.trans hu).learns hv⟩
  have hworld : world.run t = .ok s.world t := by
    show EStateM.Result.ok t.world t = _
    rw [ht.world]
  unfold readClipTable
  simp only [EStateM.run_bind, hcheck, hworld, htable]
  exact hupdate

theorem run_readGroupTable (hs : s.Provides tolerated) :
    ∃ t, readGroupTable.run s = .ok () t ∧
      Learns [.asset (.groupTable s.world.assetDirectory.text)]
        (fun k => { k with groups := Dict.ofList s.world.groups }) s t := by
  obtain ⟨t, htable, ht⟩ := run_askAssets (.groupTable s.world.assetDirectory.text) (hs.assets _)
  obtain ⟨u, hupdate, hu⟩ :=
    run_update (fun k => { k with groups := Dict.ofList s.world.groups }) t
  refine ⟨u, ?_, ht.learns hu⟩
  unfold readGroupTable
  simp only [EStateM.run_bind, show world.run s = .ok s.world s from rfl, htable]
  exact hupdate

/-- The client at hand fails to load the animations only if that is planned. -/
theorem System.PlansLoading.of_request {t : System} {id : ClientId} {e : Failure}
    (hid : s.controller.client = some id) (h : (request .loadAnimations).run s = .error e t) :
    ∃ fault, s.PlansLoading fault ∧ e = fault.failure := by
  obtain ⟨fault, hplan, rfl⟩ := fault_of_request (fun h => by cases h) hid h
  refine ⟨fault, ?_, rfl⟩
  rcases hplan with hplan | hplan
  · exact .world hplan
  · cases hclient : s.clients[id]? with
    | some client =>
      rw [hclient] at hplan
      exact .known id client hclient hplan
    | none =>
      rw [hclient] at hplan
      cases hplan

/-- How loading the animations can end: the robot is out of reach, the client has loaded them, or it
has failed to as planned. -/
inductive Loads (s : System) : Bool → System → Prop
  | refused {t : System} (h : Appends [.print "Not connected to Cozmo"] s t) : Loads s false t
  | loaded {t : System} {id : ClientId}
      (h : Learns [.call id .loadAnimations, .print "✓ Animations loaded"]
        (fun k => { k with animationsLoaded := true }) s t) : Loads s true t
  | failed {t : System} {id : ClientId} {text : String} {fault : Fault}
      (hplan : s.PlansLoading fault) (h : Appends [.call id .loadAnimations, .print text] s t) :
      Loads s false t

/-- Loading the animations has an answer, unless it is interrupted. -/
theorem run_loadAnimations (hs : s.Provides tolerated)
    (htolerated : ∀ fault, tolerated fault → fault.kind ≠ .interrupt) :
    ∃ done t, loadAnimations.run s = .ok done t ∧ Loads s done t := by
  have hcontroller : controller.run s = .ok s.controller s := rfl
  unfold loadAnimations
  by_cases hlinked : !s.controller.connected || s.controller.client.isNone
  · obtain ⟨t, hprint, ht⟩ := run_emit (.print "Not connected to Cozmo") s
    refine ⟨false, t, ?_, .refused ht⟩
    simp only [EStateM.run_bind, hcontroller, hlinked, if_true, print, hprint]
    rfl
  · obtain ⟨id, hid⟩ : ∃ id, s.controller.client = some id := by
      cases hclient : s.controller.client with
      | some id => exact ⟨id, rfl⟩
      | none => simp [hclient] at hlinked
    have hrequested := after_request (r := .loadAnimations) (fun h => by cases h) hid
    simp only [EStateM.run_bind, hcontroller, hlinked, Bool.false_eq_true, if_false]
    cases hrequest : (request .loadAnimations).run s with
    | ok a t =>
      rw [after_of_ok hrequest] at hrequested
      obtain ⟨u, hupdate, hu⟩ := run_update (fun k => { k with animationsLoaded := true }) t
      obtain ⟨v, hprint, hv⟩ := run_emit (.print "✓ Animations loaded") u
      refine ⟨true, v, run_handling_of_ok ?_, .loaded (hrequested.learns (hu.then hv))⟩
      simp only [EStateM.run_bind, hrequest, hupdate, print, hprint]
      rfl
    | error e t =>
      rw [after_of_error hrequest] at hrequested
      obtain ⟨fault, hplan, rfl⟩ := System.PlansLoading.of_request hid hrequest
      have hinterrupt := Fault.isInterrupt_failure (htolerated fault (hs.loading fault hplan))
      obtain ⟨u, hprint, hu⟩ :=
        run_emit (.print ("Error loading animations: " ++ fault.failure.message)) t
      refine ⟨false, u, ?_, .failed hplan (hrequested.trans hu)⟩
      refine (run_handling_of_failure (by rw [EStateM.run_bind, hrequest]) hinterrupt).trans ?_
      rw [EStateM.run_bind, print, hprint]
      rfl

end Steps

/-! ## Invariants about the library -/

/-- The contract of actions that keep an invariant. -/
def preserving (I : System → Prop) : Contract Failure System where
  yields s t := I s → I t
  fails _ s t := I s → I t
  refl _ h := h
  trans h₁ h₂ h := h₂ (h₁ h)
  fails_after h₁ h₂ h := h₂ (h₁ h)

/-- An action that always ends well need only lead from good states to good ones. -/
theorem preserving_of_runs {I : System → Prop} {x : Act α}
    (h : ∀ s, I s → ∃ a t, x.run s = .ok a t ∧ I t) : (preserving I).Holds x := by
  intro s
  refine .of_outcomes ?_ ?_
  · intro a t hrun hs
    obtain ⟨b, u, hrun', hu⟩ := h s hs
    rw [hrun] at hrun'
    cases hrun'
    exact hu
  · intro e t hrun hs
    obtain ⟨b, u, hrun', _⟩ := h s hs
    rw [hrun] at hrun'
    cases hrun'

/-- The ways in which the controller keeps its library. -/
def libraryKept : Ways where
  allow c d := d.SameLibrary c
  refl _ := ⟨rfl, rfl, rfl, rfl⟩
  trans h₁ h₂ := ⟨h₂.animationsLoaded.trans h₁.animationsLoaded, h₂.clips.trans h₁.clips,
    h₂.groups.trans h₁.groups, h₂.durations.trans h₁.durations⟩

/-- A change that does not concern the library. -/
def Aside (s t : System) : Prop :=
  Grows (fun e => e.isLoading = false ∧ e.isTable = false) s t ∧
    t.controller.SameLibrary s.controller

section Invariants

variable {I : System → Prop} (hI : ∀ {s t}, Aside s t → I s → I t)
include hI

theorem preserving_of_aside {x : Act α}
    (hgrows : (grows fun e => e.isLoading = false ∧ e.isTable = false).Holds x)
    (hkept : (governs libraryKept).Holds x) : (preserving I).Holds x :=
  fun s => .of_outcomes
    (fun _ _ hrun => hI ⟨(hgrows s).yields hrun, (hkept s).yields hrun⟩)
    fun _ _ hrun => hI ⟨(hgrows s).fails hrun, (hkept s).fails hrun⟩

theorem preserving_update
    (h : ∀ k, (change k).SameLibrary k) : (preserving I).Holds (update change) :=
  holds_modify fun s => hI ⟨.of_same rfl rfl rfl, h s.controller⟩

theorem preserving_request {r : Request} (hr : r.isLoading = false) :
    (preserving I).Holds (request r) :=
  preserving_of_aside hI (grows_request fun _ => ⟨hr, rfl⟩)
    (governs_request fun _ _ => ⟨rfl, rfl, rfl, rfl⟩)

theorem preserving_send (packet : Packet) : (preserving I).Holds (send packet) :=
  preserving_of_aside hI (grows_send fun _ => ⟨rfl, rfl⟩) (governs_send packet)

/-- What is done besides the steps of the library keeps an invariant about it. -/
theorem admitsTasks_preserving (hload : (preserving I).Holds loadAnimations) :
    AdmitsTasks (preserving I) where
  recovers h := h
  fails_then h₁ h₂ h := h₂ (h₁ h)
  same hworld hclients htrace _ _ _ hlibrary _ := hI ⟨.of_same hworld hclients htrace, hlibrary⟩
  throw _ _ h := h
  emit {e} he := preserving_of_aside hI
    (grows_emit (by cases e <;> first | exact ⟨rfl, rfl⟩ | cases he)) (governs_emit e)
  request _ hr _ := preserving_request hI hr
  send {packet} _ _ := preserving_send hI packet
  runTool _ output :=
    preserving_of_aside hI (grows_runTool ⟨rfl, rfl⟩ output) (governs_runTool _ output)
  meetFault name := preserving_of_aside hI (grows_meetFault name []) (governs_meetFault name [])
  loadAnimations := hload
  finish _ := preserving_update hI fun _ => ⟨rfl, rfl, rfl, rfl⟩
  sweep := preserving_update hI fun _ => ⟨rfl, rfl, rfl, rfl⟩
  startTask := holds_startTask (fun _ => preserving_update hI fun _ => ⟨rfl, rfl, rfl, rfl⟩)
    (preserving_of_aside hI (grows_emit ⟨rfl, rfl⟩) (governs_emit _))
    (holds_meetRefusal id (preserving_of_aside hI (grows_meetFault _ []) (governs_meetFault _ []))
      fun _ => id)

theorem preserving_createClient : (preserving I).Holds createClient :=
  preserving_of_aside hI (grows_createClient fun _ => ⟨rfl, rfl⟩)
    (governs_createClient fun _ _ => ⟨rfl, rfl, rfl, rfl⟩)

theorem admitsLink_preserving (hlibrary : AdmitsLibrary (preserving I)) :
    AdmitsLink (preserving I) :=
  { admitsTasks_preserving hI hlibrary.loadAnimations, hlibrary with
    lifecycle := fun hr _ => preserving_request hI hr
    update := fun h => preserving_update hI fun k => (h k).2.1 }

end Invariants

end RobotConsole.Robot
