import RobotConsole.Proofs.Robot.Library

/-!
# Durations that are kept

Working out a duration reads the tables that are not there yet and keeps what it finds, so that the
next time it need not be worked out. What is kept is what the world tells (`Faithful`), under the
name of the animation or under the key of the group. The two cannot be taken for one another as
long as no animation is named like a key. So whatever was measured, loaded, listed or played before,
a duration is the one that would be found at the first time (`duration_unaffected_by_history`).
-/

namespace RobotConsole.Robot

open Contract

variable {group name : String} {duration : Float} {search : Option String}

/-! ## What the world tells -/

namespace World

/-- The members of a group. -/
def members (w : World) (group : String) : List String :=
  (Dict.get? (Dict.ofList w.groups) group).getD []

/-- How long an animation takes, by the last of its key frames. -/
def clipDuration (w : World) (name : String) : Float :=
  match Dict.get? (Dict.ofList w.animations) name with
  | none => unknownDuration
  | some file =>
    match Dict.get? w.animationFiles file with
    | none => unknownDuration
    | some clips =>
      let found := clips.find? fun clip => clip.name == name && !clip.keyframes.isEmpty
      match found.bind fun clip => largest? clip.keyframes with
      | none => unknownDuration
      | some time => ((time.divide (.real 1000.0)).toOption).getD unknownDuration

/-- The durations of animations, those that last no time left out. -/
def clipDurations (w : World) (names : List String) : List Float :=
  (names.map w.clipDuration).filter (· > 0.0)

/-- How long an animation of a group takes, in the mean. -/
def groupDuration (w : World) (group : String) : Float :=
  let durations := w.clipDurations (w.members group)
  if durations.isEmpty then unknownDuration
  else durations.foldl (· + ·) 0.0 / Float.ofNat durations.length

end World

/-- A name that could be taken for the key of a group. -/
def LikeKey (name : String) : Prop :=
  "group:".toList <+: name.toList

instance : DecidablePred LikeKey :=
  fun name => inferInstanceAs (Decidable ("group:".toList <+: name.toList))

theorem likeKey_groupKey (group : String) : LikeKey (groupKey group) := by
  unfold LikeKey groupKey
  rw [String.toList_append]
  exact List.prefix_append _ _

theorem groupKey_injective {a b : String} (h : groupKey a = groupKey b) : a = b := by
  have hlist : "group:".toList ++ a.toList = "group:".toList ++ b.toList := by
    rw [← String.toList_append, ← String.toList_append]
    exact congrArg String.toList h
  exact String.toList_inj.mp (List.append_cancel_left hlist)

/-- What may be kept under a key: the duration of an animation, or that of a group. -/
inductive World.Tells (w : World) : String → Float → Prop
  | clip {name : String} (h : ¬LikeKey name) : w.Tells name (w.clipDuration name)
  | group (name : String) : w.Tells (groupKey name) (w.groupDuration name)

theorem World.Tells.clip_eq {w : World}
    (h : w.Tells name duration) (hname : ¬LikeKey name) : duration = w.clipDuration name := by
  cases h with
  | clip => rfl
  | group name => exact absurd (likeKey_groupKey name) hname

theorem World.Tells.group_eq {w : World}
    (h : w.Tells (groupKey group) duration) : duration = w.groupDuration group := by
  generalize hkey : groupKey group = key at h
  cases h with
  | clip hname => exact absurd (hkey ▸ likeKey_groupKey group) hname
  | group name => rw [groupKey_injective hkey]

/-! ## Libraries that agree with the world -/

/-- A library holds each table or nothing, and durations as the world tells them. -/
structure Controller.Faithful (c : Controller) (w : World) : Prop where
  clips : c.clips = [] ∨ c.clips = Dict.ofList w.animations
  groups : c.groups = [] ∨ c.groups = Dict.ofList w.groups
  durations : ∀ key duration, Dict.get? c.durations key = some duration → w.Tells key duration

theorem Controller.Faithful.same {c d : Controller} {w : World} (hc : c.Faithful w)
    (h : d.SameLibrary c) : d.Faithful w :=
  ⟨h.clips ▸ hc.clips, h.groups ▸ hc.groups, h.durations ▸ hc.durations⟩

/-- A system in a world whose assets can be read, with a library that agrees with it. -/
structure Agrees (w : World) (s : System) : Prop where
  world : s.world = w
  provides : s.Provides fun fault => fault.kind ≠ .interrupt
  library : s.controller.Faithful w

variable {w : World} {s t : System}

theorem Agrees.aside (h : Aside s t) (hs : Agrees w s) : Agrees w t :=
  ⟨h.1.world.trans hs.world, hs.provides.of_grows h.1, hs.library.same h.2⟩

/-- Something learnt leaves a good library good if the library that comes of it is. -/
theorem Agrees.learns {events : List Event} {change : Controller → Controller}
    (hs : Agrees w s) (h : Learns events change s t)
    (hlibrary : (change s.controller).Faithful w) : Agrees w t :=
  ⟨h.world.trans hs.world, hs.provides.of_grows (h.grows (P := fun _ => True) fun _ _ => trivial),
    h.controller ▸ hlibrary⟩

theorem Agrees.appends {events : List Event} (hs : Agrees w s) (h : Appends events s t) :
    Agrees w t :=
  ⟨h.world.trans hs.world, hs.provides.of_grows (h.grows (P := fun _ => True) fun _ _ => trivial),
    h.controller ▸ hs.library⟩

theorem agrees_loadAnimations (hs : Agrees w s) :
    ∃ done t, loadAnimations.run s = .ok done t ∧ Agrees w t := by
  obtain ⟨done, t, hrun, hloads⟩ := run_loadAnimations hs.provides fun _ h => h
  refine ⟨done, t, hrun, ?_⟩
  cases hloads with
  | refused h => exact hs.appends h
  | loaded h => exact hs.learns h ⟨hs.library.clips, hs.library.groups, hs.library.durations⟩
  | failed _ h => exact hs.appends h

theorem agrees_ensureLoaded (hs : Agrees w s) :
    ∃ t, ensureLoaded.run s = .ok () t ∧ Agrees w t := by
  have hcontroller : controller.run s = .ok s.controller s := rfl
  unfold ensureLoaded
  simp only [EStateM.run_bind, hcontroller]
  split
  · obtain ⟨done, t, hrun, ht⟩ := agrees_loadAnimations hs
    refine ⟨t, ?_, ht⟩
    rw [EStateM.run_bind, hrun]
    rfl
  · exact ⟨s, rfl, hs⟩

theorem agrees_readClipTable (hs : Agrees w s) :
    ∃ t, readClipTable.run s = .ok () t ∧ Agrees w t ∧
      t.controller.clips = Dict.ofList w.animations := by
  obtain ⟨t, hrun, h⟩ := run_readClipTable hs.provides
  rw [hs.world] at h
  refine ⟨t, hrun, hs.learns h ⟨.inr rfl, hs.library.groups, hs.library.durations⟩, ?_⟩
  rw [h.controller]

theorem agrees_readGroupTable (hs : Agrees w s) :
    ∃ t, readGroupTable.run s = .ok () t ∧ Agrees w t ∧
      t.controller.groups = Dict.ofList w.groups := by
  obtain ⟨t, hrun, h⟩ := run_readGroupTable hs.provides
  rw [hs.world] at h
  refine ⟨t, hrun, hs.learns h ⟨hs.library.clips, .inr rfl, hs.library.durations⟩, ?_⟩
  rw [h.controller]

theorem agrees_askAssets (r : AssetRequest) (hs : Agrees w s) :
    ∃ t, (askAssets r).run s = .ok () t ∧ Agrees w t := by
  obtain ⟨t, hrun, h⟩ := run_askAssets r (hs.provides.assets r)
  exact ⟨t, hrun, hs.appends h⟩

theorem agrees_keepDuration {key : String} (hs : Agrees w s)
    (h : w.Tells key duration) :
    ∃ t, (keepDuration key duration).run s = .ok duration t ∧ Agrees w t := by
  refine ⟨_, rfl, hs.world, hs.provides.of_grows (P := fun _ => True) (.of_same rfl rfl rfl),
    hs.library.clips, hs.library.groups, ?_⟩
  intro k d hget
  change Dict.get? (Dict.put _ key duration) k = some d at hget
  rw [Dict.get?_put] at hget
  split at hget
  · rename_i hkey
    cases hget
    rw [hkey]
    exact h
  · exact hs.library.durations k d hget

/-! ## Working durations out -/

/-- Reads the table of animations unless it is there. -/
def ensureClips : Act Unit := do
  if (← controller).clips.isEmpty then readClipTable

/-- Works out the duration of an animation from the table that is there. -/
def measureClip (name : String) : Act Float := do
  match Dict.get? (← controller).clips name with
  | none => return unknownDuration
  | some file =>
    let w ← world
    match Dict.get? w.animationFiles file with
    | none => return unknownDuration
    | some clips =>
      askAssets (.clipFile (w.animationDirectory.text ++ "/" ++ file))
      let found := clips.find? fun clip => clip.name == name && !clip.keyframes.isEmpty
      match found.bind fun clip => largest? clip.keyframes with
      | none => return unknownDuration
      | some time => keepDuration name (← calculate (time.divide (.real 1000.0)))

theorem measureAnimation_eq (name : String) :
    measureAnimation name = ensureClips >>= fun _ => measureClip name := by
  unfold measureAnimation ensureClips
  rw [bind_assoc]
  congr 1
  funext c
  split <;> rfl

theorem agrees_ensureClips (hs : Agrees w s) :
    ∃ t, ensureClips.run s = .ok () t ∧ Agrees w t ∧
      t.controller.clips = Dict.ofList w.animations := by
  have hcontroller : controller.run s = .ok s.controller s := rfl
  unfold ensureClips
  simp only [EStateM.run_bind, hcontroller]
  split
  · exact agrees_readClipTable hs
  · rename_i hempty
    refine ⟨s, rfl, hs, ?_⟩
    rcases hs.library.clips with hclips | hclips
    · simp [hclips] at hempty
    · exact hclips

/-- The duration is the one that is told, or it is too large to be worked out, when the one that is
told is the one for that case. -/
theorem run_measureClip (hs : Agrees w s)
    (hclips : s.controller.clips = Dict.ofList w.animations) (hname : ¬LikeKey name) :
    ∃ t, Agrees w t ∧
      ((measureClip name).run s = .ok (w.clipDuration name) t ∨
        ∃ cause, (measureClip name).run s = .error (.calculation cause) t ∧
          w.clipDuration name = unknownDuration) := by
  have hcontroller : controller.run s = .ok s.controller s := rfl
  have hworld : world.run s = .ok w s := by rw [← hs.world]; rfl
  have htells : w.Tells name (w.clipDuration name) := .clip hname
  unfold measureClip
  simp only [EStateM.run_bind, hcontroller, hclips]
  unfold World.clipDuration at htells ⊢
  cases hfile : Dict.get? (Dict.ofList w.animations) name with
  | none => exact ⟨s, hs, .inl rfl⟩
  | some file =>
    simp only [EStateM.run_bind, hworld]
    cases hcontent : Dict.get? w.animationFiles file with
    | none => exact ⟨s, hs, .inl rfl⟩
    | some clips =>
      obtain ⟨t, hask, ht⟩ :=
        agrees_askAssets (.clipFile (w.animationDirectory.text ++ "/" ++ file)) hs
      simp only [EStateM.run_bind, hask]
      simp only [hfile, hcontent] at htells
      split at htells
      · exact ⟨t, ht, .inl rfl⟩
      · rename_i time _
        cases hdivide : time.divide (.real 1000.0) with
        | ok duration =>
          rw [hdivide] at htells
          obtain ⟨u, hkeep, hu⟩ := agrees_keepDuration ht htells
          exact ⟨u, hu, .inl hkeep⟩
        | error cause => exact ⟨t, ht, .inr ⟨cause, rfl, rfl⟩⟩

theorem run_animationDuration (hs : Agrees w s) (hname : ¬LikeKey name) :
    ∃ t, (animationDuration name).run s = .ok (w.clipDuration name) t ∧ Agrees w t := by
  have hcontroller : controller.run s = .ok s.controller s := rfl
  unfold animationDuration
  simp only [EStateM.run_bind, hcontroller]
  cases hkept : Dict.get? s.controller.durations name with
  | some duration =>
    have hduration := (hs.library.durations name duration hkept).clip_eq hname
    exact ⟨s, by rw [hduration]; rfl, hs⟩
  | none =>
    obtain ⟨t, hensure, ht, hclips⟩ := agrees_ensureClips hs
    have hrun : (measureAnimation name).run s = (measureClip name).run t := by
      rw [measureAnimation_eq, EStateM.run_bind, hensure]
    obtain ⟨u, hu, hmeasure | ⟨cause, hmeasure, hunknown⟩⟩ := run_measureClip ht hclips hname
    · exact ⟨u, run_handling_of_ok (hrun.trans hmeasure), hu⟩
    · refine ⟨u, ?_, hu⟩
      rw [hunknown]
      exact run_handling_of_failure (hrun.trans hmeasure) rfl

theorem run_memberDurations {names : List String} (hs : Agrees w s)
    (hnames : ∀ name ∈ names, ¬LikeKey name) :
    ∃ t, (memberDurations names).run s = .ok (w.clipDurations names) t ∧ Agrees w t := by
  induction names generalizing s with
  | nil => exact ⟨s, rfl, hs⟩
  | cons name rest ih =>
    obtain ⟨t, hfirst, ht⟩ := run_animationDuration hs (hnames name List.mem_cons_self)
    obtain ⟨u, hrest, hu⟩ := ih ht fun n hn => hnames n (List.mem_cons_of_mem name hn)
    refine ⟨u, ?_, hu⟩
    unfold memberDurations
    simp only [EStateM.run_bind, hfirst, hrest]
    unfold World.clipDurations
    rw [List.map_cons, List.filter_cons]
    by_cases hpositive : w.clipDuration name > 0.0
    · simp [hpositive]
    · simp [hpositive]

/-- Reads the table of groups unless it is there. -/
def ensureGroups : Act Unit := do
  if (← controller).groups.isEmpty then
    ensureLoaded
    readGroupTable

/-- Works out the duration of a group from the table that is there. -/
def measureMembers (name : String) : Act Float := do
  match Dict.get? (← controller).groups name with
  | none => return unknownDuration
  | some members =>
    let durations ← memberDurations members
    if durations.isEmpty then return unknownDuration
    let total := durations.foldl (· + ·) 0.0
    keepDuration (groupKey name) (total / Float.ofNat durations.length)

theorem measureGroup_eq (name : String) :
    measureGroup name = ensureGroups >>= fun _ => measureMembers name := by
  unfold measureGroup ensureGroups
  rw [bind_assoc]
  congr 1
  funext c
  split
  · rw [bind_assoc]
    rfl
  · rfl

theorem agrees_ensureGroups (hs : Agrees w s) :
    ∃ t, ensureGroups.run s = .ok () t ∧ Agrees w t ∧
      t.controller.groups = Dict.ofList w.groups := by
  have hcontroller : controller.run s = .ok s.controller s := rfl
  unfold ensureGroups
  simp only [EStateM.run_bind, hcontroller]
  split
  · obtain ⟨t, hload, ht⟩ := agrees_ensureLoaded hs
    obtain ⟨u, hread, hu⟩ := agrees_readGroupTable ht
    refine ⟨u, ?_, hu⟩
    rw [EStateM.run_bind, hload]
    exact hread
  · rename_i hempty
    refine ⟨s, rfl, hs, ?_⟩
    rcases hs.library.groups with hgroups | hgroups
    · simp [hgroups] at hempty
    · exact hgroups

theorem run_measureMembers (hs : Agrees w s)
    (hgroups : s.controller.groups = Dict.ofList w.groups)
    (hmembers : ∀ name ∈ w.members group, ¬LikeKey name) :
    ∃ t, (measureMembers group).run s = .ok (w.groupDuration group) t ∧ Agrees w t := by
  have hcontroller : controller.run s = .ok s.controller s := rfl
  have htells : w.Tells (groupKey group) (w.groupDuration group) := .group group
  unfold measureMembers
  simp only [EStateM.run_bind, hcontroller, hgroups]
  unfold World.groupDuration at htells ⊢
  cases htable : Dict.get? (Dict.ofList w.groups) group with
  | none =>
    refine ⟨s, ?_, hs⟩
    simp [World.members, htable, World.clipDurations]
  | some members =>
    have hgroup : w.members group = members := by simp [World.members, htable]
    rw [hgroup] at hmembers htells ⊢
    obtain ⟨t, hmeasure, ht⟩ := run_memberDurations hs hmembers
    simp only [EStateM.run_bind, hmeasure]
    cases hempty : (w.clipDurations members).isEmpty with
    | true => exact ⟨t, rfl, ht⟩
    | false =>
      dsimp only at htells
      rw [hempty] at htells
      exact agrees_keepDuration ht htells

theorem run_groupDuration (hs : Agrees w s)
    (hmembers : ∀ name ∈ w.members group, ¬LikeKey name) :
    ∃ t, (groupDuration group).run s = .ok (w.groupDuration group) t ∧ Agrees w t := by
  have hcontroller : controller.run s = .ok s.controller s := rfl
  unfold groupDuration
  simp only [EStateM.run_bind, hcontroller]
  cases hkept : Dict.get? s.controller.durations (groupKey group) with
  | some duration =>
    have hduration := (hs.library.durations _ duration hkept).group_eq
    exact ⟨s, by rw [hduration]; rfl, hs⟩
  | none =>
    obtain ⟨t, hensure, ht, hgroups⟩ := agrees_ensureGroups hs
    obtain ⟨u, hmeasure, hu⟩ := run_measureMembers ht hgroups hmembers
    refine ⟨u, run_handling_of_ok ?_, hu⟩
    rw [measureGroup_eq, EStateM.run_bind, hensure]
    exact hmeasure

/-! ## Calls that use the library -/

/-- An action of the controller that loads, reads or measures animations. -/
inductive LibraryCall where
  | animationDuration (name : String)
  | groupDuration (group : String)
  | loadAnimations
  | listAnimations (search : Option String) (durations : Bool)
  | listGroups (search : Option String) (durations : Bool)
  | playAnimation (name : String) (async : Bool) (wait : Option Number)
  | playGroup (group : String) (async : Bool) (wait : Option Number)

namespace LibraryCall

/-- Does what is asked of the library. -/
def perform : LibraryCall → Act Unit
  | .animationDuration name => do let _ ← Robot.animationDuration name
  | .groupDuration group => do let _ ← Robot.groupDuration group
  | .loadAnimations => do let _ ← Robot.loadAnimations
  | .listAnimations search durations => do let _ ← Robot.listAnimations search durations
  | .listGroups search durations => do let _ ← Robot.listGroups search durations
  | .playAnimation name async wait => do let _ ← Robot.playAnimation name async wait
  | .playGroup group async wait => do let _ ← Robot.playGroup group async wait

/-- The animations whose durations are asked for: the one that is meant, those that are listed, or
the members of the group that is meant or of those that are listed. -/
def measured (w : World) : LibraryCall → List String
  | .animationDuration name => [name]
  | .groupDuration group => w.members group
  | .loadAnimations => []
  | .listAnimations search durations =>
    if durations then namesWith search ((Dict.ofList w.animations).map (·.1)) else []
  | .listGroups search durations =>
    if durations then (namesWith search ((Dict.ofList w.groups).map (·.1))).flatMap w.members
    else []
  | .playAnimation name _ wait => if wait.isNone then [name] else []
  | .playGroup group _ wait => if wait.isNone then w.members group else []

end LibraryCall

theorem agrees_aside {s t : System} (h : Aside s t) : Agrees w s → Agrees w t :=
  Agrees.aside h

instance : AdmitsTasks (preserving (Agrees w)) :=
  admitsTasks_preserving agrees_aside (preserving_of_runs fun _ => agrees_loadAnimations)

theorem keeps_duration_of_clip (hname : ¬LikeKey name) :
    (preserving (Agrees w)).Holds (animationDuration name) :=
  preserving_of_runs fun _ hs => ⟨_, run_animationDuration hs hname⟩

theorem keeps_duration_of_group
    (hmembers : ∀ name ∈ w.members group, ¬LikeKey name) :
    (preserving (Agrees w)).Holds (groupDuration group) :=
  preserving_of_runs fun _ hs => ⟨_, run_groupDuration hs hmembers⟩

/-- What is done with the controller need only be right for one whose library agrees. -/
theorem preserving_controller_bind {α : Type} {f : Controller → Act α}
    (hf : ∀ c : Controller, c.Faithful w → (preserving (Agrees w)).Holds (f c)) :
    (preserving (Agrees w)).Holds (controller >>= f) := by
  intro s
  have hrun : (controller >>= f).run s = (f s.controller).run s := rfl
  refine .of_outcomes (fun a t h hs => ?_) fun e t h hs => ?_
  · exact (hf _ hs.library s).yields (hrun ▸ h) hs
  · exact (hf _ hs.library s).fails (hrun ▸ h) hs

theorem namesWith_nil (search : Option String) : namesWith search [] = [] := by
  unfold namesWith
  split <;> simp

theorem mem_namesWith_of_table {α : Type}
    {known table : Dict α} (hknown : known = [] ∨ known = table)
    (h : name ∈ namesWith search (known.map (·.1))) :
    name ∈ namesWith search (table.map (·.1)) := by
  rcases hknown with rfl | rfl
  · rw [List.map_nil, namesWith_nil] at h
    cases h
  · exact h

theorem preserving_listAnimations {durations : Bool}
    (hnames : ∀ name ∈ (LibraryCall.listAnimations search durations).measured w, ¬LikeKey name) :
    (preserving (Agrees w)).Holds (listAnimations search durations) := by
  have hread : (preserving (Agrees w)).Holds readClipTable :=
    preserving_of_runs fun _ hs =>
      have ⟨t, hrun, ht, _⟩ := agrees_readClipTable hs
      ⟨(), t, hrun, ht⟩
  unfold listAnimations
  refine keeps_succeeding (holds_controller.bind fun c => ?_)
  refine holds_when (fun rest => hread.bind fun _ => rest) ?_
  refine preserving_controller_bind fun c hc => (keeps_print _).bind fun _ => ?_
  dsimp only
  cases durations with
  | true =>
    refine (keeps_print _).bind fun _ => (keeps_print _).bind fun _ => ?_
    refine (holds_forM _ fun name hname => ?_).giving
    have hplain : ¬LikeKey name := hnames name (mem_namesWith_of_table hc.clips hname)
    exact (keeps_duration_of_clip hplain).bind fun _ => keeps_print _
  | false => exact (keeps_printLines _ _).giving

theorem preserving_listGroups {durations : Bool}
    (hnames : ∀ name ∈ (LibraryCall.listGroups search durations).measured w, ¬LikeKey name) :
    (preserving (Agrees w)).Holds (listGroups search durations) := by
  have hask : (preserving (Agrees w)).Holds (askAssets .check) :=
    preserving_of_runs fun _ hs => ⟨(), agrees_askAssets .check hs⟩
  have hread : (preserving (Agrees w)).Holds readGroupTable :=
    preserving_of_runs fun _ hs =>
      have ⟨t, hrun, ht, _⟩ := agrees_readGroupTable hs
      ⟨(), t, hrun, ht⟩
  unfold listGroups
  refine keeps_succeeding (holds_controller.bind fun c => ?_)
  refine holds_when (fun rest => hask.bind fun _ => hread.bind fun _ => rest) ?_
  refine preserving_controller_bind fun c hc => (keeps_print _).bind fun _ => ?_
  dsimp only
  cases durations with
  | true =>
    refine (keeps_print _).bind fun _ => (keeps_print _).bind fun _ => ?_
    refine (holds_forM _ fun group hgroup => ?_).giving
    have hplain : ∀ name ∈ w.members group, ¬LikeKey name := fun name hname =>
      hnames name (List.mem_flatMap.mpr ⟨group, mem_namesWith_of_table hc.groups hgroup, hname⟩)
    exact (keeps_duration_of_group hplain).bind fun _ => holds_controller.bind fun _ =>
      keeps_print _
  | false => exact (keeps_printLines _ _).giving

/-- Whatever a call does to the library agrees with the world, whether it succeeds or fails. -/
theorem preserving_perform {call : LibraryCall}
    (hnames : ∀ name ∈ call.measured w, ¬LikeKey name) :
    (preserving (Agrees w)).Holds call.perform := by
  cases call with
  | animationDuration name =>
    exact (keeps_duration_of_clip (hnames name List.mem_cons_self)).giving
  | groupDuration group => exact (keeps_duration_of_group hnames).giving
  | loadAnimations => exact Admits.loadAnimations.giving
  | listAnimations search durations =>
    exact (preserving_listAnimations hnames).giving
  | listGroups search durations =>
    exact (preserving_listGroups hnames).giving
  | playAnimation name async wait =>
    refine (keeps_playAnimation (fun hwait => ?_) async).giving
    subst hwait
    exact keeps_duration_of_clip (hnames name List.mem_cons_self)
  | playGroup group async wait =>
    refine (keeps_playGroup (fun hwait => ?_) async).giving
    subst hwait
    exact keeps_duration_of_group hnames

/-- The system after calls in order, whatever came of each. -/
def afterCalls : List LibraryCall → System → System
  | [], s => s
  | call :: rest, s => afterCalls rest (after call.perform s)

theorem agrees_afterCalls {calls : List LibraryCall} {s : System} (hs : Agrees w s)
    (hcalls : ∀ call ∈ calls, ∀ name ∈ call.measured w, ¬LikeKey name) :
    Agrees w (afterCalls calls s) := by
  induction calls generalizing s with
  | nil => exact hs
  | cons call rest ih =>
    refine ih ?_ fun c hc => hcalls c (List.mem_cons_of_mem call hc)
    exact yields_after (preserving_perform (hcalls call List.mem_cons_self)) s hs

/-! ## Asking for a duration -/

/-- A question for a duration. -/
inductive DurationQuery where
  | animation (name : String)
  | group (name : String)

namespace DurationQuery

/-- Asks for a duration. -/
def ask : DurationQuery → Act Float
  | .animation name => animationDuration name
  | .group name => groupDuration name

/-- The animations whose durations the answer depends on. -/
def measured (w : World) : DurationQuery → List String
  | .animation name => [name]
  | .group name => w.members name

/-- The answer, as the world tells it. -/
def answer (w : World) : DurationQuery → Float
  | .animation name => w.clipDuration name
  | .group name => w.groupDuration name

theorem run_ask {s : System} {query : DurationQuery} (hs : Agrees w s)
    (hnames : ∀ name ∈ query.measured w, ¬LikeKey name) :
    ∃ t, query.ask.run s = .ok (query.answer w) t := by
  cases query with
  | animation name =>
    obtain ⟨t, hrun, _⟩ := run_animationDuration hs (hnames name List.mem_cons_self)
    exact ⟨t, hrun⟩
  | group name =>
    obtain ⟨t, hrun, _⟩ := run_groupDuration hs hnames
    exact ⟨t, hrun⟩

end DurationQuery

/-- A library in which nothing is known yet. -/
structure Controller.Blank (c : Controller) : Prop where
  clips : c.clips = []
  groups : c.groups = []
  durations : c.durations = []

theorem Controller.Blank.faithful {c : Controller} (h : c.Blank) (w : World) : c.Faithful w := by
  refine ⟨.inl h.clips, .inl h.groups, fun key duration hget => ?_⟩
  rw [h.durations] at hget
  cases hget

/-- Where the assets can be read and loading the animations is not interrupted, a duration is the
same after any calls, whatever came of each, as on a new controller in the same world, unless one of
the animations that were asked for, listed or members of a group is named like the key of a
group. -/
theorem duration_unaffected_by_history (calls : List LibraryCall) (query : DurationQuery)
    {s fresh : System} (hs : s.Provides fun fault => fault.kind ≠ .interrupt)
    (hfresh : fresh.Provides fun fault => fault.kind ≠ .interrupt)
    (hworld : fresh.world = s.world) (hblank : s.controller.Blank)
    (hnew : fresh.controller.Blank)
    (hcalls : ∀ call ∈ calls, ∀ name ∈ call.measured s.world, ¬LikeKey name)
    (hquery : ∀ name ∈ query.measured s.world, ¬LikeKey name) :
    ∃ duration t u, query.ask.run (afterCalls calls s) = .ok duration t ∧
      query.ask.run fresh = .ok duration u := by
  have hused : Agrees s.world (afterCalls calls s) :=
    agrees_afterCalls ⟨rfl, hs, hblank.faithful s.world⟩ hcalls
  have hunused : Agrees s.world fresh := ⟨hworld, hfresh, hnew.faithful s.world⟩
  obtain ⟨t, hrun⟩ := DurationQuery.run_ask hused hquery
  obtain ⟨u, hrun'⟩ := DurationQuery.run_ask hunused hquery
  exact ⟨_, t, u, hrun, hrun'⟩

/-- A linked robot with one animation, which is the only member of a group. -/
def soloSystem : System where
  world :=
    { animations := [("anim_a", "a.bin")]
      animationFiles := [("a.bin", [{ name := "anim_a", keyframes := [.int 1500] }])]
      groups := [("solo", ["anim_a"])]
      clock := 0
      directory := { root := "/", names := [] } }
  files := []
  controller := { client := some 0, connected := true }
  clients := #[{}]

theorem soloSystem_provides : soloSystem.Provides fun fault => fault.kind ≠ .interrupt := by
  refine System.provides_of_no_faults rfl ?_ fun _ => rfl
  intro id client hclient
  cases id with
  | zero =>
    cases hclient
    rfl
  | succ id => cases hclient

/-- The group takes as long after its animation was played as before. -/
theorem solo_duration_unaffected_by_playing :
    ∃ duration t u,
      (groupDuration "solo").run (afterCalls [.playGroup "solo" false none,
        .animationDuration "anim_a", .listGroups none true] soloSystem) = .ok duration t ∧
      (groupDuration "solo").run soloSystem = .ok duration u :=
  duration_unaffected_by_history [.playGroup "solo" false none, .animationDuration "anim_a",
    .listGroups none true] (.group "solo") soloSystem_provides soloSystem_provides rfl
    ⟨rfl, rfl, rfl⟩ ⟨rfl, rfl, rfl⟩ (by decide +kernel) (by decide +kernel)

end RobotConsole.Robot
