import RobotConsole.Proofs.Command.Grammar
import RobotConsole.Proofs.Console.Leaks
import RobotConsole.Proofs.Robot.Library

/-!
# Listings and what came before them

The animations and the groups are listed from the tables of the controller. A listing reads its
table first, unless the client has loaded the animations; but having them loaded does not read any
table. The trace tells what the controller knows (`Recorded`), and so what a listing shows after any
operations: the names that match, in order and counted, except that nothing is shown when the
animations were loaded and the table was never read (`listing_complete_iff`).
-/

namespace RobotConsole

namespace Text

theorem isSome_cutAt?_iff (mark cs : List Char) :
    (cutAt? mark cs).isSome = true ↔ mark <:+: cs := by
  induction cs with
  | nil =>
    unfold cutAt?
    cases mark <;> simp
  | cons c rest ih =>
    rw [List.infix_cons_iff]
    unfold cutAt?
    split
    · rename_i h
      simp [List.isPrefixOf_iff_prefix.mp h]
    · rename_i h
      rw [List.isPrefixOf_iff_prefix] at h
      rw [Option.isSome_map, ih]
      simp [h]

theorem occursIn_iff (part whole : String) :
    occursIn part whole = true ↔ part.toList <:+: whole.toList :=
  isSome_cutAt?_iff part.toList whole.toList

end Text

namespace Dict

variable {β : Type}

theorem keys_foldl_put (entries : List (String × β)) {d : Dict β} (hd : (keys d).Nodup) :
    (keys (entries.foldl (fun d entry => put d entry.1 entry.2) d)).Nodup ∧
      ∀ k, k ∈ keys (entries.foldl (fun d entry => put d entry.1 entry.2) d) ↔
        k ∈ entries.map Prod.fst ∨ k ∈ keys d := by
  induction entries generalizing d with
  | nil => exact ⟨hd, fun k => by simp⟩
  | cons entry rest ih =>
    obtain ⟨hnodup, hmem⟩ := ih (nodup_keys_put hd entry.1 entry.2)
    refine ⟨hnodup, fun k => ?_⟩
    rw [List.foldl_cons, hmem k, mem_keys_put, List.map_cons, List.mem_cons]
    constructor
    · rintro (h | h | h)
      · exact .inl (.inr h)
      · exact .inl (.inl h)
      · exact .inr h
    · rintro ((h | h) | h)
      · exact .inr (.inl h)
      · exact .inl h
      · exact .inr (.inr h)

theorem nodup_keys_ofList (entries : List (String × β)) : (keys (ofList entries)).Nodup :=
  (keys_foldl_put entries (d := []) List.nodup_nil).1

theorem mem_keys_ofList (entries : List (String × β)) (k : String) :
    k ∈ keys (ofList entries) ↔ k ∈ entries.map Prod.fst := by
  have h := (keys_foldl_put entries (d := []) List.nodup_nil).2 k
  simpa [keys, ofList] using h

end Dict

end RobotConsole

namespace RobotConsole.Robot

open Contract

/-! ## Names that match -/

/-- The names of a table that hold a text, in any letter case, in increasing order. -/
structure Lists (table : List String) (text : String) (names : List String) : Prop where
  increasing : names.Pairwise (· < ·)
  mem_iff : ∀ name, name ∈ names ↔
    name ∈ table ∧ (Text.lower text).toList <:+: (Text.lower name).toList

theorem increasing_mergeSort {names : List String} (h : names.Nodup) :
    (names.mergeSort fun a b => decide (a ≤ b)).Pairwise (· < ·) := by
  have hsorted : (names.mergeSort fun a b => decide (a ≤ b)).Pairwise
      fun a b => decide (a ≤ b) = true := by
    apply List.pairwise_mergeSort
    · intro a b c hab hbc
      simp only [decide_eq_true_eq] at hab hbc ⊢
      exact String.le_trans hab hbc
    · intro a b
      simp only [Bool.or_eq_true, decide_eq_true_eq]
      exact String.le_total a b
  have hdistinct : (names.mergeSort fun a b => decide (a ≤ b)).Nodup :=
    (List.mergeSort_perm names _).nodup_iff.mpr h
  refine hsorted.imp₂ ?_ hdistinct
  intro a b hle hne
  rw [decide_eq_true_eq] at hle
  refine Decidable.byContradiction fun hlt => hne (String.le_antisymm hle ?_)
  exact Decidable.byContradiction fun hle' => hlt (String.not_le.mp hle')

theorem lists_namesWith (search : Option String) {names table : List String} (hnodup : names.Nodup)
    (hmem : ∀ name, name ∈ names ↔ name ∈ table) :
    Lists table (search.getD "") (namesWith search names) := by
  have hincreasing := increasing_mergeSort hnodup
  have hall : Lists table "" (names.mergeSort fun a b => decide (a ≤ b)) := by
    refine ⟨hincreasing, fun name => ?_⟩
    rw [List.mem_mergeSort, hmem]
    exact ⟨fun h => ⟨h, List.nil_infix⟩, fun h => h.1⟩
  unfold namesWith
  split
  · exact hall
  · exact hall
  · rename_i text
    refine ⟨hincreasing.filter _, fun name => ?_⟩
    rw [List.mem_filter, List.mem_mergeSort, hmem, Text.occursIn_iff]
    rfl

theorem Lists.nil_iff {table names : List String} {text : String} (h : Lists table text names) :
    Lists table text [] ↔ names = [] := by
  constructor
  · intro hnil
    refine List.eq_nil_iff_forall_not_mem.mpr fun name hname => ?_
    exact absurd ((hnil.mem_iff name).mpr ((h.mem_iff name).mp hname)) List.not_mem_nil
  · intro hnil
    rw [← hnil]
    exact h

theorem lists_nil (text : String) : Lists [] text [] :=
  ⟨.nil, fun name => by simp⟩

/-- A listing of which it depends whether it is made from the table or from nothing. -/
theorem Lists.complete_iff {table names : List String} {text : String} {loaded read : Bool}
    (h : Lists (if loaded && !read then [] else table) text names) :
    Lists table text names ↔ (loaded = true → read = true ∨ Lists table text []) := by
  cases loaded with
  | false => simpa using h
  | true =>
    cases read with
    | true => exact ⟨fun _ _ => .inl rfl, fun _ => h⟩
    | false =>
      -- what was found is nothing, which is right if there is nothing to find
      obtain rfl : names = [] := h.nil_iff.mp (lists_nil text)
      simp

/-! ## The two catalogues -/

/-- What can be listed. -/
inductive Catalogue where
  | animations
  | groups
  deriving DecidableEq

namespace Catalogue

/-- The names in the table of the world. -/
def table (w : World) : Catalogue → List String
  | .animations => w.animations.map Prod.fst
  | .groups => w.groups.map Prod.fst

/-- The names as the controller has them once the table is read. -/
def entries (w : World) : Catalogue → List String
  | .animations => (Dict.ofList w.animations).map (·.1)
  | .groups => (Dict.ofList w.groups).map (·.1)

/-- The names that the controller knows. -/
def names (c : Controller) : Catalogue → List String
  | .animations => c.clips.map (·.1)
  | .groups => c.groups.map (·.1)

/-- Whether an event reads the table. -/
def isRead : Catalogue → Event → Bool
  | .animations, .asset (.clipTable _) => true
  | .groups, .asset (.groupTable _) => true
  | _, _ => false

/-- The line above a listing. -/
def heading : Catalogue → Nat → String
  | .animations, count => s!"Available animations ({count} total):"
  | .groups, count => s!"Available animation groups ({count} total):"

/-- Lists the names. -/
def list (search : Option String) (durations : Bool) : Catalogue → Act Bool
  | .animations => listAnimations search durations
  | .groups => listGroups search durations

theorem nodup_entries (w : World) (k : Catalogue) : (k.entries w).Nodup := by
  cases k with
  | animations => exact Dict.nodup_keys_ofList _
  | groups => exact Dict.nodup_keys_ofList _

theorem mem_entries (w : World) (k : Catalogue) (name : String) :
    name ∈ k.entries w ↔ name ∈ k.table w := by
  cases k with
  | animations => exact Dict.mem_keys_ofList _ _
  | groups => exact Dict.mem_keys_ofList _ _

theorem not_isRead {e : Event} (h : e.isTable = false) (k : Catalogue) : k.isRead e = false := by
  unfold isRead
  split
  · cases h
  · cases h
  · rfl

end Catalogue

/-! ## What the trace tells -/

/-- The controller knows what the trace tells: that the client has loaded the animations, and the
names of each table that was read. -/
structure Recorded (s : System) : Prop where
  loaded : s.controller.animationsLoaded = s.trace.toList.any Event.isLoading
  names : ∀ k : Catalogue, k.names s.controller =
    if s.trace.toList.any k.isRead then k.entries s.world else []

theorem Recorded.learns {s t : System} {events : List Event} {change : Controller → Controller}
    (hs : Recorded s) (h : Learns events change s t)
    (hloaded : (change s.controller).animationsLoaded =
      (s.controller.animationsLoaded || events.any Event.isLoading))
    (hnames : ∀ k : Catalogue, k.names (change s.controller) =
      if events.any k.isRead then k.entries s.world else k.names s.controller) : Recorded t := by
  constructor
  · rw [h.controller, hloaded, hs.loaded, h.trace, List.any_append]
  · intro k
    rw [h.controller, hnames k, hs.names k, h.world, h.trace, List.any_append]
    cases events.any k.isRead <;> simp

theorem Recorded.appends {s t : System} {events : List Event} (hs : Recorded s)
    (h : Appends events s t) (hloaded : events.any Event.isLoading = false)
    (hread : ∀ k : Catalogue, events.any k.isRead = false) : Recorded t := by
  have hlearns : Learns events id s t := ⟨h.controller, h.world, h.clients, h.trace⟩
  refine hs.learns hlearns ?_ ?_
  · simp [hloaded]
  · simp [hread]

/-- A system whose assets can be read without fail and that is recorded. -/
def System.Tracked (s : System) : Prop :=
  s.Provides (fun _ => False) ∧ Recorded s

theorem tracked_aside {s t : System} (h : Aside s t) (hs : s.Tracked) : t.Tracked := by
  obtain ⟨hgrows, hlibrary⟩ := h
  obtain ⟨events, htrace, hevents⟩ := hgrows.trace
  refine ⟨hs.1.of_grows hgrows, ?_, ?_⟩
  · have hnone : events.any Event.isLoading = false := by
      rw [List.any_eq_false]
      exact fun e he => by simp [(hevents e he).1]
    rw [hlibrary.animationsLoaded, hs.2.loaded, htrace, List.any_append, hnone, Bool.or_false]
  · intro k
    have hnone : events.any k.isRead = false := by
      rw [List.any_eq_false]
      exact fun e he => by simp [Catalogue.not_isRead (hevents e he).2 k]
    have hsame : k.names t.controller = k.names s.controller := by
      cases k with
      | animations => exact congrArg (List.map (·.1)) hlibrary.clips
      | groups => exact congrArg (List.map (·.1)) hlibrary.groups
    rw [hsame, hs.2.names k, htrace, List.any_append, hnone, Bool.or_false, hgrows.world]

theorem tracked_loadAnimations {s : System} (hs : s.Tracked) :
    ∃ a t, loadAnimations.run s = .ok a t ∧ t.Tracked := by
  obtain ⟨done, t, hrun, hloads⟩ := run_loadAnimations hs.1 fun _ h => h.elim
  refine ⟨done, t, hrun, ?_⟩
  cases hloads with
  | refused h =>
    exact ⟨hs.1.of_grows (h.grows (P := fun _ => True) fun _ _ => trivial),
      hs.2.appends h rfl fun k => by cases k <;> rfl⟩
  | loaded h =>
    refine ⟨hs.1.of_grows (h.grows (P := fun _ => True) fun _ _ => trivial), hs.2.learns h ?_ ?_⟩
    · simp [Event.isLoading, Request.isLoading]
    · intro k
      cases k <;> rfl
  | failed hplan h => exact (hs.1.loading _ hplan).elim

theorem tracked_readClipTable {s : System} (hs : s.Tracked) :
    ∃ a t, readClipTable.run s = .ok a t ∧ t.Tracked := by
  obtain ⟨t, hrun, h⟩ := run_readClipTable hs.1
  refine ⟨(), t, hrun, hs.1.of_grows (h.grows (P := fun _ => True) fun _ _ => trivial), ?_⟩
  refine hs.2.learns h (by simp [Event.isLoading]) fun k => ?_
  cases k <;> rfl

theorem tracked_readGroupTable {s : System} (hs : s.Tracked) :
    ∃ a t, readGroupTable.run s = .ok a t ∧ t.Tracked := by
  obtain ⟨t, hrun, h⟩ := run_readGroupTable hs.1
  refine ⟨(), t, hrun, hs.1.of_grows (h.grows (P := fun _ => True) fun _ _ => trivial), ?_⟩
  refine hs.2.learns h (by simp [Event.isLoading]) fun k => ?_
  cases k <;> rfl

instance : AdmitsLibrary (preserving System.Tracked) where
  loadAnimations := preserving_of_runs fun _ => tracked_loadAnimations
  askAssets hr :=
    preserving_of_aside tracked_aside (grows_askAssets ⟨rfl, hr⟩) (governs_askAssets _)
  readClipTable := preserving_of_runs fun _ => tracked_readClipTable
  readGroupTable := preserving_of_runs fun _ => tracked_readGroupTable
  keepDuration key duration := by
    refine preserving_of_runs fun s hs => ⟨duration, _, rfl, ?_⟩
    have hnames : ∀ k : Catalogue, k.names
        { s.controller with durations := Dict.put s.controller.durations key duration } =
        k.names s.controller := fun k => by cases k <;> rfl
    exact ⟨hs.1.of_grows (P := fun _ => True) (.of_same rfl rfl rfl), hs.2.loaded, fun k =>
      (hnames k).trans (hs.2.names k)⟩

instance : AdmitsLink (preserving System.Tracked) :=
  admitsLink_preserving tracked_aside inferInstance

/-! ## What a listing shows -/

theorem run_printLines (lines : List String) (text : String → String) (s : System) :
    ∃ t, (lines.forM fun line => print (text line)).run s = .ok () t ∧
      Appends (lines.map fun line => .print (text line)) s t := by
  induction lines generalizing s with
  | nil => exact ⟨s, rfl, rfl, rfl, rfl, by simp⟩
  | cons line rest ih =>
    obtain ⟨t, hprint, ht⟩ := run_emit (.print (text line)) s
    obtain ⟨u, hrest, hu⟩ := ih t
    refine ⟨u, ?_, ht.trans hu⟩
    show (print (text line) >>= fun _ => rest.forM fun line => print (text line)).run s = _
    rw [EStateM.run_bind, print, hprint]
    exact hrest

namespace Catalogue

/-- Reads the table. -/
def read : Catalogue → Act Unit
  | .animations => readClipTable
  | .groups => do
    askAssets .check
    readGroupTable

/-- Shows the names that the controller knows. -/
def showNames (search : Option String) (k : Catalogue) : Act Bool := do
  let names := namesWith search (k.names (← controller))
  print (k.heading names.length)
  names.forM fun name => print s!"  {name}"
  return true

/-- What is said when a listing fails. -/
def label : Catalogue → String
  | .animations => "Error listing animations: "
  | .groups => "Error listing animation groups: "

/-- A listing without durations: the table is read unless the animations are loaded. -/
theorem list_eq (search : Option String) (k : Catalogue) :
    k.list search false = succeeding k.label (do
      if !(← controller).animationsLoaded then k.read
      k.showNames search) := by
  cases k with
  | animations => rfl
  | groups =>
    unfold list listGroups read
    simp only [bind_assoc]
    rfl

/-- The names below the heading that counts them. -/
def lines (k : Catalogue) (names : List String) : List Event :=
  .print (k.heading names.length) :: names.map fun name => .print ("  " ++ name)

theorem run_showNames (search : Option String) (k : Catalogue) (s : System) :
    ∃ t, (k.showNames search).run s = .ok true t ∧
      Appends (k.lines (namesWith search (k.names s.controller))) s t := by
  obtain ⟨t, hprint, ht⟩ :=
    run_emit (.print (k.heading (namesWith search (k.names s.controller)).length)) s
  obtain ⟨u, hlines, hu⟩ :=
    run_printLines (namesWith search (k.names s.controller)) (fun name => s!"  {name}") t
  refine ⟨u, ?_, ht.trans hu⟩
  unfold showNames
  simp only [EStateM.run_bind, show controller.run s = .ok s.controller s from rfl, print, hprint]
  simp only [print] at hlines
  rw [hlines]
  rfl

theorem run_read {s : System} {tolerated : Fault → Prop} (hs : s.Provides tolerated)
    (k : Catalogue) :
    ∃ events t, k.read.run s = .ok () t ∧ t.trace.toList = s.trace.toList ++ events ∧
      events.filter Event.isPrint = [] ∧ k.names t.controller = k.entries s.world := by
  cases k with
  | animations =>
    obtain ⟨t, hrun, ht⟩ := run_readClipTable hs
    exact ⟨_, t, hrun, ht.trace, rfl, by rw [ht.controller]; rfl⟩
  | groups =>
    obtain ⟨t, hcheck, ht⟩ := run_askAssets .check (hs.assets _)
    have htprovides : t.Provides tolerated :=
      hs.of_grows (ht.grows (P := fun _ => True) fun _ _ => trivial)
    obtain ⟨u, hrun, hu⟩ := run_readGroupTable htprovides
    refine ⟨_, u, ?_, (ht.learns hu).trace, rfl, ?_⟩
    · unfold read
      rw [EStateM.run_bind, hcheck]
      exact hrun
    · rw [hu.controller, ht.world]
      rfl

/-- A listing shows the names that the controller knows if the animations are loaded, and otherwise
those of the table. -/
theorem run_list {s : System} {tolerated : Fault → Prop} (hs : s.Provides tolerated)
    (search : Option String) (k : Catalogue) :
    ∃ events t, (k.list search false).run s = .ok true t ∧
      t.trace.toList = s.trace.toList ++ events ∧
      events.filter Event.isPrint = k.lines (namesWith search
        (if s.controller.animationsLoaded then k.names s.controller else k.entries s.world)) := by
  have hprints : ∀ names, (k.lines names).filter Event.isPrint = k.lines names := by
    intro names
    unfold lines
    rw [List.filter_eq_self]
    intro e he
    rcases List.mem_cons.mp he with rfl | he
    · rfl
    · obtain ⟨name, _, rfl⟩ := List.mem_map.mp he
      rfl
  have hcontroller : controller.run s = .ok s.controller s := rfl
  rw [list_eq]
  cases hloaded : s.controller.animationsLoaded with
  | true =>
    obtain ⟨t, hshow, ht⟩ := k.run_showNames search s
    refine ⟨_, t, run_handling_of_ok ?_, ht.trace, hprints _⟩
    simp only [EStateM.run_bind, hcontroller, hloaded]
    exact hshow
  | false =>
    obtain ⟨events, t, hread, htrace, hnone, hnames⟩ := k.run_read hs
    obtain ⟨u, hshow, hu⟩ := k.run_showNames search t
    refine ⟨events ++ k.lines (namesWith search (k.names t.controller)), u,
      run_handling_of_ok ?_, ?_, ?_⟩
    · simp only [EStateM.run_bind, hcontroller, hloaded, Bool.not_false, if_true, hread]
      exact hshow
    · rw [hu.trace, htrace, List.append_assoc]
    · rw [List.filter_append, hnone, hprints, hnames]
      rfl

end Catalogue

end RobotConsole.Robot

namespace RobotConsole.Console

open Contract Robot
open Command (Verb)

/-! ## Commands -/

/-- The command that lists a catalogue. -/
def listingVerb : Catalogue → Verb
  | .animations => .listAnims
  | .groups => .listGroups

/-- The text that a command looks for, which may be empty. -/
def searchText (c : Command) : String :=
  (textSetting? (optionOf c.verb c.options "search")).getD ""

/-- Nothing of the library has been loaded or read. -/
structure Unread (s : System) : Prop where
  loaded : s.controller.animationsLoaded = false
  clips : s.controller.clips = []
  groups : s.controller.groups = []
  trace : ∀ e ∈ s.trace.toList, e.isLoading = false ∧ e.isTable = false

theorem Unread.recorded {s : System} (hs : Unread s) : Recorded s := by
  constructor
  · have hnone : s.trace.toList.any Event.isLoading = false := by
      rw [List.any_eq_false]
      exact fun e he => by simp [(hs.trace e he).1]
    rw [hs.loaded, hnone]
  · intro k
    have hnone : s.trace.toList.any k.isRead = false := by
      rw [List.any_eq_false]
      exact fun e he => by simp [Catalogue.not_isRead (hs.trace e he).2 k]
    rw [hnone]
    cases k with
    | animations => simp [Catalogue.names, hs.clips]
    | groups => simp [Catalogue.names, hs.groups]

theorem tracked_afterOperations {history : List Operation} {s : System} (hs : s.Tracked) :
    (afterOperations history s).Tracked :=
  yields_afterOperations (c := preserving System.Tracked) (preserving_createClient tracked_aside)
    (fun _ => preserving_send tracked_aside _) history s hs

theorem run_execute_listing {c : Command} {k : Catalogue} (hverb : c.verb = listingVerb k)
    (hplain : (optionOf c.verb c.options "duration").isSet = false) (s : System) :
    (execute c).run s =
      (k.list (textSetting? (optionOf c.verb c.options "search")) false).run
        (s.record (commandNote c)) := by
  obtain ⟨verb, args, options⟩ := c
  obtain rfl : verb = listingVerb k := hverb
  unfold execute executeNamed
  rw [Verb.ofName?_name]
  cases k with
  | animations =>
    show (listAnimations _ (optionOf _ options "duration").isSet).run _ = _
    rw [show (optionOf (listingVerb .animations) options "duration").isSet = false from hplain]
    rfl
  | groups =>
    show (listGroups _ (optionOf _ options "duration").isSet).run _ = _
    rw [show (optionOf (listingVerb .groups) options "duration").isSet = false from hplain]
    rfl

/-- What a listing finds among the names that the trace tells it of. -/
theorem lists_found (k : Catalogue) (w : World) (search : Option String) (loaded read : Bool) :
    Lists (if loaded && !read then [] else k.table w) (search.getD "")
      (namesWith search
        (if loaded then if read then k.entries w else [] else k.entries w)) := by
  have hall : Lists (k.table w) (search.getD "") (namesWith search (k.entries w)) :=
    lists_namesWith search (k.nodup_entries w) (k.mem_entries w)
  have hnone : Lists [] (search.getD "") (namesWith search []) :=
    lists_namesWith search .nil fun _ => .rfl
  cases loaded with
  | false => exact hall
  | true =>
    cases read with
    | false => exact hnone
    | true => exact hall

/-- After any operations on a new controller, where the assets can be read and the client does not
fail to load the animations, a listing prints the names that it finds below their number. It finds
the names of the table that hold the text, in any letter case and in order, unless the client has
loaded the animations and the table was never read: then it finds nothing, whatever there is. -/
theorem listing_complete_iff (k : Catalogue) (history : List Operation) {c : Command} {s : System}
    (hs : s.Provides fun _ => False) (hnew : Unread s) (hverb : c.verb = listingVerb k)
    (hplain : (optionOf c.verb c.options "duration").isSet = false) :
    let before := afterOperations history s
    let loaded := before.trace.toList.any Event.isLoading
    let read := before.trace.toList.any k.isRead
    ∃ names t events, (execute c).run before = .ok true t ∧
      t.trace.toList = before.trace.toList ++ events ∧
      events.filter Event.isPrint = commandNote c :: .print (k.heading names.length) ::
        names.map (fun name => .print ("  " ++ name)) ∧
      Lists (if loaded && !read then [] else k.table s.world) (searchText c) names ∧
      (Lists (k.table s.world) (searchText c) names ↔
        (loaded = true → read = true ∨ Lists (k.table s.world) (searchText c) [])) := by
  intro before loaded read
  obtain ⟨hprovides, hrecorded⟩ : before.Tracked := tracked_afterOperations ⟨hs, hnew.recorded⟩
  have hworld : before.world = s.world :=
    (yields_afterOperations (c := grows fun _ => True) (grows_createClient fun _ => trivial)
      (fun _ => grows_send fun _ => trivial) history s).world
  have hnote : Appends [commandNote c] before (before.record (commandNote c)) :=
    ⟨rfl, rfl, rfl, before.trace_record _⟩
  obtain ⟨events, t, hrun, htrace, hprints⟩ :=
    k.run_list (hprovides.of_grows (hnote.grows (P := fun _ => True) fun _ _ => trivial))
      (textSetting? (optionOf c.verb c.options "search"))
  have hfound :=
    lists_found k s.world (textSetting? (optionOf c.verb c.options "search")) loaded read
  rw [hnote.controller, hnote.world, hrecorded.loaded, hrecorded.names k, hworld] at hprints
  refine ⟨_, t, commandNote c :: events, ?_, ?_, ?_, hfound, ?_⟩
  · rw [run_execute_listing hverb hplain]
    exact hrun
  · rw [htrace, hnote.trace, List.append_assoc]
    rfl
  · rw [List.filter_cons_of_pos rfl, hprints]
    rfl
  · exact hfound.complete_iff

/-- A linked robot that knows one animation. -/
def stageSystem : System :=
  { freshSystem with world := { freshSystem.world with animations := [("anim_a", "a.bin")] } }

theorem stageSystem_provides : stageSystem.Provides fun _ => False := by
  refine System.provides_of_no_faults rfl ?_ fun _ => rfl
  intro id client hclient
  cases id with
  | zero =>
    cases hclient
    rfl
  | succ id => cases hclient

theorem stageSystem_unread : Unread stageSystem :=
  ⟨rfl, rfl, rfl, fun _ he => by cases he⟩

/-- An animation that has just been played is not among those that are listed. -/
theorem animation_unlisted_once_played :
    ∃ play list t events, Command.parse "animate anim_a wait=1" = .ok (some play) ∧
      Command.parse "list-anims search=a" = .ok (some list) ∧
      (execute list).run (afterOperations [.execute play] stageSystem) = .ok true t ∧
      t.trace.toList = (afterOperations [.execute play] stageSystem).trace.toList ++ events ∧
      events.filter Event.isPrint =
        [commandNote list, .print "Available animations (0 total):"] ∧
      ¬Lists (Catalogue.animations.table stageSystem.world) "a" [] := by
  obtain ⟨play, hplay, htrace⟩ := Command.exists_of_parsesTo
    (show Command.parsesTo "animate anim_a wait=1" (fun c =>
      let trace := (afterOperations [.execute c] stageSystem).trace.toList
      trace.any Event.isLoading && !trace.any Catalogue.animations.isRead) = true by decide +kernel)
  obtain ⟨list, hlist, hcheck⟩ := Command.exists_of_parsesTo
    (show Command.parsesTo "list-anims search=a" (fun c => c.verb == .listAnims &&
      !(optionOf c.verb c.options "duration").isSet && searchText c == "a") = true by
      decide +kernel)
  simp only [Bool.and_eq_true, beq_iff_eq, Bool.not_eq_true'] at htrace hcheck
  obtain ⟨hloaded, hread⟩ := htrace
  obtain ⟨⟨hverb, hplain⟩, htext⟩ := hcheck
  obtain ⟨names, t, events, hrun, hevents, hprints, hfound, _⟩ :=
    listing_complete_iff .animations [.execute play] stageSystem_provides stageSystem_unread hverb
      hplain
  rw [hloaded, hread] at hfound
  obtain rfl : names = [] := hfound.nil_iff.mp (lists_nil _)
  refine ⟨play, list, t, events, hplay, hlist, hrun, hevents, hprints, fun hnone => ?_⟩
  have hmatch : "anim_a" ∈ [] := (hnone.mem_iff "anim_a").mpr
    ⟨List.mem_cons_self, (Text.occursIn_iff _ _).mp (by decide +kernel)⟩
  cases hmatch

end RobotConsole.Console
