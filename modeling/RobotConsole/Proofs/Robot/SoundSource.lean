import RobotConsole.Proofs.Console.Listings
import RobotConsole.Proofs.Robot.Starting
import RobotConsole.Proofs.Storage.Tree

/-!
# Where sounds come from

A sound of the assets is decoded from the path of its entry in the table, if something is there; or
else from the file called after its number beside the table, or the last such file further down.
Whether something is there is all that is asked before (`Located`). So the decoder is given a file
of the sound directory unless one of the first two paths leads to something else, which an entry
without a path always does: it leads to the sound directory itself (`converted_sound_iff`).
-/

namespace RobotConsole.Robot

open Contract
open Storage (Path Node Files FileError)

variable {α β : Type}
variable {name : String} {names : List String} {source : Option Path}

/-! ## Looking around -/

namespace World

variable (w : World) (files : Files)

/-- All that can be seen, with the sound directory. -/
def visible : Files :=
  files ++ w.soundNodes

/-- Whether a path names something. -/
def lookup (path : Path) : Except FileError Bool :=
  (w.visible files).contains w.directory path

/-- A path that names something. -/
def Has (path : Path) : Prop :=
  w.lookup files path = .ok true

/-- A path that names nothing. -/
def Lacks (path : Path) : Prop :=
  w.lookup files path = .ok false

/-- What a path names, and where it is. -/
def Finds (path : Path) (place : List String) (node : Node) : Prop :=
  path.hasNul = false ∧ (w.visible files).find w.directory path = .ok (place, node)

/-- A path to a file in the sound directory, or further down, given the names below it. -/
def Reaches (path : Path) (below : List String) : Prop :=
  below ≠ [] ∧ ∃ node, w.Finds files path (w.soundDirectory.names ++ below) node ∧
    node.isFile = true

/-- Files in a tree below an absolute path, none of them out of reach. -/
structure WellPlaced : Prop where
  absolute : w.directory.isAbsolute = true
  tree : (w.visible files).IsTree
  short : ∀ entry ∈ w.visible files, { w.directory with names := entry.1 }.isTooLong = false

variable {w files} {path : Path}

theorem has_iff_finds : w.Has files path ↔ ∃ place node, w.Finds files path place node := by
  unfold Has lookup Files.contains Finds
  cases path.hasNul with
  | true => simp
  | false =>
    cases hfind : (w.visible files).find w.directory path with
    | ok found =>
      obtain ⟨place, node⟩ := found
      simp
    | error cause => cases cause <;> simp

theorem Reaches.has {below : List String} (h : w.Reaches files path below) : w.Has files path := by
  obtain ⟨-, node, hfinds, -⟩ := h
  exact has_iff_finds.mpr ⟨_, node, hfinds⟩

theorem WellPlaced.finds (hplaced : w.WellPlaced files) {entry : List String × Node}
    (hentry : entry ∈ w.visible files) :
    ∃ node, w.Finds files ⟨w.directory.root, entry.1⟩ entry.1 node ∧
      (entry.2.isFile = true → node.isFile = true) := by
  have hfound : ∃ node, (w.visible files).find w.directory ⟨w.directory.root, entry.1⟩ =
      .ok (entry.1, node) ∧ (entry.2.isFile = true → node.isFile = true) :=
    hplaced.tree.find hentry hplaced.absolute rfl (hplaced.short entry hentry)
  obtain ⟨node, hfind, hfile⟩ := hfound
  refine ⟨node, ⟨?_, hfind⟩, hfile⟩
  rw [Path.hasNul, List.any_eq_false]
  intro name hname
  simpa using (hplaced.tree.names entry hentry name hname).2.2

end World

/-! ## Walking down the sound directory -/

theorem getLast?_of_lastFileNamed? {files : List (List String)}
    (h : lastFileNamed? files name = some names) :
    names ∈ files ∧ names.getLast? = some name := by
  have hmem := List.mem_of_getLast? h
  rw [List.mem_filter, List.mem_map] at hmem
  obtain ⟨⟨here, -, rfl⟩, hfiles⟩ := hmem
  exact ⟨List.contains_iff_mem.mp hfiles, List.getLast?_concat⟩

theorem mem_eraseReps (h : name ∈ names) :
    name ∈ names.eraseReps := by
  -- the loop holds back one name, and has the ones before it in reverse
  have hloop (last : String) (names seen : List String)
      (h : name = last ∨ name ∈ names ∨ name ∈ seen) :
      name ∈ List.eraseRepsBy.loop (· == ·) last names seen := by
    induction names generalizing last seen with
    | nil => simpa [List.eraseRepsBy.loop, or_comm] using h
    | cons next names ih =>
      rw [List.eraseRepsBy.loop]
      cases hsame : last == next with
      | true =>
        rw [beq_iff_eq] at hsame
        refine ih last seen ?_
        simp only [List.mem_cons, ← hsame] at h
        grind
      | false =>
        refine ih next (last :: seen) ?_
        simp only [List.mem_cons] at h ⊢
        grind
  cases names with
  | nil => cases h
  | cons first names => exact hloop first names [] (by simpa using h)

theorem mem_directoriesBelow {files : List (List String)} {here more : List String}
    (hmem : here ++ more ++ [name] ∈ files) {depth : Nat} (hdepth : more.length ≤ depth) :
    here ++ more ∈ directoriesBelow files depth here := by
  induction more generalizing here depth with
  | nil =>
    rw [List.append_nil]
    cases depth with
    | zero => exact List.mem_singleton_self here
    | succ depth => exact List.mem_cons_self
  | cons next more ih =>
    cases depth with
    | zero => cases hdepth
    | succ depth =>
      have hlast : ∃ second rest, more ++ [name] = second :: rest :=
        List.exists_cons_of_ne_nil (by simp)
      obtain ⟨second, rest, hrest⟩ := hlast
      have hbelow : here ++ (next :: more) ++ [name] = here ++ next :: second :: rest := by
        simp [hrest]
      rw [hbelow] at hmem
      have hway : here.isPrefixOf (here ++ next :: second :: rest) = true :=
        List.isPrefixOf_iff_prefix.mpr (List.prefix_append here _)
      unfold directoriesBelow
      refine List.mem_cons_of_mem here (List.mem_flatMap.mpr ⟨next, ?_, ?_⟩)
      · refine mem_eraseReps (List.mem_mergeSort.mpr (List.mem_filterMap.mpr ⟨_, hmem, ?_⟩))
        rw [if_pos hway, List.drop_left]
      · have hnext : here ++ [next] ++ more ∈
            directoriesBelow files depth (here ++ [next]) := by
          refine ih ?_ (Nat.le_of_succ_le_succ hdepth)
          rw [← hbelow] at hmem
          simpa using hmem
        simpa using hnext

theorem le_foldl_max {lengths : List Nat} {n most : Nat} (h : n ≤ most ∨ n ∈ lengths) :
    n ≤ lengths.foldl max most := by
  induction lengths generalizing most with
  | nil => exact h.resolve_right List.not_mem_nil
  | cons length lengths ih =>
    refine ih ?_
    rcases h with h | h
    · exact .inl (Nat.le_trans h (Nat.le_max_left most length))
    · rcases List.mem_cons.mp h with rfl | h
      · exact .inl (Nat.le_max_right most n)
      · exact .inr h

theorem isSome_lastFileNamed? {files : List (List String)}
    (hmem : names ∈ files) (hname : names.getLast? = some name) :
    ∃ found, lastFileNamed? files name = some found := by
  obtain ⟨more, rfl⟩ := List.getLast?_eq_some_iff.mp hname
  have hdepth : more.length ≤ (files.map List.length).foldl max 0 := by
    have hlength : (more ++ [name]).length ≤ (files.map List.length).foldl max 0 :=
      le_foldl_max (.inr (List.mem_map_of_mem hmem))
    rw [List.length_append] at hlength
    omega
  have hwalked : [] ++ more ∈ directoriesBelow files _ [] := mem_directoriesBelow hmem hdepth
  rw [← Option.isSome_iff_exists, lastFileNamed?, List.getLast?_isSome]
  refine List.ne_nil_of_mem (List.mem_filter.mpr ⟨List.mem_map_of_mem hwalked, ?_⟩)
  exact List.contains_iff_mem.mpr hmem

/-! ## Locating a sound -/

/-- The name of the file of a sound. -/
def SoundEntry.fileName (entry : SoundEntry) : String :=
  entry.id.getD "None" ++ ".wem"

/-- Whether the name of a sound holds a text, in any letter case. -/
def SoundEntry.Answers (entry : SoundEntry) (name : String) : Prop :=
  (Text.lower name).toList <:+: (Text.lower (entry.name.getD "")).toList

namespace World

/-- The first sound of the table whose name holds a text. The empty text stands for no sound. -/
def FirstNamed (w : World) (name : String) (entry : SoundEntry) : Prop :=
  name ≠ "" ∧ ∃ before rest, w.sounds = some (.entries (before ++ entry :: rest)) ∧
    entry.Answers name ∧ ∀ other ∈ before, ¬ other.Answers name

/-- The path of a sound that its entry gives. -/
def givenPath (w : World) (entry : SoundEntry) : Path :=
  w.soundDirectory.join (Path.ofText (entry.path.getD ""))

/-- The path of the file of a sound beside the table. -/
def besidePath (w : World) (entry : SoundEntry) : Path :=
  w.soundDirectory.join (Path.ofText entry.fileName)

/-- The path of what lies further down the sound directory. -/
def pathBelow (w : World) (names : List String) : Path :=
  { w.soundDirectory with names := w.soundDirectory.names ++ names }

/-- The last of the files of a sound, walking down the sound directory. -/
def lastFile? (w : World) (files : Files) (entry : SoundEntry) : Option (List String) :=
  lastFileNamed? ((w.visible files).namesBelow w.soundDirectory.names) entry.fileName

/-- What a sound is decoded from, or nothing where it is not found or cannot be looked for. -/
inductive Located (w : World) (files : Files) (entry : SoundEntry) : Option Path → Prop
  | given : w.Has files (w.givenPath entry) → Located w files entry (some (w.givenPath entry))
  | givenFails {cause : FileError} : w.lookup files (w.givenPath entry) = .error cause →
      Located w files entry none
  | beside : w.Lacks files (w.givenPath entry) → w.Has files (w.besidePath entry) →
      Located w files entry (some (w.besidePath entry))
  | besideFails {cause : FileError} : w.Lacks files (w.givenPath entry) →
      w.lookup files (w.besidePath entry) = .error cause → Located w files entry none
  | below {names : List String} : w.Lacks files (w.givenPath entry) →
      w.Lacks files (w.besidePath entry) → w.lastFile? files entry = some names →
      w.Has files (w.pathBelow names) → Located w files entry (some (w.pathBelow names))
  | belowFails {names : List String} : w.Lacks files (w.givenPath entry) →
      w.Lacks files (w.besidePath entry) → w.lastFile? files entry = some names →
      ¬ w.Has files (w.pathBelow names) → Located w files entry none
  | missing : w.Lacks files (w.givenPath entry) → w.Lacks files (w.besidePath entry) →
      w.lastFile? files entry = none → Located w files entry none

/-- A file of the sound directory that is called after a sound. -/
def IsFileOf (w : World) (files : Files) (entry : SoundEntry) (path : Path) : Prop :=
  ∃ below, w.Reaches files path below ∧ below.getLast? = some entry.fileName

/-- A file of the sound directory that a sound may be decoded from: where its entry says, or called
after it. -/
def IsSourceOf (w : World) (files : Files) (entry : SoundEntry) (path : Path) : Prop :=
  ∃ below, w.Reaches files path below ∧
    (path = w.givenPath entry ∨ below.getLast? = some entry.fileName)

/-- A path to a file, wherever it is. -/
def NamesFile (w : World) (files : Files) (path : Path) : Prop :=
  ∃ place node, w.Finds files path place node ∧ node.isFile = true

variable {w : World} {files : Files} {entry : SoundEntry} {path : Path}

theorem IsFileOf.isSourceOf (h : w.IsFileOf files entry path) : w.IsSourceOf files entry path := by
  obtain ⟨below, hreaches, hname⟩ := h
  exact ⟨below, hreaches, .inr hname⟩

theorem IsFileOf.has (h : w.IsFileOf files entry path) : w.Has files path := by
  obtain ⟨below, hreaches, -⟩ := h
  exact hreaches.has

theorem IsFileOf.namesFile (h : w.IsFileOf files entry path) : w.NamesFile files path := by
  obtain ⟨below, ⟨-, node, hfinds, hfile⟩, -⟩ := h
  exact ⟨_, node, hfinds, hfile⟩

theorem Has.not_lacks (h : w.Has files path) : ¬ w.Lacks files path := by
  intro hlacks
  unfold Has at h
  rw [hlacks] at h
  cases h

theorem not_has_of_error {cause : FileError} (h : w.lookup files path = .error cause) :
    ¬ w.Has files path ∧ ¬ w.Lacks files path := by
  simp [Has, Lacks, h]

theorem isFileOf_lastFile? (hplaced : w.WellPlaced files)
    (h : w.lastFile? files entry = some names) : w.IsFileOf files entry (w.pathBelow names) := by
  obtain ⟨hmem, hname⟩ := getLast?_of_lastFileNamed? h
  obtain ⟨node, hentry, hfile⟩ := Files.mem_namesBelow_iff.mp hmem
  obtain ⟨found, hfinds, hkept⟩ := hplaced.finds hentry
  refine ⟨names, ⟨?_, found, hfinds, hkept hfile⟩, hname⟩
  rintro rfl
  cases hname

theorem exists_lastFile? (h : w.IsFileOf files entry path) :
    ∃ names, w.lastFile? files entry = some names := by
  obtain ⟨below, ⟨-, node, hfinds, hfile⟩, hname⟩ := h
  have hmem := Files.mem_namesBelow_iff.mpr ⟨node, Files.mem_of_find hfinds.2 hfile, hfile⟩
  exact isSome_lastFileNamed? hmem hname

/-- What a sound is decoded from is a file for it, unless the path of its entry, or the one beside
the table, leads to something else. -/
theorem Located.isSourceOf_iff (hplaced : w.WellPlaced files)
    (h : w.Located files entry source) :
    (∀ path ∈ source, w.IsSourceOf files entry path) ↔
      (w.Has files (w.givenPath entry) → w.IsSourceOf files entry (w.givenPath entry)) ∧
      (w.Lacks files (w.givenPath entry) → w.Has files (w.besidePath entry) →
        w.IsSourceOf files entry (w.besidePath entry)) := by
  cases h with
  | given hgiven =>
    simp only [Option.mem_def, Option.some.injEq, forall_eq']
    exact ⟨fun hsource => ⟨fun _ => hsource, fun hlacks => absurd hlacks hgiven.not_lacks⟩,
      fun hboth => hboth.1 hgiven⟩
  | givenFails herror =>
    obtain ⟨hhas, hlacks⟩ := not_has_of_error herror
    exact iff_of_true (by simp)
      ⟨fun hgiven => absurd hgiven hhas, fun hgiven => absurd hgiven hlacks⟩
  | beside hgiven hbeside =>
    simp only [Option.mem_def, Option.some.injEq, forall_eq']
    exact ⟨fun hsource => ⟨fun hhas => absurd hgiven hhas.not_lacks, fun _ _ => hsource⟩,
      fun hboth => hboth.2 hgiven hbeside⟩
  | besideFails hgiven herror =>
    exact iff_of_true (by simp)
      ⟨fun hhas => absurd hgiven hhas.not_lacks,
        fun _ hbeside => absurd hbeside (not_has_of_error herror).1⟩
  | below hgiven hbeside hlast _ =>
    simp only [Option.mem_def, Option.some.injEq, forall_eq']
    exact iff_of_true (isFileOf_lastFile? hplaced hlast).isSourceOf
      ⟨fun hhas => absurd hgiven hhas.not_lacks, fun _ hhas => absurd hbeside hhas.not_lacks⟩
  | belowFails hgiven hbeside _ _ | missing hgiven hbeside _ =>
    exact iff_of_true (by simp)
      ⟨fun hhas => absurd hgiven hhas.not_lacks, fun _ hhas => absurd hbeside hhas.not_lacks⟩

theorem Located.eq_givenPath (h : w.Located files entry source)
    (hgiven : w.Has files (w.givenPath entry)) : source = some (w.givenPath entry) := by
  cases h with
  | given => rfl
  | givenFails herror => exact absurd hgiven (not_has_of_error herror).1
  | beside hlacks | besideFails hlacks | below hlacks | belowFails hlacks | missing hlacks =>
    exact absurd hlacks hgiven.not_lacks

/-- Where there are files of a sound, it is decoded from one of them just in case nothing is at the
path of its entry, and nothing else at the one beside the table. -/
theorem Located.isFileOf_iff (hplaced : w.WellPlaced files)
    (h : w.Located files entry source) (hfile : w.IsFileOf files entry path)
    (hgiven : ¬ w.NamesFile files (w.givenPath entry)) :
    (∃ path ∈ source, w.IsFileOf files entry path) ↔
      w.Lacks files (w.givenPath entry) ∧
      (w.Lacks files (w.besidePath entry) ∨ w.IsFileOf files entry (w.besidePath entry)) := by
  cases h with
  | given hhas =>
    simp only [Option.mem_def, Option.some.injEq, exists_eq_left']
    exact iff_of_false (fun hsource => hgiven hsource.namesFile)
      fun hboth => hhas.not_lacks hboth.1
  | givenFails herror =>
    exact iff_of_false (by simp)
      fun hboth => (not_has_of_error herror).2 hboth.1
  | beside hlacks hbeside =>
    simp only [Option.mem_def, Option.some.injEq, exists_eq_left']
    exact ⟨fun hsource => ⟨hlacks, .inr hsource⟩,
      fun hboth => hboth.2.resolve_left hbeside.not_lacks⟩
  | besideFails _ herror =>
    obtain ⟨hhas, hlacks⟩ := not_has_of_error herror
    exact iff_of_false (by simp)
      fun hboth => hboth.2.elim hlacks fun hsource => hhas hsource.has
  | below hlacks hbeside hlast _ =>
    simp only [Option.mem_def, Option.some.injEq, exists_eq_left']
    exact iff_of_true (isFileOf_lastFile? hplaced hlast) ⟨hlacks, .inl hbeside⟩
  | belowFails _ _ hlast hlost => exact absurd (isFileOf_lastFile? hplaced hlast).has hlost
  | missing _ _ hnone =>
    obtain ⟨names, hlast⟩ := exists_lastFile? hfile
    rw [hnone] at hlast
    cases hlast

end World

/-! ## What is decoded -/

/-- What an event has the decoder read. -/
def decoderInput? : Event → Option String
  | .run ["vgmstream-cli", "-o", _, source] => some source
  | _ => none

/-- A change in the course of which the decoder is given these inputs, one after the other. -/
def Decodes (inputs : List String) (s t : System) : Prop :=
  ∃ events, t.trace.toList = s.trace.toList ++ events ∧ events.filterMap decoderInput? = inputs

/-- The contract of actions that decode nothing. -/
abbrev silent : Contract Failure System :=
  grows fun e => decoderInput? e = none

instance : AdmitsLocal silent where
  throw _ _ s := Grows.refl s
  tell {e} he := grows_emit (by cases e <;> first | rfl | cases he)
  meetInterrupt := holds_meetInterrupt id (grows_meetFault "sleep" [])
  recovers h := h
  same hworld hclients htrace _ := Grows.of_same hworld hclients htrace

namespace Decodes

variable {inputs more : List String} {s t u : System}

theorem of_same (h : t.trace = s.trace) : Decodes [] s t :=
  ⟨[], by rw [h, List.append_nil], rfl⟩

theorem trans (h : Decodes inputs s t) (h' : Decodes more t u) : Decodes (inputs ++ more) s u := by
  obtain ⟨events, htrace, rfl⟩ := h
  obtain ⟨events', htrace', rfl⟩ := h'
  exact ⟨events ++ events', by rw [htrace', htrace, List.append_assoc], List.filterMap_append⟩

theorem of_grows (h : Grows (fun e => decoderInput? e = none) s t) : Decodes [] s t := by
  obtain ⟨events, htrace, hsilent⟩ := h.trace
  exact ⟨events, htrace, List.filterMap_eq_nil_iff.mpr hsilent⟩

theorem of_silent {x : Act α} (hx : silent.Holds x) (s : System) : Decodes [] s (after x s) :=
  of_grows (yields_after hx s)

theorem bind_of_same {x : Act α} {f : α → Act β} {a : α} (hx : x.run s = .ok a t)
    (hsame : t.trace = s.trace) (hf : Decodes inputs t (after (f a) t)) :
    Decodes inputs s (after (x >>= f) s) := by
  rw [after_bind_of_ok hx]
  exact (of_same hsame).trans hf

theorem bind_silent {x : Act α} {f : α → Act β} (hx : Decodes inputs s (after x s))
    (hf : ∀ a, silent.Holds (f a)) : Decodes inputs s (after (x >>= f) s) := by
  cases hrun : x.run s with
  | ok a t =>
    rw [after_of_ok hrun] at hx
    rw [after_bind_of_ok hrun, ← List.append_nil inputs]
    exact hx.trans (of_silent (hf a) t)
  | error e t =>
    rw [after_of_error hrun] at hx
    rwa [after_bind_of_error hrun]

theorem tryCatch_silent {x : Act α} {handle : Failure → Act α} (hx : Decodes inputs s (after x s))
    (hhandle : ∀ e, silent.Holds (handle e)) :
    Decodes inputs s (after (tryCatch x handle) s) := by
  cases hrun : x.run s with
  | ok a t =>
    have hcaught : (tryCatch x handle).run s = .ok a t := by rw [run_tryCatch, hrun]
    rw [after_of_ok hrun] at hx
    rwa [after_of_ok hcaught]
  | error e t =>
    have hcaught : (tryCatch x handle).run s = (handle e).run t := by rw [run_tryCatch, hrun]
    have hafter : after (tryCatch x handle) s = after (handle e) t := by
      unfold after
      rw [hcaught]
    rw [after_of_error hrun] at hx
    rw [hafter, ← List.append_nil inputs]
    exact hx.trans (of_silent (hhandle e) t)

end Decodes

theorem decodes_runTool (raw source : String) (output : Path) (s : System) :
    Decodes [source] s (after (runTool ["vgmstream-cli", "-o", raw, source] output) s) := by
  have hemit : Decodes [source] s (after (emit (.run ["vgmstream-cli", "-o", raw, source])) s) :=
    ⟨[.run ["vgmstream-cli", "-o", raw, source]], Array.toList_push, rfl⟩
  unfold runTool
  refine hemit.bind_silent fun _ => (grows_meetFault _ _).bind fun _ => ?_
  refine holds_get_bind fun t => ?_
  dsimp only
  split
  · exact holdsAt_set_bind (Grows.of_same rfl rfl rfl) (holds_pure _ _)
  · exact holds_pure _ t

theorem silent_convert (source target : Path) : silent.Holds (convert source target) := by
  unfold convert
  exact grows_runTool (show decoderInput? (.run _) = none from rfl) target

theorem silent_playFile (file : Path) {announce : Float → Act Unit}
    (hannounce : ∀ length, silent.Holds (announce length)) :
    silent.Holds (playFile file announce) :=
  (keeps_soundLength file).bind fun length => (grows_request fun _ => rfl).bind fun _ =>
    (hannounce length).bind fun _ => keeps_pause _

/-! ## Playing a sound -/

section Playing

variable {s : System} {path : Path}

theorem run_pathExists_ok {found : Bool} (h : s.world.lookup s.files path = .ok found) :
    (pathExists path).run s = .ok found s := by
  unfold World.lookup World.visible at h
  unfold pathExists visibleFiles world
  simp only [EStateM.run_bind, EStateM.run_get, EStateM.run_pure, h]

theorem run_pathExists_error {cause : FileError}
    (h : s.world.lookup s.files path = .error cause) :
    (pathExists path).run s = .error (.file cause) s := by
  unfold World.lookup World.visible at h
  unfold pathExists visibleFiles world
  simp only [EStateM.run_bind, EStateM.run_get, EStateM.run_pure, h]
  rfl

theorem run_world (s : System) : world.run s = .ok s.world s := rfl

theorem run_visibleFiles (s : System) : visibleFiles.run s = .ok (s.world.visible s.files) s := rfl

theorem run_locateSound (entry : SoundEntry) (s : System) :
    ∃ source, s.world.Located s.files entry source ∧
      ((∃ path, (locateSound entry).run s = .ok path s ∧ s.world.Has s.files path ∧
          source = some path) ∨
        (∃ path, (locateSound entry).run s = .ok path s ∧ ¬ s.world.Has s.files path ∧
          source = none) ∨
        ∃ failure, (locateSound entry).run s = .error failure s ∧ source = none) := by
  unfold locateSound
  simp only [EStateM.run_bind, run_world, ← SoundEntry.fileName.eq_1, ← World.givenPath.eq_1,
    ← World.besidePath.eq_1]
  cases hgiven : s.world.lookup s.files (s.world.givenPath entry) with
  | error cause =>
    refine ⟨none, .givenFails hgiven, .inr (.inr ⟨.file cause, ?_, rfl⟩)⟩
    simp only [run_pathExists_error hgiven]
  | ok found =>
    simp only [run_pathExists_ok hgiven]
    cases found with
    | true => exact ⟨_, .given hgiven, .inl ⟨_, rfl, hgiven, rfl⟩⟩
    | false =>
      simp only [Bool.false_eq_true, if_false, EStateM.run_bind]
      cases hbeside : s.world.lookup s.files (s.world.besidePath entry) with
      | error cause =>
        refine ⟨none, .besideFails hgiven hbeside, .inr (.inr ⟨.file cause, ?_, rfl⟩)⟩
        simp only [run_pathExists_error hbeside]
      | ok found =>
        simp only [run_pathExists_ok hbeside]
        cases found with
        | true => exact ⟨_, .beside hgiven hbeside, .inl ⟨_, rfl, hbeside, rfl⟩⟩
        | false =>
          simp only [Bool.false_eq_true, if_false, EStateM.run_bind, run_visibleFiles,
            ← World.lastFile?.eq_1]
          cases hlast : s.world.lastFile? s.files entry with
          | none =>
            have hlost : ¬ s.world.Has s.files (s.world.besidePath entry) :=
              fun hhas => hhas.not_lacks hbeside
            exact ⟨none, .missing hgiven hbeside hlast, .inr (.inl ⟨_, rfl, hlost, rfl⟩)⟩
          | some names =>
            by_cases hhas : s.world.Has s.files (s.world.pathBelow names)
            · exact ⟨_, .below hgiven hbeside hlast hhas, .inl ⟨_, rfl, hhas, rfl⟩⟩
            · exact ⟨none, .belowFails hgiven hbeside hlast hhas,
                .inr (.inl ⟨_, rfl, hhas, rfl⟩)⟩

/-- A sound is decoded from where it is located, if decoding is what its being there leads to. -/
theorem decodes_locateSound (entry : SoundEntry) {f : Path → Bool → Act α}
    (hthere : ∀ path, Decodes [path.text] s (after (f path true) s))
    (hlost : ∀ path, silent.Holds (f path false)) :
    ∃ source, s.world.Located s.files entry source ∧
      Decodes (source.toList.map Path.text) s (after (do
        let path ← locateSound entry
        let found ← pathExists path
        f path found) s) := by
  obtain ⟨source, hlocated, hrun⟩ := run_locateSound entry s
  refine ⟨source, hlocated, ?_⟩
  rcases hrun with ⟨path, hrun, hhas, rfl⟩ | ⟨path, hrun, hnot, rfl⟩ | ⟨failure, hrun, rfl⟩
  · rw [after_bind_of_ok hrun, after_bind_of_ok (run_pathExists_ok hhas)]
    exact hthere path
  · rw [after_bind_of_ok hrun]
    cases hlookup : s.world.lookup s.files path with
    | error cause =>
      rw [after_bind_of_error (run_pathExists_error hlookup)]
      exact .of_same rfl
    | ok found =>
      cases found with
      | true => exact absurd hlookup hnot
      | false =>
        rw [after_bind_of_ok (run_pathExists_ok hlookup)]
        exact .of_silent (hlost path) s
  · rw [after_bind_of_error hrun]
    exact .of_same rfl

theorem run_readSoundTable {sounds : List SoundEntry}
    (h : s.world.sounds = some (.entries sounds)) : readSoundTable.run s = .ok sounds s := by
  unfold readSoundTable
  simp only [EStateM.run_bind, run_world, h]
  rfl

theorem run_readSoundTable_error (h : ∀ sounds, s.world.sounds ≠ some (.entries sounds)) :
    readSoundTable.run s = .error .soundTable s := by
  unfold readSoundTable
  simp only [EStateM.run_bind, run_world]
  rfl

/-- Whether the name of a sound holds a text, as it is looked for. -/
def isAnswer (name : String) (entry : SoundEntry) : Bool :=
  Text.occursIn (Text.lower name) (Text.lower (entry.name.getD ""))

theorem isAnswer_iff (name : String) (entry : SoundEntry) :
    isAnswer name entry = true ↔ entry.Answers name :=
  Text.occursIn_iff _ _

theorem firstNamed_iff {w : World} {sounds : List SoundEntry} {entry : SoundEntry}
    (h : w.sounds = some (.entries sounds)) (hname : name ≠ "") :
    w.FirstNamed name entry ↔ sounds.find? (isAnswer name) = some entry := by
  rw [List.find?_eq_some_iff_append, isAnswer_iff]
  constructor
  · rintro ⟨-, before, rest, hsounds, hentry, hbefore⟩
    rw [h, Option.some.injEq, SoundTable.entries.injEq] at hsounds
    refine ⟨hentry, before, rest, hsounds, fun other hother => ?_⟩
    rw [Bool.not_eq_true', ← Bool.not_eq_true, isAnswer_iff]
    exact hbefore other hother
  · rintro ⟨hentry, before, rest, rfl, hbefore⟩
    refine ⟨hname, before, rest, h, hentry, fun other hother => ?_⟩
    have hnot := hbefore other hother
    rwa [Bool.not_eq_true', ← Bool.not_eq_true, isAnswer_iff] at hnot

/-- The path of the table of sounds. -/
def World.tablePath (w : World) : Path :=
  w.soundDirectory.join (Path.ofText World.soundTableName)

/-- What is decoded for a name: nothing unless the table has a sound for it, and what it is located
at if so. -/
structure Converts (w : World) (files : Files) (name : String) (source : Option Path) : Prop where
  named : source.isSome = true → ∃ entry, w.FirstNamed name entry
  located : ∀ entry, w.Has files w.tablePath → w.FirstNamed name entry →
    w.Located files entry source

theorem decodes_convertSound (hname : name ≠ "") (target : Path) (s : System) :
    ∃ source, Converts s.world s.files name source ∧
      Decodes (source.toList.map Path.text) s (after (convertSound name target) s) := by
  have htablePath : soundTablePath.run s = .ok s.world.tablePath s := rfl
  unfold convertSound
  rw [after_bind_of_ok htablePath]
  cases htable : s.world.lookup s.files s.world.tablePath with
  | error cause =>
    rw [after_bind_of_error (run_pathExists_error htable)]
    exact ⟨none, ⟨by simp, fun _ hhas => absurd hhas (World.not_has_of_error htable).1⟩,
      .of_same rfl⟩
  | ok found =>
    rw [after_bind_of_ok (run_pathExists_ok htable)]
    cases found with
    | false =>
      refine ⟨none, ⟨by simp, fun _ hhas => absurd htable hhas.not_lacks⟩, ?_⟩
      exact .of_silent ((keeps_print _).giving) s
    | true =>
      simp only [Bool.not_true, Bool.false_eq_true, if_false]
      by_cases hread : ∃ sounds, s.world.sounds = some (.entries sounds)
      · obtain ⟨sounds, hsounds⟩ := hread
        rw [after_bind_of_ok (run_readSoundTable hsounds)]
        have hanswer : (fun entry : SoundEntry => Text.occursIn (Text.lower name)
          (Text.lower (entry.name.getD ""))) = isAnswer name := rfl
        simp only [hanswer]
        have hentries {entry : SoundEntry} : s.world.FirstNamed name entry →
            sounds.find? (isAnswer name) = some entry := (firstNamed_iff hsounds hname).mp
        cases hfirst : sounds.find? (isAnswer name) with
        | none =>
          refine ⟨none, ⟨by simp, fun entry _ hentry => ?_⟩,
            .of_silent ((keeps_print _).giving) s⟩
          rw [hentries hentry] at hfirst
          cases hfirst
        | some entry =>
          dsimp only
          refine Exists.imp (fun source h => ⟨⟨fun _ => ?_, fun other _ hother => ?_⟩, h.2⟩)
            (decodes_locateSound entry (fun path => ?_) fun path => ?_)
          · exact ⟨entry, (firstNamed_iff hsounds hname).mpr hfirst⟩
          · rw [hentries hother] at hfirst
            exact Option.some.inj hfirst ▸ h.1
          · refine .bind_of_same rfl rfl (.bind_of_same rfl rfl ?_)
            refine (decodes_runTool _ path.text _ _).bind_silent fun decoded => ?_
            split
            · exact (keeps_reportConverter _ _).giving
            refine (silent_convert _ target).bind fun converted => ?_
            refine (keeps_pathExists _).bind fun kept => ?_
            refine holds_when (fun rest => (keeps_removeFile _).bind fun _ => rest) ?_
            split
            · exact (keeps_reportConverter _ _).giving
            · exact (keeps_print _).giving
          · exact (keeps_print _).giving
      · have hnone : ∀ sounds, s.world.sounds ≠ some (.entries sounds) :=
          fun sounds hsounds => hread ⟨sounds, hsounds⟩
        rw [after_bind_of_error (run_readSoundTable_error hnone)]
        refine ⟨none, ⟨by simp, fun entry _ hentry => ?_⟩, .of_same rfl⟩
        obtain ⟨-, before, rest, hsounds, -⟩ := hentry
        exact absurd hsounds (hnone _)

theorem silent_playMade (target : Path) (made : Bool) : silent.Holds (do
    if !made then return
    if !(← pathExists target) then
      print "Error: converted file not created"
      return
    playFile target fun length => print s!"Sound duration: {Decimal.fixedText 1 length}s") := by
  split
  · exact holds_pure _
  refine (keeps_pathExists target).bind fun found => ?_
  split
  · exact (keeps_print _).giving
  · exact silent_playFile target fun _ => keeps_print _

theorem silent_handler (label : String) (failure : Failure) :
    silent.Holds (if failure.isInterrupt then throw failure else
      print (label ++ failure.message)) := by
  split
  · exact grows_throw failure
  · exact keeps_print _

theorem decodes_performSound (name : String) (s : System) :
    ∃ source, Converts s.world s.files name source ∧
      Decodes (source.toList.map Path.text) s (after (performSound (some name) none) s) := by
  have hfile : given? none = none := rfl
  unfold performSound
  by_cases hname : name = ""
  · have hgiven : given? (some name) = none := by simp [given?, hname]
    refine ⟨none, ⟨by simp, fun _ _ hentry => absurd hname hentry.1⟩, ?_⟩
    simp only [hfile, hgiven]
    refine .of_silent (keeps_reporting ((keeps_freshName _).bind fun _ => ?_)) s
    refine (holds_speechFile _).bind fun target => (keeps_print _).bind fun _ => ?_
    exact (holds_pure false).bind fun made => silent_playMade target made
  · have hgiven : given? (some name) = some name := by simp [given?, hname]
    have hstamp : ∃ stamp t, (freshName "sound").run s = .ok stamp t ∧ t.world = s.world ∧
        t.files = s.files ∧ t.trace = s.trace := ⟨_, _, rfl, rfl, rfl, rfl⟩
    obtain ⟨stamp, t, hstamp, hworld, hfiles, htrace⟩ := hstamp
    have htarget : ∃ target, (speechFile (stamp ++ ".wav")).run t = .ok target t := ⟨_, rfl⟩
    obtain ⟨target, htarget⟩ := htarget
    obtain ⟨source, hconverts, hdecodes⟩ := decodes_convertSound hname target t
    rw [hworld, hfiles] at hconverts
    simp only [hfile, hgiven]
    refine ⟨source, hconverts, Decodes.tryCatch_silent ?_ fun failure => silent_handler _ failure⟩
    refine .bind_of_same hstamp htrace (.bind_of_same htarget rfl ?_)
    exact hdecodes.bind_silent fun made => silent_playMade target made

theorem decodes_runTask (name : String) (id : TaskId) (s : System) :
    ∃ source, Converts s.world s.files name source ∧
      Decodes (source.toList.map Path.text) s (after (runTask id (.sound (some name) none)) s) := by
  obtain ⟨source, hconverts, hdecodes⟩ := decodes_performSound name s
  refine ⟨source, hconverts, Decodes.bind_silent ?_ fun _ => grows_update _⟩
  refine Decodes.tryCatch_silent ?_ fun failure =>
    (grows_update _).bind fun _ => grows_throw failure
  exact Decodes.tryCatch_silent hdecodes fun failure => silent_handler _ failure

theorem decodes_launch (name : String) (heager : s.world.threading = .eager)
    (hstarts : s.startFailure? = none) :
    ∃ source, Converts s.world s.files name source ∧
      Decodes (source.toList.map Path.text) s (after (launch (.sound (some name) none)) s) := by
  have hstart : ∃ t, (startTask (.sound (some name) none) s.world.threading).run s =
      .ok s.controller.pool.tasks.size t ∧ t.world = s.world ∧ t.files = s.files ∧
      t.trace = s.trace.push .startTask := by
    rw [run_startTask, hstarts]
    exact ⟨_, rfl, rfl, rfl, rfl⟩
  obtain ⟨t, hstart, hworld, hfiles, htrace⟩ := hstart
  have hbegun : Decodes [] s t := ⟨[.startTask], by rw [htrace]; exact Array.toList_push, rfl⟩
  obtain ⟨source, hconverts, hdecodes⟩ := decodes_runTask name s.controller.pool.tasks.size t
  rw [hworld, hfiles] at hconverts
  refine ⟨source, hconverts, ?_⟩
  unfold launch
  refine .bind_of_same rfl rfl ?_
  dsimp only
  rw [after_bind_of_ok hstart, if_pos heager]
  exact hbegun.trans hdecodes

theorem decodes_playSound (name : String) {async : Bool}
    (hconnected : s.controller.connected = true)
    (hnow : async = true → s.world.threading = .eager ∧ s.startFailure? = none) :
    ∃ source, Converts s.world s.files name source ∧
      Decodes (source.toList.map Path.text) s (after (playSound (some name) none async) s) := by
  have hcontroller : controller.run s = .ok s.controller s := rfl
  unfold playSound
  rw [after_bind_of_ok hcontroller]
  simp only [hconnected, Bool.not_true, Bool.false_eq_true, if_false]
  cases async with
  | false =>
    obtain ⟨source, hconverts, hdecodes⟩ := decodes_performSound name s
    exact ⟨source, hconverts, hdecodes.bind_silent fun _ => holds_pure _⟩
  | true =>
    have hfile : given? none = none := rfl
    simp only [hfile, if_true]
    by_cases hname : name = ""
    · have hgiven : given? (some name) = none := by simp [given?, hname]
      obtain ⟨source, hconverts, hdecodes⟩ := decodes_launch name (hnow rfl).1 (hnow rfl).2
      simp only [hgiven]
      exact ⟨source, hconverts, hdecodes.bind_silent fun _ => holds_pure _⟩
    · have hgiven : given? (some name) = some name := by simp [given?, hname]
      obtain ⟨source, hconverts, hdecodes⟩ :=
        decodes_launch name (s := s.record (.print s!"Playing sound (async): {name}"))
          (hnow rfl).1 (hnow rfl).2
      have hprinted : Decodes [] s (s.record (.print s!"Playing sound (async): {name}")) :=
        ⟨[_], Array.toList_push, rfl⟩
      simp only [hgiven]
      refine ⟨source, hconverts, ?_⟩
      rw [print, after_bind_of_ok (run_emit_eq _ _)]
      exact hprinted.trans (hdecodes.bind_silent fun _ => holds_pure _)

/-- What playing a sound by name leads to: a call that plays it now, or at once in the background
where tasks can be started; or the task of a call that is left to the background, when it gets its
time. -/
inductive PlaysSound (name : String) (s : System) : System → Prop
  | call {async : Bool} : s.controller.connected = true →
      (async = true → s.world.threading = .eager ∧ s.startFailure? = none) →
      PlaysSound name s (after (playSound (some name) none async) s)
  | task (id : TaskId) : PlaysSound name s (after (runTask id (.sound (some name) none)) s)

theorem PlaysSound.decodes {t : System} (h : PlaysSound name s t) :
    ∃ source, Converts s.world s.files name source ∧
      Decodes (source.toList.map Path.text) s t := by
  cases h with
  | call hconnected hnow => exact decodes_playSound name hconnected hnow
  | task id => exact decodes_runTask name id s

section Table

variable {w : World} {files : Files} (hplaced : w.WellPlaced files) {table : SoundTable}
  (h : w.sounds = some table)

include hplaced h

theorem World.WellPlaced.has_tablePath : w.Has files w.tablePath := by
  have hpath : w.tablePath =
      ⟨w.directory.root, w.soundDirectory.names ++ [World.soundTableName]⟩ := rfl
  have hmem : (w.soundDirectory.names ++ [World.soundTableName], Node.bytes []) ∈
      w.visible files := by
    refine List.mem_append_right files ?_
    rw [World.soundNodes, h]
    exact List.mem_cons_of_mem _ List.mem_cons_self
  obtain ⟨node, hfinds, -⟩ := hplaced.finds hmem
  exact World.has_iff_finds.mpr ⟨_, node, hpath ▸ hfinds⟩

/-- Where there is a table of sounds, the directory around it is found. -/
theorem World.WellPlaced.has_soundDirectory : w.Has files w.soundDirectory := by
  have hmem : (w.soundDirectory.names, Node.directory) ∈ w.visible files := by
    refine List.mem_append_right files ?_
    rw [World.soundNodes, h]
    exact List.mem_cons_self
  obtain ⟨node, hfinds, -⟩ := hplaced.finds hmem
  exact World.has_iff_finds.mpr ⟨_, node, hfinds⟩

end Table

theorem World.givenPath_of_empty {w : World} {entry : SoundEntry} (h : entry.path.getD "" = "") :
    w.givenPath entry = w.soundDirectory := by
  have hempty : Path.ofText "" = ⟨"", []⟩ := by decide
  rw [World.givenPath, h, hempty]
  simp [Path.join, Path.isAbsolute]

/-- Playing a sound by name runs the decoder at most once, and only for a name that the table has.
What the decoder is given is a file of the sound directory, at the path of the entry or called after
the sound, just in case whatever is at the path of the entry is such a file, and if nothing is
there, whatever is beside the table under the name of the file. Where the entry gives no file
although there are files of the sound, one of them is decoded just in case nothing at all is at the
path of the entry, and beside the table nothing but such a file. For an entry without a path, the
decoder is given the sound directory itself. -/
theorem converted_sound_iff {name : String} {t : System} (hplaced : s.world.WellPlaced s.files)
    (hplays : PlaysSound name s t) :
    ∃ source : Option Path,
      Decodes (source.toList.map Path.text) s t ∧
      (source.isSome = true → ∃ entry, s.world.FirstNamed name entry) ∧
      ∀ entry, s.world.FirstNamed name entry →
        ((∀ path ∈ source, s.world.IsSourceOf s.files entry path) ↔
          (s.world.Has s.files (s.world.givenPath entry) →
            s.world.IsSourceOf s.files entry (s.world.givenPath entry)) ∧
          (s.world.Lacks s.files (s.world.givenPath entry) →
            s.world.Has s.files (s.world.besidePath entry) →
            s.world.IsSourceOf s.files entry (s.world.besidePath entry))) ∧
        ((∃ path, s.world.IsFileOf s.files entry path) →
          ¬ s.world.NamesFile s.files (s.world.givenPath entry) →
          ((∃ path ∈ source, s.world.IsFileOf s.files entry path) ↔
            s.world.Lacks s.files (s.world.givenPath entry) ∧
            (s.world.Lacks s.files (s.world.besidePath entry) ∨
              s.world.IsFileOf s.files entry (s.world.besidePath entry)))) ∧
        (entry.path.getD "" = "" → source = some s.world.soundDirectory) := by
  obtain ⟨source, hconverts, hdecodes⟩ := hplays.decodes
  refine ⟨source, hdecodes, hconverts.named, fun entry hentry => ?_⟩
  obtain ⟨-, before, rest, hsounds, -⟩ := id hentry
  have hlocated := hconverts.located entry (hplaced.has_tablePath hsounds) hentry
  refine ⟨hlocated.isSourceOf_iff hplaced, fun hexists hgiven => ?_, fun hempty => ?_⟩
  · obtain ⟨path, hfile⟩ := hexists
    exact hlocated.isFileOf_iff hplaced hfile hgiven
  · have hgiven := World.givenPath_of_empty hempty (w := s.world)
    rw [← hgiven]
    exact hlocated.eq_givenPath (hgiven ▸ hplaced.has_soundDirectory hsounds)

end Playing

/-- A sound without a path in the table, and its file beside the table. -/
def meow : SoundEntry where
  id := some "1"
  name := some "Meow"
  path := none

/-- A console with this sound, connected to a robot. -/
def meowing : System where
  world := {
    sounds := some (.entries [meow])
    soundFiles := ["1.wem"]
    clock := 0
    directory := ⟨"/", ["robot"]⟩ }
  files := []
  controller := { connected := true }

theorem visible_meowing : meowing.world.visible [] = [
    (["robot", "assets", "cozmo_resources", "sound"], .directory),
    (["robot", "assets", "cozmo_resources", "sound", "SoundbanksInfo.xml"], .bytes []),
    (["robot", "assets", "cozmo_resources", "sound", "1.wem"], .bytes [])] := by
  rfl

theorem wellPlaced_meowing : meowing.world.WellPlaced meowing.files := by
  have hvisible : meowing.world.visible meowing.files = _ := visible_meowing
  refine ⟨rfl, ⟨?_, ?_⟩, ?_⟩
  · rw [hvisible]
    decide
  · rw [hvisible]
    decide
  · rw [hvisible]
    decide

/-- The decoder is run on a directory, although the file of the sound is there. -/
theorem directory_decoded :
    meowing.world.WellPlaced meowing.files ∧ meowing.world.FirstNamed "meow" meow ∧
    meowing.world.IsFileOf meowing.files meow (meowing.world.besidePath meow) ∧
    Decodes ["/robot/assets/cozmo_resources/sound"] meowing
      (after (playSound (some "meow") none false) meowing) := by
  have hfirst : meowing.world.FirstNamed "meow" meow :=
    ⟨by decide, [], [], rfl, (isAnswer_iff _ _).mp (by decide), fun _ hnone => by cases hnone⟩
  have hbeside : meowing.world.IsFileOf meowing.files meow (meowing.world.besidePath meow) :=
    ⟨["1.wem"], ⟨by decide, .bytes [], ⟨by decide, rfl⟩, rfl⟩, by decide⟩
  refine ⟨wellPlaced_meowing, hfirst, hbeside, ?_⟩
  have hplays : PlaysSound "meow" meowing (after (playSound (some "meow") none false) meowing) :=
    .call rfl fun h => by cases h
  obtain ⟨source, hdecodes, -, hall⟩ := converted_sound_iff wellPlaced_meowing hplays
  rw [(hall meow hfirst).2.2 rfl] at hdecodes
  exact hdecodes

end RobotConsole.Robot
