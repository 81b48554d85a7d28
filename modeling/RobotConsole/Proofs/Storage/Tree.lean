import RobotConsole.Storage.Files

/-!
# Trees of files

Files are given as a list of places. They form a tree if nothing lies below a file and every name is
one that a directory can hold (`IsTree`). In a tree, the place of anything that is there is found by
walking down to it (`IsTree.find`), and a file that is found is there (`mem_of_find`).
-/

namespace RobotConsole.Storage

/-- Whether there is something to read, and not just a way down. -/
def Node.isFile : Node → Bool
  | .directory => false
  | .bytes _ | .clip _ _ => true

theorem Node.eq_directory {node : Node} (h : ¬ node.isFile = true) : node = .directory := by
  cases node with
  | directory => rfl
  | bytes | clip => exact absurd rfl h

namespace Files

/-- Files that form a tree. -/
structure IsTree (files : Files) : Prop where
  leaf : ∀ file ∈ files, file.2.isFile = true → ∀ other ∈ files, file.1 <+: other.1 →
    other.1 = file.1 ∧ other.2.isFile = true
  names : ∀ entry ∈ files, ∀ name ∈ entry.1,
    name ≠ ".." ∧ Path.isNameTooLong name = false ∧ '\x00' ∉ name.toList

variable {files : Files} {names : List String} {node : Node}

theorem mem_of_lookup (h : files.lookup names = some node) : (names, node) ∈ files := by
  obtain ⟨before, after, rfl, -⟩ := List.lookup_eq_some_iff.mp h
  exact List.mem_append_right before List.mem_cons_self

theorem exists_lookup {entry : List String × Node} (h : entry ∈ files) :
    ∃ node, files.lookup entry.1 = some node := by
  induction files with
  | nil => cases h
  | cons first files ih =>
    rw [List.lookup_cons]
    cases hfirst : entry.1 == first.1 with
    | true => exact ⟨first.2, rfl⟩
    | false =>
      rcases List.mem_cons.mp h with rfl | h
      · rw [beq_self_eq_true] at hfirst
        cases hfirst
      · exact ih h

theorem mem_of_at? (h : files.at? names = some node) (hfile : node.isFile = true) :
    (names, node) ∈ files := by
  unfold at? at h
  split at h
  · rename_i other hlookup
    exact Option.some.inj h ▸ mem_of_lookup hlookup
  · split at h
    · cases h
      cases hfile
    · cases h

/-! ## Walking -/

theorem at?_of_walk {path : String} {here rest place : List String}
    (h : files.walk path here rest = .ok (place, node)) : files.at? place = some node := by
  induction rest generalizing here with
  | nil =>
    unfold walk at h
    split at h
    · rename_i hat
      cases h
      exact hat
    · cases h
  | cons name rest ih =>
    unfold walk at h
    split at h
    · split at h
      · exact ih h
      · split at h
        · cases h
        · exact ih h
    · cases h
    · cases h

theorem mem_of_find {directory path : Path} {place : List String}
    (h : files.find directory path = .ok (place, node)) (hfile : node.isFile = true) :
    (place, node) ∈ files := by
  unfold find at h
  split at h
  · cases h
  · exact mem_of_at? (at?_of_walk h) hfile

namespace IsTree

variable (htree : files.IsTree) {entry : List String × Node} (hentry : entry ∈ files)

include htree hentry

theorem at?_eq : ∃ node, files.at? entry.1 = some node ∧
    (entry.2.isFile = true → node.isFile = true) := by
  obtain ⟨node, hlookup⟩ := exists_lookup hentry
  refine ⟨node, by rw [at?, hlookup], fun hfile => ?_⟩
  exact (htree.leaf entry hentry hfile _ (mem_of_lookup hlookup) (List.prefix_refl _)).2

theorem at?_above {here rest : List String} (hplace : here ++ rest = entry.1) (hrest : rest ≠ []) :
    files.at? here = some .directory := by
  have hway : here <+: entry.1 := ⟨rest, hplace⟩
  cases hlookup : files.lookup here with
  | none =>
    have hany : (files.any fun other => here.isPrefixOf other.1) = true :=
      List.any_eq_true.mpr ⟨entry, hentry, List.isPrefixOf_iff_prefix.mpr hway⟩
    rw [at?, hlookup]
    exact if_pos hany
  | some node =>
    have hdirectory : node = .directory := Node.eq_directory fun hfile => by
      obtain ⟨hsame, -⟩ := htree.leaf _ (mem_of_lookup hlookup) hfile entry hentry hway
      rw [hsame] at hplace
      exact hrest (List.append_right_eq_self.mp hplace)
    rw [at?, hlookup, hdirectory]

theorem walk (path : String) {here rest : List String} (hplace : here ++ rest = entry.1) :
    ∃ node, files.walk path here rest = .ok (entry.1, node) ∧
      (entry.2.isFile = true → node.isFile = true) := by
  induction rest generalizing here with
  | nil =>
    rw [List.append_nil] at hplace
    subst hplace
    obtain ⟨node, hat, hfile⟩ := htree.at?_eq hentry
    exact ⟨node, by rw [Files.walk, hat], hfile⟩
  | cons name rest ih =>
    have hmem : name ∈ entry.1 :=
      hplace ▸ List.mem_append_right here List.mem_cons_self
    obtain ⟨hdots, hshort, -⟩ := htree.names entry hentry name hmem
    have hnext : (here ++ [name]) ++ rest = entry.1 := by rw [← hplace]; simp
    obtain ⟨node, hwalk, hfile⟩ := ih hnext
    refine ⟨node, ?_, hfile⟩
    rw [Files.walk, htree.at?_above hentry hplace (List.cons_ne_nil _ _)]
    simp [hdots, hshort, hwalk]

theorem find {directory path : Path} (habsolute : path.isAbsolute = true)
    (hnames : path.names = entry.1) (hshort : path.isTooLong = false) :
    ∃ node, files.find directory path = .ok (entry.1, node) ∧
      (entry.2.isFile = true → node.isFile = true) := by
  obtain ⟨node, hwalk, hfile⟩ := htree.walk hentry path.text (List.nil_append entry.1)
  refine ⟨node, ?_, hfile⟩
  simp only [Files.find, hshort, Path.join, habsolute, hnames, hwalk, Bool.false_eq_true, if_false,
    if_true]

end IsTree

/-! ## Files below a place -/

theorem mem_namesBelow_iff {here rest : List String} :
    rest ∈ files.namesBelow here ↔ ∃ node, (here ++ rest, node) ∈ files ∧ node.isFile = true := by
  unfold namesBelow
  rw [List.mem_filterMap]
  constructor
  · rintro ⟨⟨names, node⟩, hmem, hrest⟩
    have hbelow : node.isFile = true ∧ here.isPrefixOf names = true ∧
        names.drop here.length = rest := by
      cases node <;> simp_all [Node.isFile]
    obtain ⟨hfile, hway, hdrop⟩ := hbelow
    obtain ⟨more, rfl⟩ := List.isPrefixOf_iff_prefix.mp hway
    rw [List.drop_left] at hdrop
    exact ⟨node, hdrop ▸ hmem, hfile⟩
  · rintro ⟨node, hmem, hfile⟩
    have hway : here.isPrefixOf (here ++ rest) = true :=
      List.isPrefixOf_iff_prefix.mpr (List.prefix_append here rest)
    refine ⟨_, hmem, ?_⟩
    cases node with
    | directory => cases hfile
    | bytes | clip => simp [hway]

end Files

end RobotConsole.Storage
