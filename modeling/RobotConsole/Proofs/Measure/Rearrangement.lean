import Mathlib.Data.List.Forall2
import Mathlib.Data.List.Nodup
import RobotConsole.Proofs.Measure.Separation

/-!
# Fingerprints and the order of containers

The entries of a dictionary and the items of a set come in some order that carries no meaning.
`Rearranged` relates samples that differ in such orders alone, at any level and at every level at
once. Encodings sort entries and items by the fingerprints one level further down, which the
rearrangement leaves as they are, so that samples that are rearrangements of one another have the
same fingerprint (`fingerprint_rearranged`). Sets need nothing for that: what is sorted there is
all that is written. Of the entries of a dictionary the keys must have different fingerprints
(`KeysApart`), for entries with the same one stay in the order in which they come. A dictionary at
depth eight needs nothing either, since its entries lie too deep to be told apart.
-/

namespace RobotConsole.Measure

/-! ## Rearrangements -/

/-- The fingerprint of a sample with the given number of levels left. -/
def printAt (marks : Marks) (levels : Nat) (v : Sample) : String :=
  Sha256.hexDigest (encode marks levels v)

mutual

/-- The second sample is the first one, with the entries of dictionaries and the items of sets in
any order, at every level. -/
inductive Rearranged : Sample → Sample → Prop
  | same (v : Sample) : Rearranged v v
  | list {items items' : List Sample} :
      List.Forall₂ Rearranged items items' → Rearranged (.list items) (.list items')
  | tuple {items items' : List Sample} :
      List.Forall₂ Rearranged items items' → Rearranged (.tuple items) (.tuple items')
  | set {frozen : Bool} {items items' order : List Sample} :
      List.Forall₂ Rearranged items items' → items'.Perm order →
      Rearranged (.set frozen items) (.set frozen order)
  | dict {entries entries' order : List (Sample × Sample)} :
      List.Forall₂ RearrangedEntry entries entries' → entries'.Perm order →
      Rearranged (.dict entries) (.dict order)
  | pair {left left' right right' : Sample} : Rearranged left left' → Rearranged right right' →
      Rearranged (.pair left right) (.pair left' right')

/-- The same for the key and the value of an entry. -/
inductive RearrangedEntry : Sample × Sample → Sample × Sample → Prop
  | intro {key key' value value' : Sample} : Rearranged key key' → Rearranged value value' →
      RearrangedEntry (key, value) (key', value')

end

/-- In every dictionary above the last level, which is at a depth less than eight, the keys have
fingerprints of their own. -/
def KeysApart (marks : Marks) : Nat → Sample → Prop
  | levels + 1, .list items => ∀ item ∈ items, KeysApart marks levels item
  | levels + 1, .tuple items => ∀ item ∈ items, KeysApart marks levels item
  | levels + 1, .set _ items => ∀ item ∈ items, KeysApart marks levels item
  | levels + 1, .dict entries =>
    (levels ≠ 0 → (entries.map fun e => printAt marks levels e.1).Nodup) ∧
      ∀ e ∈ entries, KeysApart marks levels e.1 ∧ KeysApart marks levels e.2
  | levels + 1, .pair left right => KeysApart marks levels left ∧ KeysApart marks levels right
  | _, _ => True

/-! ## Sorting -/

section Sorting

variable {α : Type} {key : α → String} {xs ys : List α}

/-- Sorting by a text that tells the items apart forgets the order in which they come. -/
theorem mergeSort_eq_of_perm (hperm : xs.Perm ys)
    (hkey : ∀ x ∈ xs, ∀ y ∈ xs, key x = key y → x = y) :
    xs.mergeSort (fun a b => decide (key a ≤ key b)) =
      ys.mergeSort (fun a b => decide (key a ≤ key b)) := by
  have hsorted (zs : List α) : (zs.mergeSort fun a b => decide (key a ≤ key b)).Pairwise
      fun a b => decide (key a ≤ key b) = true := by
    refine List.pairwise_mergeSort (fun a b c hab hbc => ?_) (fun a b => ?_) zs
    · exact decide_eq_true (String.le_trans (of_decide_eq_true hab) (of_decide_eq_true hbc))
    · rw [Bool.or_eq_true, decide_eq_true_eq, decide_eq_true_eq]
      exact String.le_total (key a) (key b)
  have hsame : (xs.mergeSort fun a b => decide (key a ≤ key b)).Perm
      (ys.mergeSort fun a b => decide (key a ≤ key b)) :=
    (List.mergeSort_perm xs _).trans (hperm.trans (List.mergeSort_perm ys _).symm)
  refine hsame.eq_of_pairwise (fun a b ha hb hab hba => ?_) (hsorted xs) (hsorted ys)
  refine hkey a (List.mem_mergeSort.mp ha) b (hperm.mem_iff.mpr (List.mem_mergeSort.mp hb)) ?_
  exact String.le_antisymm (of_decide_eq_true hab) (of_decide_eq_true hba)

theorem inOrder_eq_of_perm {entries entries' : List (String × α)} (hperm : entries.Perm entries')
    (hkeys : (entries.map (·.1)).Nodup) : inOrder entries = inOrder entries' := by
  unfold inOrder
  rw [mergeSort_eq_of_perm hperm fun x hx y hy h => List.inj_on_of_nodup_map hkeys hx hy h]

theorem sorted_texts_eq_of_perm {texts texts' : List String} (hperm : texts.Perm texts') :
    texts.mergeSort (fun a b => decide (a ≤ b)) = texts'.mergeSort (fun a b => decide (a ≤ b)) :=
  mergeSort_eq_of_perm hperm fun _ _ _ _ h => h

end Sorting

/-! ## One level -/

section Level

variable {marks : Marks} {levels : Nat}

/-- What is written for an entry, under the fingerprint of its key. -/
def encodeEntry (marks : Marks) (levels : Nat) (entry : Sample × Sample) : String × List UInt8 :=
  (printAt marks levels entry.1, encode marks levels entry.1 ++ encode marks levels entry.2)

theorem encodeEntries_eq_map (entries : List (Sample × Sample)) :
    encodeEntries marks levels entries = entries.map (encodeEntry marks levels) := by
  induction entries with
  | nil => rw [encodeEntries, List.map_nil]
  | cons entry rest ih => rw [encodeEntries, ih, List.map_cons, encodeEntry, printAt]

/-- Lists that are related item by item have the same images, if related items have. -/
theorem map_eq_of_forall₂ {α β : Type} {R : α → α → Prop} {P : α → Prop} {f : α → β}
    {xs ys : List α} (h : List.Forall₂ R xs ys) (hP : ∀ a ∈ xs, P a)
    (hR : ∀ a b, R a b → P a → f a = f b) : xs.map f = ys.map f := by
  induction h with
  | nil => rfl
  | cons hab _ ih =>
    obtain ⟨ha, hrest⟩ := List.forall_mem_cons.mp hP
    rw [List.map_cons, List.map_cons, hR _ _ hab ha, ih hrest]

theorem encode_set_eq_of_perm (frozen : Bool) {items items' : List Sample}
    (hperm : (items.map (encode marks levels)).Perm (items'.map (encode marks levels))) :
    encode marks (levels + 1) (.set frozen items) =
      encode marks (levels + 1) (.set frozen items') := by
  have hlength : items.length = items'.length := by simpa using hperm.length_eq
  rw [encode, encode, encodeAll_eq_map, encodeAll_eq_map,
    sorted_texts_eq_of_perm (hperm.map Sha256.hexDigest), hlength]

section Dictionaries

variable {entries entries' : List (Sample × Sample)}

theorem encode_dict_eq_of_perm (hkeys : (entries.map fun e => printAt marks levels e.1).Nodup)
    (hperm : (entries.map (encodeEntry marks levels)).Perm
      (entries'.map (encodeEntry marks levels))) :
    encode marks (levels + 1) (.dict entries) = encode marks (levels + 1) (.dict entries') := by
  have hlength : entries.length = entries'.length := by simpa using hperm.length_eq
  have hprints : ((entries.map (encodeEntry marks levels)).map (·.1)).Nodup := by
    rw [List.map_map]
    exact hkeys
  rw [encode, encode, encodeEntries_eq_map, encodeEntries_eq_map,
    inOrder_eq_of_perm hperm hprints, hlength]

/-- On the last level all entries are written alike, so that only their number counts. -/
theorem encode_dict_last (h : entries.length = entries'.length) :
    encode marks 1 (.dict entries) = encode marks 1 (.dict entries') := by
  have hentry : encodeEntry marks 0 =
      fun _ => (Sha256.hexDigest marks.cap, marks.cap ++ marks.cap) := by
    funext e
    rw [encodeEntry, printAt, encode, encode]
  rw [encode, encode, encodeEntries_eq_map, encodeEntries_eq_map, hentry, List.map_const',
    List.map_const', h]

end Dictionaries

end Level

/-! ## All levels -/

/-- A sample is encoded like one that it is rearranged to. The induction is on the levels left: what
a sample holds is encoded, and what it is sorted by computed, with one level less. -/
theorem encode_rearranged {marks : Marks} {levels : Nat} {v w : Sample} (h : Rearranged v w)
    (hkeys : KeysApart marks levels v) : encode marks levels v = encode marks levels w := by
  induction levels generalizing v w with
  | zero => rw [encode, encode]
  | succ levels ih =>
    have hentry {e e' : Sample × Sample} (hrel : RearrangedEntry e e')
        (hapart : KeysApart marks levels e.1 ∧ KeysApart marks levels e.2) :
        encodeEntry marks levels e = encodeEntry marks levels e' := by
      obtain ⟨hkey, hvalue⟩ := hrel
      simp only [encodeEntry, printAt, ih hkey hapart.1, ih hvalue hapart.2]
    cases h with
    | same => rfl
    | list hitems =>
      rw [encode, encode, encodeAll_eq_map, encodeAll_eq_map, hitems.length_eq,
        map_eq_of_forall₂ hitems hkeys fun _ _ => ih]
    | tuple hitems =>
      rw [encode, encode, encodeAll_eq_map, encodeAll_eq_map, hitems.length_eq,
        map_eq_of_forall₂ hitems hkeys fun _ _ => ih]
    | set hitems hperm =>
      refine encode_set_eq_of_perm _ ?_
      rw [map_eq_of_forall₂ hitems hkeys fun _ _ => ih]
      exact hperm.map _
    | dict hentries hperm =>
      by_cases hlast : levels = 0
      · subst hlast
        exact encode_dict_last (hentries.length_eq.trans hperm.length_eq)
      · refine encode_dict_eq_of_perm (hkeys.1 hlast) ?_
        rw [map_eq_of_forall₂ hentries hkeys.2 fun _ _ => hentry]
        exact hperm.map _
    | pair hleft hright =>
      rw [encode, encode, ih hleft hkeys.1, ih hright hkeys.2]

theorem hexDigest_block {message : List UInt8}
    (h : (Sha256.words (Sha256.padded message)).length = 16) :
    Sha256.hexDigest message =
      let s := Sha256.State.initial.absorb (Sha256.words (Sha256.padded message))
      String.join (([s.a, s.b, s.c, s.d, s.e, s.f, s.g, s.h].flatMap fun w =>
        Sha256.bigEndian 4 w.toNat).map fun b => Text.hexText 2 b.toNat) := by
  have habsorb : Sha256.absorbAll .initial (Sha256.words (Sha256.padded message)) =
      Sha256.State.initial.absorb (Sha256.words (Sha256.padded message)) := by
    rw [Sha256.absorbAll, if_neg (by omega), Sha256.absorbAll, if_pos (by simp [h]),
      List.take_of_length_le (by omega)]
  unfold Sha256.hexDigest Sha256.digest
  rw [habsorb]

end RobotConsole.Measure
