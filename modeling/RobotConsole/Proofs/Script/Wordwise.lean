import RobotConsole.Proofs.Script.Comment
import RobotConsole.Proofs.Script.Conditions

/-!
# Lines word by word

A space belongs to no reference: it ends the name of a plain one, and with a space between them two
braces hold no name. So both scans that replace references can be parted at a space, the second one
also where the values that the first one has put in hold dollar signs and braces of their own, and a
line comes out as its pieces between spaces do, with spaces between them
(`line_expanded_word_by_word`). A piece asks for certain variables (`Consults`), and what the others
hold has no part in what it comes out as (`expandText_congr`).
-/

namespace RobotConsole.Script

open Arithmetic (Value)

/-! ## Pieces of a line -/

/-- The pieces of a line between its spaces. -/
def spaceWords (line : String) : List String :=
  (Text.splitOnChar ' ' line.toList).map String.ofList

theorem splitOnChar_ne_nil (mark : Char) (cs : List Char) : Text.splitOnChar mark cs ≠ [] := by
  fun_cases Text.splitOnChar mark cs <;> simp

theorem intercalate_splitOnChar (mark : Char) (cs : List Char) :
    List.intercalate [mark] (Text.splitOnChar mark cs) = cs := by
  induction cs with
  | nil => rfl
  | cons c rest ih =>
    obtain ⟨piece, more, hpieces⟩ := List.exists_cons_of_ne_nil (splitOnChar_ne_nil mark rest)
    rw [hpieces] at ih
    by_cases hc : c = mark
    · simp [Text.splitOnChar, hpieces, hc, List.intercalate_cons_cons, ih]
    · cases more with
      | nil => simpa [Text.splitOnChar, hpieces, hc] using ih
      | cons next more =>
        simpa [Text.splitOnChar, hpieces, hc, List.intercalate_cons_cons] using ih

theorem notMem_of_mem_splitOnChar {mark : Char} {cs piece : List Char}
    (h : piece ∈ Text.splitOnChar mark cs) : mark ∉ piece := by
  induction cs generalizing piece with
  | nil => simp_all [Text.splitOnChar]
  | cons c rest ih =>
    obtain ⟨first, more, hpieces⟩ := List.exists_cons_of_ne_nil (splitOnChar_ne_nil mark rest)
    rw [hpieces] at ih
    have hfirst : mark ∉ first := ih List.mem_cons_self
    by_cases hc : c = mark
    · simp only [Text.splitOnChar, hc, beq_self_eq_true, if_true, hpieces] at h
      rcases List.mem_cons.mp h with rfl | h
      · simp
      · exact ih h
    · simp only [Text.splitOnChar, beq_iff_eq, hc, if_false, hpieces] at h
      rcases List.mem_cons.mp h with rfl | h
      · simpa using ⟨Ne.symm hc, hfirst⟩
      · exact ih (List.mem_cons_of_mem _ h)

theorem space_notMem_spaceWords {line piece : String} (h : piece ∈ spaceWords line) :
    ' ' ∉ piece.toList := by
  obtain ⟨cs, hcs, rfl⟩ := List.mem_map.mp h
  rw [String.toList_ofList]
  exact notMem_of_mem_splitOnChar hcs

theorem intercalate_spaceWords (line : String) :
    String.intercalate " " (spaceWords line) = line := by
  apply String.toList_injective
  have hid : String.toList ∘ String.ofList = id := funext fun cs => String.toList_ofList
  rw [String.toList_intercalate, spaceWords, List.map_map, hid, List.map_id]
  exact intercalate_splitOnChar ' ' line.toList

section Joining

variable {m : Type → Type} [Monad m] [LawfulMonad m] {expand : String → m String}

/-- What can be parted at one space can be parted at all of them. -/
theorem intercalate_of_space (hnil : expand "" = pure "")
    (hspace : ∀ s t, expand (s ++ " " ++ t) = (do
      let front ← expand s
      let back ← expand t
      return front ++ " " ++ back)) (pieces : List String) :
    expand (String.intercalate " " pieces) = (do
      let words ← pieces.mapM expand
      return String.intercalate " " words) := by
  induction pieces with
  | nil => simp [hnil]
  | cons piece pieces ih =>
    cases pieces with
    | nil => simp
    | cons next pieces =>
      rw [String.intercalate_cons_cons, hspace, ih]
      simp

end Joining

/-! ## Parting a line at a space -/

section Space

variable {bindings : Dict Value} {e : ScriptError}

theorem expandText_of_braced {text : String} {cs : List Char}
    (h : expandBraced bindings .outside text.toList = .ok cs) :
    expandText bindings text = (expandPlain bindings none cs).map String.ofList := by
  unfold expandText
  rw [h]
  show (do return String.ofList (← expandPlain bindings none cs)) = _
  cases expandPlain bindings none cs <;> rfl

theorem expandText_of_braced_error {text : String}
    (h : expandBraced bindings .outside text.toList = .error e) :
    expandText bindings text = .error e := by
  unfold expandText
  rw [h]
  rfl

/-- The second scan goes over what the first one has put in, and still stays on one side of the
space. -/
theorem expandText_space (bindings : Dict Value) (s t : String) :
    expandText bindings (s ++ " " ++ t) = (do
      let front ← expandText bindings s
      let back ← expandText bindings t
      return front ++ " " ++ back) := by
  have hchars : (s ++ " " ++ t).toList = s.toList ++ ' ' :: t.toList := by simp
  have hbraced := expandBraced_blank bindings (show Text.isBlank ' ' = true by decide) t.toList
    .outside s.toList
  rw [← hchars] at hbraced
  cases hs : expandBraced bindings .outside s.toList with
  | error e =>
    rw [hs] at hbraced
    rw [expandText_of_braced_error hbraced, expandText_of_braced_error hs]
    rfl
  | ok front =>
    cases ht : expandBraced bindings .outside t.toList with
    | error e =>
      rw [hs, ht] at hbraced
      rw [expandText_of_braced_error hbraced, expandText_of_braced_error ht]
      -- the front is scanned twice before the rest is, and can only stop in the same way
      cases hfront : expandText bindings s with
      | error e' =>
        have he := (expandText_error_iff.mp (expandText_of_braced_error ht)).1
        rw [he, (expandText_error_iff.mp hfront).1]
        rfl
      | ok text => rfl
    | ok back =>
      rw [hs, ht] at hbraced
      rw [expandText_of_braced hbraced, expandText_of_braced hs, expandText_of_braced ht,
        expandPlain_blank bindings (by decide)]
      cases expandPlain bindings none front with
      | error e => rfl
      | ok text =>
        cases expandPlain bindings none back with
        | error e => rfl
        | ok more =>
          show Except.ok (String.ofList (text ++ ' ' :: more)) =
            .ok (String.ofList text ++ " " ++ String.ofList more)
          simp [String.append_assoc]

theorem expandText_intercalate (bindings : Dict Value) (pieces : List String) :
    expandText bindings (String.intercalate " " pieces) = (do
      let words ← pieces.mapM (expandText bindings)
      return String.intercalate " " words) := by
  have hnil : expandText bindings "" = pure "" := rfl
  exact intercalate_of_space hnil (expandText_space bindings) pieces

end Space

/-! ## The variables that a piece asks for -/

/-- A text asks for a variable, in braces or plainly. Plain references are looked for when those in
braces have been replaced. -/
inductive Consults (bindings : Dict Value) (text : String) (name : List Char) : Prop
  | braced : RefersBraced text.toList name → Consults bindings text name
  | plain {cs : List Char} : expandBraced bindings .outside text.toList = .ok cs →
      RefersPlain cs name → Consults bindings text name

/-- Two stores hold the same under some names. -/
def AgreeOn (names : List Char → Prop) (bindings bindings' : Dict Value) : Prop :=
  ∀ name, names name →
    Dict.get? bindings (String.ofList name) = Dict.get? bindings' (String.ofList name)

section Consulting

variable {bindings bindings' : Dict Value}

theorem AgreeOn.mono {names names' : List Char → Prop} (h : AgreeOn names bindings bindings')
    (hsub : ∀ name, names' name → names name) : AgreeOn names' bindings bindings' :=
  fun name hname => h name (hsub name hname)

theorem AgreeOn.referenceText {names : List Char → Prop} (h : AgreeOn names bindings bindings')
    {name : List Char} (hname : names name) :
    referenceText bindings name = referenceText bindings' name := by
  unfold Script.referenceText
  rw [h name hname]

theorem expandBraced_congr {state : Braced} {cs : List Char} (hstate : state.Sound)
    (h : AgreeOn (RefersBraced (state.held ++ cs)) bindings bindings') :
    expandBraced bindings state cs = expandBraced bindings' state cs := by
  induction cs generalizing state with
  | nil => rfl
  | cons c rest ih =>
    -- a character that goes on with no reference starts the search afresh
    have hafresh (hbreaks : state.Breaks c) :
        (if c == '$' then do return state.held ++ (← expandBraced bindings .dollar rest)
          else do return state.held ++ c :: (← expandBraced bindings .outside rest)) =
        (if c == '$' then do return state.held ++ (← expandBraced bindings' .dollar rest)
          else do return state.held ++ c :: (← expandBraced bindings' .outside rest)) := by
      replace h : AgreeOn (RefersBraced (c :: rest)) bindings bindings' :=
        h.mono fun name => (refersBraced_breaks hstate hbreaks).mpr
      by_cases hc : c = '$'
      · subst hc
        have hrest : expandBraced bindings .dollar rest = expandBraced bindings' .dollar rest :=
          ih (by trivial) h
        simp [hrest]
      · have hrest : expandBraced bindings .outside rest = expandBraced bindings' .outside rest :=
          ih (by trivial) (h.mono fun name =>
            (refersBraced_skip [c] (by simpa using Ne.symm hc)).mpr)
        simp [hc, hrest]
    unfold expandBraced
    dsimp only
    cases state with
    | outside => exact hafresh trivial
    | dollar =>
      dsimp only
      split
      · rename_i hc
        rw [beq_iff_eq.mp hc] at h
        exact ih (by simp [Braced.Sound]) h
      · rename_i hc
        exact hafresh (by simpa [Braced.Breaks] using hc)
    | name seen =>
      dsimp only
      split
      · rename_i hc
        have hheld : (Braced.name seen).held ++ c :: rest =
            (Braced.name (c :: seen)).held ++ rest := by simp [Braced.held]
        rw [hheld] at h
        exact ih (List.forall_mem_cons.mpr ⟨hc, hstate⟩) h
      rename_i hword
      split
      · rename_i hends
        obtain ⟨rfl, hseen⟩ : c = '}' ∧ seen ≠ [] := by simpa using hends
        have hname : IsName seen.reverse :=
          ⟨by simpa using hseen, fun c hc => hstate c (List.mem_reverse.mp hc)⟩
        have hrest : expandBraced bindings .outside rest =
            expandBraced bindings' .outside rest :=
          ih (by trivial) (h.mono fun name hlater =>
            (refersBraced_complete hname).mpr (.inr hlater))
        rw [h.referenceText ((refersBraced_complete hname).mpr (.inl rfl)), hrest]
      · rename_i hends
        refine hafresh ⟨by simpa using hword, ?_⟩
        simpa using hends

theorem expandPlain_congr {seen : Option (List Char)} {cs : List Char}
    (hseen : ∀ name ∈ seen, ∀ c ∈ name, Text.isWordChar c = true)
    (h : AgreeOn (RefersPlain (heldPlain seen ++ cs)) bindings bindings') :
    expandPlain bindings seen cs = expandPlain bindings' seen cs := by
  -- where a name ends, its text is the same, and the search goes on after it
  have hended {name tail : List Char} (hname : ∀ c ∈ name, Text.isWordChar c = true)
      (htail : ∀ c ∈ tail.head?, Text.isWordChar c = false)
      (h : AgreeOn (RefersPlain (heldPlain (some name) ++ tail)) bindings bindings') :
      plainText bindings name = plainText bindings' name ∧
        AgreeOn (RefersPlain tail) bindings bindings' := by
    have hword : ∀ c ∈ name.reverse, Text.isWordChar c = true := fun c hc =>
      hname c (List.mem_reverse.mp hc)
    refine ⟨?_, h.mono fun _ hlater => (refersPlain_dollar hword htail).mpr (.inr hlater)⟩
    unfold plainText
    split
    · rfl
    · rename_i hne
      have hisName : IsName name.reverse := ⟨by simpa using hne, hword⟩
      exact h.referenceText ((refersPlain_dollar hword htail).mpr (.inl ⟨hisName, rfl⟩))
  induction cs generalizing seen with
  | nil =>
    cases seen with
    | none => rfl
    | some name => exact (hended (hseen name rfl) (by simp) h).1
  | cons c rest ih =>
    have hafter (h : AgreeOn (RefersPlain (c :: rest)) bindings bindings') :
        (c = '$' → expandPlain bindings (some []) rest = expandPlain bindings' (some []) rest) ∧
        (c ≠ '$' → expandPlain bindings none rest = expandPlain bindings' none rest) := by
      refine ⟨?_, fun hc => ?_⟩
      · rintro rfl
        exact ih (by simp) h
      · exact ih (by simp) (h.mono fun name =>
          (refersPlain_skip [c] (by simpa using Ne.symm hc)).mpr)
    unfold expandPlain
    cases seen with
    | none =>
      obtain ⟨hdollar, hother⟩ := hafter h
      by_cases hc : c = '$'
      · simp [hc, hdollar hc]
      · simp [hc, hother hc]
    | some name =>
      have hname := hseen name rfl
      dsimp only
      split
      · rename_i hc
        have hheld : heldPlain (some name) ++ c :: rest =
            heldPlain (some (c :: name)) ++ rest := by simp [heldPlain]
        rw [hheld] at h
        exact ih (by simpa using ⟨hc, hname⟩) h
      · rename_i hc
        obtain ⟨htext, hlater⟩ := hended hname (by simpa using hc) h
        obtain ⟨hdollar, hother⟩ := hafter hlater
        rw [htext]
        by_cases hc : c = '$'
        · simp [hc, hdollar hc]
        · simp [hc, hother hc]

/-- A text comes out the same if the variables that it asks for hold the same. -/
theorem expandText_congr {text : String} (h : AgreeOn (Consults bindings text) bindings bindings') :
    expandText bindings text = expandText bindings' text := by
  have hbraced : expandBraced bindings .outside text.toList =
      expandBraced bindings' .outside text.toList :=
    expandBraced_congr (by trivial) (h.mono fun _ => .braced)
  cases hcs : expandBraced bindings .outside text.toList with
  | error e => rw [expandText_of_braced_error hcs, expandText_of_braced_error (hbraced ▸ hcs)]
  | ok cs =>
    have hplain : expandPlain bindings none cs = expandPlain bindings' none cs :=
      expandPlain_congr (by simp) (h.mono fun _ => .plain hcs)
    rw [expandText_of_braced hcs, expandText_of_braced (hbraced ▸ hcs), hplain]

end Consulting

/-! ## Lines of a script -/

theorem expandVariables_space (s t : String) :
    expandVariables (s ++ " " ++ t) = (do
      let front ← expandVariables s
      let back ← expandVariables t
      return front ++ " " ++ back) := by
  funext state
  change (expandVariables (s ++ " " ++ t)).run state = EStateM.run _ state
  simp only [EStateM.run_bind, run_expandVariables, expandText_space]
  cases expandText state.bindings s with
  | error e => rfl
  | ok front =>
    simp only [Outcome.still]
    cases expandText state.bindings t <;> rfl

/-- A line is expanded word by word. It can be parted at any space, so it comes out as its pieces
between spaces do, and a piece comes out the same whatever the variables hold that it does not ask
for itself, also where the other pieces come out as something else. -/
theorem line_expanded_word_by_word :
    (∀ s t : String, expandVariables (s ++ " " ++ t) = (do
      let front ← expandVariables s
      let back ← expandVariables t
      return front ++ " " ++ back)) ∧
    (∀ line : String, (∀ piece ∈ spaceWords line, ' ' ∉ piece.toList) ∧
      expandVariables line = (do
        let words ← (spaceWords line).mapM expandVariables
        return String.intercalate " " words)) ∧
    ∀ (bindings bindings' : Dict Value) (left right : List String) (piece : String),
      AgreeOn (Consults bindings piece) bindings bindings' →
      expandText bindings' (String.intercalate " " (left ++ piece :: right)) = (do
        let front ← left.mapM (expandText bindings')
        let word ← expandText bindings piece
        let back ← right.mapM (expandText bindings')
        return String.intercalate " " (front ++ word :: back)) := by
  refine ⟨expandVariables_space, fun line => ⟨fun _ => space_notMem_spaceWords, ?_⟩, ?_⟩
  · have hnil : expandVariables "" = pure "" := rfl
    have hpieces := intercalate_of_space hnil expandVariables_space (spaceWords line)
    rwa [intercalate_spaceWords] at hpieces
  · intro bindings bindings' left right piece hagree
    rw [expandText_intercalate, List.mapM_append, List.mapM_cons, ← expandText_congr hagree]
    simp

/-- A store with a value under each of the names `a` and `c`. -/
def storeOf (a c : String) : Dict Value :=
  [("a", .text a), ("c", .text c)]

theorem consults_plain_c {bindings : Dict Value} {name : List Char}
    (h : Consults bindings "$c" name) : name = ['c'] := by
  rcases h with ⟨_, hstands⟩ | ⟨hcs, hplain⟩
  · have hbrace : '\x7b' ∉ "$c".toList := by decide
    exact absurd (hstands.subset (by simp)) hbrace
  · cases hcs
    have hiff : RefersPlain ('$' :: (['c'] ++ [])) name ↔
        (IsName name ∧ name = ['c']) ∨ RefersPlain [] name :=
      refersPlain_dollar (List.all_eq_true.mp (by decide)) (by simp)
    rcases hiff.mp hplain with ⟨_, hname⟩ | ⟨_, before, rest, hnil, _⟩
    · exact hname
    · simp at hnil

/-- A value that holds a reference and ends in a dollar sign, right before a space: the sign stays
alone, and the word behind the space comes out as if the value were another one. -/
theorem loose_dollar_kept_from_next_word :
    AgreeOn (Consults (storeOf "x" "1") "$c") (storeOf "x" "1") (storeOf "$\x7bc\x7d $c$" "1") ∧
      expandText (storeOf "$\x7bc\x7d $c$" "1")
        (String.intercalate " " (["say", "$\x7ba\x7d"] ++ "$c" :: [])) =
          .ok "say $\x7bc\x7d 1$ 1" := by
  have hagree : AgreeOn (Consults (storeOf "x" "1") "$c") (storeOf "x" "1")
      (storeOf "$\x7bc\x7d $c$" "1") := by
    intro name hname
    rw [consults_plain_c hname]
    rfl
  refine ⟨hagree, ?_⟩
  rw [line_expanded_word_by_word.2.2 _ _ ["say", "$\x7ba\x7d"] [] "$c" hagree]
  decide +kernel

end RobotConsole.Script
