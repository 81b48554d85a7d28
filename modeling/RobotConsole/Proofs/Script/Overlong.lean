import RobotConsole.Script.Reference

/-!
# References to numbers that are too long

A reference is replaced by the text of its variable, and a whole number of more than 4300 digits has
none. So there is one way in which replacing references stops a script: the text refers, in braces
or plainly, to a variable that holds such a number (`Overlong`). Which references a text holds is
said of the text alone. The two scans that replace them go through it character by character, and
find exactly these (`expandBraced_error_iff`, `expandPlain_error_iff`).
-/

namespace RobotConsole.Script

open Arithmetic (Value)
open Decimal (maxIntDigits)

variable {α β : Type} {e : ScriptError}
variable {bindings : Dict Value} {cs name rest seen tail : List Char} {c : Char}

/-- A number with more digits than can be written. -/
def Unwritable (v : Value) : Prop :=
  ∃ n, v = .int n ∧ maxIntDigits < (Nat.toDigits 10 n.natAbs).length

theorem text?_eq_none_iff {v : Value} : v.text? = none ↔ Unwritable v := by
  unfold Unwritable
  cases v with
  | int n =>
    show Arithmetic.intText? n = none ↔ _
    unfold Arithmetic.intText?
    simp
  | real | complex | text | emptyTuple | ellipsis => simp [Value.text?]

/-- A name that a reference can hold. -/
structure IsName (name : List Char) : Prop where
  nonempty : name ≠ []
  word : ∀ c ∈ name, Text.isWordChar c = true

/-- A reference in braces to a name stands in a text. -/
structure RefersBraced (cs name : List Char) : Prop where
  isName : IsName name
  stands : '$' :: '{' :: (name ++ ['}']) <:+: cs

/-- A plain reference to a name stands in a text. The name is as long as it can be. -/
structure RefersPlain (cs name : List Char) : Prop where
  isName : IsName name
  stands : ∃ before rest, cs = before ++ '$' :: (name ++ rest) ∧
    ∀ c ∈ rest.head?, Text.isWordChar c = false

/-- The name of a variable that holds a number that is too long to write. -/
def HoldsUnwritable (bindings : Dict Value) (name : List Char) : Prop :=
  ∃ v, Dict.get? bindings (String.ofList name) = some v ∧ Unwritable v

/-- A text with a reference to a number that is too long to write, in braces or plain. Plain
references are looked for when those in braces have been replaced. -/
inductive Overlong (bindings : Dict Value) (text : String) : Prop
  | braced {name : List Char} : RefersBraced text.toList name → HoldsUnwritable bindings name →
      Overlong bindings text
  | plain {cs name : List Char} : expandBraced bindings .outside text.toList = .ok cs →
      RefersPlain cs name → HoldsUnwritable bindings name → Overlong bindings text

theorem referenceText_error_iff :
    referenceText bindings name = .error e ↔
      e = .tooLongToWrite ∧ HoldsUnwritable bindings name := by
  unfold referenceText HoldsUnwritable
  cases Dict.get? bindings (String.ofList name) with
  | none => simp
  | some v =>
    dsimp only
    cases htext : v.text? with
    | some text =>
      have hnot : ¬ Unwritable v := fun h => by
        rw [text?_eq_none_iff.mpr h] at htext
        cases htext
      simp [hnot]
    | none =>
      have hv : Unwritable v := text?_eq_none_iff.mp htext
      simp [hv, eq_comm]

/-- The word characters that a text starts with are found in one way, if there are no more of them
after that. -/
theorem run_unique {run rest' : List Char} (hname : ∀ c ∈ name, Text.isWordChar c = true)
    (hrun : ∀ c ∈ run, Text.isWordChar c = true)
    (hrest : ∀ c ∈ rest.head?, Text.isWordChar c = false)
    (hrest' : ∀ c ∈ rest'.head?, Text.isWordChar c = false) (h : name ++ rest = run ++ rest') :
    name = run ∧ rest = rest' := by
  have htake {front back : List Char} (hfront : ∀ c ∈ front, Text.isWordChar c = true)
      (hback : ∀ c ∈ back.head?, Text.isWordChar c = false) :
      (front ++ back).takeWhile Text.isWordChar = front := by
    rw [List.takeWhile_append_of_pos hfront]
    cases back with
    | nil => simp
    | cons c back => simp [hback c rfl]
  have hsame : name = run := by
    rw [← htake hname hrest, h, htake hrun hrest']
  subst hsame
  exact ⟨rfl, List.append_cancel_left h⟩

theorem bind_error_iff {x : Except ScriptError α} {f : α → Except ScriptError β} :
    x >>= f = .error e ↔ x = .error e ∨ ∃ a, x = .ok a ∧ f a = .error e := by
  cases x with
  | error e' => simp [Bind.bind, Except.bind]
  | ok a => simp [Bind.bind, Except.bind]

theorem map_error_iff {x : Except ScriptError α} {f : α → β} :
    (do return f (← x)) = .error e ↔ x = .error e := by
  rw [bind_error_iff]
  constructor
  · rintro (h | ⟨a, _, h⟩)
    · exact h
    · cases h
  · exact Or.inl

theorem sequence_error_iff {γ : Type} {x : Except ScriptError α} {y : Except ScriptError β}
    {f : α → β → γ} {P Q : Prop} (hx : ∀ e, x = .error e ↔ e = .tooLongToWrite ∧ P)
    (hy : y = .error e ↔ e = .tooLongToWrite ∧ Q) :
    (do
      let a ← x
      return f a (← y)) = .error e ↔ e = .tooLongToWrite ∧ (P ∨ Q) := by
  cases x with
  | error e' =>
    obtain ⟨rfl, hP⟩ := (hx e').mp rfl
    simp [Bind.bind, Except.bind, hP, eq_comm]
  | ok a =>
    have hP : ¬ P := by
      intro h
      cases (hx .tooLongToWrite).mpr ⟨rfl, h⟩
    show (do return f a (← y)) = .error e ↔ _
    rw [map_error_iff, hy, or_iff_right hP]

theorem refersBraced_skip (run : List Char) (hrun : '$' ∉ run) :
    RefersBraced (run ++ tail) name ↔ RefersBraced tail name := by
  induction run with
  | nil => rfl
  | cons c run ih =>
    have hc : '$' ≠ c := List.ne_of_not_mem_cons hrun
    replace hrun : '$' ∉ run := List.not_mem_of_not_mem_cons hrun
    rw [← ih hrun]
    constructor
    · rintro ⟨hname, hstands⟩
      rcases List.infix_cons_iff.mp hstands with hfirst | hlater
      · exact absurd (List.cons_prefix_cons.mp hfirst).1 hc
      · exact ⟨hname, hlater⟩
    · rintro ⟨hname, hstands⟩
      exact ⟨hname, List.infix_cons hstands⟩

/-- The name seen so far is made of word characters. -/
def Braced.Sound : Braced → Prop
  | .name seen => ∀ c ∈ seen, Text.isWordChar c = true
  | _ => True

/-- With this character, what has been seen is no reference after all. -/
def Braced.Breaks (c : Char) : Braced → Prop
  | .outside => True
  | .dollar => c ≠ '{'
  | .name seen => Text.isWordChar c = false ∧ ¬ (c = '}' ∧ seen ≠ [])

/-- What follows an opening brace: a reference with the name that ends there, or one further on. -/
theorem refersBraced_name
    (hseen : ∀ c ∈ seen, Text.isWordChar c = true) (hc : Text.isWordChar c = false) :
    RefersBraced ('$' :: '{' :: (seen ++ c :: rest)) name ↔
      (IsName name ∧ name = seen ∧ c = '}') ∨ RefersBraced (c :: rest) name := by
  have hdollar : Text.isWordChar '$' = false := by decide
  have hclose : Text.isWordChar '}' = false := by decide
  have hskip : '$' ∉ '{' :: seen := by
    intro hmem
    rcases List.mem_cons.mp hmem with h | h
    · cases h
    · rw [hseen _ h] at hdollar
      cases hdollar
  have hrest : RefersBraced ('{' :: (seen ++ c :: rest)) name ↔ RefersBraced (c :: rest) name :=
    refersBraced_skip _ hskip
  constructor
  · rintro ⟨hname, hstands⟩
    rcases List.infix_cons_iff.mp hstands with hfirst | hlater
    · -- the name of a reference that starts here is the whole stretch of word characters
      obtain ⟨tail, htail⟩ := (List.cons_prefix_cons.mp (List.cons_prefix_cons.mp hfirst).2).2
      rw [List.append_assoc] at htail
      obtain ⟨heq, hends⟩ := run_unique hname.word hseen (by simp [hclose]) (by simp [hc]) htail
      exact .inl ⟨hname, heq, (List.cons.inj hends).1.symm⟩
    · exact .inr (hrest.mp ⟨hname, hlater⟩)
  · rintro (⟨hname, rfl, rfl⟩ | h)
    · exact ⟨hname, List.IsPrefix.isInfix ⟨rest, by simp⟩⟩
    · obtain ⟨hname, hstands⟩ := hrest.mpr h
      exact ⟨hname, List.infix_cons hstands⟩

/-- What is no reference after all holds none, so the search starts afresh. -/
theorem refersBraced_breaks {state : Braced}
    (hstate : state.Sound) (hbreaks : state.Breaks c) :
    RefersBraced (state.held ++ c :: rest) name ↔ RefersBraced (c :: rest) name := by
  cases state with
  | outside => rfl
  | dollar =>
    constructor
    · rintro ⟨hname, hstands⟩
      rcases List.infix_cons_iff.mp hstands with hfirst | hlater
      · have hnext := (List.cons_prefix_cons.mp hfirst).2
        exact absurd (List.cons_prefix_cons.mp hnext).1.symm hbreaks
      · exact ⟨hname, hlater⟩
    · rintro ⟨hname, hstands⟩
      exact ⟨hname, List.infix_cons hstands⟩
  | name seen =>
    have hseen : ∀ c ∈ seen.reverse, Text.isWordChar c = true := fun c hc =>
      hstate c (List.mem_reverse.mp hc)
    refine (refersBraced_name hseen hbreaks.1).trans ⟨?_, Or.inr⟩
    rintro (⟨hname, rfl, hc⟩ | h)
    · exact absurd ⟨hc, fun h => hname.nonempty (by rw [h]; rfl)⟩ hbreaks.2
    · exact h

/-- A name that a closing brace ends is a reference, and the next one is sought after it. -/
theorem refersBraced_complete (hseen : IsName seen) :
    RefersBraced ('$' :: '{' :: (seen ++ '}' :: rest)) name ↔
      name = seen ∨ RefersBraced rest name := by
  refine (refersBraced_name hseen.word (by decide)).trans (or_congr ?_ ?_)
  · exact ⟨fun h => h.2.1, fun h => ⟨h ▸ hseen, h, rfl⟩⟩
  · exact refersBraced_skip ['}'] (by decide)

/-- What is held back holds no closing brace, so it holds no reference. -/
theorem not_refersBraced_held {state : Braced} (hstate : state.Sound) (name : List Char) :
    ¬ RefersBraced state.held name := by
  have hclose : '}' ∉ state.held := by
    cases state with
    | outside | dollar => simp [Braced.held]
    | name seen =>
      intro hmem
      have hword := hstate '}' (by simpa [Braced.held] using hmem)
      cases hword
  rintro ⟨_, hstands⟩
  exact hclose (hstands.subset (by simp))

/-- The scan for references in braces, by induction on the text. What is held back counts as text
that has yet to be searched. -/
theorem expandBraced_error_iff {state : Braced}
    (hstate : state.Sound) :
    expandBraced bindings state cs = .error e ↔ e = .tooLongToWrite ∧
      ∃ name, RefersBraced (state.held ++ cs) name ∧ HoldsUnwritable bindings name := by
  induction cs generalizing state with
  | nil =>
    constructor
    · intro h
      cases h
    · rintro ⟨_, name, hname, _⟩
      rw [List.append_nil] at hname
      exact absurd hname (not_refersBraced_held hstate name)
  | cons c rest ih =>
    have hafresh : state.Breaks c → ((if c == '$'
        then do return state.held ++ (← expandBraced bindings .dollar rest)
        else do return state.held ++ c :: (← expandBraced bindings .outside rest)) = .error e ↔
      e = .tooLongToWrite ∧ ∃ name, RefersBraced (state.held ++ c :: rest) name ∧
        HoldsUnwritable bindings name) := by
      intro hbreaks
      simp only [refersBraced_breaks hstate hbreaks]
      by_cases hc : c = '$'
      · subst hc
        rw [if_pos (by rfl), map_error_iff]
        exact ih trivial
      · have hskip : ∀ name, RefersBraced (c :: rest) name ↔ RefersBraced rest name := fun name =>
          refersBraced_skip [c] (by simpa using Ne.symm hc)
        rw [if_neg (by simpa using hc), map_error_iff]
        simp only [hskip]
        exact ih trivial
    unfold expandBraced
    dsimp only
    cases state with
    | outside => exact hafresh trivial
    | dollar =>
      dsimp only
      split
      · rename_i hc
        rw [beq_iff_eq.mp hc]
        exact ih (by simp [Braced.Sound])
      · rename_i hc
        exact hafresh (by simpa [Braced.Breaks] using hc)
    | name seen =>
      dsimp only
      split
      · rename_i hc
        have hheld : (Braced.name seen).held ++ c :: rest =
            (Braced.name (c :: seen)).held ++ rest := by simp [Braced.held]
        rw [hheld]
        exact ih (List.forall_mem_cons.mpr ⟨hc, hstate⟩)
      rename_i hword
      split
      · -- the reference is complete: its own text may be missing, or that of a later one
        rename_i hends
        obtain ⟨rfl, hseen⟩ : c = '}' ∧ seen ≠ [] := by simpa using hends
        have hname : IsName seen.reverse :=
          ⟨by simpa using hseen, fun c hc => hstate c (List.mem_reverse.mp hc)⟩
        rw [sequence_error_iff (fun _ => referenceText_error_iff) (ih (by trivial))]
        simp only [Braced.held, List.cons_append, List.nil_append, refersBraced_complete hname,
          or_and_right, exists_or, exists_eq_left]
      · rename_i hends
        refine hafresh ⟨by simpa using hword, ?_⟩
        simpa using hends

theorem RefersPlain.cons (h : RefersPlain cs name) (c : Char) :
    RefersPlain (c :: cs) name := by
  obtain ⟨hname, before, rest, rfl, hrest⟩ := h
  exact ⟨hname, c :: before, rest, rfl, hrest⟩

/-- A plain reference starts with the first character or further on. -/
theorem refersPlain_cons_iff :
    RefersPlain (c :: cs) name ↔
      (IsName name ∧ c = '$' ∧ ∃ rest, cs = name ++ rest ∧
        ∀ c ∈ rest.head?, Text.isWordChar c = false) ∨ RefersPlain cs name := by
  constructor
  · rintro ⟨hname, before, rest, heq, hrest⟩
    cases before with
    | nil =>
      obtain ⟨rfl, rfl⟩ := List.cons.inj heq
      exact .inl ⟨hname, rfl, rest, rfl, hrest⟩
    | cons b before =>
      obtain ⟨rfl, rfl⟩ := List.cons.inj heq
      exact .inr ⟨hname, before, rest, rfl, hrest⟩
  · rintro (⟨hname, rfl, rest, rfl, hrest⟩ | h)
    · exact ⟨hname, [], rest, rfl, hrest⟩
    · exact h.cons c

theorem refersPlain_skip (run : List Char) (hrun : '$' ∉ run) :
    RefersPlain (run ++ tail) name ↔ RefersPlain tail name := by
  induction run with
  | nil => rfl
  | cons c run ih =>
    have hc : '$' ≠ c := List.ne_of_not_mem_cons hrun
    replace hrun : '$' ∉ run := List.not_mem_of_not_mem_cons hrun
    rw [← ih hrun, List.cons_append, refersPlain_cons_iff]
    exact or_iff_right fun h => hc h.2.1.symm

/-- What follows a dollar sign: a reference with all the word characters there, or one further
on. -/
theorem refersPlain_dollar {run : List Char}
    (hrun : ∀ c ∈ run, Text.isWordChar c = true)
    (htail : ∀ c ∈ tail.head?, Text.isWordChar c = false) :
    RefersPlain ('$' :: (run ++ tail)) name ↔
      (IsName name ∧ name = run) ∨ RefersPlain tail name := by
  have hskip : '$' ∉ run := by
    intro hmem
    cases hrun _ hmem
  rw [refersPlain_cons_iff, refersPlain_skip run hskip]
  refine or_congr_left ⟨?_, ?_⟩
  · rintro ⟨hname, -, rest, heq, hrest⟩
    exact ⟨hname, (run_unique hrun hname.word htail hrest heq).1.symm⟩
  · rintro ⟨hname, rfl⟩
    exact ⟨hname, rfl, tail, rfl, htail⟩

/-- The characters held back while a plain reference is under way. -/
def heldPlain : Option (List Char) → List Char
  | none => []
  | some name => '$' :: name.reverse

/-- Where a name ends, it is a reference unless it is empty, and the next one is sought after it. -/
theorem exists_refersPlain_held {P : List Char → Prop}
    (hseen : ∀ c ∈ seen, Text.isWordChar c = true)
    (htail : ∀ c ∈ tail.head?, Text.isWordChar c = false) :
    (∃ name, RefersPlain (heldPlain (some seen) ++ tail) name ∧ P name) ↔
      (IsName seen.reverse ∧ P seen.reverse) ∨ ∃ name, RefersPlain tail name ∧ P name := by
  have hword : ∀ c ∈ seen.reverse, Text.isWordChar c = true := fun c hc =>
    hseen c (List.mem_reverse.mp hc)
  simp only [heldPlain, List.cons_append, refersPlain_dollar hword htail, or_and_right, exists_or]
  refine or_congr_left ⟨?_, ?_⟩
  · rintro ⟨name, ⟨hname, rfl⟩, hP⟩
    exact ⟨hname, hP⟩
  · rintro ⟨hname, hP⟩
    exact ⟨_, ⟨hname, rfl⟩, hP⟩

theorem plainText_error_iff
    (hseen : ∀ c ∈ seen, Text.isWordChar c = true) :
    plainText bindings seen = .error e ↔ e = .tooLongToWrite ∧
      (IsName seen.reverse ∧ HoldsUnwritable bindings seen.reverse) := by
  unfold plainText
  cases seen with
  | nil =>
    constructor
    · intro h
      cases h
    · rintro ⟨_, hname, _⟩
      exact absurd rfl hname.nonempty
  | cons c seen =>
    have hname : IsName (c :: seen).reverse :=
      ⟨by simp, fun c hc => hseen c (List.mem_reverse.mp hc)⟩
    rw [and_iff_right hname]
    exact referenceText_error_iff

theorem expandPlain_error_iff {seen : Option (List Char)}
    (hseen : ∀ name ∈ seen, ∀ c ∈ name, Text.isWordChar c = true) :
    expandPlain bindings seen cs = .error e ↔ e = .tooLongToWrite ∧
      ∃ name, RefersPlain (heldPlain seen ++ cs) name ∧ HoldsUnwritable bindings name := by
  have hnil : ¬ ∃ name, RefersPlain [] name ∧ HoldsUnwritable bindings name := by
    rintro ⟨name, ⟨_, before, rest, heq, _⟩, _⟩
    simp at heq
  induction cs generalizing seen with
  | nil =>
    cases seen with
    | none =>
      constructor
      · intro h
        cases h
      · rintro ⟨_, h⟩
        exact absurd h hnil
    | some seen =>
      have hword := hseen seen rfl
      rw [exists_refersPlain_held hword (by simp), or_iff_left hnil]
      exact plainText_error_iff hword
  | cons c rest ih =>
    have hskip (hc : c ≠ '$') (name : List Char) :
        RefersPlain (c :: rest) name ↔ RefersPlain rest name :=
      refersPlain_skip [c] (by simpa using Ne.symm hc)
    unfold expandPlain
    cases seen with
    | none =>
      by_cases hc : c = '$'
      · subst hc
        exact ih (by simp)
      · simp only [beq_iff_eq, hc, if_false, map_error_iff, heldPlain, List.nil_append,
          hskip hc]
        exact ih (by simp)
    | some seen =>
      have hword := hseen seen rfl
      dsimp only
      split
      · rename_i hc
        have hheld : heldPlain (some seen) ++ c :: rest =
            heldPlain (some (c :: seen)) ++ rest := by simp [heldPlain]
        rw [hheld]
        exact ih (by simpa using ⟨hc, hword⟩)
      · rename_i hc
        rw [exists_refersPlain_held hword (by simpa using hc)]
        by_cases hdollar : c = '$'
        · subst hdollar
          exact sequence_error_iff (fun _ => plainText_error_iff hword) (ih (by simp))
        · simp only [beq_iff_eq, hdollar, if_false, hskip hdollar]
          exact sequence_error_iff (fun _ => plainText_error_iff hword) (ih (by simp))

/-- References can be replaced exactly if none of them is to a number that is too long to write. -/
theorem expandText_error_iff {text : String} :
    expandText bindings text = .error e ↔ e = .tooLongToWrite ∧ Overlong bindings text := by
  have hbraced {e : ScriptError} : expandBraced bindings .outside text.toList = .error e ↔
      e = .tooLongToWrite ∧ ∃ name, RefersBraced text.toList name ∧ HoldsUnwritable bindings name :=
    expandBraced_error_iff (by trivial)
  have hplain {e : ScriptError} {cs : List Char} : expandPlain bindings none cs = .error e ↔
      e = .tooLongToWrite ∧ ∃ name, RefersPlain cs name ∧ HoldsUnwritable bindings name :=
    expandPlain_error_iff (by simp)
  unfold expandText
  rw [bind_error_iff]
  simp only [map_error_iff, hplain]
  constructor
  · rintro (h | ⟨cs, hcs, rfl, name, hname, hholds⟩)
    · obtain ⟨rfl, name, hname, hholds⟩ := hbraced.mp h
      exact ⟨rfl, .braced hname hholds⟩
    · exact ⟨rfl, .plain hcs hname hholds⟩
  · rintro ⟨rfl, hname⟩
    rcases hname with ⟨hname, hholds⟩ | ⟨hcs, hname, hholds⟩
    · exact .inl (hbraced.mpr ⟨rfl, _, hname, hholds⟩)
    · exact .inr ⟨_, hcs, rfl, _, hname, hholds⟩

end RobotConsole.Script
