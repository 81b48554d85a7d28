import Mathlib.Data.List.TakeWhile
import RobotConsole.Arithmetic.Reader
import RobotConsole.Proofs.Command.Rendering

/-!
# Scanning arithmetic

Every step of the scanner takes at least one character off the text, and only characters that
arithmetic is written with (`scanStep?_takes`). Two things follow. A text with any other character
has no value (`evaluate?_eq_none_of_foreign`). And the number of steps that the scanner is allowed
never runs out (`scanFrom_fuel`), so that scanning can be told without it (`scan`): what it does at
spacing (`scan_gap`), at a token (`scan_token`), where there is none (`scan_stuck`), and at the
digits of a whole number (`scan_digits`).
-/

namespace RobotConsole.Arithmetic

variable {cs : List Char} {fuel : Nat} {ts : List Token}

/-! ## What a step takes -/

/-- A character that arithmetic is written with. -/
def isCalculable (c : Char) : Bool :=
  c.isDigit || isSpacing c || "\r\n+-*/%().".toList.contains c

theorem isSpacing_iff {c : Char} : isSpacing c = true ↔ c = ' ' ∨ c = '\t' ∨ c = '\x0c' := by
  simp [isSpacing, or_assoc]

theorem isCalculable_of_isDigit {c : Char} (h : c.isDigit = true) : isCalculable c = true := by
  simp [isCalculable, h]

/-- A number takes digits and points, and at least one of them if it starts with one. -/
theorem scanNumber?_takes {c : Char} {rest more : List Char} {t : Token}
    (h : scanNumber? (c :: rest) = some (t, more)) (hc : c.isDigit = true ∨ c = '.') :
    ∃ taken, taken ≠ [] ∧ c :: rest = taken ++ more ∧ ∀ d ∈ taken, isCalculable d = true := by
  have hdigits (ds : List Char) : ∀ d ∈ ds.takeWhile Char.isDigit, isCalculable d = true :=
    fun d hd => isCalculable_of_isDigit (List.mem_takeWhile_imp hd)
  have hwhole := List.takeWhile_append_dropWhile (p := Char.isDigit) (l := c :: rest)
  unfold scanNumber? at h
  dsimp only at h
  split at h
  · rename_i fraction hpoint
    obtain ⟨_, _, hsame⟩ := Option.map_eq_some_iff.mp h
    cases hsame
    refine ⟨(c :: rest).takeWhile Char.isDigit ++ '.' :: fraction.takeWhile Char.isDigit, by simp,
      ?_, ?_⟩
    · rw [List.append_assoc, List.cons_append, List.takeWhile_append_dropWhile, ← hpoint, hwhole]
    · intro d hd
      rcases List.mem_append.mp hd with hd | hd
      · exact hdigits _ d hd
      · rcases List.mem_cons.mp hd with rfl | hd
        · decide
        · exact hdigits _ d hd
  · rename_i hpoint
    obtain ⟨_, _, hsame⟩ := Option.map_eq_some_iff.mp h
    cases hsame
    refine ⟨(c :: rest).takeWhile Char.isDigit, ?_, hwhole.symm, hdigits _⟩
    rcases hc with hc | rfl
    · simp [hc]
    · exact absurd rfl (hpoint rest)

/-- A step takes characters that arithmetic is written with, and at least one of them. -/
theorem scanStep?_takes {more : List Char} {t : Option Token}
    (h : scanStep? cs = some (t, more)) :
    ∃ taken, taken ≠ [] ∧ cs = taken ++ more ∧ ∀ c ∈ taken, isCalculable c = true := by
  have hsign {taken : List Char} (hne : taken ≠ []) (hall : taken.all isCalculable = true) :
      ∃ front, front ≠ [] ∧ taken ++ more = front ++ more ∧ ∀ c ∈ front, isCalculable c = true :=
    ⟨taken, hne, rfl, List.all_eq_true.mp hall⟩
  unfold scanStep? at h
  split at h
  case h_12 c rest _ _ _ _ _ _ _ _ _ _ =>
    split at h
    · rename_i hspacing
      cases h
      exact ⟨[c], by simp, rfl, by simp [isCalculable, hspacing]⟩
    · split at h
      · rename_i hnumber
        obtain ⟨⟨t, more⟩, hscan, hsame⟩ := Option.map_eq_some_iff.mp h
        cases hsame
        refine scanNumber?_takes hscan ?_
        simp only [Bool.or_eq_true, Bool.and_eq_true, beq_iff_eq] at hnumber
        exact hnumber.imp_right And.left
      · cases h
  case h_1 => cases h
  case h_2 => cases h; exact hsign (List.cons_ne_nil '*' ['*']) (by decide)
  case h_3 => cases h; exact hsign (List.cons_ne_nil '/' ['/']) (by decide)
  case h_4 => cases h; exact hsign (List.cons_ne_nil '+' []) (by decide)
  case h_5 => cases h; exact hsign (List.cons_ne_nil '-' []) (by decide)
  case h_6 => cases h; exact hsign (List.cons_ne_nil '*' []) (by decide)
  case h_7 => cases h; exact hsign (List.cons_ne_nil '/' []) (by decide)
  case h_8 => cases h; exact hsign (List.cons_ne_nil '%' []) (by decide)
  case h_9 => cases h; exact hsign (List.cons_ne_nil '(' []) (by decide)
  case h_10 => cases h; exact hsign (List.cons_ne_nil ')' []) (by decide)
  case h_11 => cases h; exact hsign (List.cons_ne_nil '.' ['.', '.']) (by decide)

theorem scanFrom_lineEnd {state : ScanState} {rest : List Char}
    (h : scanFrom state (fuel + 1) ('\n' :: rest) = some ts) :
    ∃ state', scanFrom state' fuel rest = some ts := by
  unfold scanFrom at h
  simp only [beq_self_eq_true, if_true] at h
  split at h
  · exact ⟨_, h⟩
  · split at h
    · exact ⟨_, h⟩
    · cases h
  · split at h
    · exact ⟨_, h⟩
    · cases h

theorem scanFrom_step {state : ScanState} {c : Char} {rest : List Char}
    (hc : c ≠ '\n') (h : scanFrom state (fuel + 1) (c :: rest) = some ts) :
    ∃ t more state' ts', scanStep? (c :: rest) = some (t, more) ∧
      scanFrom state' fuel more = some ts' := by
  unfold scanFrom at h
  simp only [beq_eq_false_iff_ne.mpr hc, Bool.false_eq_true, if_false] at h
  split at h
  · cases h
  · rename_i hstep
    exact ⟨_, _, _, _, hstep, h⟩
  · cases h
  · rename_i t more _ hstep
    cases t with
    | opening =>
      obtain ⟨_, _, hmore, _⟩ : _ ∧ ∃ ts', _ ∧ _ := by
        simpa only [Option.ite_none_right_eq_some, Option.map_eq_some_iff] using h
      exact ⟨_, _, _, _, hstep, hmore⟩
    | closing =>
      obtain ⟨_, _, hmore, _⟩ : _ ∧ ∃ ts', _ ∧ _ := by
        simpa only [Option.ite_none_left_eq_some, Option.map_eq_some_iff] using h
      exact ⟨_, _, _, _, hstep, hmore⟩
    | int | real | ellipsis | operator =>
      obtain ⟨_, hmore, _⟩ := Option.map_eq_some_iff.mp h
      exact ⟨_, _, _, _, hstep, hmore⟩

/-- What could be scanned holds only characters that arithmetic is written with. -/
theorem isCalculable_of_scanFrom {state : ScanState}
    (h : scanFrom state fuel cs = some ts) : ∀ c ∈ cs, isCalculable c = true := by
  induction fuel generalizing state cs ts with
  | zero =>
    cases cs with
    | nil => exact fun _ hc => absurd hc List.not_mem_nil
    | cons c rest => cases h
  | succ fuel ih =>
    cases cs with
    | nil => exact fun _ hc => absurd hc List.not_mem_nil
    | cons c rest =>
      by_cases hc : c = '\n'
      · subst hc
        obtain ⟨state', hrest⟩ := scanFrom_lineEnd h
        exact List.forall_mem_cons.mpr ⟨by decide, ih hrest⟩
      · obtain ⟨t, more, state', ts', hstep, hmore⟩ := scanFrom_step hc h
        obtain ⟨taken, _, hsplit, htaken⟩ := scanStep?_takes hstep
        rw [hsplit]
        exact List.forall_mem_append.mpr ⟨htaken, ih hmore⟩

theorem isCalculable_of_unifyLineEnds
    (h : ∀ c ∈ unifyLineEnds cs, isCalculable c = true) : ∀ c ∈ cs, isCalculable c = true := by
  fun_induction unifyLineEnds cs with
  | case1 rest ih =>
    have hrest := ih fun c hc => h c (List.mem_cons_of_mem _ hc)
    exact List.forall_mem_cons.mpr ⟨by decide, List.forall_mem_cons.mpr ⟨by decide, hrest⟩⟩
  | case2 rest _ ih =>
    exact List.forall_mem_cons.mpr ⟨by decide, ih fun c hc => h c (List.mem_cons_of_mem _ hc)⟩
  | case3 c rest _ _ ih =>
    exact List.forall_mem_cons.mpr
      ⟨h c List.mem_cons_self, ih fun c hc => h c (List.mem_cons_of_mem _ hc)⟩
  | case4 => exact h

theorem isCalculable_of_tokens? {s : String} (h : tokens? s = some ts) :
    ∀ c ∈ s.toList, isCalculable c = true := by
  unfold tokens? at h
  dsimp only at h
  split at h
  · have hlate := isCalculable_of_unifyLineEnds (isCalculable_of_scanFrom h)
    rw [← List.takeWhile_append_dropWhile (p := fun c => c == ' ' || c == '\t') (l := s.toList)]
    refine List.forall_mem_append.mpr ⟨fun c hc => ?_, hlate⟩
    have hblank := List.mem_takeWhile_imp hc
    simp only [Bool.or_eq_true, beq_iff_eq] at hblank
    rcases hblank with rfl | rfl <;> decide
  · cases h

theorem unifyLineEnds_of_notMem (h : '\r' ∉ cs) : unifyLineEnds cs = cs := by
  fun_induction unifyLineEnds cs with
  | case1 rest => exact absurd List.mem_cons_self h
  | case2 rest => exact absurd List.mem_cons_self h
  | case3 c rest _ _ ih => rw [ih (List.not_mem_of_not_mem_cons h)]
  | case4 => rfl

/-- A text with a character that arithmetic is not written with has no value. -/
theorem evaluate?_eq_none_of_foreign {nesting : Nat} {s : String} {c : Char} (hmem : c ∈ s.toList)
    (hc : isCalculable c = false) : evaluate? nesting s = none := by
  have htokens : tokens? s = none := by
    by_contra hsome
    obtain ⟨ts, hts⟩ := Option.ne_none_iff_exists'.mp hsome
    rw [isCalculable_of_tokens? hts c hmem] at hc
    cases hc
  unfold evaluate? read?
  rw [htokens]
  rfl

/-! ## Steps without a count -/

/-- The scanner is allowed as many steps as there are characters, and does not need more. -/
theorem scanFrom_fuel {state : ScanState} {fuel' : Nat}
    (h : cs.length ≤ fuel) (h' : cs.length ≤ fuel') :
    scanFrom state fuel cs = scanFrom state fuel' cs := by
  induction fuel generalizing state cs fuel' with
  | zero =>
    cases List.length_eq_zero_iff.mp (Nat.le_zero.mp h)
    cases fuel' <;> rfl
  | succ fuel ih =>
    cases cs with
    | nil => cases fuel' <;> rfl
    | cons c rest =>
      obtain ⟨fuel', rfl⟩ : ∃ n, fuel' = n + 1 := ⟨fuel' - 1, by simp at h'; omega⟩
      simp only [List.length_cons, Nat.add_le_add_iff_right] at h h'
      have hrest (st : ScanState) : scanFrom st fuel rest = scanFrom st fuel' rest := ih h h'
      unfold scanFrom
      cases hstep : scanStep? (c :: rest) with
      | none => simp only [hrest]
      | some next =>
        obtain ⟨t, more⟩ := next
        obtain ⟨taken, hne, hsplit, _⟩ := scanStep?_takes hstep
        have hlength : more.length ≤ rest.length := by
          have := congrArg List.length hsplit
          have := List.length_pos_iff.mpr hne
          simp only [List.length_cons, List.length_append] at *
          omega
        have hmore (st : ScanState) : scanFrom st fuel more = scanFrom st fuel' more :=
          ih (hlength.trans h) (hlength.trans h')
        cases t with
        | none => cases state <;> simp only [hrest, hmore]
        | some t => cases state <;> simp only [hrest, hmore]

/-- The brackets that are open after a token, if there are not too many or too few. -/
def bracketsAfter? (brackets : Nat) : Token → Option Nat
  | .opening => if brackets < maxBrackets then some (brackets + 1) else none
  | .closing => if brackets == 0 then none else some (brackets - 1)
  | _ => some brackets

/-- The scan with as many steps as it needs. -/
def scan (state : ScanState) (cs : List Char) : Option (List Token) :=
  scanFrom state cs.length cs

section Scan

variable {state : ScanState} {k : Nat} {c : Char} {rest more : List Char} {t : Token}

theorem scanFrom_eq_scan (h : cs.length ≤ fuel) :
    scanFrom state fuel cs = scan state cs :=
  scanFrom_fuel h (Nat.le_refl _)

theorem length_of_scanStep? {next : Option Token} (h : scanStep? (c :: rest) = some (next, more)) :
    more.length ≤ rest.length := by
  obtain ⟨taken, hne, hsplit, _⟩ := scanStep?_takes h
  have htotal := congrArg List.length hsplit
  have hpos := List.length_pos_iff.mpr hne
  simp only [List.length_cons, List.length_append] at htotal
  omega

theorem scan_gap {gap : List Char} (hgap : ∀ c ∈ gap, isSpacing c = true) (rest : List Char) :
    scan state (gap ++ rest) = scan state rest := by
  induction gap with
  | nil => rfl
  | cons c gap ih =>
    obtain ⟨hc, hgap⟩ := List.forall_mem_cons.mp hgap
    rw [← ih hgap, List.cons_append]
    unfold scan
    rcases isSpacing_iff.mp hc with rfl | rfl | rfl <;> cases state <;> rfl

theorem scan_token {k' : Nat} (hc : c ≠ '\n')
    (hstep : scanStep? (c :: rest) = some (some t, more)) (hk : bracketsAfter? k t = some k') :
    scan (.inside k) (c :: rest) = (scan (.inside k') more).map (t :: ·) := by
  rw [← scanFrom_eq_scan (length_of_scanStep? hstep), scan, List.length_cons]
  conv =>
    lhs
    unfold scanFrom
  simp only [beq_eq_false_iff_ne.mpr hc, Bool.false_eq_true, if_false, hstep]
  cases t with
  | opening =>
    obtain ⟨hroom, hsame⟩ := Option.ite_none_right_eq_some.mp hk
    cases hsame
    simp only [hroom, if_true]
  | closing =>
    obtain ⟨hopen, hsame⟩ := Option.ite_none_left_eq_some.mp hk
    cases hsame
    simp only [hopen, Bool.false_eq_true, if_false]
  | int | real | ellipsis | operator =>
    cases hk
    rfl

theorem scan_stuck (hc : c ≠ '\n') (hstep : scanStep? (c :: rest) = none) :
    scan state (c :: rest) = none := by
  rw [scan, List.length_cons]
  unfold scanFrom
  simp only [beq_eq_false_iff_ne.mpr hc, Bool.false_eq_true, if_false, hstep]

theorem scan_before (hc : c ≠ '\n') (hstep : ∀ more, scanStep? (c :: rest) ≠ some (none, more)) :
    scan .before (c :: rest) = scan (.inside 0) (c :: rest) := by
  rw [scan, scan, List.length_cons]
  unfold scanFrom
  simp only [beq_eq_false_iff_ne.mpr hc, Bool.false_eq_true, if_false]
  cases h : scanStep? (c :: rest) with
  | none => rfl
  | some next =>
    obtain ⟨t, more⟩ := next
    cases t with
    | none => exact absurd h (hstep more)
    | some t => rfl

end Scan

/-! ## The tokens of whole numbers -/

/-- Text that does not go on with a digit or a point. -/
def EndsNumber (cs : List Char) : Prop :=
  ∀ c ∈ cs.head?, c.isDigit = false ∧ c ≠ '.'

/-- The digits of a number that is not zero do not start with a zero. -/
theorem head?_toDigits {n : Nat} (h : 0 < n) : (Nat.toDigits 10 n).head? ≠ some '0' := by
  induction n using Nat.strongRecOn with
  | ind n ih =>
    by_cases hn : n < 10
    · have hsmall : ∀ m < 10, 0 < m → [Nat.digitChar m].head? ≠ some '0' := by decide
      rw [Nat.toDigits_of_lt_base hn]
      exact hsmall n hn h
    · have hstart := ih (n / 10) (by omega) (by omega)
      rw [Nat.toDigits_of_base_le (by decide) (by omega)]
      obtain ⟨d, ds, hds⟩ :=
        List.exists_cons_of_ne_nil (Nat.toDigits_ne_nil (n := n / 10) (b := 10))
      rw [hds] at hstart ⊢
      exact hstart

/-- Whether a whole number is short enough to be read and written. -/
def isWritable (n : Int) : Bool :=
  (Nat.toDigits 10 n.natAbs).length ≤ Decimal.maxIntDigits

theorem numberToken?_toDigits (n : Nat) :
    numberToken? (Nat.toDigits 10 n) none = if isWritable n then some (.int n) else none := by
  rcases Nat.eq_zero_or_pos n with rfl | hn
  · rfl
  · have hstart := head?_toDigits hn
    have hzeros : (Nat.toDigits 10 n).all (· == '0') = false := by
      obtain ⟨d, ds, hds⟩ := List.exists_cons_of_ne_nil (Nat.toDigits_ne_nil (n := n) (b := 10))
      rw [hds] at hstart ⊢
      have hd : d ≠ '0' := fun hd => hstart (congrArg some hd)
      simp [hd]
    unfold numberToken?
    by_cases hlong : Decimal.maxIntDigits < (Nat.toDigits 10 n).length
    · simp [isWritable, hzeros, hlong]
    · simp [isWritable, hzeros, hstart, hlong, Nat.not_lt.mp hlong, Decimal.digitsValue_toDigits]

theorem isDigit_of_mem_digits {n : Nat} {c : Char} (h : c ∈ Nat.toDigits 10 n) :
    c.isDigit = true :=
  Nat.isDigit_of_mem_toDigits (by decide) (by decide) h

theorem scanNumber?_toDigits (n : Nat) {rest : List Char} (hrest : EndsNumber rest) :
    scanNumber? (Nat.toDigits 10 n ++ rest) =
      if isWritable n then some (.int n, rest) else none := by
  have hnone : rest.takeWhile Char.isDigit = [] ∧ rest.dropWhile Char.isDigit = rest := by
    cases rest with
    | nil => exact ⟨rfl, rfl⟩
    | cons c rest => simp [(hrest c rfl).1]
  unfold scanNumber?
  rw [List.takeWhile_append_of_pos fun c => isDigit_of_mem_digits,
    List.dropWhile_append_of_pos fun c => isDigit_of_mem_digits, hnone.1, hnone.2, List.append_nil]
  dsimp only
  split
  · exact absurd rfl (hrest '.' rfl).2
  · rw [numberToken?_toDigits]
    split <;> rfl

theorem scanStep?_of_isDigit {c : Char} (rest : List Char) (hc : c.isDigit = true) :
    scanStep? (c :: rest) = (scanNumber? (c :: rest)).map fun next => (some next.1, next.2) := by
  have hspacing : ¬ isSpacing c = true := fun hspacing => by
    rcases isSpacing_iff.mp hspacing with rfl | rfl | rfl <;> cases hc
  unfold scanStep?
  split
  case h_12 c rest _ _ _ _ _ _ _ _ _ _ hsame =>
    cases hsame
    simp only [hspacing, hc, Bool.false_eq_true, if_false, Bool.true_or, if_true]
  case h_1 hsame => cases hsame
  all_goals
    rename_i hsame
    cases hsame
    cases hc

theorem scan_digits (k n : Nat) {rest : List Char} (hrest : EndsNumber rest) :
    scan (.inside k) (Nat.toDigits 10 n ++ rest) =
      if isWritable n then (scan (.inside k) rest).map (.int n :: ·) else none := by
  have hscan := scanNumber?_toDigits n hrest
  obtain ⟨d, ds, hds⟩ := List.exists_cons_of_ne_nil (Nat.toDigits_ne_nil (n := n) (b := 10))
  have hd : d.isDigit = true := isDigit_of_mem_digits (hds ▸ List.mem_cons_self)
  have hline : d ≠ '\n' := by
    rintro rfl
    cases hd
  rw [hds, List.cons_append] at hscan ⊢
  have hstep := scanStep?_of_isDigit (ds ++ rest) hd
  rw [hscan] at hstep
  by_cases hn : isWritable n = true
  · rw [if_pos hn] at hstep ⊢
    exact scan_token hline hstep rfl
  · rw [if_neg hn] at hstep ⊢
    exact scan_stuck hline hstep

end RobotConsole.Arithmetic
