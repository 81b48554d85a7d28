import RobotConsole.Proofs.Arithmetic.Scanning

/-!
# Formulas of whole numbers

A formula is made of operands, signs, operations and brackets, as it is written: with the brackets
that its grouping needs, or more (`Grouped`), and with spacing between its parts (`Chunk`). What it
stands for is said by recursion on it (`value?`). The evaluator works on its text. It finds the
tokens of the formula (`scan_text`), reads the tree that the formula is (`read_tokens`), and so
finds its value, if the formula is not too large in one of four ways (`Fits`): `evaluate?_text`.

An operand can be a negative number. It is written as a minus sign and digits, so it is read as an
operation of its own, wherever it stands. That makes no difference to the value, since everything
that can stand next to an operand binds it less tightly than its own sign does.
-/

namespace RobotConsole.Arithmetic

/-! ## Formulas and what they stand for -/

/-- An operation that makes whole numbers of whole numbers. -/
inductive WholeOp where
  | add
  | sub
  | mul
  | floorDiv
  | mod
  deriving DecidableEq

namespace WholeOp

/-- The operation among all operations. -/
def operator : WholeOp → Operator
  | .add => .add
  | .sub => .sub
  | .mul => .mul
  | .floorDiv => .floorDiv
  | .mod => .mod

/-- The sign of an operation. -/
def chars : WholeOp → List Char
  | .add => ['+']
  | .sub => ['-']
  | .mul => ['*']
  | .floorDiv => ['/', '/']
  | .mod => ['%']

/-- Whether an operation divides. -/
def divides : WholeOp → Bool
  | .floorDiv | .mod => true
  | _ => false

/-- The result, unless the divisor is zero. Quotients are rounded down, and remainders go with
them. -/
def result? : WholeOp → Int → Int → Option Int
  | .add, a, b => some (a + b)
  | .sub, a, b => some (a - b)
  | .mul, a, b => some (a * b)
  | .floorDiv, a, b => if b = 0 then none else some (Int.fdiv a b)
  | .mod, a, b => if b = 0 then none else some (Int.fmod a b)

theorem result?_eq_none_iff {op : WholeOp} {a b : Int} :
    op.result? a b = none ↔ op.divides = true ∧ b = 0 := by
  cases op <;> simp [result?, divides]

theorem binary?_int (op : WholeOp) (a b : Int) :
    binary? op.operator (.int a) (.int b) = (op.result? a b).map .int := by
  cases op with
  | add | sub | mul => rfl
  | floorDiv | mod =>
    simp only [binary?, operator, intOp?, result?, beq_iff_eq]
    split <;> rfl

end WholeOp

/-- A formula as it is written. -/
inductive Formula (α : Type) where
  | operand (a : α)
  | bracket (e : Formula α)
  | negate (e : Formula α)
  | binary (op : WholeOp) (left right : Formula α)

namespace Formula

variable {α β : Type}

/-- How tightly the outermost part of a formula binds. -/
def strength : Formula α → Nat
  | .binary op _ _ => op.operator.strength
  | _ => 3

/-- Brackets stand wherever the grouping needs them. -/
def Grouped : Formula α → Prop
  | .operand _ => True
  | .bracket e => e.Grouped
  | .negate e => 3 ≤ e.strength ∧ e.Grouped
  | .binary op left right =>
    (op.operator.strength ≤ left.strength ∧ left.Grouped) ∧
      (op.operator.strength < right.strength ∧ right.Grouped)

/-- The same formula with other operands. -/
def map (f : α → β) : Formula α → Formula β
  | .operand a => .operand (f a)
  | .bracket e => .bracket (e.map f)
  | .negate e => .negate (e.map f)
  | .binary op left right => .binary op (left.map f) (right.map f)

/-- The operands of a formula. -/
def operands : Formula α → List α
  | .operand a => [a]
  | .bracket e | .negate e => e.operands
  | .binary _ left right => left.operands ++ right.operands

/-- What a formula divides by. -/
def divisors : Formula α → List (Formula α)
  | .operand _ => []
  | .bracket e | .negate e => e.divisors
  | .binary op left right =>
    (if op.divides then [right] else []) ++ (left.divisors ++ right.divisors)

/-- What a formula stands for, unless it divides by zero. Brackets only group. -/
def value? : Formula Int → Option Int
  | .operand n => some n
  | .bracket e => e.value?
  | .negate e => e.value?.map (- ·)
  | .binary op left right => do op.result? (← left.value?) (← right.value?)

/-- A formula has no value exactly if something it divides by is zero. -/
theorem value?_eq_none_iff {e : Formula Int} :
    e.value? = none ↔ ∃ d ∈ e.divisors, d.value? = some 0 := by
  induction e with
  | operand n => simp [value?, divisors]
  | bracket e ih => exact ih
  | negate e ih => simp [value?, divisors, ih]
  | binary op left right ihl ihr =>
    have hdivisor : (∃ d ∈ (binary op left right).divisors, d.value? = some 0) ↔
        (op.divides = true ∧ right.value? = some 0) ∨ left.value? = none ∨
          right.value? = none := by
      rw [ihl, ihr]
      cases hop : op.divides <;> simp [divisors, hop, or_and_right, exists_or]
    rw [hdivisor]
    show (do op.result? (← left.value?) (← right.value?)) = none ↔ _
    cases left.value? with
    | none => simp
    | some a =>
      cases right.value? with
      | none => simp
      | some b => simp [WholeOp.result?_eq_none_iff]

/-! ### Grouping and size do not depend on the operands -/

theorem strength_map (f : α → β) (e : Formula α) : (e.map f).strength = e.strength := by
  cases e <;> rfl

theorem grouped_map {f : α → β} {e : Formula α} (h : e.Grouped) : (e.map f).Grouped := by
  induction e with
  | operand a => trivial
  | bracket e ih => exact ih h
  | negate e ih => exact ⟨(strength_map f e).symm ▸ h.1, ih h.2⟩
  | binary op left right ihl ihr =>
    exact ⟨⟨(strength_map f left).symm ▸ h.1.1, ihl h.1.2⟩,
      (strength_map f right).symm ▸ h.2.1, ihr h.2.2⟩

end Formula

/-! ## Ways to write a formula -/

/-- A part of a formula that is written without spacing inside. -/
inductive Lexeme (α : Type) where
  | operand (a : α)
  | sign (op : WholeOp)
  | opening
  | closing

namespace Lexeme

variable {α β : Type}

/-- The characters of a part, for a way to spell operands. -/
def chars (spell : α → List Char) : Lexeme α → List Char
  | .operand a => spell a
  | .sign op => op.chars
  | .opening => ['(']
  | .closing => [')']

/-- The same part of the formula with other operands. -/
def map (f : α → β) : Lexeme α → Lexeme β
  | .operand a => .operand (f a)
  | .sign op => .sign op
  | .opening => .opening
  | .closing => .closing

end Lexeme

/-- A part of a formula with the spacing in front of it. -/
structure Chunk (α : Type) where
  gap : List Char
  lexeme : Lexeme α
  spacing : ∀ c ∈ gap, isSpacing c = true

section Writing

variable {α β : Type}

/-- The same part with another operand. -/
def Chunk.map (f : α → β) (chunk : Chunk α) : Chunk β where
  gap := chunk.gap
  lexeme := chunk.lexeme.map f
  spacing := chunk.spacing

/-- The text of parts with spacing, for a way to spell operands. -/
def textOf (spell : α → List Char) (chunks : List (Chunk α)) : List Char :=
  chunks.flatMap fun chunk => chunk.gap ++ chunk.lexeme.chars spell

/-- The parts of a formula in order. -/
def Formula.lexemes : Formula α → List (Lexeme α)
  | .operand a => [.operand a]
  | .bracket e => .opening :: (e.lexemes ++ [.closing])
  | .negate e => .sign .sub :: e.lexemes
  | .binary op left right => left.lexemes ++ .sign op :: right.lexemes

/-- Parts that write a formula down. -/
def Writes (chunks : List (Chunk α)) (e : Formula α) : Prop :=
  chunks.map Chunk.lexeme = e.lexemes

/-- A formula written without spacing. -/
def Formula.unspaced (e : Formula α) : List (Chunk α) :=
  e.lexemes.map fun l => ⟨[], l, fun _ hc => absurd hc List.not_mem_nil⟩

variable {chunks : List (Chunk α)} {e left right : Formula α} {op : WholeOp}

theorem writes_unspaced (e : Formula α) : Writes e.unspaced e := by
  rw [Writes, Formula.unspaced, List.map_map]
  exact List.map_id _

theorem gap_unspaced {chunk : Chunk α} (h : chunk ∈ e.unspaced) : chunk.gap = [] := by
  obtain ⟨l, _, rfl⟩ := List.mem_map.mp h
  rfl

theorem textOf_cons (spell : α → List Char) (chunk : Chunk α) (rest : List (Chunk α)) :
    textOf spell (chunk :: rest) =
      chunk.gap ++ (chunk.lexeme.chars spell ++ textOf spell rest) := by
  rw [textOf, List.flatMap_cons, List.append_assoc]
  rfl

theorem Writes.map (f : α → β) (h : Writes chunks e) :
    Writes (chunks.map (Chunk.map f)) (e.map f) := by
  have hlexemes : (e.map f).lexemes = e.lexemes.map (Lexeme.map f) := by
    clear h
    induction e with
    | operand a => rfl
    | bracket e ih => simp [Formula.map, Formula.lexemes, Lexeme.map, ih]
    | negate e ih => simp [Formula.map, Formula.lexemes, Lexeme.map, ih]
    | binary op left right ihl ihr => simp [Formula.map, Formula.lexemes, Lexeme.map, ihl, ihr]
  rw [Writes, hlexemes, ← h, List.map_map, List.map_map]
  rfl

theorem Writes.operand {a : α} (h : Writes chunks (.operand a)) :
    ∃ chunk, chunks = [chunk] ∧ chunk.lexeme = .operand a := by
  obtain ⟨chunk, rest, rfl, hchunk, hrest⟩ := List.map_eq_cons_iff.mp h
  exact ⟨chunk, by rw [List.map_eq_nil_iff.mp hrest], hchunk⟩

theorem Writes.bracket (h : Writes chunks (.bracket e)) :
    ∃ opening inner closing, chunks = opening :: (inner ++ [closing]) ∧
      opening.lexeme = .opening ∧ Writes inner e ∧ closing.lexeme = .closing := by
  obtain ⟨opening, rest, rfl, hopening, hrest⟩ := List.map_eq_cons_iff.mp h
  obtain ⟨inner, back, rfl, hinner, hback⟩ := List.map_eq_append_iff.mp hrest
  obtain ⟨closing, more, rfl, hclosing, hmore⟩ := List.map_eq_cons_iff.mp hback
  exact ⟨opening, inner, closing, by rw [List.map_eq_nil_iff.mp hmore], hopening, hinner, hclosing⟩

theorem Writes.negate (h : Writes chunks (.negate e)) :
    ∃ sign inner, chunks = sign :: inner ∧ sign.lexeme = .sign .sub ∧ Writes inner e := by
  obtain ⟨sign, inner, rfl, hsign, hinner⟩ := List.map_eq_cons_iff.mp h
  exact ⟨sign, inner, rfl, hsign, hinner⟩

theorem Writes.binary (h : Writes chunks (.binary op left right)) :
    ∃ front sign back, chunks = front ++ sign :: back ∧ Writes front left ∧
      sign.lexeme = .sign op ∧ Writes back right := by
  obtain ⟨front, rest, rfl, hfront, hrest⟩ := List.map_eq_append_iff.mp h
  obtain ⟨sign, back, rfl, hsign, hback⟩ := List.map_eq_cons_iff.mp hrest
  exact ⟨front, sign, back, rfl, hfront, hsign, hback⟩

end Writing

/-! ## The tokens of a formula -/

/-- A whole number as it is written. -/
def intChars (n : Int) : List Char :=
  if n < 0 then '-' :: Nat.toDigits 10 n.natAbs else Nat.toDigits 10 n.natAbs

/-- The tokens of a whole number. A minus sign is one of its own. -/
def intTokens (n : Int) : List Token :=
  if n < 0 then [.operator .sub, .int n.natAbs] else [.int n.natAbs]

namespace Formula

/-- The tokens of a formula. -/
def tokens : Formula Int → List Token
  | .operand n => intTokens n
  | .bracket e => .opening :: (e.tokens ++ [.closing])
  | .negate e => .operator .sub :: e.tokens
  | .binary op left right => left.tokens ++ .operator op.operator :: right.tokens

/-- How deep the brackets of a formula nest. -/
def brackets {α : Type} : Formula α → Nat
  | .operand _ => 0
  | .bracket e => e.brackets + 1
  | .negate e => e.brackets
  | .binary _ left right => max left.brackets right.brackets

/-- Whether the scanner accepts a formula inside so many brackets. -/
def scannable : Nat → Formula Int → Bool
  | _, .operand n => isWritable n
  | k, .bracket e => k < maxBrackets && e.scannable (k + 1)
  | k, .negate e => e.scannable k
  | k, .binary _ left right => left.scannable k && right.scannable k

theorem scannable_of_le {e : Formula Int} {k : Nat} (hn : ∀ n ∈ e.operands, isWritable n = true)
    (hk : k + e.brackets ≤ maxBrackets) : e.scannable k = true := by
  induction e generalizing k with
  | operand n => exact hn n List.mem_cons_self
  | bracket e ih =>
    rw [brackets] at hk
    rw [scannable, Bool.and_eq_true, decide_eq_true_iff]
    exact ⟨by omega, ih hn (by omega)⟩
  | negate e ih => exact ih hn hk
  | binary op left right ihl ihr =>
    rw [brackets] at hk
    rw [scannable, Bool.and_eq_true]
    obtain ⟨hleft, hright⟩ := List.forall_mem_append.mp hn
    exact ⟨ihl hleft (by omega), ihr hright (by omega)⟩

end Formula

/-- A character that a formula can start with. -/
def StartsFormula (c : Char) : Prop :=
  c.isDigit = true ∨ c = '-' ∨ c = '('

theorem StartsFormula.inked {c : Char} (h : StartsFormula c) : isSpacing c = false ∧ c ≠ '\n' := by
  rcases h with hdigit | rfl | rfl
  · constructor
    · rw [Bool.eq_false_iff]
      intro hspacing
      rcases isSpacing_iff.mp hspacing with rfl | rfl | rfl <;> cases hdigit
    · rintro rfl
      cases hdigit
  · decide
  · decide

theorem StartsFormula.scanStep?_ne {c : Char} (h : StartsFormula c) (rest more : List Char) :
    scanStep? (c :: rest) ≠ some (none, more) := by
  rcases h with hdigit | rfl | rfl
  · rw [scanStep?_of_isDigit rest hdigit]
    simp
  · rintro ⟨⟩
  · rintro ⟨⟩

theorem endsNumber_gap {gap rest : List Char} (hgap : ∀ c ∈ gap, isSpacing c = true)
    (hrest : EndsNumber rest) : EndsNumber (gap ++ rest) := by
  cases gap with
  | nil => exact hrest
  | cons c gap =>
    rintro d ⟨⟩
    rcases isSpacing_iff.mp (hgap c List.mem_cons_self) with rfl | rfl | rfl <;> decide

theorem endsNumber_sign (op : WholeOp) (rest : List Char) : EndsNumber (op.chars ++ rest) := by
  cases op <;> rintro c ⟨⟩ <;> decide

theorem endsNumber_closing (rest : List Char) : EndsNumber (')' :: rest) := by
  rintro c ⟨⟩
  decide

theorem mem_intChars {n : Int} {c : Char} (h : c ∈ intChars n) : c = '-' ∨ c.isDigit = true := by
  unfold intChars at h
  split at h
  · exact (List.mem_cons.mp h).imp_right isDigit_of_mem_digits
  · exact .inr (isDigit_of_mem_digits h)

section Scan

variable {chunks : List (Chunk Int)} {e : Formula Int} {k : Nat} {rest : List Char}

theorem scan_sign (op : WholeOp) (hrest : ∀ c ∈ rest.head?, c ≠ '*') :
    scan (.inside k) (op.chars ++ rest) =
      (scan (.inside k) rest).map (.operator op.operator :: ·) := by
  have hmul : scanStep? ('*' :: rest) = some (some (.operator .mul), rest) := by
    unfold scanStep?
    split
    case h_2 hsame =>
      cases hsame
      exact absurd rfl (hrest '*' rfl)
    case h_6 hsame =>
      cases hsame
      rfl
    case h_12 hsingle _ _ _ _ _ hsame =>
      cases hsame
      exact (hsingle rfl).elim
    all_goals
      rename_i hsame
      cases hsame
  cases op with
  | add => exact scan_token (by decide) rfl rfl
  | sub => exact scan_token (by decide) rfl rfl
  | mul => exact scan_token (by decide) hmul rfl
  | floorDiv => exact scan_token (by decide) rfl rfl
  | mod => exact scan_token (by decide) rfl rfl

theorem scan_opening (k : Nat) (rest : List Char) :
    scan (.inside k) ('(' :: rest) =
      if k < maxBrackets then (scan (.inside (k + 1)) rest).map (.opening :: ·) else none := by
  split
  · rename_i hk
    exact scan_token (by decide) rfl (if_pos hk)
  · rename_i hk
    have hstep : scanStep? ('(' :: rest) = some (some .opening, rest) := rfl
    rw [scan, List.length_cons]
    unfold scanFrom
    simp only [hstep, hk, if_false, show ('(' == '\n') = false from rfl, Bool.false_eq_true]

theorem scan_closing (k : Nat) (rest : List Char) :
    scan (.inside (k + 1)) (')' :: rest) = (scan (.inside k) rest).map (.closing :: ·) :=
  scan_token (by decide) rfl rfl

theorem scan_intChars (n : Int) (hrest : EndsNumber rest) :
    scan (.inside k) (intChars n ++ rest) =
      if isWritable n then (scan (.inside k) rest).map (intTokens n ++ ·) else none := by
  have hdigits := scan_digits k n.natAbs hrest
  have hwritable : isWritable n.natAbs = isWritable n := rfl
  rw [hwritable] at hdigits
  unfold intChars intTokens
  split
  · rw [List.cons_append, scan_token (by decide) rfl rfl, hdigits]
    split <;> simp [Function.comp_def]
  · exact hdigits

theorem exists_first (h : Writes chunks e) :
    ∃ first more c cs, chunks = first :: more ∧ first.lexeme.chars intChars = c :: cs ∧
      StartsFormula c := by
  induction e generalizing chunks with
  | operand n =>
    obtain ⟨chunk, rfl, hchunk⟩ := h.operand
    obtain ⟨d, ds, hds⟩ :=
      List.exists_cons_of_ne_nil (Nat.toDigits_ne_nil (n := n.natAbs) (b := 10))
    have hd : d.isDigit = true := isDigit_of_mem_digits (hds ▸ List.mem_cons_self)
    by_cases hn : n < 0
    · exact ⟨chunk, [], '-', _, rfl, by rw [hchunk]; exact if_pos hn, .inr (.inl rfl)⟩
    · exact ⟨chunk, [], d, ds, rfl, by rw [hchunk]; exact (if_neg hn).trans hds, .inl hd⟩
  | bracket e _ =>
    obtain ⟨opening, inner, closing, rfl, hopening, _⟩ := h.bracket
    exact ⟨opening, _, '(', [], rfl, by rw [hopening]; rfl, .inr (.inr rfl)⟩
  | negate e _ =>
    obtain ⟨sign, inner, rfl, hsign, _⟩ := h.negate
    exact ⟨sign, inner, '-', [], rfl, by rw [hsign]; rfl, .inr (.inl rfl)⟩
  | binary op left right ihl _ =>
    obtain ⟨front, sign, back, rfl, hfront, _⟩ := h.binary
    obtain ⟨first, more, c, cs, rfl, hfirst, hc⟩ := ihl hfront
    exact ⟨first, more ++ sign :: back, c, cs, rfl, hfirst, hc⟩

theorem ne_asterisk_of_mem_head? (h : Writes chunks e) (rest : List Char) :
    ∀ c ∈ (textOf intChars chunks ++ rest).head?, c ≠ '*' := by
  obtain ⟨first, more, d, ds, rfl, hfirst, hd⟩ := exists_first h
  rw [textOf_cons, hfirst]
  cases hgap : first.gap with
  | nil =>
    rintro c ⟨⟩
    rcases hd with hd | rfl | rfl
    · rintro rfl
      cases hd
    · decide
    · decide
  | cons g gap =>
    rintro c ⟨⟩
    rcases isSpacing_iff.mp (first.spacing g (hgap ▸ List.mem_cons_self)) with rfl | rfl | rfl <;>
      decide

/-- The scanner finds the tokens of a formula, and goes on after it. -/
theorem scan_text (h : Writes chunks e) (hrest : EndsNumber rest) :
    scan (.inside k) (textOf intChars chunks ++ rest) =
      if e.scannable k then (scan (.inside k) rest).map (e.tokens ++ ·) else none := by
  -- what follows is kept general: a number must not go on in it, and every part of a formula is
  -- followed by text of that kind
  induction e generalizing chunks k rest with
  | operand n =>
    obtain ⟨chunk, rfl, hchunk⟩ := h.operand
    have htext : textOf intChars [chunk] ++ rest = chunk.gap ++ (intChars n ++ rest) := by
      simp [textOf, hchunk, Lexeme.chars]
    rw [htext, scan_gap chunk.spacing, scan_intChars n hrest]
    rfl
  | bracket e ih =>
    obtain ⟨opening, inner, closing, rfl, hopening, hinner, hclosing⟩ := h.bracket
    have htext : textOf intChars (opening :: (inner ++ [closing])) ++ rest =
        opening.gap ++ '(' :: (textOf intChars inner ++ (closing.gap ++ ')' :: rest)) := by
      simp [textOf, hopening, hclosing, Lexeme.chars]
    rw [htext, scan_gap opening.spacing, scan_opening,
      ih hinner (endsNumber_gap closing.spacing (endsNumber_closing rest)),
      scan_gap closing.spacing, scan_closing]
    by_cases hk : k < maxBrackets <;> by_cases he : e.scannable (k + 1) = true <;>
      simp [Formula.scannable, Formula.tokens, hk, he, Function.comp_def]
  | negate e ih =>
    obtain ⟨sign, inner, rfl, hsign, hinner⟩ := h.negate
    have htext : textOf intChars (sign :: inner) ++ rest =
        sign.gap ++ (WholeOp.sub.chars ++ (textOf intChars inner ++ rest)) := by
      simp [textOf, hsign, Lexeme.chars]
    rw [htext, scan_gap sign.spacing, scan_sign _ (ne_asterisk_of_mem_head? hinner rest),
      ih hinner hrest]
    by_cases he : e.scannable k = true <;>
      simp [Formula.scannable, Formula.tokens, he, Function.comp_def, WholeOp.operator]
  | binary op left right ihl ihr =>
    obtain ⟨front, sign, back, rfl, hfront, hsign, hback⟩ := h.binary
    have htext : textOf intChars (front ++ sign :: back) ++ rest =
        textOf intChars front ++ (sign.gap ++ (op.chars ++ (textOf intChars back ++ rest))) := by
      simp [textOf, hsign, Lexeme.chars]
    rw [htext, ihl hfront (endsNumber_gap sign.spacing (endsNumber_sign op _)),
      scan_gap sign.spacing, scan_sign op (ne_asterisk_of_mem_head? hback rest), ihr hback hrest]
    by_cases hl : left.scannable k = true <;> by_cases hr : right.scannable k = true <;>
      simp [Formula.scannable, Formula.tokens, hl, hr, Function.comp_def]

end Scan

/-! ## The tree of a formula -/

namespace Formula

/-- The tree of a formula. Brackets are not part of it. -/
def term : Formula Int → Term
  | .operand n => if n < 0 then .negate (.int n.natAbs) else .int n.natAbs
  | .bracket e => e.term
  | .negate e => .negate e.term
  | .binary op left right => .binary op.operator left.term right.term

/-- How far the operands of a formula lie below it at most, in rules of the grammar. -/
def depth : Formula Int → Nat
  | .operand n => if n < 0 then Context.negate.depth else 0
  | .bracket e => Context.bracket.depth + e.depth
  | .negate e => Context.negate.depth + e.depth
  | .binary _ left right => max left.depth right.depth

/-- What the reader holds after a formula: the operand read last, and what is unfinished. -/
def held : Formula Int → List Context → Term × List Context
  | .operand n, stack =>
    if n < 0 then (.int n.natAbs, .negate :: stack) else (.int n.natAbs, stack)
  | .bracket e, stack => (e.term, stack)
  | .negate e, stack => e.held (.negate :: stack)
  | .binary op left right, stack => right.held (.left op.operator left.term :: stack)

theorem value?_term (e : Formula Int) : e.term.value? = e.value?.map .int := by
  induction e with
  | operand n =>
    rw [term, value?]
    split
    · rename_i hn
      have hneg : -(n.natAbs : Int) = n := by omega
      exact congrArg (fun m => some (Value.int m)) hneg
    · rename_i hn
      have hpos : (n.natAbs : Int) = n := by omega
      exact congrArg (fun m => some (Value.int m)) hpos
  | bracket e ih => exact ih
  | negate e ih =>
    rw [term, Term.value?, ih, value?]
    cases e.value? <;> rfl
  | binary op left right ihl ihr =>
    rw [term, Term.value?, ihl, ihr, value?]
    cases left.value? with
    | none => rfl
    | some a =>
      cases right.value? with
      | none => rfl
      | some b => exact op.binary?_int a b

end Formula

section Read

variable {e : Formula Int} {stack : List Context}

theorem reduce_cons {s : Nat} {t : Term} {c : Context} (h : c.yieldsTo s = true) :
    reduce s t (c :: stack) = reduce s (c.complete t) stack :=
  if_pos h

/-- Nothing of a stack is completed before an operator of the given strength. -/
def Withstands (s : Nat) (stack : List Context) : Prop :=
  ∀ c ∈ stack.head?, c.yieldsTo s = false

theorem reduce_of_withstands {s : Nat} {t : Term} (h : Withstands s stack) :
    reduce s t stack = (t, stack) := by
  cases stack with
  | nil => rfl
  | cons c stack => simp [reduce, h c rfl]

theorem yieldsTo_left (s : Nat) (op : WholeOp) (t : Term) :
    (Context.left op.operator t).yieldsTo s = decide (s ≤ op.operator.strength) := by
  cases op <;> rfl

theorem strength_le_two (op : WholeOp) : op.operator.strength ≤ 2 := by
  cases op <;> decide

theorem operandDepth_left (op : WholeOp) (t : Term) (stack : List Context) :
    operandDepth (.left op.operator t :: stack) = operandDepth stack := by
  rw [operandDepth]
  cases op <;> exact Nat.zero_add _

/-- What is unfinished after a formula makes the formula, as soon as an operator follows that binds
no more tightly. -/
theorem reduce_held {s : Nat} (h : e.Grouped) (hs : s ≤ e.strength) :
    reduce s (e.held stack).1 (e.held stack).2 = reduce s e.term stack := by
  induction e generalizing s stack with
  | operand n =>
    rw [Formula.held, Formula.term]
    split
    · exact reduce_cons (decide_eq_true hs)
    · rfl
  | bracket e _ => rfl
  | negate e ih =>
    rw [Formula.held, ih h.2 (hs.trans h.1)]
    exact reduce_cons (decide_eq_true hs)
  | binary op left right _ ihr =>
    rw [Formula.held, ihr h.2.2 (hs.trans h.2.1.le)]
    exact reduce_cons ((yieldsTo_left s op left.term).trans (decide_eq_true hs))

theorem step?_operator {op : Operator} {t t' : Term} {stack' : List Context}
    (h : reduce op.strength t stack = (t', stack')) :
    (Reader.holding t stack).step? (.operator op) = Reader.want? false (.left op t' :: stack') := by
  rw [Reader.step?, h]

theorem step?_closing {t t' : Term} {stack' : List Context}
    (h : reduce 0 t stack = (t', .bracket :: stack')) :
    (Reader.holding t stack).step? .closing = some (.holding t' stack') := by
  rw [Reader.step?, h]

theorem want?_bind {α : Type} (opened : Bool) (stack : List Context) (f : Reader → Option α) :
    (Reader.want? opened stack).bind f =
      if operandDepth stack ≤ maxOperandDepth then f (.wanting opened stack) else none := by
  rw [Reader.want?]
  split <;> rfl

/-- One context more is allowed if what is read below it still is. -/
theorem want?_cons_bind {α : Type} {opened : Bool} {c : Context} {d : Nat} {f : Reader → Option α}
    {x : α} (h : operandDepth (c :: stack) ≤ maxOperandDepth →
      f (.wanting opened (c :: stack)) =
        if operandDepth (c :: stack) + d ≤ maxOperandDepth then some x else none) :
    (Reader.want? opened (c :: stack)).bind f =
      if operandDepth stack + (c.depth + d) ≤ maxOperandDepth then some x else none := by
  have hdepth : operandDepth stack + (c.depth + d) = operandDepth (c :: stack) + d := by
    rw [operandDepth]
    omega
  rw [want?_bind, hdepth]
  split
  · rename_i hroom
    exact h hroom
  · rw [if_neg (by omega)]

/-- The reader reads a formula that does not lie too deep. What stands in front of it must not be
completed before the operators of the formula. -/
theorem read_tokens {opened : Bool} (h : e.Grouped)
    (hstack : ∀ s, e.strength ≤ s → s ≤ 2 → Withstands s stack)
    (hdepth : operandDepth stack ≤ maxOperandDepth) :
    e.tokens.foldlM (fun r t => Reader.step? r t) (Reader.wanting opened stack) =
      if operandDepth stack + e.depth ≤ maxOperandDepth then
        some (.holding (e.held stack).1 (e.held stack).2) else none := by
  induction e generalizing stack opened with
  | operand n =>
    by_cases hn : n < 0
    · -- the sign of the number is read as an operator, so the digits lie one rule deeper
      simp only [Formula.tokens, intTokens, Formula.depth, Formula.held, hn, if_true]
      rw [List.foldlM_cons]
      exact want?_cons_bind (c := .negate) (d := 0) fun hroom => (if_pos hroom).symm
    · simp only [Formula.tokens, intTokens, Formula.depth, Formula.held, hn, if_false]
      exact (if_pos hdepth).symm
  | bracket e ih =>
    have hclosed : reduce 0 (e.held (.bracket :: stack)).1 (e.held (.bracket :: stack)).2 =
        (e.term, .bracket :: stack) :=
      reduce_held (e := e) h (Nat.zero_le _)
    rw [Formula.tokens, List.foldlM_cons]
    refine want?_cons_bind fun hroom => ?_
    rw [List.foldlM_append, ih h (fun s _ _ => by rintro c ⟨⟩; rfl) hroom]
    split
    · exact (bind_pure _).trans (step?_closing hclosed)
    · rfl
  | negate e ih =>
    rw [Formula.tokens, List.foldlM_cons]
    exact want?_cons_bind fun hroom =>
      ih h.2 (fun s hs hs' => absurd (h.1.trans hs) (by omega)) hroom
  | binary op left right ihl ihr =>
    have hstrength := strength_le_two op
    -- the operator completes its left operand, and nothing that stands in front of that
    have hreduced : reduce op.operator.strength (left.held stack).1 (left.held stack).2 =
        (left.term, stack) := by
      rw [reduce_held h.1.2 h.1.1]
      exact reduce_of_withstands (hstack _ (Nat.le_refl _) hstrength)
    rw [Formula.tokens, List.foldlM_append,
      ihl h.1.2 (fun s hs => hstack s (h.1.1.trans hs)) hdepth, Formula.depth]
    by_cases hleft : operandDepth stack + left.depth ≤ maxOperandDepth
    · have hright : ∀ s, right.strength ≤ s → s ≤ 2 →
          Withstands s (.left op.operator left.term :: stack) := by
        rintro s hs - c ⟨⟩
        rw [yieldsTo_left, decide_eq_false_iff_not]
        exact Nat.not_le.mpr (h.2.1.trans_le hs)
      have hroom : operandDepth (.left op.operator left.term :: stack) ≤ maxOperandDepth := by
        rwa [operandDepth_left]
      have hmax : operandDepth stack + max left.depth right.depth ≤ maxOperandDepth ↔
          operandDepth stack + right.depth ≤ maxOperandDepth := by omega
      rw [if_pos hleft, Option.bind_eq_bind, Option.bind_some, List.foldlM_cons,
        step?_operator hreduced, Option.bind_eq_bind, want?_bind, if_pos hroom,
        ihr h.2.2 hright hroom, operandDepth_left, Formula.held]
      simp only [hmax]
    · rw [if_neg hleft, if_neg (by omega)]
      rfl

end Read

/-! ## The value of a text -/

namespace Formula

/-- Whether a formula is within all limits of the evaluator, if operators may nest so deep. -/
def readable (nesting : Nat) (e : Formula Int) : Bool :=
  e.scannable 0 && decide (operandDepth [] + e.depth ≤ maxOperandDepth) &&
    decide (e.term.nesting ≤ nesting)

/-- A formula that is not too large for the evaluator. -/
structure Fits (nesting : Nat) (e : Formula Int) : Prop where
  brackets_le : e.brackets ≤ maxBrackets
  operands_writable : ∀ n ∈ e.operands, isWritable n = true
  depth_le : operandDepth [] + e.depth ≤ maxOperandDepth
  nesting_le : e.term.nesting ≤ nesting

theorem Fits.readable {nesting : Nat} {e : Formula Int} (h : e.Fits nesting) :
    e.readable nesting = true := by
  have hscan := scannable_of_le h.operands_writable ((Nat.zero_add e.brackets).symm ▸ h.brackets_le)
  simp [Formula.readable, hscan, h.depth_le, h.nesting_le]

end Formula

theorem forall_mem_textOf {α : Type} {spell : α → List Char} {P : Char → Prop}
    {chunks : List (Chunk α)} (hspell : ∀ a, ∀ c ∈ spell a, P c)
    (hrest : ∀ c ∈ " \t\x0c+-*/%()".toList, P c) : ∀ c ∈ textOf spell chunks, P c := by
  intro c hc
  obtain ⟨chunk, _, hc⟩ := List.mem_flatMap.mp hc
  rcases List.mem_append.mp hc with hc | hc
  · rcases isSpacing_iff.mp (chunk.spacing c hc) with rfl | rfl | rfl <;> exact hrest _ (by decide)
  · cases hlexeme : chunk.lexeme with
    | operand a =>
      rw [hlexeme] at hc
      exact hspell a c hc
    | sign op =>
      rw [hlexeme] at hc
      have hsign : op.chars.all (" \t\x0c+-*/%()".toList.contains ·) = true := by
        cases op <;> decide
      exact hrest c (List.contains_iff_mem.mp (List.all_eq_true.mp hsign c hc))
    | opening =>
      rw [hlexeme] at hc
      cases List.mem_singleton.mp hc
      exact hrest _ (by decide)
    | closing =>
      rw [hlexeme] at hc
      cases List.mem_singleton.mp hc
      exact hrest _ (by decide)

section Evaluate

variable {nesting : Nat} {chunks : List (Chunk Int)} {e : Formula Int}

theorem tokens?_text (h : Writes chunks e) (hgap : ∀ chunk ∈ chunks.head?, chunk.gap = []) :
    tokens? (String.ofList (textOf intChars chunks)) =
      if e.scannable 0 then some e.tokens else none := by
  obtain ⟨first, more, c, cs, rfl, hfirst, hc⟩ := exists_first h
  have hscan : scan (.inside 0) (textOf intChars (first :: more) ++ []) = _ :=
    scan_text h (by rintro c ⟨⟩)
  have hreturn : ∀ d ∈ textOf intChars (first :: more), d ≠ '\r' := by
    refine forall_mem_textOf (fun n d hd => ?_) fun d hd => ?_
    · rcases mem_intChars hd with rfl | hdigit
      · decide
      · rintro rfl
        cases hdigit
    · rintro rfl
      exact absurd hd (by decide)
  obtain ⟨hspacing, hline⟩ := hc.inked
  have hend : scan (.inside 0) [] = some [] := rfl
  rw [List.append_nil, hend, Option.map_some, List.append_nil] at hscan
  rw [textOf_cons, hgap first rfl, hfirst, List.nil_append, List.cons_append] at hscan hreturn ⊢
  have hblank : (c == ' ' || c == '\t') = false ∧ (c == '\x0c') = false := by
    simpa [isSpacing, and_assoc] using hspacing
  have hmargin : atMargin 0 (c :: (cs ++ textOf intChars more)) = true := by
    simp [atMargin, hblank.1, hblank.2]
  unfold tokens?
  rw [String.toList_ofList, List.dropWhile_cons_of_neg (by simp [hblank.1]),
    unifyLineEnds_of_notMem fun hmem => hreturn _ hmem rfl]
  dsimp only
  rw [if_pos hmargin]
  exact (scan_before hline (hc.scanStep?_ne _)).trans hscan

theorem read?_text (h : Writes chunks e) (hg : e.Grouped)
    (hgap : ∀ chunk ∈ chunks.head?, chunk.gap = []) :
    read? nesting (String.ofList (textOf intChars chunks)) =
      if e.readable nesting then some e.term else none := by
  have hread := @read_tokens e [] false hg (fun _ _ _ => by rintro c ⟨⟩) (by decide)
  have hfinish : (Reader.holding (e.held []).1 (e.held []).2).finish? = some e.term := by
    rw [Reader.finish?, reduce_held hg (Nat.zero_le _)]
    rfl
  rw [read?, tokens?_text h hgap, Formula.readable]
  cases hscan : e.scannable 0 with
  | false => rfl
  | true =>
    rw [if_pos rfl, Option.bind_eq_bind, Option.bind_some, hread, Bool.true_and]
    by_cases hdepth : operandDepth [] + e.depth ≤ maxOperandDepth
    · rw [if_pos hdepth, Option.bind_eq_bind, Option.bind_some, hfinish]
      simp [hdepth]
    · rw [if_neg hdepth]
      simp [hdepth]

/-- The text of a formula has the value of the formula, if the formula is within the limits. -/
theorem evaluate?_text (h : Writes chunks e) (hg : e.Grouped)
    (hgap : ∀ chunk ∈ chunks.head?, chunk.gap = []) :
    evaluate? nesting (String.ofList (textOf intChars chunks)) =
      if e.readable nesting then e.value?.map .int else none := by
  rw [evaluate?, read?_text h hg hgap]
  split
  · rw [Option.bind_eq_bind, Option.bind_some, e.value?_term]
    cases e.value? <;> rfl
  · rfl

end Evaluate

end RobotConsole.Arithmetic
