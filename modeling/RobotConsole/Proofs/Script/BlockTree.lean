import RobotConsole.Proofs.Script.Scope
import RobotConsole.Proofs.Script.Written

/-!
# Block trees

A script whose blocks are closed is a tree: sentences, loops with their bodies, and conditionals
with their two parts. `Renders` says which lines are ways to write a tree down, and `evaluateBlock`
what a tree stands for, by recursion on the tree. The block finders, which know nothing of trees,
find the parts again: they pass over whatever a tree is written as (`Renders.passed`,
`Renders.added`).
-/

namespace RobotConsole.Script

open Arithmetic (Value)

variable {close keyword raw : String} {inner : List String}

/-- A line that is complete in itself. -/
structure Sentence where
  kind : SentenceKind
  text : String
  classified : classify text = kind.lineKind

/-- An item of a block. A conditional without a second part is one whose second part is not written
down. -/
inductive Item where
  | sentence (s : Sentence)
  | forLoop (name : Name) (values : Phrase) (body : List Item)
  | whileLoop (condition : Phrase) (body : List Item)
  | conditional (condition : Phrase) (thenPart : List Item) (elsePart : Option (List Item))

/-- Lines that are a way to write a block down: in any indentation, with keywords in any letter
case. A phrase must say something, for without its phrase an opening line is no longer one. -/
inductive Renders : List Item → List String → Prop
  | nil : Renders [] []
  | sentence {s : Sentence} {raw : String} {items : List Item} {lines : List String} :
      Text.trim raw = s.text → Renders items lines → Renders (.sentence s :: items) (raw :: lines)
  | forLoop {name : Name} {values : Phrase} {body items : List Item} {raw close : String}
      {inner lines : List String} :
      values.said ≠ "" → OpensFor name values raw → Renders body inner → Marks "endfor" close →
      Renders items lines →
      Renders (.forLoop name values body :: items) (raw :: (inner ++ close :: lines))
  | whileLoop {condition : Phrase} {body items : List Item} {raw close : String}
      {inner lines : List String} :
      condition.said ≠ "" → Opens "while" condition raw → Renders body inner →
      Marks "endwhile" close → Renders items lines →
      Renders (.whileLoop condition body :: items) (raw :: (inner ++ close :: lines))
  | conditional {condition : Phrase} {thenPart items : List Item} {raw close : String}
      {thenLines lines : List String} :
      condition.said ≠ "" → Opens "if" condition raw → Renders thenPart thenLines →
      Marks "endif" close → Renders items lines →
      Renders (.conditional condition thenPart none :: items)
        (raw :: (thenLines ++ close :: lines))
  | alternative {condition : Phrase} {thenPart elsePart items : List Item}
      {raw middle close : String} {thenLines elseLines lines : List String} :
      condition.said ≠ "" → Opens "if" condition raw → Renders thenPart thenLines →
      Marks "else" middle → Renders elsePart elseLines → Marks "endif" close →
      Renders items lines →
      Renders (.conditional condition thenPart (some elsePart) :: items)
        (raw :: (thenLines ++ middle :: (elseLines ++ close :: lines)))

/-! ## What a tree stands for -/

/-- The subroutines of a script, as trees. -/
abbrev Library := Dict (List Item)

/-- Goes through values with a loop variable, for as many rounds as are left. -/
def forEach (name : String) (round : Run (List String)) : Nat → List Value → Run (List String)
  | _, [] => return []
  | 0, _ :: _ => do
    print s!"Warning: For loop exceeded max iterations ({(← get).maxIterations})"
    return []
  | left + 1, value :: values => do
    let commands ← lending name value round
    return commands ++ (← forEach name round left values)

/-- Goes on as long as a condition holds, for as many rounds as are left. -/
def whileHolds (limits : Limits) (condition : String) (round : Run (List String)) :
    Nat → Run (List String)
  | 0 => do
    if ← evaluateCondition limits condition then
      print s!"Warning: While loop exceeded max iterations ({(← get).maxIterations})"
    return []
  | left + 1 => do
    if ← evaluateCondition limits condition then
      let commands ← round
      return commands ++ (← whileHolds limits condition round left)
    else return []

/-- Evaluates the call on a line, with the names of the arguments lent to the subroutine. -/
def evaluateCall (library : Library) (inner : List Item → Run (List String)) (line : String) :
    Run (List String) := do
  match callOf? line with
  | none =>
    print s!"Error: Invalid call syntax: {line}"
    return []
  | some (name, text) =>
    match Dict.get? library name with
    | none =>
      print s!"Error: Subroutine not found: {name}"
      return []
    | some items =>
      let old ← bindArguments 1 (Command.splitWords text)
      let commands ← inner items
      old.forM fun (name, value) => restore name value
      return commands

/-- Evaluates an item; `inner` evaluates the blocks in it. -/
def evaluateItem (limits : Limits) (library : Library) (inner : List Item → Run (List String)) :
    Item → Run (List String)
  | .sentence s =>
    match s.kind with
    | .remark => return []
    | .command => do return [← expandVariables s.text]
    | .assignment => do
      assign limits s.text
      return []
    | .call => evaluateCall library inner s.text
  | .forLoop name values body => do
    let values ← loopValues limits (← expandVariables values.said)
    forEach name.text (inner body) (← get).maxIterations.toNat values
  | .whileLoop condition body => do
    whileHolds limits.called condition.said (inner body) (← get).maxIterations.toNat
  | .conditional condition thenPart elsePart => do
    let holds ← evaluateCondition limits.called condition.said
    if holds then inner thenPart else inner (elsePart.getD [])

/-- Evaluates items in order. -/
def evaluateItems (limits : Limits) (library : Library) (inner : List Item → Run (List String)) :
    List Item → Run (List String)
  | [] => return []
  | item :: items => do
    let commands ← evaluateItem limits library inner item
    return commands ++ (← evaluateItems limits library inner items)

/-- Evaluates a block with the given number of levels left. -/
def evaluateBlock (limits : Limits) (library : Library) (levels : Nat) (items : List Item) :
    Run (List String) :=
  match levels with
  | 0 => do
    print "Error: Maximum nesting depth exceeded"
    return []
  | levels + 1 =>
    evaluateItems limits library (evaluateBlock limits.called.called library levels) items

/-! ## What the block finders make of it -/

theorem StartsWith.opensBlock {normal : String} (h : StartsWith keyword normal)
    (hmem : keyword ∈ openings.map Prod.fst) : opensBlock normal = true := by
  obtain ⟨more, hmore⟩ := h
  unfold Script.opensBlock startsWith
  rw [hmore]
  simp only [openings, List.map_cons, List.map_nil, List.mem_cons, List.not_mem_nil, or_false]
    at hmem
  rcases hmem with rfl | rfl | rfl <;> rfl

/-- Lines that the finder of loop ends passes over, whatever stands after them. -/
def Passed (lines : List String) : Prop :=
  ∀ closing nested rest, 0 ≤ nested →
    blockLength closing nested (lines ++ rest) =
      ((blockLength closing nested rest).1 + lines.length, (blockLength closing nested rest).2)

theorem passed_nil : Passed [] :=
  fun _ _ _ _ => rfl

theorem Passed.append {xs ys : List String} (hxs : Passed xs) (hys : Passed ys) :
    Passed (xs ++ ys) := by
  intro closing nested rest hnested
  rw [List.append_assoc, hxs closing nested _ hnested, hys closing nested rest hnested,
    List.length_append]
  simp only [Prod.mk.injEq, and_true]
  omega

theorem passed_line (hopens : opensBlock (normalLine raw) = false)
    (hcloses : closesBlock (normalLine raw) = false) : Passed [raw] := by
  intro closing nested rest _
  rw [List.singleton_append, blockLength]
  simp [hopens, hcloses]

/-- A block as a whole is passed over: its end is counted against its start. -/
theorem Passed.block
    (hopens : opensBlock (normalLine raw) = true) (hinner : Passed inner)
    (hclose : opensBlock (normalLine close) = false)
    (hcloses : closesBlock (normalLine close) = true) : Passed (raw :: (inner ++ [close])) := by
  intro closing nested rest hnested
  have hend : blockLength closing (nested + 1) (close :: rest) =
      ((blockLength closing nested rest).1 + 1, (blockLength closing nested rest).2) := by
    have hne : (nested + 1 == 0) = false := by
      rw [beq_eq_false_iff_ne]
      omega
    rw [blockLength]
    simp [hclose, hcloses, hne]
  -- inside the block one more is open, so that its end is not taken for the end looked for
  have hbody := hinner closing (nested + 1) (close :: rest) (by omega)
  rw [hend] at hbody
  rw [List.cons_append, List.append_assoc, List.singleton_append, blockLength]
  simp only [hopens, if_true, hbody, List.length_cons, List.length_append, List.length_nil,
    Prod.mk.injEq, and_true]
  omega

theorem Marks.passed_block
    (hkeyword : keyword ∈ ["endfor", "endwhile", "endif"]) (hclose : Marks keyword close)
    (hopens : opensBlock (normalLine raw) = true) (hinner : Passed inner) :
    Passed (raw :: (inner ++ [close])) := by
  simp only [List.mem_cons, List.not_mem_nil, or_false] at hkeyword
  refine Passed.block hopens hinner ?_ ?_
  · rcases hkeyword with rfl | rfl | rfl <;> rw [normalLine_of_marks (by decide) hclose] <;> decide
  · rcases hkeyword with rfl | rfl | rfl <;> rw [normalLine_of_marks (by decide) hclose] <;> decide

/-- The finder of loop ends passes over a block in any rendering. -/
theorem Renders.passed {items : List Item} {lines : List String} (h : Renders items lines) :
    Passed lines := by
  induction h with
  | nil => exact passed_nil
  | @sentence s raw items lines hraw _ ih =>
    have hinert : Inert (normalLine raw) := by
      unfold normalLine
      rw [hraw]
      exact inert_of_classify s.classified
    exact (passed_line hinert.opens hinert.closes).append ih
  | forLoop hp hopen _ hclose _ ihbody ihitems =>
    have hblock := hclose.passed_block (by decide)
      ((hopen.startsWith hp).opensBlock (by decide)) ihbody
    simpa using hblock.append ihitems
  | whileLoop hp hopen _ hclose _ ihbody ihitems =>
    have hblock := hclose.passed_block (by decide)
      ((hopen.startsWith (by decide) hp).opensBlock (by decide)) ihbody
    simpa using hblock.append ihitems
  | conditional hp hopen _ hclose _ ihthen ihitems =>
    have hblock := hclose.passed_block (by decide)
      ((hopen.startsWith (by decide) hp).opensBlock (by decide)) ihthen
    simpa using hblock.append ihitems
  | alternative hp hopen _ hmiddle _ hclose _ ihthen ihelse ihitems =>
    -- to this finder the line between the two parts is one like any other
    have hline := passed_line (by rw [normalLine_of_marks (by decide) hmiddle]; decide)
      (by rw [normalLine_of_marks (by decide) hmiddle]; decide)
    have hblock := hclose.passed_block (by decide)
      ((hopen.startsWith (by decide) hp).opensBlock (by decide))
      (ihthen.append (hline.append ihelse))
    simpa using hblock.append ihitems

/-- Adds lines to a part of a conditional. -/
def Branches.addAll (inElse : Bool) (lines : List String) (b : Branches) : Branches :=
  lines.foldr (Branches.add inElse) b

theorem Branches.addAll_eq (inElse : Bool) (lines : List String) (b : Branches) :
    b.addAll inElse lines =
      if inElse then { b with elseLines := lines ++ b.elseLines, length := b.length + lines.length }
      else { b with thenLines := lines ++ b.thenLines, length := b.length + lines.length } := by
  induction lines with
  | nil => cases inElse <;> rfl
  | cons line lines ih =>
    show (b.addAll inElse lines).add inElse line = _
    rw [ih]
    cases inElse with
    | false => simp [add, Nat.add_assoc]
    | true => simp [add, Nat.add_assoc]

theorem Branches.addAll_cons (inElse : Bool) (line : String) (lines : List String) :
    Branches.addAll inElse (line :: lines) =
      Branches.add inElse line ∘ Branches.addAll inElse lines :=
  rfl

theorem Branches.addAll_append (inElse : Bool) (xs ys : List String) :
    Branches.addAll inElse (xs ++ ys) = Branches.addAll inElse xs ∘ Branches.addAll inElse ys := by
  funext b
  simp [Branches.addAll]

/-- Lines that the finder of the parts of a conditional adds to the part it is in. -/
def Added (lines : List String) : Prop :=
  ∀ nested inElse rest, branches? nested inElse (lines ++ rest) =
    (branches? nested inElse rest).map (Branches.addAll inElse lines)

theorem added_nil : Added [] := by
  intro nested inElse rest
  show branches? nested inElse rest = Option.map id (branches? nested inElse rest)
  rw [Option.map_id, id]

theorem Added.append {xs ys : List String} (hxs : Added xs) (hys : Added ys) :
    Added (xs ++ ys) := by
  intro nested inElse rest
  rw [List.append_assoc, hxs nested inElse, hys nested inElse, Option.map_map,
    Branches.addAll_append]

/-- A line at which no conditional starts or ends, nor its second part. -/
theorem added_line (hif : startsWith (normalLine raw) "if " = false)
    (hendif : normalLine raw ≠ "endif") (helse : normalLine raw ≠ "else") : Added [raw] := by
  intro nested inElse rest
  rw [List.singleton_append, branches?.eq_def]
  simp [hif, hendif, helse]
  rfl

theorem Inert.added (h : Inert (normalLine raw)) : Added [raw] := by
  have hif : startsWith (normalLine raw) "if " = false := by
    have hopens := h.opens
    unfold opensBlock at hopens
    simp only [Bool.or_eq_false_iff] at hopens
    exact hopens.2
  have hendif : normalLine raw ≠ "endif" := by
    have hcloses := h.closes
    unfold closesBlock at hcloses
    simp only [Bool.or_eq_false_iff, beq_eq_false_iff_ne] at hcloses
    exact hcloses.2
  exact added_line hif hendif h.notElse

theorem Marks.added (h : Marks keyword raw)
    (hkeyword : keyword = "endfor" ∨ keyword = "endwhile") : Added [raw] := by
  have hnormal : Script.normalLine raw = keyword := by
    refine normalLine_of_marks ?_ h
    rcases hkeyword with rfl | rfl <;> decide
  refine added_line ?_ ?_ ?_
  · rw [hnormal]
    rcases hkeyword with rfl | rfl <;> decide
  · rw [hnormal]
    rcases hkeyword with rfl | rfl <;> decide
  · rw [hnormal]
    rcases hkeyword with rfl | rfl <;> decide

theorem StartsWith.added (h : StartsWith keyword (normalLine raw))
    (hkeyword : keyword = "for" ∨ keyword = "while") : Added [raw] := by
  refine added_line ?_ (h.ne (by decide)) (h.ne (by decide))
  obtain ⟨more, hmore⟩ := h
  unfold startsWith
  rw [hmore]
  rcases hkeyword with rfl | rfl <;> rfl

theorem StartsWith.startsWith_if {normal : String} (h : StartsWith "if" normal) :
    startsWith normal "if " = true := by
  obtain ⟨more, hmore⟩ := h
  unfold startsWith
  rw [hmore]
  rfl

/-- An inner conditional as a whole is added to the part it is in. -/
theorem added_conditional
    (hraw : startsWith (normalLine raw) "if " = true) (hclose : normalLine close = "endif")
    (hinner : ∀ nested inElse rest, branches? (nested + 1) inElse (inner ++ rest) =
      (branches? (nested + 1) inElse rest).map (Branches.addAll inElse inner)) :
    Added (raw :: (inner ++ [close])) := by
  intro nested inElse rest
  have hend : branches? (nested + 1) inElse (close :: rest) =
      (branches? nested inElse rest).map (Branches.add inElse close) := by
    have hnot : startsWith "endif" "if " = false := by decide
    rw [branches?, hclose]
    simp [hnot]
  rw [List.cons_append, List.append_assoc, List.singleton_append, branches?.eq_def]
  simp only [hraw, if_true]
  rw [hinner, hend, Option.map_map, Option.map_map, Branches.addAll_cons, Branches.addAll_append]
  rfl

/-- The finder of the parts of a conditional takes a block in any rendering as it is. -/
theorem Renders.added {items : List Item} {lines : List String} (h : Renders items lines) :
    Added lines := by
  induction h with
  | nil => exact added_nil
  | @sentence s raw items lines hraw _ ih =>
    have hinert : Inert (normalLine raw) := by
      unfold normalLine
      rw [hraw]
      exact inert_of_classify s.classified
    exact hinert.added.append ih
  | forLoop hp hopen _ hclose _ ihbody ihitems =>
    have hline := (hopen.startsWith hp).added (.inl rfl)
    have hblock := hline.append (ihbody.append (hclose.added (.inl rfl)))
    simpa using hblock.append ihitems
  | whileLoop hp hopen _ hclose _ ihbody ihitems =>
    have hline := (hopen.startsWith (by decide) hp).added (.inr rfl)
    have hblock := hline.append (ihbody.append (hclose.added (.inr rfl)))
    simpa using hblock.append ihitems
  | conditional hp hopen _ hclose _ ihthen ihitems =>
    have hblock := added_conditional (hopen.startsWith (by decide) hp).startsWith_if
      (normalLine_of_marks (by decide) hclose) fun nested => ihthen (nested + 1)
    simpa using hblock.append ihitems
  | @alternative _ _ _ _ _ middle _ _ _ _ hp hopen _ hmiddle _ hclose _ ihthen ihelse ihitems =>
    -- inside an inner conditional the line between its parts is one like any other
    have hline : ∀ nested inElse rest, branches? (nested + 1) inElse (middle :: rest) =
        (branches? (nested + 1) inElse rest).map (Branches.add inElse middle) := by
      intro nested inElse rest
      have hif : startsWith "else" "if " = false := by decide
      rw [branches?, normalLine_of_marks (by decide) hmiddle]
      simp [hif]
    have hblock := added_conditional (hopen.startsWith (by decide) hp).startsWith_if
      (normalLine_of_marks (by decide) hclose) fun nested inElse rest => by
        rw [List.append_assoc, ihthen, List.cons_append, hline, ihelse, Option.map_map,
          Option.map_map, Branches.addAll_append, Branches.addAll_cons]
        rfl
    simpa using hblock.append ihitems

theorem loopBody_rendered {body : List Item} (h : Renders body inner)
    {closing : String} (hclosing : closing = "endfor" ∨ closing = "endwhile")
    (hclose : Marks closing close) (rest : List String) :
    loopBody closing (inner ++ close :: rest) = pure (inner, inner.length + 1) := by
  have hnormal : normalLine close = closing := by
    refine normalLine_of_marks ?_ hclose
    rcases hclosing with rfl | rfl <;> decide
  have hend : blockLength closing 0 (close :: rest) = (0, true) := by
    rw [blockLength]
    rcases hclosing with rfl | rfl <;> simp [hnormal, opensBlock, closesBlock, startsWith]
  have hlength : blockLength closing 0 (inner ++ close :: rest) = (inner.length, true) := by
    rw [h.passed closing 0 _ (by omega), hend]
    simp
  unfold loopBody
  simp only [hlength, Bool.not_true, Bool.false_eq_true, if_false, List.take_left]

theorem branches?_endif (hclose : Marks "endif" close) (inElse : Bool)
    (rest : List String) : branches? 0 inElse (close :: rest) = some ⟨[], [], 0⟩ := by
  have hif : startsWith "endif" "if " = false := by decide
  rw [branches?, normalLine_of_marks (by decide) hclose]
  simp [hif]

/-- The part of a conditional without a second one is found as it was written. -/
theorem branches?_conditional {thenPart : List Item} {thenLines : List String}
    (hthen : Renders thenPart thenLines) (hclose : Marks "endif" close)
    (rest : List String) :
    branches? 0 false (thenLines ++ close :: rest) =
      some ⟨thenLines, [], thenLines.length⟩ := by
  rw [hthen.added, branches?_endif hclose, Option.map_some, Branches.addAll_eq]
  simp

/-- The two parts of a conditional are found as they were written. -/
theorem branches?_alternative {thenPart elsePart : List Item} {thenLines elseLines : List String}
    (hthen : Renders thenPart thenLines) (helse : Renders elsePart elseLines)
    {middle : String} (hmiddle : Marks "else" middle) (hclose : Marks "endif" close)
    (rest : List String) :
    branches? 0 false (thenLines ++ middle :: (elseLines ++ close :: rest)) =
      some ⟨thenLines, elseLines, thenLines.length + 1 + elseLines.length⟩ := by
  have hline : branches? 0 false (middle :: (elseLines ++ close :: rest)) =
      (branches? 0 true (elseLines ++ close :: rest)).map
        fun b => { b with length := b.length + 1 } := by
    have hif : startsWith "else" "if " = false := by decide
    rw [branches?, normalLine_of_marks (by decide) hmiddle]
    simp [hif]
  rw [hthen.added, hline, helse.added, branches?_endif hclose]
  simp only [Option.map_some, Branches.addAll_eq, if_true, Bool.false_eq_true, if_false,
    List.append_nil, Option.some.injEq, Branches.mk.injEq, true_and]
  omega

end RobotConsole.Script
