import RobotConsole.Proofs.Script.Course
import RobotConsole.Proofs.Script.Parallel
import RobotConsole.Proofs.Script.Refinement

/-!
# Where definitions stand

Definitions are taken out of a script before it is expanded, by a reader that counts the lines that
start and end definitions and looks at nothing else. So it does not matter where a definition
stands, as long as it stands outside all others (`definition_placed_anywhere`). The reader does one
part of a script after another wherever no definition is open (`extractFrom_append`); it stores a
whole definition without looking into its body (`IsDefinition.extractFrom`); and to store it sooner
or later changes only the order of the subroutines, which nothing looks at (`Reordered`).
-/

namespace RobotConsole.Script

open Storage (Path)

/-! ## Lines that start and end definitions -/

/-- Whether a line starts a definition. -/
def opensDefinition (raw : String) : Bool :=
  startsWith (normalLine raw) "def "

/-- Whether a line ends a definition. -/
def closesDefinition (raw : String) : Bool :=
  normalLine raw == "enddef"

/-- How many definitions are open after a line. Where none is open, none can be ended. -/
def openAfter (depth : Nat) (raw : String) : Nat :=
  if opensDefinition raw then depth + 1
  else if closesDefinition raw then depth - 1
  else depth

/-- How many definitions are open after some lines. One that is never ended stays open to the end of
the script. -/
def openAfterAll (depth : Nat) (lines : List String) : Nat :=
  lines.foldl openAfter depth

/-- The names of the definitions that stand outside all others, given how many are open. -/
def outerNames : Nat → List String → List String
  | _, [] => []
  | depth, raw :: rest =>
    let more := outerNames (openAfter depth raw) rest
    if depth = 0 then (definedName? (Text.trim raw)).toList ++ more else more

/-- Lines in which definitions are started and ended in pairs. -/
inductive Balanced : List String → Prop
  | nil : Balanced []
  | line {raw : String} {rest : List String} : opensDefinition raw = false →
      closesDefinition raw = false → Balanced rest → Balanced (raw :: rest)
  | nested {header footer : String} {inner rest : List String} : opensDefinition header = true →
      closesDefinition footer = true → Balanced inner → Balanced rest →
      Balanced (header :: (inner ++ footer :: rest))

/-- A whole definition: the line that starts it and names the subroutine, the body, and the line
that ends it. -/
inductive IsDefinition (name : String) (body : List String) : List String → Prop
  | intro {header footer : String} : definedName? (Text.trim header) = some name → Balanced body →
      closesDefinition footer = true → IsDefinition name body (header :: (body ++ [footer]))

theorem openAfterAll_cons (depth : Nat) (raw : String) (rest : List String) :
    openAfterAll depth (raw :: rest) = openAfterAll (openAfter depth raw) rest := by
  unfold openAfterAll
  rw [List.foldl_cons]

theorem openAfterAll_append (depth : Nat) (xs ys : List String) :
    openAfterAll depth (xs ++ ys) = openAfterAll (openAfterAll depth xs) ys :=
  List.foldl_append

theorem outerNames_append (depth : Nat) (xs ys : List String) :
    outerNames depth (xs ++ ys) = outerNames depth xs ++ outerNames (openAfterAll depth xs) ys := by
  induction xs generalizing depth with
  | nil => rfl
  | cons raw xs ih =>
    simp only [List.cons_append, outerNames, ih, openAfterAll_cons]
    split
    · exact (List.append_assoc _ _ _).symm
    · rfl

theorem isSome_definedName? (raw : String) :
    (definedName? (Text.trim raw)).isSome = opensDefinition raw := by
  unfold definedName? opensDefinition normalLine
  generalize startsWith (Text.lower (Text.trim raw)) "def " = opens
  cases opens <;> rfl

theorem openAfter_of_name {raw name : String} (h : definedName? (Text.trim raw) = some name) :
    openAfter 0 raw = 1 := by
  have hopens : opensDefinition raw = true := by rw [← isSome_definedName?, h, Option.isSome_some]
  simp [openAfter, hopens]

theorem openAfter_of_no_name {raw : String} (h : definedName? (Text.trim raw) = none) :
    openAfter 0 raw = 0 := by
  have hopens : opensDefinition raw = false := by rw [← isSome_definedName?, h, Option.isSome_none]
  simp [openAfter, hopens]

/-! ## Reading a script in parts -/

section Reader

variable {name raw : String} {seen rest : List String} {nested : Nat}

theorem extractFrom_start (h : definedName? (Text.trim raw) = some name) :
    extractFrom .outside (raw :: rest) = extractFrom (.within name [] 0) rest := by
  rw [extractFrom.eq_def]
  simp only [h]

theorem extractFrom_keep (h : definedName? (Text.trim raw) = none) :
    extractFrom .outside (raw :: rest) = (do return raw :: (← extractFrom .outside rest)) := by
  rw [extractFrom.eq_def]
  simp only [h]

theorem extractFrom_open (h : opensDefinition raw = true) :
    extractFrom (.within name seen nested) (raw :: rest) =
      extractFrom (.within name (raw :: seen) (nested + 1)) rest := by
  unfold opensDefinition at h
  rw [extractFrom.eq_def]
  simp only [h, if_true]

theorem extractFrom_body (hopens : opensDefinition raw = false)
    (hcloses : closesDefinition raw = false) :
    extractFrom (.within name seen nested) (raw :: rest) =
      extractFrom (.within name (raw :: seen) nested) rest := by
  unfold opensDefinition at hopens
  unfold closesDefinition at hcloses
  rw [extractFrom.eq_def]
  simp only [hopens, hcloses, Bool.false_eq_true, if_false]

theorem not_opensDefinition_of_closes (h : closesDefinition raw = true) :
    opensDefinition raw = false := by
  unfold closesDefinition at h
  unfold opensDefinition
  rw [beq_iff_eq.mp h]
  rfl

theorem extractFrom_close (h : closesDefinition raw = true) :
    extractFrom (.within name seen (nested + 1)) (raw :: rest) =
      extractFrom (.within name (raw :: seen) nested) rest := by
  have hopens := not_opensDefinition_of_closes h
  unfold opensDefinition at hopens
  unfold closesDefinition at h
  rw [extractFrom.eq_def]
  simp only [hopens, h, Bool.false_eq_true, if_false, if_true]

theorem extractFrom_finish (h : closesDefinition raw = true) :
    extractFrom (.within name seen 0) (raw :: rest) =
      (do define name seen.reverse; extractFrom .outside rest) := by
  have hopens := not_opensDefinition_of_closes h
  unfold opensDefinition at hopens
  unfold closesDefinition at h
  rw [extractFrom.eq_def]
  simp only [hopens, h, Bool.false_eq_true, if_false, if_true]

/-- How many definitions are open where the reader stands. -/
def Definition.depth : Definition → Nat
  | .outside => 0
  | .within _ _ nested => nested + 1

/-- Parts of a script between which no definition is open are read one after the other. -/
theorem extractFrom_append (state : Definition) {before : List String} (after : List String)
    (h : openAfterAll state.depth before = 0) :
    extractFrom state (before ++ after) = (do
      let kept ← extractFrom state before
      let more ← extractFrom .outside after
      return kept ++ more) := by
  induction before generalizing state with
  | nil =>
    cases state with
    | outside =>
      have hnil : extractFrom .outside [] = pure [] := rfl
      simp [hnil]
    | within name seen nested => cases h
  | cons raw before ih =>
    rw [openAfterAll_cons] at h
    rw [List.cons_append]
    cases state with
    | outside =>
      cases hname : definedName? (Text.trim raw) with
      | some name =>
        rw [Definition.depth, openAfter_of_name hname] at h
        rw [extractFrom_start hname, extractFrom_start hname]
        exact ih (.within name [] 0) h
      | none =>
        rw [Definition.depth, openAfter_of_no_name hname] at h
        rw [extractFrom_keep hname, extractFrom_keep hname, ih .outside h]
        simp
    | within name seen nested =>
      cases hopens : opensDefinition raw with
      | true =>
        simp only [Definition.depth, openAfter, hopens, if_true] at h
        rw [extractFrom_open hopens, extractFrom_open hopens]
        exact ih (.within name (raw :: seen) (nested + 1)) h
      | false =>
        cases hcloses : closesDefinition raw with
        | false =>
          simp only [Definition.depth, openAfter, hopens, hcloses, Bool.false_eq_true,
            if_false] at h
          rw [extractFrom_body hopens hcloses, extractFrom_body hopens hcloses]
          exact ih (.within name (raw :: seen) nested) h
        | true =>
          simp only [Definition.depth, openAfter, hopens, hcloses, Bool.false_eq_true,
            if_false, if_true, Nat.add_sub_cancel] at h
          cases nested with
          | zero =>
            rw [extractFrom_finish hcloses, extractFrom_finish hcloses,
              ih .outside h]
            simp
          | succ nested =>
            rw [extractFrom_close hcloses, extractFrom_close hcloses]
            exact ih (.within name (raw :: seen) nested) h

theorem Balanced.extractFrom {body : List String} (h : Balanced body) :
    extractFrom (.within name seen nested) (body ++ rest) =
      extractFrom (.within name (body.reverse ++ seen) nested) rest := by
  induction h generalizing seen nested rest with
  | nil => rfl
  | line hopens hcloses _ ih =>
    rw [List.cons_append, extractFrom_body hopens hcloses, ih]
    simp
  | nested hopens hcloses _ _ ihinner ihrest =>
    rw [List.cons_append, List.append_assoc, extractFrom_open hopens, ihinner,
      List.cons_append, extractFrom_close hcloses, ihrest]
    simp

theorem IsDefinition.extractFrom {body block : List String} (h : IsDefinition name body block) :
    extractFrom .outside (block ++ rest) = (do define name body; extractFrom .outside rest) := by
  cases h with
  | intro hname hbody hcloses =>
    rw [List.cons_append, extractFrom_start hname, List.append_assoc, hbody.extractFrom,
      List.singleton_append, extractFrom_finish hcloses]
    simp

end Reader

/-! ## The order of subroutines -/

/-- States that differ at most in the order of their subroutines. -/
structure Reordered (s t : Interpreter) : Prop where
  bindings : s.bindings = t.bindings
  maxIterations : s.maxIterations = t.maxIterations
  printed : s.printed = t.printed
  subroutines : ∀ name, Dict.get? s.subroutines name = Dict.get? t.subroutines name

/-- States of which the second differs from the first in one subroutine, and in the order. -/
structure Supplied (name : String) (body : List String) (s t : Interpreter) : Prop where
  bindings : s.bindings = t.bindings
  maxIterations : s.maxIterations = t.maxIterations
  printed : s.printed = t.printed
  subroutines : ∀ other, Dict.get? t.subroutines other =
    if other = name then some body else Dict.get? s.subroutines other

instance : Kindred Reordered where
  bindings hst := hst.bindings
  maxIterations hst := hst.maxIterations
  rebind _ hst := ⟨rfl, hst.maxIterations, hst.printed, hst.subroutines⟩
  print _ hst := ⟨hst.bindings, hst.maxIterations, by rw [hst.printed], hst.subroutines⟩

theorem Reordered.refl (s : Interpreter) : Reordered s s :=
  ⟨rfl, rfl, rfl, fun _ => rfl⟩

theorem Reordered.symm {s t : Interpreter} (h : Reordered s t) : Reordered t s :=
  ⟨h.bindings.symm, h.maxIterations.symm, h.printed.symm, fun name => (h.subroutines name).symm⟩

/-- A state with a subroutine stored. -/
def Interpreter.storing (s : Interpreter) (name : String) (body : List String) : Interpreter :=
  { s with subroutines := Dict.put s.subroutines name body }

theorem run_define (name : String) (body : List String) (s : Interpreter) :
    (define name body).run s = .ok () (s.storing name body) := rfl

section Storing

variable {name other : String} {body lines : List String} {s t : Interpreter}

theorem Reordered.storing (h : Reordered s t) (name : String) (body : List String) :
    Reordered (s.storing name body) (t.storing name body) := by
  refine ⟨h.bindings, h.maxIterations, h.printed, fun other => ?_⟩
  simp only [Interpreter.storing, Dict.get?_put, h.subroutines other]

theorem Supplied.storing (h : Supplied name body s t) (hother : other ≠ name)
    (lines : List String) : Supplied name body (s.storing other lines) (t.storing other lines) := by
  refine ⟨h.bindings, h.maxIterations, h.printed, fun key => ?_⟩
  simp only [Interpreter.storing, Dict.get?_put, h.subroutines key]
  by_cases hkey : key = other
  · simp [hkey, hother]
  · simp [hkey]

theorem Reordered.supplied (h : Reordered s t) (name : String) (body : List String) :
    Supplied name body t (s.storing name body) := by
  refine ⟨h.bindings.symm, h.maxIterations.symm, h.printed.symm, fun other => ?_⟩
  simp only [Interpreter.storing, Dict.get?_put, h.subroutines other]

theorem Supplied.reordered (h : Supplied name body s t) :
    Reordered t (s.storing name body) := by
  refine ⟨h.bindings.symm, h.maxIterations.symm, h.printed.symm, fun other => ?_⟩
  simp only [Interpreter.storing, Dict.get?_put, h.subroutines other]

end Storing

/-- The name of the definition under way. -/
def Definition.names : Definition → List String
  | .outside => []
  | .within name _ _ => [name]

/-- Reading keeps what the storing of the definitions keeps that stand outside all others. -/
theorem parallels_extractFrom {A : Interpreter → Interpreter → Prop} {state : Definition}
    {lines : List String}
    (hdefine : ∀ name ∈ state.names ++ outerNames state.depth lines,
      ∀ body, Parallels A Eq (define name body) (define name body)) :
    Parallels A Eq (extractFrom state lines) (extractFrom state lines) := by
  induction lines generalizing state with
  | nil =>
    cases state with
    | outside => exact parallels_pure rfl
    | within name seen nested =>
      exact (hdefine name List.mem_cons_self _).bind_eq fun _ => parallels_pure rfl
  | cons raw lines ih =>
    cases state with
    | outside =>
      simp only [Definition.names, Definition.depth, List.nil_append, outerNames, if_true]
        at hdefine
      cases hname : definedName? (Text.trim raw) with
      | some name =>
        rw [hname, openAfter_of_name hname] at hdefine
        rw [extractFrom_start hname]
        exact ih hdefine
      | none =>
        rw [hname, openAfter_of_no_name hname] at hdefine
        rw [extractFrom_keep hname]
        have hrest : Parallels A Eq (extractFrom .outside lines)
            (extractFrom .outside lines) := ih hdefine
        exact hrest.bind_eq fun _ => parallels_pure rfl
    | within name seen nested =>
      simp only [Definition.names, Definition.depth, outerNames, Nat.add_one_ne_zero, if_false]
        at hdefine
      cases hopens : opensDefinition raw with
      | true =>
        simp only [openAfter, hopens, if_true] at hdefine
        rw [extractFrom_open hopens]
        exact ih hdefine
      | false =>
        cases hcloses : closesDefinition raw with
        | false =>
          simp only [openAfter, hopens, hcloses, Bool.false_eq_true, if_false] at hdefine
          rw [extractFrom_body hopens hcloses]
          exact ih hdefine
        | true =>
          simp only [openAfter, hopens, hcloses, Bool.false_eq_true, if_false, if_true,
            Nat.add_sub_cancel] at hdefine
          cases nested with
          | zero =>
            rw [extractFrom_finish hcloses]
            refine (hdefine name List.mem_cons_self _).bind_eq fun _ => ?_
            exact ih fun other hother => hdefine other (List.mem_cons_of_mem name hother)
          | succ nested =>
            rw [extractFrom_close hcloses]
            exact ih hdefine

theorem parallels_extract_reordered (lines : List String) :
    Parallels Reordered Eq (extractFrom .outside lines) (extractFrom .outside lines) :=
  parallels_extractFrom fun name _ body _ _ hst => .ok rfl (hst.storing name body)

/-- A subroutine that lines do not define may be stored before they are read, or after. -/
theorem parallels_define_extract {name : String} {lines : List String} (body : List String)
    (hname : name ∉ outerNames 0 lines) :
    Parallels Reordered Eq (do define name body; extractFrom .outside lines)
      (do let kept ← extractFrom .outside lines; define name body; return kept) := by
  intro s t hst
  have hread : Parallels (Supplied name body) Eq (extractFrom .outside lines)
      (extractFrom .outside lines) := by
    refine parallels_extractFrom fun other hother more u v huv => .ok rfl (huv.storing ?_ more)
    exact fun hsame => hname (hsame ▸ hother)
  obtain ⟨kept, u, hu, -⟩ := run_extractFrom .outside lines t
  have hends := hread t (s.storing name body) (hst.supplied name body)
  simp only [EStateM.run_bind, run_define, hu] at hends ⊢
  generalize (extractFrom .outside lines).run (s.storing name body) = r at hends ⊢
  cases hends with
  | ok hkept huv => exact .ok hkept.symm huv.reordered

/-! ## Moving definitions -/

section Moving

variable {name : String} {body block before middle after : List String}

theorem parallels_extract_moved (hblock : IsDefinition name body block)
    (hbefore : openAfterAll 0 before = 0) (hmiddle : openAfterAll 0 middle = 0)
    (hname : name ∉ outerNames 0 middle) :
    Parallels Reordered Eq (extractSubroutines (before ++ (block ++ (middle ++ after))))
      (extractSubroutines (before ++ (middle ++ (block ++ after)))) := by
  unfold extractSubroutines
  rw [extractFrom_append .outside _ hbefore, extractFrom_append .outside _ hbefore,
    hblock.extractFrom, extractFrom_append .outside _ hmiddle,
    extractFrom_append .outside _ hmiddle, hblock.extractFrom]
  refine (parallels_extract_reordered before).bind_eq fun kept => ?_
  have hrest (more : List String) : Parallels Reordered Eq
      (do let last ← extractFrom .outside after; return kept ++ (more ++ last))
      (do let last ← extractFrom .outside after; return kept ++ (more ++ last)) :=
    (parallels_extract_reordered after).bind_eq fun _ => parallels_pure rfl
  have hmoved := (parallels_define_extract body hname).bind_eq hrest
  simpa only [bind_assoc, pure_bind] using hmoved

/-- Scripts of which one has a definition further down expand alike. -/
theorem parallels_preprocess_moved (around : Surroundings) (base : Option Path)
    (after : List String) (hblock : IsDefinition name body block)
    (hbefore : openAfterAll 0 before = 0) (hmiddle : openAfterAll 0 middle = 0)
    (hname : name ∉ outerNames 0 middle) :
    Parallels Reordered Eq (preprocess around base (before ++ (block ++ (middle ++ after))))
      (preprocess around base (before ++ (middle ++ (block ++ after)))) :=
  (parallels_extract_moved hblock hbefore hmiddle hname).bind_eq fun lines =>
    parallels_expandBlock around base (fun hst => hst.subroutines) _ lines

/-- Between two places outside all definitions there are whole definitions only, and what the lines
there define, the script defines. -/
theorem outside_between {lines : List String} (hbefore : openAfterAll 0 before = 0)
    (hboth : openAfterAll 0 (before ++ middle) = 0)
    (hname : name ∉ outerNames 0 (before ++ middle ++ lines)) :
    openAfterAll 0 middle = 0 ∧ name ∉ outerNames 0 middle := by
  rw [openAfterAll_append, hbefore] at hboth
  refine ⟨hboth, fun hmem => hname ?_⟩
  rw [outerNames_append, outerNames_append, hbefore]
  exact List.mem_append_left _ (List.mem_append_right _ hmem)

/-- A definition may stand anywhere in a script outside all other definitions, also between the
lines of a loop or after the last call, as long as nothing else there defines its name: the script
yields the same commands or stops with the same error, with the same variables, the same output and
the same subroutine under every name. -/
theorem definition_placed_anywhere (around : Surroundings) (base : Option Path)
    {before' after' : List String} (hblock : IsDefinition name body block)
    (hsame : before ++ after = before' ++ after') (hbefore : openAfterAll 0 before = 0)
    (hbefore' : openAfterAll 0 before' = 0) (hname : name ∉ outerNames 0 (before ++ after))
    (s : Interpreter) :
    Parallel Reordered Eq ((preprocess around base (before ++ (block ++ after))).run s)
      ((preprocess around base (before' ++ (block ++ after'))).run s) := by
  rcases List.append_eq_append_iff.mp hsame with ⟨middle, rfl, rfl⟩ | ⟨middle, rfl, rfl⟩
  · rw [← List.append_assoc] at hname
    obtain ⟨hmiddle, hother⟩ := outside_between hbefore hbefore' hname
    rw [List.append_assoc]
    exact parallels_preprocess_moved around base after' hblock hbefore hmiddle hother s s (.refl s)
  · obtain ⟨hmiddle, hother⟩ := outside_between hbefore' hbefore hname
    rw [List.append_assoc]
    have hmoved := parallels_preprocess_moved around base after hblock hbefore' hmiddle hother
    exact (hmoved s s (.refl s)).symm Reordered.symm

end Moving

/-- A subroutine defined on top, or inside the loop that calls it, in a script that ends in a
definition that is never ended. -/
theorem definition_between_loop_lines :
    let block := ["def wave", "say $1", "enddef"]
    let before := ["call wave hi", "for i in a b"]
    let after := [" call wave again", "endfor", "def bow", "say no more"]
    IsDefinition "wave" ["say $1"] block ∧ openAfterAll 0 before = 0 ∧
      "wave" ∉ outerNames 0 (before ++ after) ∧
      Parallel Reordered Eq ((preprocess nowhere none ([] ++ (block ++ (before ++ after)))).run {})
        ((preprocess nowhere none (before ++ (block ++ after))).run {}) ∧
      yielded ((preprocess nowhere none (before ++ (block ++ after))).run {}) =
        some ["say hi", "say again", "say again"] := by
  intro block before after
  have hblock : IsDefinition "wave" ["say $1"] block :=
    .intro (by decide) (.line (by decide) (by decide) .nil) (by decide)
  have hbefore : openAfterAll 0 before = 0 := by decide
  have hname : "wave" ∉ outerNames 0 (before ++ after) := by decide
  refine ⟨hblock, hbefore, hname, ?_, by decide +kernel⟩
  exact definition_placed_anywhere nowhere none hblock (List.nil_append _) rfl hbefore hname {}

end RobotConsole.Script
