import RobotConsole.Proofs.Script.BlockTree
import RobotConsole.Proofs.Script.Likeness

/-!
# Splicing plain files into a script

An include yields the lines of its file as commands, whatever they are, and does nothing else with
them (`run_expandInclude`). Lines that are commands without variables, blank lines or remarks stay
what they are when they stand in the script itself (`Plain`). `Spliced` relates lines to the same
lines with such files in place of their includes. None of the files opens or closes anything, so
blocks and definitions are found at corresponding lines (`Spliced.blockLength`, `Spliced.branches`,
`mirrors_extractFrom`).
-/

namespace RobotConsole.Script

open Arithmetic (Value)
open Storage (Path)

variable {around around' : Surroundings} {base base' : Option Path}

/-! ## Files and plain lines -/

/-- A script file that can be read, and its lines. -/
def scriptAt? (around : Surroundings) (path : Path) : Option (Path × List String) :=
  let file := Path.resolve around.directory path
  if path.hasNul then none
  else (around.files.lines file).toOption.map fun lines => (file, lines)

/-- The path that the argument of an include names: a relative one is looked up in a directory. -/
def includePath (base : Option Path) (argument : String) : Path :=
  match base with
  | some directory => directory.join (Path.ofText (unquote argument))
  | none => Path.ofText (unquote argument)

/-- The file that an include line names, with its lines, if it is there and can be read. -/
def included? (around : Surroundings) (base : Option Path) (line : String) :
    Option (Path × List String) := do
  let path := includePath base (← argumentOf? "include" line)
  if (around.files.contains around.directory path).toOption = some true then
    scriptAt? around path
  else none

/-- A line of an included file that means the same read plainly and interpreted: a remark, or a
command that refers to no variable and starts no definition. -/
inductive Plain (raw : String) : Prop
  | remark : classify (Text.trim raw) = .skipped → Plain raw
  | command : classify (Text.trim raw) = .command → definedName? (Text.trim raw) = none →
      (∀ bindings, expandText bindings (Text.trim raw) = .ok (Text.trim raw)) → Plain raw

/-! ## Reading files -/

/-- A script that can be read and was not visited before is read. -/
theorem run_openScript {path file : Path} {lines : List String}
    (h : scriptAt? around path = some (file, lines)) {visited : List Path}
    (hvisited : file ∉ visited) (s : Interpreter) :
    (openScript around path visited).run s = .ok (some lines, file, visited ++ [file]) s := by
  unfold scriptAt? at h
  dsimp only at h
  split at h
  · cases h
  · rename_i hnul
    obtain ⟨lines', hlines, hpair⟩ := Option.map_eq_some_iff.mp h
    cases hpair
    unfold openScript
    cases hread : around.files.lines (Path.resolve around.directory path) with
    | error cause =>
      rw [hread] at hlines
      cases hlines
    | ok lines'' =>
      rw [hread] at hlines
      cases hlines
      simp only [hnul, hread, if_false, List.contains_eq_mem, decide_eq_true_eq, hvisited,
        Bool.false_eq_true]
      rfl

theorem eq_ok_of_toOption {ε α : Type} {x : Except ε α} {a : α} (h : x.toOption = some a) :
    x = .ok a := by
  cases x with
  | error cause => cases h
  | ok b =>
    cases h
    rfl

/-- Whatever a file holds, including it yields its lines as commands and changes nothing. -/
theorem run_expandInclude {line : String} {file : Path} {content : List String}
    (h : included? around base line = some (file, content)) (s : Interpreter) :
    (expandInclude around base line).run s = .ok (plainCommands content) s := by
  unfold included? at h
  cases hargument : argumentOf? "include" line with
  | none =>
    rw [hargument] at h
    cases h
  | some argument =>
    rw [hargument] at h
    dsimp only [Option.bind_eq_bind, Option.bind_some] at h
    split at h
    · rename_i hfound
      have hthere := eq_ok_of_toOption hfound
      have hload : (loadPlain around (includePath base argument) []).run s =
          .ok (plainCommands content, [file]) s := by
        unfold loadPlain
        rw [EStateM.run_bind, run_openScript h List.not_mem_nil]
        rfl
      unfold expandInclude
      cases base with
      | none =>
        dsimp only [includePath] at hthere hload
        simp only [hargument, hthere, EStateM.run_bind, hload, EStateM.run_pure]
      | some directory =>
        dsimp only [includePath] at hthere hload
        simp only [hargument, hthere, EStateM.run_bind, hload, EStateM.run_pure]
    · cases h

/-! ## Lines that structure nothing -/

/-- A line that neither opens nor closes anything, blocks and definitions alike. -/
structure Passive (raw : String) : Prop where
  inert : Inert (normalLine raw)
  notDef : startsWith (normalLine raw) "def " = false
  notEnddef : normalLine raw ≠ "enddef"

theorem skipped_of_classify {line : String} (h : classify line = .skipped) :
    (line == "" || startsWith line "#") = true := by
  unfold classify at h
  dsimp only at h
  split at h
  · assumption
  · repeat' split at h
    all_goals cases h

theorem startsWith_of_classify {line : String} (h : classify line = .includeFile) :
    startsWith (Text.lower line) "include " = true := by
  unfold classify at h
  dsimp only at h
  split at h
  · cases h
  split at h
  · assumption
  · repeat' split at h
    all_goals cases h

theorem ne_enddef_of_classify {line : String} (h : classify line = .command) :
    Text.lower line ≠ "enddef" := by
  intro hend
  unfold classify at h
  rw [hend] at h
  dsimp only at h
  split at h
  · cases h
  · cases h

theorem lower_of_skipped {line : String} (h : (line == "" || startsWith line "#") = true) :
    Text.lower line = "" ∨ ∃ more, (Text.lower line).toList = '#' :: more := by
  rcases Bool.or_eq_true_iff.mp h with hempty | hremark
  · rw [beq_iff_eq.mp hempty]
    exact .inl (by decide)
  · obtain ⟨more, hmore⟩ := List.isPrefixOf_iff_prefix.mp hremark
    refine .inr ⟨Text.lowerFrom ['#'] more, ?_⟩
    unfold Text.lower
    rw [String.toList_ofList, ← hmore]
    exact Text.lowerFrom_cons_ascii [] more (by decide)

theorem passive_of_skipped {raw : String} (h : classify (Text.trim raw) = .skipped) :
    Passive raw := by
  have hskip := skipped_of_classify h
  rcases lower_of_skipped hskip with hempty | ⟨more, hmore⟩
  · refine ⟨inert_of_skipped hskip, ?_, ?_⟩
    · rw [normalLine, hempty]
      decide
    · rw [normalLine, hempty]
      decide
  · refine ⟨inert_of_skipped hskip, ?_, ?_⟩
    · unfold startsWith normalLine
      rw [hmore]
      rfl
    · intro hend
      rw [normalLine] at hend
      rw [hend] at hmore
      cases hmore

theorem passive_of_include {raw : String} (h : classify (Text.trim raw) = .includeFile) :
    Passive raw := by
  have hstart : StartsWith "include" (normalLine raw) :=
    startsWith_of_eq_true "include" (startsWith_of_classify h)
  refine ⟨⟨?_, hstart.closes, hstart.ne (by decide)⟩, ?_, hstart.ne (by decide)⟩
  · obtain ⟨more, hmore⟩ := hstart
    unfold opensBlock startsWith
    rw [hmore]
    rfl
  · obtain ⟨more, hmore⟩ := hstart
    unfold startsWith
    rw [hmore]
    rfl

theorem Plain.passive {raw : String} (h : Plain raw) : Passive raw := by
  cases h with
  | remark hkind => exact passive_of_skipped hkind
  | command hkind hname _ =>
    have hinert : Inert (normalLine raw) := @inert_of_classify _ .command hkind
    refine ⟨hinert, ?_, ne_enddef_of_classify hkind⟩
    unfold definedName? at hname
    split at hname
    · cases hname
    · rename_i hdef
      exact eq_false_of_ne_true hdef

/-! ## Finding blocks with and without includes -/

/-- Lines with their includes replaced by the lines of plain files. -/
inductive Spliced (around : Surroundings) (base : Option Path) : List String → List String → Prop
  | nil : Spliced around base [] []
  | line {raw : String} {rest rest' : List String} :
      classify (Text.trim raw) ≠ .includeFile → Spliced around base rest rest' →
      Spliced around base (raw :: rest) (raw :: rest')
  | file {raw : String} {file : Path} {content rest rest' : List String} :
      classify (Text.trim raw) = .includeFile →
      included? around base (Text.trim raw) = some (file, content) →
      (∀ line ∈ content, Plain line) → Spliced around base rest rest' →
      Spliced around base (raw :: rest) (content ++ rest')

theorem Spliced.append {xs xs' ys ys' : List String} (hxs : Spliced around base xs xs')
    (hys : Spliced around base ys ys') : Spliced around base (xs ++ ys) (xs' ++ ys') := by
  induction hxs with
  | nil => exact hys
  | line hraw _ ih => exact .line hraw ih
  | file hraw hfile hplain _ ih =>
    rw [List.append_assoc]
    exact .file hraw hfile hplain ih

/-- What a line does to the search for the end of a loop does not depend on the lines after it. -/
theorem blockLength_cons (closing : String) (nested : Int) (raw : String) :
    (∀ rest, blockLength closing nested (raw :: rest) = (0, true)) ∨
    ∃ nested', ∀ rest, blockLength closing nested (raw :: rest) =
      ((blockLength closing nested' rest).1 + 1, (blockLength closing nested' rest).2) := by
  cases hopens : opensBlock (normalLine raw) with
  | true =>
    refine .inr ⟨nested + 1, fun rest => ?_⟩
    rw [blockLength]
    simp [hopens]
  | false =>
    cases hcloses : closesBlock (normalLine raw) with
    | false =>
      refine .inr ⟨nested, fun rest => ?_⟩
      rw [blockLength]
      simp [hopens, hcloses]
    | true =>
      cases hend : nested == 0 && normalLine raw == closing with
      | true =>
        refine .inl fun rest => ?_
        rw [blockLength]
        simp only [hopens, hcloses, hend, Bool.false_eq_true, if_false, if_true]
      | false =>
        refine .inr ⟨nested - 1, fun rest => ?_⟩
        rw [blockLength]
        simp only [hopens, hcloses, hend, Bool.false_eq_true, if_false, if_true]

theorem blockLength_passive {lines : List String} (h : ∀ line ∈ lines, Passive line)
    (closing : String) (nested : Int) (rest : List String) :
    blockLength closing nested (lines ++ rest) =
      ((blockLength closing nested rest).1 + lines.length,
        (blockLength closing nested rest).2) := by
  induction lines with
  | nil => rfl
  | cons line lines ih =>
    have hline := (h line List.mem_cons_self).inert
    have hlines := ih fun l hl => h l (List.mem_cons_of_mem line hl)
    rw [List.cons_append, blockLength]
    simp only [hline.opens, hline.closes, Bool.false_eq_true, if_false, hlines, List.length_cons,
      Nat.add_assoc]

theorem Spliced.blockLength {rest rest' : List String} (h : Spliced around base rest rest')
    (closing : String) (nested : Int) :
    (Script.blockLength closing nested rest).2 = (Script.blockLength closing nested rest').2 ∧
    Spliced around base (rest.take (Script.blockLength closing nested rest).1)
      (rest'.take (Script.blockLength closing nested rest').1) ∧
    Spliced around base (rest.drop ((Script.blockLength closing nested rest).1 + 1))
      (rest'.drop ((Script.blockLength closing nested rest').1 + 1)) := by
  induction h generalizing nested with
  | nil => exact ⟨rfl, .nil, .nil⟩
  | line hraw hrest ih =>
    -- the same line stands on both sides: it ends both searches or neither
    rcases blockLength_cons closing nested _ with hend | ⟨nested', hmore⟩
    · rw [hend, hend]
      exact ⟨rfl, .nil, hrest⟩
    · rw [hmore, hmore]
      obtain ⟨hfound, htake, hdrop⟩ := ih nested'
      exact ⟨hfound, .line hraw htake, hdrop⟩
  | @file raw file content rest rest' hraw hfile hplain hrest ih =>
    obtain ⟨hfound, htake, hdrop⟩ := ih nested
    have hone := blockLength_passive (List.forall_mem_singleton.mpr (passive_of_include hraw))
      closing nested rest
    rw [List.singleton_append] at hone
    -- behind the include and behind its file as many blocks are open as before them
    rw [hone, blockLength_passive fun l hl => (hplain l hl).passive]
    refine ⟨hfound, ?_, ?_⟩
    · dsimp only
      rw [Nat.add_comm _ content.length, List.take_length_add_append]
      exact .file hraw hfile hplain htake
    · dsimp only
      rw [Nat.add_right_comm _ content.length, Nat.add_comm _ content.length,
        List.drop_length_add_append]
      exact hdrop

theorem added_passive {lines : List String} (h : ∀ line ∈ lines, Passive line) : Added lines := by
  induction lines with
  | nil => exact added_nil
  | cons line lines ih =>
    have hline := (h line List.mem_cons_self).inert.added
    exact hline.append (ih fun l hl => h l (List.mem_cons_of_mem line hl))

/-- What a line does to the search for the parts of a conditional: it ends the search, is added to
a part, or starts the second part, whatever the lines after it. -/
theorem branches?_cons (nested : Nat) (inElse : Bool) (raw : String) :
    (∀ rest, branches? nested inElse (raw :: rest) = some ⟨[], [], 0⟩) ∨
    (∃ nested', ∀ rest, branches? nested inElse (raw :: rest) =
      (branches? nested' inElse rest).map (·.add inElse raw)) ∨
    (∀ rest, branches? nested inElse (raw :: rest) =
      (branches? nested true rest).map fun b => { b with length := b.length + 1 }) := by
  by_cases hif : startsWith (normalLine raw) "if " = true
  · refine .inr (.inl ⟨nested + 1, fun rest => ?_⟩)
    rw [branches?.eq_def]
    simp only [hif, if_true]
  by_cases hendif : normalLine raw = "endif"
  · have hnot : startsWith "endif" "if " = false := by decide
    cases nested with
    | zero =>
      refine .inl fun rest => ?_
      rw [branches?.eq_def]
      simp [hendif, hnot]
    | succ nested =>
      refine .inr (.inl ⟨nested, fun rest => ?_⟩)
      rw [branches?.eq_def]
      simp [hendif, hnot]
  by_cases helse : normalLine raw = "else" ∧ nested = 0
  · have hnot : startsWith "else" "if " = false := by decide
    refine .inr (.inr fun rest => ?_)
    rw [branches?.eq_def]
    simp [helse.1, helse.2, hnot]
  · refine .inr (.inl ⟨nested, fun rest => ?_⟩)
    rw [branches?.eq_def]
    simp [hif, hendif, helse]

/-- Parts of a conditional that correspond, and so do the lines after its end. -/
structure PartsAlike (around : Surroundings) (base : Option Path) (rest rest' : List String)
    (b b' : Branches) : Prop where
  thenLines : Spliced around base b.thenLines b'.thenLines
  elseLines : Spliced around base b.elseLines b'.elseLines
  after : Spliced around base (rest.drop (b.length + 1)) (rest'.drop (b'.length + 1))

theorem rel_map {α β γ δ : Type} {R : α → β → Prop} {Q : γ → δ → Prop} {x : Option α}
    {y : Option β} {f : α → γ} {g : β → δ} (h : Option.Rel R x y)
    (hfg : ∀ a b, R a b → Q (f a) (g b)) : Option.Rel Q (x.map f) (y.map g) := by
  cases h with
  | some hab => exact .some (hfg _ _ hab)
  | none => exact .none

theorem Spliced.branches {rest rest' : List String} (h : Spliced around base rest rest')
    (nested : Nat) (inElse : Bool) :
    Option.Rel (PartsAlike around base rest rest') (branches? nested inElse rest)
      (branches? nested inElse rest') := by
  induction h generalizing nested inElse with
  | nil => exact .none
  | line hraw hrest ih =>
    rcases branches?_cons nested inElse _ with hend | ⟨nested', hmore⟩ | helse
    · rw [hend, hend]
      exact .some ⟨.nil, .nil, hrest⟩
    · rw [hmore, hmore]
      refine rel_map (ih nested' inElse) fun b b' hb => ?_
      cases inElse with
      | true => exact ⟨hb.thenLines, .line hraw hb.elseLines, hb.after⟩
      | false => exact ⟨.line hraw hb.thenLines, hb.elseLines, hb.after⟩
    · rw [helse, helse]
      exact rel_map (ih nested true) fun b b' hb => ⟨hb.thenLines, hb.elseLines, hb.after⟩
  | @file raw file content rest rest' hraw hfile hplain hrest ih =>
    have hone := (passive_of_include hraw).inert.added nested inElse rest
    rw [List.singleton_append] at hone
    rw [hone, added_passive (fun l hl => (hplain l hl).passive) nested inElse rest']
    -- the file goes to the part that its include is in
    refine rel_map (ih nested inElse) fun b b' hb => ?_
    have hafter : Spliced around base ((raw :: rest).drop (b.length + 1 + 1))
        ((content ++ rest').drop (b'.length + content.length + 1)) := by
      rw [Nat.add_right_comm _ content.length, Nat.add_comm _ content.length,
        List.drop_length_add_append]
      exact hb.after
    rw [Branches.addAll_eq, Branches.addAll_eq]
    cases inElse with
    | true => exact ⟨hb.thenLines, .file hraw hfile hplain hb.elseLines, hafter⟩
    | false => exact ⟨.file hraw hfile hplain hb.thenLines, hb.elseLines, hafter⟩

/-! ## Definitions with and without includes -/

/-- Readers of definitions that stand at corresponding places. -/
inductive DefinitionAlike (around : Surroundings) (base : Option Path) :
    Definition → Definition → Prop
  | outside : DefinitionAlike around base .outside .outside
  | within {name : String} {seen seen' : List String} {nested : Nat} :
      Spliced around base seen.reverse seen'.reverse →
      DefinitionAlike around base (.within name seen nested) (.within name seen' nested)

theorem Passive.definedName? {raw : String} (h : Passive raw) :
    definedName? (Text.trim raw) = none := by
  have hdef : startsWith (Text.lower (Text.trim raw)) "def " = false := h.notDef
  unfold Script.definedName?
  rw [hdef]
  rfl

theorem extractFrom_outside_passive {lines : List String} (h : ∀ line ∈ lines, Passive line)
    (rest : List String) :
    extractFrom .outside (lines ++ rest) = do return lines ++ (← extractFrom .outside rest) := by
  induction lines with
  | nil => exact (bind_pure _).symm
  | cons line lines ih =>
    have hline := (h line List.mem_cons_self).definedName?
    have hlines := ih fun l hl => h l (List.mem_cons_of_mem line hl)
    rw [List.cons_append, extractFrom.eq_def]
    simp only [hline, hlines, bind_assoc, pure_bind, List.cons_append]

theorem extractFrom_within_passive {lines : List String} (h : ∀ line ∈ lines, Passive line)
    (name : String) (seen : List String) (nested : Nat) (rest : List String) :
    extractFrom (.within name seen nested) (lines ++ rest) =
      extractFrom (.within name (lines.reverse ++ seen) nested) rest := by
  induction lines generalizing seen with
  | nil => rfl
  | cons line lines ih =>
    have hline := h line List.mem_cons_self
    have hlines := ih (fun l hl => h l (List.mem_cons_of_mem line hl)) (line :: seen)
    rw [List.cons_append, extractFrom.eq_def]
    simp only [hline.notDef, beq_eq_false_iff_ne.mpr hline.notEnddef, Bool.false_eq_true,
      if_false, hlines, List.reverse_cons, List.append_assoc, List.singleton_append]

/-- Definitions are stored under the same names, with corresponding bodies, and corresponding lines
are left outside them. -/
theorem mirrors_extractFrom {lines lines' : List String} (h : Spliced around base lines lines')
    {d d' : Definition} (hd : DefinitionAlike around base d d') :
    Mirrors (Spliced around base) (Spliced around base) (extractFrom d lines)
      (extractFrom d' lines') := by
  induction h generalizing d d' with
  | nil =>
    cases hd with
    | outside => exact mirrors_pure .nil
    | within hseen => exact (mirrors_define _ hseen).bind_eq fun _ => mirrors_pure .nil
  | @line raw rest rest' hraw hrest ih =>
    cases hd with
    | outside =>
      unfold extractFrom
      dsimp only
      split
      · exact ih (.within .nil)
      · exact (ih .outside).bind fun _ _ hmore => mirrors_pure (.line hraw hmore)
    | @within name seen seen' nested hseen =>
      -- any line but the end of the definition goes to its body, which is held in reverse
      have hmore : Spliced around base (raw :: seen).reverse (raw :: seen').reverse := by
        rw [List.reverse_cons, List.reverse_cons]
        exact hseen.append (.line hraw .nil)
      unfold extractFrom
      dsimp only
      split
      · exact ih (.within hmore)
      split
      · cases nested with
        | zero => exact (mirrors_define name hseen).bind_eq fun _ => ih .outside
        | succ nested => exact ih (.within hmore)
      · exact ih (.within hmore)
  | @file raw file content rest rest' hraw hfile hplain hrest ih =>
    have hone : ∀ line ∈ [raw], Passive line :=
      List.forall_mem_singleton.mpr (passive_of_include hraw)
    have hcontent : ∀ line ∈ content, Passive line := fun l hl => (hplain l hl).passive
    rw [← List.singleton_append]
    cases hd with
    | outside =>
      rw [extractFrom_outside_passive hone, extractFrom_outside_passive hcontent]
      exact (ih .outside).bind fun _ _ hmore => mirrors_pure (.file hraw hfile hplain hmore)
    | @within name seen seen' nested hseen =>
      rw [extractFrom_within_passive hone, extractFrom_within_passive hcontent]
      refine ih (.within ?_)
      rw [List.reverse_append, List.reverse_append, List.reverse_reverse, List.reverse_reverse,
        ← List.append_nil content]
      exact hseen.append (.file hraw hfile hplain .nil)

end RobotConsole.Script
