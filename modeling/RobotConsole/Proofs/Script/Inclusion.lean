import RobotConsole.Proofs.Script.Refinement
import RobotConsole.Proofs.Script.Splice

/-!
# What an include stands for

`Inlined` is textual inclusion: each include line gives way to the lines of the file it names, with
the includes in that file replaced in turn. Expansion is more timid and takes the lines of an
included file for commands. The two come to the same as far as included files hold plain lines:
then a script and its inlined form expand to the same commands and leave the same variables, and
the subroutines of one are those of the other, inlined (`inclusion_textual_of_plain`).
-/

namespace RobotConsole.Script

open Storage (Path)

variable {around around' : Surroundings} {base base' : Option Path}
variable {line raw : String} {lines lines' : List String} {limits : Limits}

/-! ## Textual inclusion -/

/-- Lines with every include line replaced by the lines of its file, the includes of which are
looked up where that file lies. -/
inductive Inlined (around : Surroundings) : Option Path → List String → List String → Prop
  | nil {base : Option Path} : Inlined around base [] []
  | line {base : Option Path} {raw : String} {rest rest' : List String} :
      classify (Text.trim raw) ≠ .includeFile → Inlined around base rest rest' →
      Inlined around base (raw :: rest) (raw :: rest')
  | file {base : Option Path} {raw : String} {file : Path}
      {content content' rest rest' : List String} :
      classify (Text.trim raw) = .includeFile →
      included? around base (Text.trim raw) = some (file, content) →
      Inlined around (some file.parent) content content' → Inlined around base rest rest' →
      Inlined around base (raw :: rest) (content' ++ rest')

/-- Every file that these lines include holds plain lines only. -/
def IncludesPlain (around : Surroundings) (base : Option Path) (lines : List String) : Prop :=
  ∀ raw ∈ lines, classify (Text.trim raw) = .includeFile →
    ∀ file content, included? around base (Text.trim raw) = some (file, content) →
      ∀ line ∈ content, Plain line

theorem Plain.classify_ne (h : Plain raw) :
    classify (Text.trim raw) ≠ .includeFile := by
  cases h with
  | remark hkind =>
    rw [hkind]
    decide
  | command hkind _ _ =>
    rw [hkind]
    decide

theorem Inlined.eq_of_plain (h : Inlined around base lines lines')
    (hplain : ∀ line ∈ lines, Plain line) : lines' = lines := by
  induction h with
  | nil => rfl
  | @line _ raw _ _ _ _ ih => rw [ih fun l hl => hplain l (List.mem_cons_of_mem raw hl)]
  | file hraw => exact absurd hraw (hplain _ List.mem_cons_self).classify_ne

theorem inlined_of_plain (hplain : ∀ line ∈ lines, Plain line) :
    Inlined around base lines lines := by
  induction lines with
  | nil => exact .nil
  | cons line lines ih =>
    exact .line (hplain line List.mem_cons_self).classify_ne
      (ih fun l hl => hplain l (List.mem_cons_of_mem line hl))

theorem Inlined.spliced (h : Inlined around base lines lines')
    (hplain : IncludesPlain around base lines) : Spliced around base lines lines' := by
  induction h with
  | nil => exact .nil
  | @line _ raw _ _ hraw _ ih =>
    exact .line hraw (ih fun l hl => hplain l (List.mem_cons_of_mem raw hl))
  | @file _ raw file content content' rest rest' hraw hfile hcontent _ _ ih =>
    have hlines := hplain raw List.mem_cons_self hraw file content hfile
    rw [hcontent.eq_of_plain hlines]
    exact .file hraw hfile hlines (ih fun l hl => hplain l (List.mem_cons_of_mem raw hl))

theorem Spliced.inlined (h : Spliced around base lines lines') :
    Inlined around base lines lines' := by
  induction h with
  | nil => exact .nil
  | line hraw _ ih => exact .line hraw ih
  | file hraw hfile hplain _ ih => exact .file hraw hfile (inlined_of_plain hplain) ih

/-- In a script that can be inlined, the file of every include is there. -/
theorem Inlined.included (h : Inlined around base lines lines')
    (hmem : raw ∈ lines) (hraw : classify (Text.trim raw) = .includeFile) :
    ∃ file content, included? around base (Text.trim raw) = some (file, content) := by
  induction h with
  | nil => cases hmem
  | line hother _ ih =>
    rcases List.mem_cons.mp hmem with rfl | hmem
    · exact absurd hraw hother
    · exact ih hmem
  | file _ hfile _ _ _ ih =>
    rcases List.mem_cons.mp hmem with rfl | hmem
    · exact ⟨_, _, hfile⟩
    · exact ih hmem

/-! ## Expanding single lines -/

theorem not_skipped_of_classify (h : classify line = .command) :
    (line == "" || startsWith line "#") = false := by
  unfold classify at h
  dsimp only at h
  split at h
  · cases h
  · rename_i hskip
    exact eq_false_of_ne_true hskip

theorem plainCommands_cons (line : String) (lines : List String) :
    plainCommands (line :: lines) = plainCommands [line] ++ plainCommands lines :=
  List.filter_append [Text.trim line] (lines.map Text.trim)

/-- Reading plainly leaves out the lines that interpretation skips. -/
theorem plainCommands_singleton (raw : String) :
    plainCommands [raw] =
      if Text.trim raw == "" || startsWith (Text.trim raw) "#" then [] else [Text.trim raw] := by
  have hremark : startsWith (Text.trim raw) "#" = ((Text.trim raw).toList.head? == some '#') := by
    unfold startsWith
    cases (Text.trim raw).toList with
    | nil => rfl
    | cons c cs => simp [List.isPrefixOf, Bool.beq_comm]
  rw [hremark]
  show List.filter _ [Text.trim raw] = _
  rw [List.filter_cons, List.filter_nil]
  cases hempty : Text.trim raw == "" with
  | true => simp [bne, hempty]
  | false => cases hhead : (Text.trim raw).toList.head? == some '#' <;> simp [bne, hempty, hhead]

theorem expandVariables_of_plain {text : String}
    (h : ∀ bindings, expandText bindings text = .ok text) : expandVariables text = pure text := by
  unfold expandVariables
  simp only [h]
  rfl

theorem Plain.expandLine (h : Plain raw) (expand : Expander) (position : Nat)
    (rest : List String) :
    expandLine around base expand position (Text.trim raw) rest =
      pure (plainCommands [raw], 0) := by
  unfold Script.expandLine
  rw [plainCommands_singleton]
  cases h with
  | remark hkind =>
    rw [hkind, skipped_of_classify hkind]
    rfl
  | command hkind _ htext =>
    rw [hkind, not_skipped_of_classify hkind, expandVariables_of_plain htext]
    rfl

theorem expandLine_include {file : Path} {content : List String}
    (hline : classify line = .includeFile)
    (hfile : included? around base line = some (file, content)) (expand : Expander)
    (position : Nat) (rest : List String) :
    expandLine around base expand position line rest = pure (plainCommands content, 0) := by
  have hinclude : expandInclude around base line = pure (plainCommands content) := by
    funext s
    exact run_expandInclude hfile s
  unfold expandLine
  rw [hline, hinclude]
  rfl

theorem expandLines_cons {expand : Expander} {position : Nat}
    {rest commands : List String}
    (h : expandLine around base expand position (Text.trim raw) rest = pure (commands, 0)) :
    expandLines around base expand position (raw :: rest) =
      do return commands ++ (← expandLines around base expand (position + 1) rest) := by
  rw [expandLines, h]
  rfl

theorem expandLines_plain (h : ∀ line ∈ lines, Plain line)
    (expand : Expander) (position : Nat) (rest : List String) :
    expandLines around base expand position (lines ++ rest) = do
      return plainCommands lines ++
        (← expandLines around base expand (position + lines.length) rest) := by
  induction lines generalizing position with
  | nil => exact (bind_pure _).symm
  | cons line lines ih =>
    have hline := h line List.mem_cons_self
    have hlines := ih (fun l hl => h l (List.mem_cons_of_mem line hl)) (position + 1)
    rw [List.cons_append, expandLines_cons (hline.expandLine expand position _), hlines,
      plainCommands_cons line lines, List.length_cons, Nat.add_right_comm, Nat.add_assoc position]
    simp only [bind_assoc, pure_bind, List.append_assoc]

/-! ## Expanding with and without includes -/

section Expanders

variable {expand expand' : Expander} {rest rest' : List String}

/-- What two expanders have in common that are given corresponding blocks. -/
def ExpandAlike (around : Surroundings) (base : Option Path) (expand expand' : Expander) : Prop :=
  ∀ {body body'}, Spliced around base body body' →
    Mirrors (Spliced around base) Eq (expand body) (expand' body')

/-- The same commands, with corresponding lines left. -/
def LeftAlike (around : Surroundings) (base : Option Path) (rest rest' : List String)
    (r r' : List String × Nat) : Prop :=
  r.1 = r'.1 ∧ Spliced around base (rest.drop r.2) (rest'.drop r'.2)

theorem mirrors_leaving (hrest : Spliced around base rest rest') (commands : List String) :
    Mirrors (Spliced around base) (LeftAlike around base rest rest') (pure (commands, 0))
      (pure (commands, 0)) :=
  mirrors_pure ⟨rfl, hrest⟩

theorem mirrors_loopBody (hrest : Spliced around base rest rest') (closing : String) :
    Mirrors (Spliced around base)
      (fun r r' => Spliced around base r.1 r'.1 ∧
        Spliced around base (rest.drop r.2) (rest'.drop r'.2))
      (loopBody closing rest) (loopBody closing rest') := by
  obtain ⟨hfound, htake, hdrop⟩ := hrest.blockLength closing 0
  unfold loopBody
  dsimp only
  rw [hfound]
  split
  · exact (mirrors_print _ _).bind_eq fun _ => mirrors_pure ⟨htake, hdrop⟩
  · exact mirrors_pure ⟨htake, hdrop⟩

theorem mirrors_expandFor (hexpand : ExpandAlike around base expand expand')
    (hrest : Spliced around base rest rest') (line : String) :
    Mirrors (Spliced around base) (LeftAlike around base rest rest')
      (expandFor limits expand line rest) (expandFor limits expand' line rest') := by
  unfold expandFor
  split
  · exact (mirrors_print _ _).bind_eq fun _ => mirrors_leaving hrest []
  · rename_i name text _
    refine (mirrors_expandVariables text).bind_eq fun text => ?_
    refine (mirrors_loopValues text).bind_eq fun values => ?_
    refine (mirrors_loopBody hrest "endfor").bind fun r r' hr => ?_
    refine mirrors_get.bind fun s t hst => ?_
    rw [hst.maxIterations]
    refine (mirrors_forRounds (hexpand hr.1) name _ values).bind_eq fun commands => ?_
    exact mirrors_pure ⟨rfl, hr.2⟩

theorem mirrors_expandWhile (hexpand : ExpandAlike around base expand expand')
    (hrest : Spliced around base rest rest') (line : String) :
    Mirrors (Spliced around base) (LeftAlike around base rest rest')
      (expandWhile limits expand line rest) (expandWhile limits expand' line rest') := by
  unfold expandWhile
  split
  · exact (mirrors_print _ _).bind_eq fun _ => mirrors_leaving hrest []
  · rename_i condition _
    refine (mirrors_loopBody hrest "endwhile").bind fun r r' hr => ?_
    refine mirrors_get.bind fun s t hst => ?_
    rw [hst.maxIterations]
    refine (mirrors_whileRounds (hexpand hr.1) condition _).bind_eq fun commands => ?_
    exact mirrors_pure ⟨rfl, hr.2⟩

theorem mirrors_expandIf (hexpand : ExpandAlike around base expand expand')
    (hrest : Spliced around base rest rest') (position position' : Int) (line : String) :
    Mirrors (Spliced around base) (LeftAlike around base rest rest')
      (expandIf limits expand position line rest)
      (expandIf limits expand' position' line rest') := by
  unfold expandIf
  split
  · exact (mirrors_print _ _).bind_eq fun _ => mirrors_leaving hrest []
  · rename_i condition _
    -- both conditionals are closed or neither is, and then their parts correspond
    have hparts := hrest.branches 0 false
    generalize branches? 0 false rest = parts at hparts ⊢
    generalize branches? 0 false rest' = parts' at hparts ⊢
    cases hparts with
    | none => exact (mirrors_print _ _).bind_eq fun _ => mirrors_leaving hrest []
    | @some parts parts' hparts =>
      refine (mirrors_evaluateCondition condition).bind_eq fun holds => ?_
      have hpart : Spliced around base (if holds then parts.thenLines else parts.elseLines)
          (if holds then parts'.thenLines else parts'.elseLines) := by
        split
        · exact hparts.thenLines
        · exact hparts.elseLines
      exact (hexpand hpart).bind_eq fun _ => mirrors_pure ⟨rfl, hparts.after⟩

/-- Any line but an include expands to the same commands, whatever is included after it. -/
theorem mirrors_expandLine (hexpand : ExpandAlike around base expand expand')
    (hrest : Spliced around base rest rest') (hline : classify line ≠ .includeFile)
    (position position' : Nat) :
    Mirrors (Spliced around base) (LeftAlike around base rest rest')
      (expandLine (around.under limits) base expand position line rest)
      (expandLine (around'.under limits) base' expand' position' line rest') := by
  unfold expandLine
  cases hkind : classify line with
  | skipped => exact mirrors_leaving hrest []
  | includeFile => exact absurd hkind hline
  | assignment => exact (mirrors_assign line).bind_eq fun _ => mirrors_leaving hrest []
  | forLoop => exact mirrors_expandFor hexpand hrest line
  | whileLoop => exact mirrors_expandWhile hexpand hrest line
  | conditional => exact mirrors_expandIf hexpand hrest position position' line
  | call =>
    exact (mirrors_expandCall hexpand line).bind_eq fun commands =>
      mirrors_leaving hrest commands
  | stray => exact (mirrors_print _ _).bind_eq fun _ => mirrors_leaving hrest []
  | command =>
    exact (mirrors_expandVariables line).bind_eq fun text => mirrors_leaving hrest [text]

theorem mirrors_expandLines (hexpand : ExpandAlike around base expand expand')
    (h : Spliced around base lines lines')
    (position position' : Nat) :
    Mirrors (Spliced around base) Eq (expandLines (around.under limits) base expand position lines)
      (expandLines (around'.under limits) base' expand' position' lines') := by
  -- a block takes its lines with it, so what is left is shorter but no part of the derivation
  induction hn : lines.length using Nat.strong_induction_on
    generalizing lines lines' position position' with
  | _ n ih =>
    cases h with
    | nil =>
      rw [expandLines, expandLines]
      exact mirrors_pure rfl
    | @line raw rest rest' hraw hrest =>
      rw [expandLines, expandLines]
      refine (mirrors_expandLine hexpand hrest hraw position position').bind fun r r' hr => ?_
      obtain ⟨hcommands, hleft⟩ := hr
      have hshorter : (rest.drop r.2).length < n := by
        rw [← hn, List.length_drop, List.length_cons]
        omega
      refine (ih _ hshorter hleft _ _ rfl).bind_eq fun more => mirrors_pure ?_
      rw [hcommands]
    | @file raw file content rest rest' hraw hfile hplain hrest =>
      have hshorter : rest.length < n := by
        rw [← hn, List.length_cons]
        omega
      have hthere : included? (around.under limits) base (Text.trim raw) = some (file, content) :=
        hfile
      rw [expandLines_cons (expandLine_include hraw hthere expand position rest),
        expandLines_plain hplain]
      exact (ih _ hshorter hrest _ _ rfl).bind_eq fun more => mirrors_pure rfl

end Expanders

theorem mirrors_expandBlock (limits : Limits) (levels : Nat) :
    ExpandAlike around base (expandBlock (around.under limits) base levels)
      (expandBlock (around'.under limits) base' levels) := by
  induction levels generalizing limits with
  | zero => exact fun _ => (mirrors_print _ _).bind_eq fun _ => mirrors_pure rfl
  | succ levels ih => exact fun hbody => mirrors_expandLines (ih limits.called.called) hbody 0 0

theorem mirrors_preprocess (hlimits : around'.limits = around.limits)
    (h : Spliced around base lines lines') :
    Mirrors (Spliced around base) Eq (preprocess around base lines)
      (preprocess around' base' lines') := by
  have hsame : around'.under around.limits = around' := by
    rw [← hlimits]
    rfl
  have hexpand : ExpandAlike around base (expandBlock around base (levelsAt 0))
      (expandBlock (around'.under around.limits) base' (levelsAt 0)) :=
    mirrors_expandBlock around.limits (levelsAt 0)
  rw [hsame] at hexpand
  exact (mirrors_extractFrom h .outside).bind fun _ _ hleft => hexpand hleft

/-! ## Loading a script -/

theorem run_loadScript {path file : Path}
    (h : scriptAt? around path = some (file, lines)) (base : Option Path) {visited : List Path}
    (hvisited : file ∉ visited) (s : Interpreter) :
    (loadScript around path base visited).run s =
      (do return (← preprocess around (some (base.getD file.parent)) lines, visited ++ [file]) :
        Run (List String × List Path)).run s := by
  unfold loadScript
  rw [EStateM.run_bind, run_openScript h hvisited]

theorem alike_fresh {B : List String → List String → Prop} : Alike B {} {} :=
  ⟨rfl, rfl, fun _ => .none⟩

/-- A script whose files can all be read and its inlined form expand to the same commands and leave
the same variables and, inlined, the same subroutines, provided that the included files hold plain
lines only. Otherwise they need not: an include always yields the lines of its file as commands, be
they directives, and it changes nothing. -/
theorem inclusion_textual_of_plain {main whole file file' : Path} {lines lines' : List String}
    (hlimits : around'.limits = around.limits)
    (hmain : scriptAt? around main = some (file, lines))
    (hinlined : Inlined around (some file.parent) lines lines')
    (hwhole : scriptAt? around' whole = some (file', lines')) :
    (IncludesPlain around (some file.parent) lines →
      Matches (Inlined around (some file.parent)) (fun r r' => r.1 = r'.1)
        ((loadScript around main none []).run {}) ((loadScript around' whole none []).run {})) ∧
    ∀ raw ∈ lines, classify (Text.trim raw) = .includeFile →
      ∃ content, (included? around (some file.parent) (Text.trim raw)).map Prod.snd = some content ∧
        ∀ expand position rest s,
          (expandLine around (some file.parent) expand position (Text.trim raw) rest).run s =
            .ok (plainCommands content, 0) s := by
  constructor
  · intro hplain
    have hpreprocess : Mirrors (Spliced around (some file.parent)) Eq
        (preprocess around (some file.parent) lines)
        (preprocess around' (some file'.parent) lines') :=
      mirrors_preprocess hlimits (hinlined.spliced hplain)
    have hload := hpreprocess.bind_eq fun commands =>
      mirrors_pure (R := fun r r' : List String × List Path => r.1 = r'.1)
        (a := (commands, [file])) (b := (commands, [file'])) rfl
    rw [run_loadScript hmain none List.not_mem_nil, run_loadScript hwhole none List.not_mem_nil]
    exact (hload {} {} alike_fresh).mono Spliced.inlined id
  · intro raw hmem hraw
    obtain ⟨source, content, hfile⟩ := hinlined.included hmem hraw
    refine ⟨content, by rw [hfile, Option.map_some], fun expand position rest s => ?_⟩
    rw [expandLine_include hraw hfile]
    rfl

/-! ## Plain files and others -/

theorem expandBraced_append {bindings : Dict Arithmetic.Value} {front : List Char}
    (h : '$' ∉ front) (rest : List Char) :
    expandBraced bindings .outside (front ++ rest) =
      (expandBraced bindings .outside rest).map (front ++ ·) := by
  induction front with
  | nil =>
    show _ = Except.map id _
    rw [Except.map_id]
    rfl
  | cons c front ih =>
    have hc : (c == '$') = false := beq_eq_false_iff_ne.mpr fun hc => h (hc ▸ List.mem_cons_self)
    rw [List.cons_append, expandBraced]
    simp only [hc, Bool.false_eq_true, if_false, ih fun hmem => h (List.mem_cons_of_mem c hmem)]
    cases expandBraced bindings .outside rest <;> rfl

theorem expandPlain_append {bindings : Dict Arithmetic.Value} {front : List Char}
    (h : '$' ∉ front) (rest : List Char) :
    expandPlain bindings none (front ++ rest) =
      (expandPlain bindings none rest).map (front ++ ·) := by
  induction front with
  | nil =>
    show _ = Except.map id _
    rw [Except.map_id]
    rfl
  | cons c front ih =>
    have hc : (c == '$') = false := beq_eq_false_iff_ne.mpr fun hc => h (hc ▸ List.mem_cons_self)
    rw [List.cons_append, expandPlain]
    simp only [hc, Bool.false_eq_true, if_false, ih fun hmem => h (List.mem_cons_of_mem c hmem)]
    cases expandPlain bindings none rest <;> rfl

theorem expandBraced_of_no_dollar (bindings : Dict Arithmetic.Value) {cs : List Char}
    (h : '$' ∉ cs) : expandBraced bindings .outside cs = .ok cs := by
  rw [← List.append_nil cs, expandBraced_append h]
  rfl

theorem expandPlain_of_no_dollar (bindings : Dict Arithmetic.Value) {cs : List Char}
    (h : '$' ∉ cs) : expandPlain bindings none cs = .ok cs := by
  rw [← List.append_nil cs, expandPlain_append h]
  rfl

theorem expandText_of_no_dollar (bindings : Dict Arithmetic.Value) {text : String}
    (h : '$' ∉ text.toList) : expandText bindings text = .ok text := by
  unfold expandText
  simp only [expandBraced_of_no_dollar bindings h, expandPlain_of_no_dollar bindings h, Bind.bind,
    Except.bind, String.ofList_toList]
  rfl

theorem plain_of_no_dollar (hkind : classify (Text.trim raw) = .command)
    (hname : definedName? (Text.trim raw) = none) (hdollar : '$' ∉ (Text.trim raw).toList) :
    Plain raw :=
  .command hkind hname fun bindings => expandText_of_no_dollar bindings hdollar

/-- A file of text. -/
def textFile (text : String) : Storage.Node :=
  .bytes text.toUTF8.data.toList

/-- Two scripts that include a file each, and what they are inlined. -/
def shelf : Surroundings where
  files := [
    (["greeting"], textFile "def greet\n  INCLUDE parts/hello\nenddef\nsay ho\ncall greet\n"),
    (["greeted"], textFile "def greet\n# a greeting\nsay hello\nenddef\nsay ho\ncall greet\n"),
    (["parts", "hello"], textFile "# a greeting\nsay hello\n"),
    (["counting"], textFile "include parts/five\nsay $x\n"),
    (["counted"], textFile "set x 5\nsay $x\n"),
    (["parts", "five"], textFile "set x 5\n")]
  directory := { root := "/", names := [] }

/-- The script with a plain include. -/
def greetingLines : List String :=
  ["def greet", "  INCLUDE parts/hello", "enddef", "say ho", "call greet"]

/-- The same, inlined. -/
def greetedLines : List String :=
  ["def greet", "# a greeting", "say hello", "enddef", "say ho", "call greet"]

theorem plain_hello : ∀ line ∈ ["# a greeting", "say hello"], Plain line := by
  intro line hline
  simp only [List.mem_cons, List.not_mem_nil, or_false] at hline
  rcases hline with rfl | rfl
  · exact .remark (by decide)
  · exact plain_of_no_dollar (by decide) (by decide) (by decide)

theorem included_hello : included? shelf (some shelf.directory) "INCLUDE parts/hello" =
    some ({ root := "/", names := ["parts", "hello"] }, ["# a greeting", "say hello"]) := by
  decide +kernel

theorem includesPlain_greeting :
    IncludesPlain shelf (some shelf.directory) greetingLines := by
  intro raw hmem hraw file content hfile
  have hincluded : ∀ raw ∈ greetingLines, classify (Text.trim raw) = .includeFile →
      Text.trim raw = "INCLUDE parts/hello" := by
    decide +kernel
  rw [hincluded raw hmem hraw, included_hello] at hfile
  cases hfile
  exact plain_hello

theorem inlined_greeting :
    Inlined shelf (some shelf.directory) greetingLines greetedLines := by
  have hrest : Inlined shelf (some shelf.directory) ["enddef", "say ho", "call greet"]
      ["enddef", "say ho", "call greet"] :=
    .line (by decide) (.line (by decide) (.line (by decide) .nil))
  show Inlined shelf (some shelf.directory)
    ("def greet" :: "  INCLUDE parts/hello" :: ["enddef", "say ho", "call greet"])
    ("def greet" :: (["# a greeting", "say hello"] ++ ["enddef", "say ho", "call greet"]))
  exact .line (by decide) (.file (by decide) included_hello (inlined_of_plain plain_hello) hrest)

theorem inlined_counting : Inlined shelf (some shelf.directory) ["include parts/five", "say $x"]
    ["set x 5", "say $x"] := by
  have hfive : included? shelf (some shelf.directory) "include parts/five" =
      some ({ root := "/", names := ["parts", "five"] }, ["set x 5"]) := by
    decide +kernel
  show Inlined shelf (some shelf.directory) ["include parts/five", "say $x"]
    (["set x 5"] ++ ["say $x"])
  exact .file (by decide) hfive (.line (by decide) .nil) (.line (by decide) .nil)

/-- The commands of a script on the shelf. -/
def commandsOf? (name : String) : Option (List String) :=
  (yielded ((loadScript shelf (Path.ofText name) none []).run {})).map Prod.fst

/-- A plain file is included as if it stood in the script, in a subroutine too. An assignment is
not: it comes out as a command, and the variable that the next line refers to has no value. -/
theorem assignment_comes_out_as_command :
    (scriptAt? shelf (Path.ofText "greeting") =
        some ({ root := "/", names := ["greeting"] }, greetingLines) ∧
      Inlined shelf (some shelf.directory) greetingLines greetedLines ∧
      scriptAt? shelf (Path.ofText "greeted") =
        some ({ root := "/", names := ["greeted"] }, greetedLines) ∧
      Matches (Inlined shelf (some shelf.directory)) (fun r r' => r.1 = r'.1)
        ((loadScript shelf (Path.ofText "greeting") none []).run {})
        ((loadScript shelf (Path.ofText "greeted") none []).run {}) ∧
      commandsOf? "greeting" = some ["say ho", "say hello"]) ∧
    Inlined shelf (some shelf.directory) ["include parts/five", "say $x"] ["set x 5", "say $x"] ∧
    commandsOf? "counting" = some ["set x 5", "say "] ∧
    commandsOf? "counted" = some ["say 5"] := by
  have hmain : scriptAt? shelf (Path.ofText "greeting") =
      some ({ root := "/", names := ["greeting"] }, greetingLines) := by
    decide +kernel
  have hwhole : scriptAt? shelf (Path.ofText "greeted") =
      some ({ root := "/", names := ["greeted"] }, greetedLines) := by
    decide +kernel
  have hload := (inclusion_textual_of_plain rfl hmain inlined_greeting hwhole).1
    includesPlain_greeting
  refine ⟨⟨hmain, inlined_greeting, hwhole, hload, ?_⟩, inlined_counting, ?_, ?_⟩
  · decide +kernel
  · decide +kernel
  · decide +kernel

end RobotConsole.Script
