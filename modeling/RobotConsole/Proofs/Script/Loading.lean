import RobotConsole.Proofs.Script.Adjacency
import RobotConsole.Proofs.Script.Inclusion

/-!
# Loading plainly and with an interpreter

A script file can be loaded without an interpreter, which takes its lines as they are, or with one,
which looks for definitions, directives and variables first. On a file that holds no directive and
refers to no variable the two come to the same, whatever the interpreter has been through
(`plain_script_loaded_alike`): every line is plain in the sense of `Plain`, so that no test of the
interpreter finds anything in it.
-/

namespace RobotConsole.Script

open Arithmetic (Value)
open Storage (Path)

/-! ## Lines without directives and references -/

/-- Whether a trimmed line is a directive, in any letter case. -/
def isDirective (line : String) : Bool :=
  ["def ", "include ", "set ", "for ", "while ", "if ", "call "].any
      (startsWith (Text.lower line)) ||
    ["else", "endif", "endfor", "endwhile", "enddef"].contains (Text.lower line)

/-- Whether a dollar sign is followed by a word character or a brace somewhere. -/
def holdsReference : List Char → Bool
  | [] => false
  | c :: rest =>
    (c == '$' && rest.head?.any fun d => Text.isWordChar d || d == '{') || holdsReference rest

section References

variable {bindings : Dict Value} {c : Char} {cs : List Char}

theorem holdsReference_cons (h : holdsReference (c :: cs) = false) :
    holdsReference cs = false ∧
      (c = '$' → ∀ d ∈ cs.head?, Text.isWordChar d = false ∧ (d == '{') = false) := by
  obtain ⟨hhere, hrest⟩ := Bool.or_eq_false_iff.mp h
  refine ⟨hrest, ?_⟩
  rintro rfl d hd
  rw [beq_self_eq_true, Bool.true_and, hd] at hhere
  exact Bool.or_eq_false_iff.mp hhere

theorem expandBraced_lone_dollar (h : ∀ d ∈ cs.head?, (d == '{') = false) :
    expandBraced bindings .dollar cs =
      follow (.ok ['$']) (expandBraced bindings .outside cs) := by
  cases cs with
  | nil => rfl
  | cons d cs =>
    have hd : (d == '{') = false := h d rfl
    rw [expandBraced, expandBraced]
    simp only [hd, Bool.false_eq_true, if_false, Braced.held, List.nil_append]
    split
    · cases expandBraced bindings .dollar cs <;> rfl
    · cases expandBraced bindings .outside cs <;> rfl

theorem expandBraced_of_no_reference (h : holdsReference cs = false) :
    expandBraced bindings .outside cs = .ok cs := by
  induction cs with
  | nil => rfl
  | cons c cs ih =>
    obtain ⟨hrest, hnext⟩ := holdsReference_cons h
    by_cases hc : c = '$'
    · subst hc
      have hbrace : ∀ d ∈ cs.head?, (d == '{') = false := fun d hd => (hnext rfl d hd).2
      rw [expandBraced]
      simp only [beq_self_eq_true, if_true]
      rw [expandBraced_lone_dollar hbrace, ih hrest]
      rfl
    · rw [expandBraced]
      simp only [beq_eq_false_iff_ne.mpr hc, Bool.false_eq_true, if_false, ih hrest]
      rfl

theorem expandPlain_of_no_reference (h : holdsReference cs = false) :
    expandPlain bindings none cs = .ok cs := by
  induction cs with
  | nil => rfl
  | cons c cs ih =>
    obtain ⟨hrest, hnext⟩ := holdsReference_cons h
    by_cases hc : c = '$'
    · subst hc
      have hends : EndsName cs := fun d hd => (hnext rfl d hd).1
      rw [expandPlain]
      simp only [beq_self_eq_true, if_true]
      rw [expandPlain_endsName [] hends, ih hrest]
      rfl
    · rw [expandPlain_cons_of_ne hc, ih hrest]
      rfl

theorem expandText_of_no_reference {text : String} (h : holdsReference text.toList = false) :
    expandText bindings text = .ok text := by
  unfold expandText
  simp only [expandBraced_of_no_reference h, expandPlain_of_no_reference h, Bind.bind, Except.bind,
    String.ofList_toList]
  rfl

end References

theorem classify_of_not_directive {line : String} (h : isDirective line = false) :
    definedName? line = none ∧ (classify line = .skipped ∨ classify line = .command) := by
  simp only [isDirective, List.any_cons, List.any_nil, Bool.or_false, Bool.or_eq_false_iff] at h
  obtain ⟨⟨hdef, hinclude, hset, hfor, hwhile, hif, hcall⟩, hword⟩ := h
  refine ⟨by rw [definedName?, hdef]; rfl, ?_⟩
  unfold classify
  simp only [hinclude, hset, hfor, hwhile, hif, hcall, hword, Bool.false_eq_true, if_false]
  split
  · exact .inl rfl
  · exact .inr rfl

theorem plain_of_not_directive {raw : String} (hkind : isDirective (Text.trim raw) = false)
    (hreference : holdsReference (Text.trim raw).toList = false) : Plain raw := by
  obtain ⟨hname, hskipped | hcommand⟩ := classify_of_not_directive hkind
  · exact .remark hskipped
  · exact .command hcommand hname fun _ => expandText_of_no_reference hreference

/-! ## Loading -/

/-- Plain lines are expanded to what they are, and nothing else happens. -/
theorem preprocess_plain {around : Surroundings} {base : Option Path} {lines : List String}
    (h : ∀ raw ∈ lines, Plain raw) :
    preprocess around base lines = pure (plainCommands lines) := by
  have hextract : extractSubroutines lines = pure lines := by
    have hlines := extractFrom_outside_passive (fun raw hraw => (h raw hraw).passive) []
    rw [List.append_nil] at hlines
    rw [extractSubroutines, hlines]
    show (pure (lines ++ []) : Run (List String)) = _
    rw [List.append_nil]
  have hexpand (expand : Expander) : expandLines around base expand 0 lines =
      pure (plainCommands lines) := by
    have hlines := @expandLines_plain around base lines h expand 0 []
    rw [List.append_nil, expandLines, pure_bind, List.append_nil] at hlines
    exact hlines
  rw [preprocess, hextract, pure_bind]
  exact hexpand _

/-- A readable file whose lines are no directives and refer to no variable is loaded to the same
commands without an interpreter and with any: the file counts as visited in both cases, and the
interpreter stays as it was. -/
theorem plain_script_loaded_alike {around : Surroundings} {path file : Path} {lines : List String}
    (hread : scriptAt? around path = some (file, lines))
    (hlines : ∀ raw ∈ lines, isDirective (Text.trim raw) = false ∧
      holdsReference (Text.trim raw).toList = false)
    (base : Option Path) {visited : List Path} (hvisited : file ∉ visited) (s t : Interpreter) :
    (loadPlain around path visited).run s = .ok (plainCommands lines, visited ++ [file]) s ∧
      (loadScript around path base visited).run t =
        .ok (plainCommands lines, visited ++ [file]) t := by
  have hplain : ∀ raw ∈ lines, Plain raw := fun raw hraw =>
    plain_of_not_directive (hlines raw hraw).1 (hlines raw hraw).2
  constructor
  · unfold loadPlain
    rw [EStateM.run_bind, run_openScript hread hvisited]
    rfl
  · rw [run_loadScript hread base hvisited, preprocess_plain hplain]
    rfl

/-- A script with remarks, indentation and lines that only look like directives or references. -/
def notice : Surroundings where
  files := [(["notice"],
    textFile "# set x 5\n  say 5$ off, $, $$\n\n\tendif now\nset\nformat $-x\n")]
  directory := { root := "/", names := [] }

/-- Such a script is loaded plainly also by an interpreter with variables, a subroutine and no
rounds to spend. -/
theorem notice_loaded_alike :
    let file : Path := { root := "/", names := ["notice"] }
    let other : Path := { root := "/", names := ["other"] }
    let lines := ["# set x 5", "  say 5$ off, $, $$", "", "\tendif now", "set", "format $-x"]
    let commands := ["say 5$ off, $, $$", "endif now", "set", "format $-x"]
    let t : Interpreter :=
      { bindings := [("x", .int 5)], subroutines := [("greet", ["say hi"])], maxIterations := 0 }
    scriptAt? notice (Path.ofText "notice") = some (file, lines) ∧
      (∀ raw ∈ lines, isDirective (Text.trim raw) = false ∧
        holdsReference (Text.trim raw).toList = false) ∧
      (loadPlain notice (Path.ofText "notice") [other]).run {} = .ok (commands, [other, file]) {} ∧
      (loadScript notice (Path.ofText "notice") (some other) [other]).run t =
        .ok (commands, [other, file]) t := by
  intro file other lines commands t
  have hread : scriptAt? notice (Path.ofText "notice") = some (file, lines) := by decide +kernel
  have hlines : ∀ raw ∈ lines, isDirective (Text.trim raw) = false ∧
      holdsReference (Text.trim raw).toList = false := by
    decide +kernel
  have hcommands : plainCommands lines = commands := by decide +kernel
  have hvisited : file ∉ [other] := by decide
  have hloaded := plain_script_loaded_alike hread hlines (some other) hvisited {} t
  rw [hcommands] at hloaded
  exact ⟨hread, hlines, hloaded⟩

end RobotConsole.Script
