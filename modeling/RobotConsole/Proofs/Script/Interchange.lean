import Mathlib.Data.List.Forall2
import RobotConsole.Command.Parse
import RobotConsole.Proofs.Script.Nesting

/-!
# Lines that stand for each other

Two lines are indifferent to each other if they are of the same kind and the walk does the same at
either: neither can be read as an assignment, a loop or a call, or their conditions hold in the same
states, or they include the same commands, or they are commands that are parsed alike whatever the
variables hold (`Indifferent`). Subroutines whose names cannot be called may differ. Scripts that
differ in lines of this sort only end alike, with the same variables and with commands that are
parsed alike, in whatever state they are started (`parallel_counterparts`).
-/

namespace RobotConsole.Script

open Arithmetic (Value)
open Storage (Path)
open Contract

variable {name raw raw' start : String} {kind : LineKind} {lines lines' : List String}
variable {limits : Limits}

/-! ## What a line starts with -/

/-- The directives by what they start with in lower case. -/
def directives : List (String × LineKind) :=
  [("include ", .includeFile), ("set ", .assignment), ("for ", .forLoop), ("while ", .whileLoop),
    ("if ", .conditional), ("call ", .call)]

/-- A line that is not skipped is the directive that it starts as, if there is one. -/
theorem classify_eq (line : String) : classify line =
    if line == "" || startsWith line "#" then .skipped
    else ((directives.find? fun d => startsWith (Text.lower line) d.1).map (·.2)).getD
      (if blockEnds.contains (Text.lower line) then .stray else .command) := by
  unfold classify directives
  simp only [List.find?_cons, List.find?_nil]
  generalize startsWith (Text.lower line) "include " = including
  generalize startsWith (Text.lower line) "set " = setting
  generalize startsWith (Text.lower line) "for " = looping
  generalize startsWith (Text.lower line) "while " = waiting
  generalize startsWith (Text.lower line) "if " = asking
  generalize startsWith (Text.lower line) "call " = calling
  cases including
  · cases setting
    · cases looping
      · cases waiting
        · cases asking
          · cases calling
            · rfl
            · rfl
          · rfl
        · rfl
      · rfl
    · rfl
  · rfl

theorem directive_of_kind : ∀ d ∈ directives, ∀ d' ∈ directives, d.2 = d'.2 → d = d' := by
  decide

theorem directive_of_start :
    ∀ d ∈ directives, ∀ d' ∈ directives, d.1.toList.isPrefixOf d'.1.toList → d = d' := by
  decide

theorem directive_kind :
    ∀ d ∈ directives, d.2 ≠ .skipped ∧ d.2 ≠ .stray ∧ d.2 ≠ .command := by
  decide

theorem directive_head : ∀ d ∈ directives, ∃ c rest, d.1.toList = c :: rest ∧ c ≠ '#' := by
  simp [directives]

theorem not_skipped_of_starts {line : String}
    (h : (start, kind) ∈ directives) (hstart : startsWith (Text.lower line) start = true) :
    (line == "" || startsWith line "#") = false := by
  obtain ⟨c, rest, hchars, hc⟩ := directive_head _ h
  obtain ⟨more, hmore⟩ := List.isPrefixOf_iff_prefix.mp hstart
  rw [hchars, List.cons_append] at hmore
  exact not_skipped hmore.symm hc

theorem classify_eq_iff_starts {line : String}
    (h : (start, kind) ∈ directives) :
    classify line = kind ↔ startsWith (Text.lower line) start = true := by
  rw [classify_eq]
  constructor
  · intro hkind
    obtain ⟨hskipped, hstray, hcommand⟩ := directive_kind _ h
    split at hkind
    · exact absurd hkind.symm hskipped
    cases hfind : directives.find? fun d => startsWith (Text.lower line) d.1 with
    | some d =>
      rw [hfind] at hkind
      have hd := directive_of_kind d (List.mem_of_find?_eq_some hfind) _ h hkind
      rw [hd] at hfind
      have hstarts := List.find?_some hfind
      exact hstarts
    | none =>
      rw [hfind, Option.map_none, Option.getD_none] at hkind
      split at hkind
      · exact absurd hkind.symm hstray
      · exact absurd hkind.symm hcommand
  · intro hstart
    rw [not_skipped_of_starts h hstart, if_neg Bool.false_ne_true]
    cases hfind : directives.find? fun d => startsWith (Text.lower line) d.1 with
    | none => exact absurd hstart (List.find?_eq_none.mp hfind _ h)
    | some d =>
      -- of two starts of one line, one starts with the other
      have hd := List.find?_some hfind
      have hmem := List.mem_of_find?_eq_some hfind
      have hsame : d = (start, kind) := by
        rcases List.prefix_or_prefix_of_prefix (List.isPrefixOf_iff_prefix.mp hd)
          (List.isPrefixOf_iff_prefix.mp hstart) with hshort | hshort
        · exact directive_of_start d hmem _ h (List.isPrefixOf_iff_prefix.mpr hshort)
        · exact (directive_of_start _ h d hmem (List.isPrefixOf_iff_prefix.mpr hshort)).symm
      rw [hsame]
      rfl

theorem classify_eq_stray_iff {line : String} :
    classify line = .stray ↔ Text.lower line ∈ blockEnds := by
  refine ⟨lower_of_stray, fun hend => ?_⟩
  have hskip : (line == "" || startsWith line "#") = false := by
    simp only [blockEnds, List.mem_cons, List.not_mem_nil, or_false] at hend
    rcases hend with hend | hend | hend | hend | hend <;>
    · have hchars := congrArg String.toList hend
      exact not_skipped hchars (by decide)
  unfold classify
  simp only [hskip, Bool.false_eq_true, if_false]
  simp only [blockEnds, List.mem_cons, List.not_mem_nil, or_false] at hend
  rcases hend with hend | hend | hend | hend | hend <;>
  · rw [hend]
    rfl

theorem classify_of_isCommandLine {line : String} (h : IsCommandLine line) :
    classify line = .command := by
  have hnone : directives.find? (fun d => startsWith (Text.lower line) d.1) = none := by
    refine List.find?_eq_none.mpr fun d hd => ?_
    rw [h.notDirective d.1 (by
      revert d
      decide)]
    exact Bool.false_ne_true
  have hskipped : (line == "" || startsWith line "#") = false := by
    rw [h.notRemark, beq_false_of_ne h.notBlank]
    rfl
  rw [classify_eq, hskipped, hnone, if_neg Bool.false_ne_true]
  exact if_neg fun hend => h.notEnd (List.contains_iff_mem.mp hend)

/-! ## Indifferent lines -/

/-- Commands that are parsed alike, one by one. -/
def SameParsed (commands commands' : List String) : Prop :=
  commands.map Command.parse = commands'.map Command.parse

instance : Joins SameParsed where
  nil := rfl
  append hfront hback := by
    unfold SameParsed at hfront hback ⊢
    rw [List.map_append, List.map_append, hfront, hback]

/-- States with the same variables. -/
def SameBindings (s t : Interpreter) : Prop :=
  s.bindings = t.bindings

instance : SharesBindings SameBindings where
  bindings hst := hst

/-- Conditions that hold in the same states, and stop a script in the same states. -/
def SameCondition (condition condition' : String) : Prop :=
  ∀ limits s, (evaluateCondition limits condition).run s =
    (evaluateCondition limits condition').run s

/-- What becomes of two lines when their references are replaced: commands that are parsed alike, or
the same error. -/
inductive SameCommand : Except ScriptError String → Except ScriptError String → Prop
  | ok {command command' : String} : Command.parse command = Command.parse command' →
      SameCommand (.ok command) (.ok command')
  | error {e : ScriptError} : SameCommand (.error e) (.error e)

/-- A name that no call can have. -/
def Uncallable (name : String) : Prop :=
  ∀ called : Name, called.text ≠ name

/-- Trimmed lines at which every script does the same, up to what it prints. -/
inductive Indifferent (line line' : String) : Prop
  | inclusion : classify line = .includeFile → classify line' = .includeFile →
      (∀ around base s, Parallel SameBindings SameParsed ((expandInclude around base line).run s)
        ((expandInclude around base line').run s)) →
      Indifferent line line'
  | assignment : classify line = .assignment → classify line' = .assignment →
      assignmentOf? line = none → assignmentOf? line' = none → Indifferent line line'
  | forLoop : classify line = .forLoop → classify line' = .forLoop →
      forLoopOf? line = none → forLoopOf? line' = none → Indifferent line line'
  | whileLoop : classify line = .whileLoop → classify line' = .whileLoop →
      Option.Rel SameCondition (argumentOf? "while" line) (argumentOf? "while" line') →
      Indifferent line line'
  | conditional : classify line = .conditional → classify line' = .conditional →
      Option.Rel SameCondition (argumentOf? "if" line) (argumentOf? "if" line') →
      Indifferent line line'
  | call : classify line = .call → classify line' = .call →
      callOf? line = none → callOf? line' = none → Indifferent line line'
  | command : classify line = .command → classify line' = .command →
      (∀ bindings, SameCommand (expandText bindings line) (expandText bindings line')) →
      Option.Rel (fun name name' => Uncallable name ∧ Uncallable name') (definedName? line)
        (definedName? line') →
      Indifferent line line'

/-- Lines of two scripts at the same place: the same line, or indifferent ones. -/
def Stands (raw raw' : String) : Prop :=
  raw = raw' ∨ Indifferent (Text.trim raw) (Text.trim raw')

/-- Lists of lines that stand for each other one by one. -/
abbrev Counterparts : List String → List String → Prop :=
  List.Forall₂ Stands

theorem counterparts_refl (lines : List String) : Counterparts lines lines :=
  List.forall₂_same.mpr fun _ _ => .inl rfl

/-! ## Blocks at the same places -/

/-- Lines in which those that look for the ends of blocks see the same. -/
structure SameShape (raw raw' : String) : Prop where
  opens : opensBlock (normalLine raw) = opensBlock (normalLine raw')
  opensIf : startsWith (normalLine raw) "if " = startsWith (normalLine raw') "if "
  opensDef : opensDefinition raw = opensDefinition raw'
  ends : ∀ word ∈ blockEnds, (normalLine raw == word) = (normalLine raw' == word)

theorem startsWith_eq_of_classify {line line' : String}
    (h : (start, kind) ∈ directives) (hkind : classify line = classify line') :
    startsWith (Text.lower line) start = startsWith (Text.lower line') start := by
  rw [Bool.eq_iff_iff, ← classify_eq_iff_starts h, ← classify_eq_iff_starts h, hkind]

theorem ends_eq_of_classify {line line' : String} (h : classify line ≠ .stray)
    (h' : classify line' ≠ .stray) : ∀ word ∈ blockEnds,
      (Text.lower line == word) = (Text.lower line' == word) := by
  intro word hword
  have hne {line : String} (h : classify line ≠ .stray) : (Text.lower line == word) = false := by
    rw [beq_eq_false_iff_ne]
    rintro rfl
    exact h (classify_eq_stray_iff.mpr hword)
  rw [hne h, hne h']

theorem Indifferent.classify_eq {line line' : String} (h : Indifferent line line') :
    classify line = classify line' ∧ classify line ≠ .stray := by
  cases h with
  | inclusion hkind hkind' | assignment hkind hkind' | forLoop hkind hkind'
    | whileLoop hkind hkind' | conditional hkind hkind' | call hkind hkind'
    | command hkind hkind' =>
      rw [hkind, hkind']
      exact ⟨rfl, nofun⟩

/-- Names of definitions that stand for each other: the same, or none that can be called. -/
def SameName (name name' : String) : Prop :=
  name = name' ∨ Uncallable name ∧ Uncallable name'

theorem definedName?_of_classify (h : classify (Text.trim raw) ≠ .command) :
    definedName? (Text.trim raw) = none := by
  rw [← Option.not_isSome_iff_eq_none, isSome_definedName?]
  exact fun hopens => h (classify_of_opensDefinition hopens)

theorem Stands.definedName (h : Stands raw raw') :
    Option.Rel SameName (definedName? (Text.trim raw)) (definedName? (Text.trim raw')) := by
  have hnone {raw raw' : String} (hkind : classify (Text.trim raw) ≠ .command)
      (hkind' : classify (Text.trim raw') ≠ .command) :
      Option.Rel SameName (definedName? (Text.trim raw)) (definedName? (Text.trim raw')) := by
    rw [definedName?_of_classify hkind, definedName?_of_classify hkind']
    exact .none
  rcases h with rfl | h
  · cases definedName? (Text.trim raw) with
    | none => exact .none
    | some name => exact .some (.inl rfl)
  · cases h with
    | inclusion hkind hkind' | assignment hkind hkind' | forLoop hkind hkind'
      | whileLoop hkind hkind' | conditional hkind hkind' | call hkind hkind' =>
        exact hnone (hkind ▸ nofun) (hkind' ▸ nofun)
    | command _ _ _ hname =>
      generalize definedName? (Text.trim raw) = name at hname ⊢
      generalize definedName? (Text.trim raw') = name' at hname ⊢
      cases hname with
      | none => exact .none
      | some huncallable => exact .some (.inr huncallable)

theorem Stands.sameShape (h : Stands raw raw') : SameShape raw raw' := by
  have hdef : opensDefinition raw = opensDefinition raw' := by
    rw [← isSome_definedName?, ← isSome_definedName?]
    have hname := h.definedName
    generalize definedName? (Text.trim raw) = name at hname ⊢
    generalize definedName? (Text.trim raw') = name' at hname ⊢
    cases hname <;> rfl
  rcases h with rfl | h
  · exact ⟨rfl, rfl, rfl, fun _ _ => rfl⟩
  · obtain ⟨hkind, hstray⟩ := h.classify_eq
    have hstart (d : String × LineKind) (hd : d ∈ directives) :=
      startsWith_eq_of_classify hd hkind
    have hif := hstart ("if ", .conditional) (by decide)
    refine ⟨?_, hif, hdef, ends_eq_of_classify hstray (hkind ▸ hstray)⟩
    unfold opensBlock normalLine
    rw [hstart ("for ", .forLoop) (by decide), hstart ("while ", .whileLoop) (by decide), hif]

theorem SameShape.closes (h : SameShape raw raw') :
    closesBlock (normalLine raw) = closesBlock (normalLine raw') := by
  unfold closesBlock
  rw [h.ends "endfor" (by decide), h.ends "endwhile" (by decide), h.ends "endif" (by decide)]

theorem SameShape.closesDef (h : SameShape raw raw') :
    closesDefinition raw = closesDefinition raw' :=
  h.ends "enddef" (by decide)

theorem Counterparts.blockLength {rest rest' : List String} (h : Counterparts rest rest')
    {closing : String} (hclosing : closing ∈ blockEnds) (nested : Int) :
    blockLength closing nested rest = blockLength closing nested rest' := by
  induction h generalizing nested with
  | nil => rfl
  | cons hraw _ ih =>
    have hshape := hraw.sameShape
    rw [Script.blockLength, Script.blockLength]
    simp only [hshape.opens, hshape.closes, hshape.ends closing hclosing, ih]

/-- Parts of a conditional that stand for each other. -/
structure SameParts (b b' : Branches) : Prop where
  thenLines : Counterparts b.thenLines b'.thenLines
  elseLines : Counterparts b.elseLines b'.elseLines
  length : b.length = b'.length

theorem SameParts.add {b b' : Branches} (h : SameParts b b') (inElse : Bool)
    (hraw : Stands raw raw') : SameParts (b.add inElse raw) (b'.add inElse raw') := by
  cases inElse with
  | true => exact ⟨h.thenLines, .cons hraw h.elseLines, congrArg (· + 1) h.length⟩
  | false => exact ⟨.cons hraw h.thenLines, h.elseLines, congrArg (· + 1) h.length⟩

theorem Counterparts.branches {rest rest' : List String} (h : Counterparts rest rest')
    (nested : Nat) (inElse : Bool) :
    Option.Rel SameParts (branches? nested inElse rest) (branches? nested inElse rest') := by
  induction h generalizing nested inElse with
  | nil => exact .none
  | @cons raw raw' rest rest' hraw _ ih =>
    have hshape := hraw.sameShape
    have hadd (nested : Nat) : Option.Rel SameParts
        ((branches? nested inElse rest).map (·.add inElse raw))
        ((branches? nested inElse rest').map (·.add inElse raw')) :=
      rel_map (ih nested inElse) fun _ _ hb => hb.add inElse hraw
    rw [branches?.eq_def, branches?.eq_def nested inElse (raw' :: rest')]
    simp only [hshape.opensIf, hshape.ends "endif" (by decide), hshape.ends "else" (by decide)]
    split
    · exact hadd _
    split
    · cases nested with
      | zero => exact .some ⟨.nil, .nil, rfl⟩
      | succ nested => exact hadd nested
    split
    · exact rel_map (ih nested true) fun _ _ hb =>
        ⟨hb.thenLines, hb.elseLines, congrArg (· + 1) hb.length⟩
    · exact hadd nested

/-! ## States in which lines stand for each other -/

/-- States with the same variables and the same limit, in which subroutines that can be called stand
for each other. -/
structure Akin (s t : Interpreter) : Prop where
  bindings : s.bindings = t.bindings
  maxIterations : s.maxIterations = t.maxIterations
  subroutines : ∀ name : Name, Option.Rel Counterparts (Dict.get? s.subroutines name.text)
    (Dict.get? t.subroutines name.text)

theorem Akin.refl (s : Interpreter) : Akin s s := by
  refine ⟨rfl, rfl, fun name => ?_⟩
  cases Dict.get? s.subroutines name.text with
  | none => exact .none
  | some body => exact .some (counterparts_refl body)

instance : Kindred Akin where
  bindings hst := hst.bindings
  maxIterations hst := hst.maxIterations
  rebind _ hst := ⟨rfl, hst.maxIterations, hst.subroutines⟩
  print _ hst := ⟨hst.bindings, hst.maxIterations, hst.subroutines⟩

theorem akin_print (text text' : String) : Parallels Akin Eq (print text) (print text') :=
  fun _ _ hst => .ok rfl ⟨hst.bindings, hst.maxIterations, hst.subroutines⟩

theorem akin_define {name' : String} (hname : SameName name name') {body body' : List String}
    (hbody : Counterparts body body') :
    Parallels Akin Eq (define name body) (define name' body') := by
  refine fun s t hst => .ok rfl ⟨hst.bindings, hst.maxIterations, fun called => ?_⟩
  show Option.Rel Counterparts (Dict.get? (Dict.put s.subroutines name body) called.text)
    (Dict.get? (Dict.put t.subroutines name' body') called.text)
  rw [Dict.get?_put, Dict.get?_put]
  rcases hname with rfl | ⟨hname, hname'⟩
  · split
    · exact .some hbody
    · exact hst.subroutines called
  · rw [if_neg (hname called), if_neg (hname' called)]
    exact hst.subroutines called

/-- Readers of definitions that stand at the same place. -/
inductive SameReader : Definition → Definition → Prop
  | outside : SameReader .outside .outside
  | within {name name' : String} {seen seen' : List String} {nested : Nat} :
      SameName name name' → Counterparts seen seen' →
      SameReader (.within name seen nested) (.within name' seen' nested)

theorem akin_extractFrom (h : Counterparts lines lines')
    {d d' : Definition} (hd : SameReader d d') :
    Parallels Akin Counterparts (extractFrom d lines) (extractFrom d' lines') := by
  induction h generalizing d d' with
  | nil =>
    cases hd with
    | outside => exact parallels_pure .nil
    | within hname hseen =>
      exact (akin_define hname (List.forall₂_reverse_iff.mpr hseen)).bind_eq fun _ =>
        parallels_pure .nil
  | @cons raw raw' rest rest' hraw _ ih =>
    have hshape := hraw.sameShape
    cases hd with
    | outside =>
      have hname := hraw.definedName
      unfold extractFrom
      dsimp only
      generalize definedName? (Text.trim raw) = name at hname ⊢
      generalize definedName? (Text.trim raw') = name' at hname ⊢
      cases hname with
      | none => exact (ih .outside).bind fun _ _ hmore => parallels_pure (.cons hraw hmore)
      | some hname => exact ih (.within hname .nil)
    | @within name name' seen seen' nested hname hseen =>
      cases hopens : opensDefinition raw with
      | true =>
        rw [extractFrom_open hopens, extractFrom_open (hshape.opensDef ▸ hopens)]
        exact ih (.within hname (.cons hraw hseen))
      | false =>
        have hopens' : opensDefinition raw' = false := hshape.opensDef ▸ hopens
        cases hcloses : closesDefinition raw with
        | false =>
          rw [extractFrom_body hopens hcloses,
            extractFrom_body hopens' (hshape.closesDef ▸ hcloses)]
          exact ih (.within hname (.cons hraw hseen))
        | true =>
          have hcloses' : closesDefinition raw' = true := hshape.closesDef ▸ hcloses
          cases nested with
          | zero =>
            rw [extractFrom_finish hcloses, extractFrom_finish hcloses']
            exact (akin_define hname (List.forall₂_reverse_iff.mpr hseen)).bind_eq
              fun _ => ih .outside
          | succ nested =>
            rw [extractFrom_close hcloses, extractFrom_close hcloses']
            exact ih (.within hname (.cons hraw hseen))

/-! ## Indifferent lines are walked alike -/

/-- Only what has been printed may differ. -/
structure OnlyPrinted (s t : Interpreter) : Prop where
  bindings : t.bindings = s.bindings
  maxIterations : t.maxIterations = s.maxIterations
  subroutines : t.subroutines = s.subroutines

/-- The contract of what changes nothing but what has been printed, also where it fails. -/
def reporting : Contract ScriptError Interpreter where
  yields := OnlyPrinted
  fails _ := OnlyPrinted
  refl _ := ⟨rfl, rfl, rfl⟩
  trans h₁ h₂ := ⟨h₂.bindings.trans h₁.bindings, h₂.maxIterations.trans h₁.maxIterations,
    h₂.subroutines.trans h₁.subroutines⟩
  fails_after h₁ h₂ := ⟨h₂.bindings.trans h₁.bindings, h₂.maxIterations.trans h₁.maxIterations,
    h₂.subroutines.trans h₁.subroutines⟩

theorem reporting_expandInclude (around : Surroundings) (base : Option Path) (line : String) :
    reporting.Holds (expandInclude around base line) := by
  have hthrow (e : ScriptError) (s : Interpreter) : reporting.fails e s s := ⟨rfl, rfl, rfl⟩
  have hprint (text : String) : reporting.Holds (print text) :=
    holds_modify fun _ => ⟨rfl, rfl, rfl⟩
  exact holds_expandInclude (fun e s _ => hthrow e s) hprint around base line

theorem akin_of_onlyPrinted {s t s' t' : Interpreter} (hst : Akin s t) (hs : OnlyPrinted s s')
    (ht : OnlyPrinted t t') : Akin s' t' := by
  refine ⟨?_, ?_, fun name => ?_⟩
  · rw [hs.bindings, hst.bindings, ht.bindings]
  · rw [hs.maxIterations, hst.maxIterations, ht.maxIterations]
  · rw [hs.subroutines, ht.subroutines]
    exact hst.subroutines name

theorem akin_expandInclude {around : Surroundings} {base : Option Path} {line line' : String}
    (h : ∀ s, Parallel SameBindings SameParsed ((expandInclude around base line).run s)
      ((expandInclude around base line').run s)) :
    Parallels Akin SameParsed (expandInclude around base line)
      (expandInclude around base line') := by
  intro s t hst
  have hline := reporting_expandInclude around base line s
  have hline' := reporting_expandInclude around base line' t
  have hsame := h s
  have hstates : Parallel Akin Eq _ _ := parallels_expandInclude around base line' s t hst
  generalize hr : (expandInclude around base line).run s = r at hsame ⊢
  generalize (expandInclude around base line').run s = r' at hsame hstates
  generalize hr'' : (expandInclude around base line').run t = r'' at hstates ⊢
  cases hsame with
  | ok hparsed _ =>
    cases hstates with
    | ok hcommands _ =>
      exact .ok (hcommands ▸ hparsed) (akin_of_onlyPrinted hst (hline.yields hr)
        (hline'.yields hr''))
  | error _ =>
    cases hstates with
    | error _ => exact .error (akin_of_onlyPrinted hst (hline.fails hr) (hline'.fails hr''))

theorem akin_condition {condition condition' : String} (h : SameCondition condition condition') :
    Parallels Akin Eq (evaluateCondition limits condition)
      (evaluateCondition limits condition') := by
  intro s t hst
  rw [h limits s]
  exact parallels_evaluateCondition condition' s t hst

/-- What comes of a line on the two sides: commands that are parsed alike, and the same number of
lines that belong to it. -/
def SamePart (part part' : List String × Nat) : Prop :=
  SameParsed part.1 part'.1 ∧ part.2 = part'.2

theorem akin_report (text text' : String) :
    Parallels Akin SamePart (do print text; return ([], 0)) (do print text'; return ([], 0)) :=
  (akin_print text text').bind_eq fun _ => parallels_pure ⟨rfl, rfl⟩

theorem akin_part {x x' : Run (List String)} (h : Parallels Akin SameParsed x x') (taken : Nat) :
    Parallels Akin SamePart (do return (← x, taken)) (do return (← x', taken)) :=
  h.bind fun _ _ hcommands => parallels_pure ⟨hcommands, rfl⟩

theorem akin_command {line line' : String}
    (h : ∀ bindings, SameCommand (expandText bindings line) (expandText bindings line')) :
    Parallels Akin SamePart (do return ([← expandVariables line], 0))
      (do return ([← expandVariables line'], 0)) := by
  have hexpanded : Parallels Akin (fun command command' => SameParsed [command] [command'])
      (expandVariables line) (expandVariables line') := by
    refine parallels_get.bind fun s t hst => ?_
    rw [hst.bindings]
    have hsame := h t.bindings
    generalize expandText t.bindings line = r at hsame ⊢
    generalize expandText t.bindings line' = r' at hsame ⊢
    cases hsame with
    | ok hparsed => exact parallels_pure (congrArg (fun parsed => [parsed]) hparsed)
    | error => exact parallels_throw _
  exact hexpanded.bind fun _ _ hcommand => parallels_pure ⟨hcommand, rfl⟩

theorem exists_name_of_takeName? {cs rest : List Char}
    (h : takeName? cs = some (name, rest)) : ∃ taken : Name, taken.text = name := by
  unfold takeName? at h
  dsimp only at h
  split at h
  · cases h
  · rename_i hne
    cases h
    refine ⟨⟨String.ofList (cs.takeWhile Text.isWordChar), fun hempty => hne ?_, ?_⟩, rfl⟩
    · rw [List.isEmpty_iff, ← String.toList_ofList (l := cs.takeWhile Text.isWordChar), hempty]
      rfl
    · rw [String.toList_ofList]
      exact fun c hc => List.mem_takeWhile_imp hc

theorem exists_name_of_callOf? {line text : String} (h : callOf? line = some (name, text)) :
    ∃ called : Name, called.text = name := by
  unfold callOf? at h
  simp only [Option.bind_eq_bind, Option.bind_eq_some_iff] at h
  obtain ⟨word, -, cs, -, ⟨name', rest⟩, hname, hsame⟩ := h
  have hsame' : name' = name := by
    split at hsame
    · cases hsame
      rfl
    · simp only [Option.bind_eq_some_iff] at hsame
      obtain ⟨blanks, -, text', -, hsame⟩ := hsame
      cases hsame
      rfl
  exact hsame' ▸ exists_name_of_takeName? hname

section Walk

variable {expand expand' : Expander}
  (hexpand : ∀ {body body'}, Counterparts body body' →
    Parallels Akin SameParsed (expand body) (expand' body'))
  {line line' : String} {rest rest' : List String} (hrest : Counterparts rest rest')

theorem akin_loopBody {closing : String} (hclosing : closing ∈ blockEnds)
    (hrest : Counterparts rest rest') :
    Parallels Akin (fun part part' => Counterparts part.1 part'.1 ∧ part.2 = part'.2)
      (loopBody closing rest) (loopBody closing rest') := by
  unfold loopBody
  rw [hrest.blockLength hclosing]
  have htake := List.forall₂_take (blockLength closing 0 rest').1 hrest
  dsimp only
  split
  · exact (akin_print _ _).bind_eq fun _ => parallels_pure ⟨htake, rfl⟩
  · exact parallels_pure ⟨htake, rfl⟩

include hexpand hrest

theorem akin_expandFor (line : String) :
    Parallels Akin SamePart (expandFor limits expand line rest)
      (expandFor limits expand' line rest') := by
  unfold expandFor
  split
  · exact akin_report _ _
  · refine (parallels_expandVariables _).bind_eq fun text => ?_
    refine (parallels_loopValues text).bind_eq fun values => ?_
    refine (akin_loopBody (by decide) hrest).bind fun part part' hpart => ?_
    refine parallels_get.bind fun s t hst => ?_
    rw [Kindred.maxIterations hst, hpart.2]
    exact akin_part (parallels_forRounds (hexpand hpart.1) _ _ values) _

theorem akin_expandWhile
    (hcondition : Option.Rel SameCondition (argumentOf? "while" line) (argumentOf? "while" line')) :
    Parallels Akin SamePart (expandWhile limits expand line rest)
      (expandWhile limits expand' line' rest') := by
  unfold expandWhile
  generalize argumentOf? "while" line = condition at hcondition ⊢
  generalize argumentOf? "while" line' = condition' at hcondition ⊢
  cases hcondition with
  | none => exact akin_report _ _
  | some hcondition =>
    refine (akin_loopBody (by decide) hrest).bind fun part part' hpart => ?_
    refine parallels_get.bind fun s t hst => ?_
    rw [Kindred.maxIterations hst, hpart.2]
    exact akin_part (parallels_whileRounds (hexpand hpart.1) (akin_condition hcondition) _) _

theorem akin_expandIf (position position' : Int)
    (hcondition : Option.Rel SameCondition (argumentOf? "if" line) (argumentOf? "if" line')) :
    Parallels Akin SamePart (expandIf limits expand position line rest)
      (expandIf limits expand' position' line' rest') := by
  unfold expandIf
  have hparts := hrest.branches 0 false
  generalize argumentOf? "if" line = condition at hcondition ⊢
  generalize argumentOf? "if" line' = condition' at hcondition ⊢
  generalize branches? 0 false rest = parts at hparts ⊢
  generalize branches? 0 false rest' = parts' at hparts ⊢
  cases hcondition with
  | none => exact akin_report _ _
  | some hcondition =>
    cases hparts with
    | none => exact akin_report _ _
    | some hparts =>
      refine (akin_condition hcondition).bind_eq fun holds => ?_
      rw [hparts.length]
      refine akin_part (hexpand ?_) _
      split
      · exact hparts.thenLines
      · exact hparts.elseLines

omit hrest in
theorem akin_expandCall (line : String) :
    Parallels Akin SameParsed (expandCall expand line) (expandCall expand' line) := by
  refine parallels_expandCall (fun hst name text hcall => ?_) hexpand
  obtain ⟨called, rfl⟩ := exists_name_of_callOf? hcall
  exact hst.subroutines called

theorem akin_expandLine (around : Surroundings) (base : Option Path) (position : Nat)
    (hraw : Stands raw raw') :
    Parallels Akin SamePart (expandLine around base expand position (Text.trim raw) rest)
      (expandLine around base expand' position (Text.trim raw') rest') := by
  unfold expandLine
  rcases hraw with rfl | h
  · have hcondition (keyword : String) : Option.Rel SameCondition
        (argumentOf? keyword (Text.trim raw)) (argumentOf? keyword (Text.trim raw)) := by
      cases argumentOf? keyword (Text.trim raw) with
      | none => exact .none
      | some condition => exact .some fun _ _ => rfl
    split
    · exact parallels_pure ⟨rfl, rfl⟩
    · exact (parallels_expandInclude around base _).bind_eq fun _ => parallels_pure ⟨rfl, rfl⟩
    · exact (parallels_assign _).bind_eq fun _ => parallels_pure ⟨rfl, rfl⟩
    · exact akin_expandFor hexpand hrest _
    · exact akin_expandWhile hexpand hrest (hcondition _)
    · exact akin_expandIf hexpand hrest _ _ (hcondition _)
    · exact akin_part (akin_expandCall hexpand _) 0
    · exact akin_report _ _
    · exact (parallels_expandVariables _).bind_eq fun _ => parallels_pure ⟨rfl, rfl⟩
  · cases h with
    | inclusion hkind hkind' hsame =>
      rw [hkind, hkind']
      exact akin_part (akin_expandInclude fun s => hsame around base s) 0
    | assignment hkind hkind' hline hline' =>
      rw [hkind, hkind']
      unfold assign
      rw [hline, hline']
      exact akin_report _ _
    | forLoop hkind hkind' hline hline' =>
      rw [hkind, hkind']
      unfold expandFor
      rw [hline, hline']
      exact akin_report _ _
    | whileLoop hkind hkind' hcondition =>
      rw [hkind, hkind']
      exact akin_expandWhile hexpand hrest hcondition
    | conditional hkind hkind' hcondition =>
      rw [hkind, hkind']
      exact akin_expandIf hexpand hrest _ _ hcondition
    | call hkind hkind' hline hline' =>
      rw [hkind, hkind']
      unfold expandCall
      rw [hline, hline']
      exact akin_report _ _
    | command hkind hkind' hsame _ =>
      rw [hkind, hkind']
      exact akin_command hsame

omit hrest in
theorem akin_expandLines (around : Surroundings) (base : Option Path) (position : Nat)
    (hlines : Counterparts lines lines') :
    Parallels Akin SameParsed (expandLines around base expand position lines)
      (expandLines around base expand' position lines') := by
  -- a block takes its lines with it, so the walk goes on with shorter lists, not with the tails
  induction hn : lines.length using Nat.strongRecOn generalizing lines lines' position with
  | ind n ih =>
    cases hlines with
    | nil =>
      rw [expandLines, expandLines]
      exact parallels_pure rfl
    | @cons raw raw' rest rest' hraw hrest =>
      rw [expandLines, expandLines]
      refine (akin_expandLine hexpand hrest around base position hraw).bind
        fun part part' hpart => ?_
      have hshorter : (rest.drop part.2).length < n := by
        rw [← hn, List.length_drop, List.length_cons]
        omega
      dsimp only
      rw [← hpart.2]
      exact (ih _ hshorter _ (List.forall₂_drop _ hrest) rfl).bind fun _ _ hmore =>
        parallels_pure (Joins.append hpart.1 hmore)

end Walk

theorem akin_expandBlock (around : Surroundings) (base : Option Path) (levels : Nat)
    (hlines : Counterparts lines lines') :
    Parallels Akin SameParsed (expandBlock around base levels lines)
      (expandBlock around base levels lines') := by
  induction levels generalizing around lines lines' with
  | zero => exact (akin_print _ _).bind_eq fun _ => parallels_pure rfl
  | succ levels ih => exact akin_expandLines (ih around.inner) around base 0 hlines

/-- Scripts whose lines stand for each other end alike, with the same variables and with commands
that are parsed alike. -/
theorem parallel_counterparts (around : Surroundings) (base : Option Path)
    (hlines : Counterparts lines lines') (s : Interpreter) :
    Parallel SameBindings SameParsed ((preprocess around base lines).run s)
      ((preprocess around base lines').run s) := by
  have hpreprocess : Parallels Akin SameParsed (preprocess around base lines)
      (preprocess around base lines') :=
    (akin_extractFrom hlines .outside).bind fun _ _ hkept =>
      akin_expandBlock around base (levelsAt 0) hkept
  exact (hpreprocess s s (.refl s)).mono (fun hst => hst.bindings) fun hparsed => hparsed

end RobotConsole.Script
