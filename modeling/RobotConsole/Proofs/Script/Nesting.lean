import RobotConsole.Proofs.Script.NumberSign
import RobotConsole.Proofs.Script.Output
import RobotConsole.Proofs.Script.Refinement
import RobotConsole.Proofs.Script.Relocation

/-!
# Definitions in definitions

Definitions are taken out of a script once, before it is expanded, and a definition inside another
one stays in the body of the outer one. When the outer one is called, the lines of the inner one are
walked like all others. The line that starts it is no directive, so it comes out as a command; the
line that ends it is one that nothing has opened, so it is warned of; and nothing is ever stored
under the inner name. `nested_definition_walked` says this of every script whose definitions are
started and ended in pairs: commands and warnings of this kind come up exactly if lines of inner
definitions are reached, they are reached through calls only, and what can be called from the first
line to the last are the definitions that stand outside all others.
-/

namespace RobotConsole.Script

open Storage (Path)

/-! ## The lines of definitions where definitions are not looked for -/

theorem classify_of_opensDefinition {raw : String} (h : opensDefinition raw = true) :
    classify (Text.trim raw) = .command := by
  obtain ⟨more, hlower⟩ := startsWith_of_eq_true "def" h
  have hskip := not_skipped hlower (by decide)
  have hword : ["else", "endif", "endfor", "endwhile", "enddef"].contains
      (Text.lower (Text.trim raw)) = false := by
    have hne : ∀ word : String, ' ' ∉ word.toList → Text.lower (Text.trim raw) ≠ word :=
      fun word => StartsWith.ne ⟨more, hlower⟩
    simp [hne "else" (by decide), hne "endif" (by decide), hne "endfor" (by decide),
      hne "endwhile" (by decide), hne "enddef" (by decide)]
  unfold normalLine at hlower
  unfold classify
  simp only [hskip, hword, Bool.false_eq_true, if_false]
  unfold startsWith
  rw [hlower]
  rfl

theorem classify_of_closesDefinition {raw : String} (h : closesDefinition raw = true) :
    classify (Text.trim raw) = .stray := by
  have hlower : Text.lower (Text.trim raw) = "enddef" := beq_iff_eq.mp h
  have hstart : (Text.lower (Text.trim raw)).toList = 'e' :: "nddef".toList := by
    rw [hlower]
    rfl
  have hskip := not_skipped hstart (by decide)
  unfold classify
  simp only [hskip, hlower]
  rfl

theorem lower_of_stray {line : String} (h : classify line = .stray) :
    Text.lower line ∈ blockEnds := by
  unfold classify at h
  dsimp only at h
  iterate 7
    split at h
    · cases h
  split at h
  · exact List.contains_iff_mem.mp ‹_›
  · cases h

theorem blank_notMem_of_stray {line : String} (h : classify line = .stray) : ' ' ∉ line.toList := by
  intro hblank
  have hends : ∀ word ∈ blockEnds, ' ' ∉ word.toList := by decide
  exact hends _ (lower_of_stray h) (Text.mem_lower hblank (by decide) (by decide))

theorem takeWhile_before_blank {cs : List Char} (h : ' ' ∉ cs) (more : List Char) :
    (cs ++ ' ' :: more).takeWhile (· != ' ') = cs := by
  have hall : ∀ c ∈ cs, (c != ' ') = true :=
    fun c hc => bne_iff_ne.mpr fun hblank => h (hblank ▸ hc)
  rw [List.takeWhile_append_of_pos hall, List.takeWhile_cons_of_neg (by decide), List.append_nil]

/-- From the warning of a line without blanks the line can be read. -/
theorem line_of_warning {line line' : String} {position position' : Nat}
    (h : unexpectedWarning line position = unexpectedWarning line' position')
    (hline : ' ' ∉ line.toList) (hline' : ' ' ∉ line'.toList) : line = line' := by
  have hchars (line : String) (position : Nat) : (unexpectedWarning line position).toList =
      unexpectedStart.toList ++ (line.toList ++ ' ' ::
        ("at line ".toList ++ (toString (position + 1)).toList)) := by
    show (unexpectedStart ++ line ++ " at line " ++ toString (position + 1)).toList = _
    simp [String.toList_append]
  have hlists := congrArg String.toList h
  rw [hchars, hchars] at hlists
  have hwords := congrArg (List.takeWhile (· != ' ')) (List.append_cancel_left hlists)
  rw [takeWhile_before_blank hline, takeWhile_before_blank hline'] at hwords
  exact String.toList_inj.mp hwords

/-! ## Taking balanced definitions out -/

/-- What is left of a script whose definitions have been taken out: lines that neither start nor end
one, and a subroutine for each name that is defined outside all other definitions. A body is what
stands between the lines that start and end its definition, inner definitions included. -/
structure TakenOut (lines kept : List String) (s t : Interpreter) : Prop where
  kept : ∀ raw ∈ kept, opensDefinition raw = false ∧ closesDefinition raw = false
  names : ∀ name, (Dict.get? t.subroutines name).isSome ↔
    (Dict.get? s.subroutines name).isSome ∨ name ∈ outerNames 0 lines
  bodies : ∀ name body, Dict.get? t.subroutines name = some body →
    Dict.get? s.subroutines name = some body ∨
      ∃ block, IsDefinition name body block ∧ block <:+: lines
  printed : t.printed = s.printed

section Balance

variable {name raw header footer : String} {lines inner rest body : List String}

/-- Inside of a definition no name is defined outside all definitions, and as many are open after
balanced lines as before. -/
theorem Balanced.within (h : Balanced lines) (depth : Nat) :
    outerNames (depth + 1) lines = [] ∧ openAfterAll (depth + 1) lines = depth + 1 := by
  induction h generalizing depth with
  | nil => exact ⟨rfl, rfl⟩
  | line hopens hcloses _ ih =>
    have hafter := ih depth
    simp only [outerNames, openAfterAll_cons, openAfter, hopens, hcloses, Nat.add_one_ne_zero,
      Bool.false_eq_true, if_false]
    exact hafter
  | nested hopens hcloses _ _ ihinner ihrest =>
    have hfooter := not_opensDefinition_of_closes hcloses
    obtain ⟨hnames, hdepth⟩ := ihinner (depth + 1)
    obtain ⟨hmore, hafter⟩ := ihrest depth
    simp only [outerNames, outerNames_append, openAfterAll_cons, openAfterAll_append, openAfter,
      hopens, hcloses, hfooter, hnames, hdepth, hmore, hafter, Nat.add_one_ne_zero, if_false,
      if_true, Bool.false_eq_true, Nat.add_sub_cancel, List.append_nil, and_self]

/-- A definition that is ended names one subroutine, whatever is defined in its body. -/
theorem outerNames_definition (hname : definedName? (Text.trim header) = some name)
    (hinner : Balanced inner) (hcloses : closesDefinition footer = true) :
    outerNames 0 (header :: (inner ++ footer :: rest)) = name :: outerNames 0 rest := by
  have hfooter := not_opensDefinition_of_closes hcloses
  obtain ⟨hnames, hdepth⟩ := hinner.within 0
  rw [Nat.zero_add] at hnames hdepth
  rw [outerNames, openAfter_of_name hname, hname, outerNames_append, hnames, hdepth]
  simp [outerNames, openAfter, hfooter, hcloses]

theorem Balanced.takenOut (h : Balanced lines) (s : Interpreter) :
    ∃ kept t, (extractSubroutines lines).run s = .ok kept t ∧ TakenOut lines kept s t := by
  unfold extractSubroutines
  induction h generalizing s with
  | nil =>
    refine ⟨[], s, rfl, fun raw h => absurd h List.not_mem_nil, ?_, fun _ _ => .inl, rfl⟩
    intro name
    simp [outerNames]
  | @line raw rest hopens hcloses _ ih =>
    have hname : definedName? (Text.trim raw) = none := by
      rw [← Option.isNone_iff_eq_none, ← Option.not_isSome, isSome_definedName?, hopens]
      rfl
    obtain ⟨kept, t, hrun, hout⟩ := ih s
    refine ⟨raw :: kept, t, ?_, ?_, ?_, ?_, hout.printed⟩
    · rw [extractFrom_keep hname, run_bind_pure, hrun]
      rfl
    · exact List.forall_mem_cons.mpr ⟨⟨hopens, hcloses⟩, hout.kept⟩
    · intro other
      rw [hout.names, outerNames, hname, openAfter_of_no_name hname]
      simp
    · intro other body hbody
      refine (hout.bodies other body hbody).imp_right ?_
      rintro ⟨block, hblock, hinfix⟩
      exact ⟨block, hblock, hinfix.trans (List.suffix_cons raw rest).isInfix⟩
  | @nested header footer inner rest hopens hcloses hinner _ _ ih =>
    obtain ⟨name, hname⟩ : ∃ name, definedName? (Text.trim header) = some name := by
      rw [← Option.isSome_iff_exists, isSome_definedName?, hopens]
    have hdefinition : IsDefinition name inner (header :: (inner ++ [footer])) :=
      .intro hname hinner hcloses
    have hlines : header :: (inner ++ footer :: rest) =
        header :: (inner ++ [footer]) ++ rest := by simp
    obtain ⟨kept, t, hrun, hout⟩ := ih (s.storing name inner)
    refine ⟨kept, t, ?_, hout.kept, ?_, ?_, hout.printed⟩
    · rw [hlines, hdefinition.extractFrom, EStateM.run_bind, run_define]
      exact hrun
    · intro other
      rw [hout.names, outerNames_definition hname hinner hcloses, Interpreter.storing,
        Dict.get?_put, List.mem_cons]
      by_cases hother : other = name
      · simp [hother]
      · simp [hother]
    · intro other body hbody
      rcases hout.bodies other body hbody with hold | ⟨block, hblock, hinfix⟩
      · rw [Interpreter.storing, Dict.get?_put] at hold
        split at hold
        · rename_i hother
          cases hold
          rw [hother]
          exact .inr ⟨_, hdefinition, hlines ▸ (List.prefix_append _ rest).isInfix⟩
        · exact .inl hold
      · refine .inr ⟨block, hblock, ?_⟩
        rw [hlines]
        exact hinfix.trans (List.suffix_append _ rest).isInfix

end Balance

/-! ## Lines that are reached through calls -/

/-- The line that is next calls a subroutine with this body. -/
def Point.Calls (p : Point) (body : List String) : Prop :=
  ∃ raw name text, p.next? = some raw ∧ classify (Text.trim raw) = .call ∧
    callOf? (Text.trim raw) = some (name, text) ∧ Dict.get? p.state.subroutines name = some body

section Calls

variable {around : Surroundings} {base : Option Path} {p q : Point} {given : List String}
  {s t : Interpreter} {line : String} {rest : List String} {task : Task} {position taken : Nat}

/-- What a call asks for is nothing, or the body of the subroutine that it names. -/
theorem body_of_call (hcall : classify line = .call)
    (hread : (prepare around base position line rest).run s = .ok (task, taken) t) :
    task.body = [] ∨ ∃ name text, callOf? line = some (name, text) ∧
      Dict.get? s.subroutines name = some task.body := by
  unfold prepare at hread
  rw [hcall] at hread
  cases hparts : callOf? line with
  | none =>
    simp only [hparts] at hread
    cases hread
    exact .inl rfl
  | some pieces =>
    obtain ⟨name, text⟩ := pieces
    simp only [hparts] at hread
    obtain ⟨u, v, hget, hread⟩ := run_of_bind_ok hread
    cases hget
    cases hbody : Dict.get? s.subroutines name with
    | none =>
      simp only [hbody] at hread
      cases hread
      exact .inl rfl
    | some body =>
      simp only [hbody] at hread
      obtain ⟨old, w, -, hread⟩ := run_of_bind_ok hread
      cases hread
      exact .inr ⟨name, text, rfl, hbody⟩

variable (hgiven : ∀ raw ∈ given, classify (Text.trim raw) ≠ .includeFile)
include hgiven

/-- An expansion stays with the lines that are in play, unless it goes into a subroutine. -/
theorem lines_of_leads (h : Leads around base p q) (hp : p.Within given) :
    q.place.lines ⊆ p.place.lines ∨ p.Calls q.place.lines := by
  cases h with
  | enter => exact .inl (List.Subset.refl _)
  | @asks levels position taken raw rest s t task place l hread hplace =>
    have hinclude := hgiven raw (hp.lines List.mem_cons_self)
    rw [lines_of_place? hplace]
    by_cases hcall : classify (Text.trim raw) = .call
    · rcases body_of_call hcall hread with hnone | ⟨name, text, hname, hbody⟩
      · rw [hnone]
        exact .inl (List.nil_subset _)
      · exact .inr ⟨raw, name, text, rfl, hcall, hname, hbody⟩
    · have hcommand : classify (Text.trim raw) ≠ .command := by
        intro hcommand
        unfold prepare at hread
        rw [hcommand] at hread
        obtain ⟨text, u, -, hread⟩ := run_of_bind_ok hread
        cases hread
        cases hplace
      have hplain := results_prepare hinclude hcommand position rest s _ t hread
      exact .inl (List.subset_cons_of_subset raw (hplain.body hcall))
  | next hrun =>
    exact .inl (List.subset_cons_of_subset _ (List.drop_subset _ _))
  | forBody => exact .inl (List.Subset.refl _)
  | forNext _ => exact .inl (List.Subset.refl _)
  | whileBody _ => exact .inl (List.Subset.refl _)
  | whileNext _ _ => exact .inl (List.Subset.refl _)

theorem subroutines_of_leads (h : Leads around base p q) (hp : p.Within given) :
    q.state.subroutines = p.state.subroutines := by
  cases h with
  | enter => rfl
  | asks hread _ =>
    have hinclude := hgiven _ (hp.lines List.mem_cons_self)
    exact ((scope_prepare hinclude _ _).yields hread).subroutines
  | next hrun =>
    exact ((scope_expandLine (scope_expandBlock _ base _) _ base _ _ _ _).yields
      hrun).subroutines
  | forBody => rfl
  | forNext hrun => exact ((scope_expandBlock _ base _ _ _).yields hrun).subroutines
  | whileBody hholds =>
    have hstate := (after_of_ok hholds).symm.trans (after_evaluateCondition _ _ _)
    exact congrArg Interpreter.subroutines hstate
  | whileNext hholds hrun =>
    have hstate := (after_of_ok hholds).symm.trans (after_evaluateCondition _ _ _)
    have hround := ((scope_expandBlock _ base _ _ _).yields hrun).subroutines
    exact hround.trans (congrArg Interpreter.subroutines hstate)

/-- Wherever an expansion comes, the subroutines are those that it started with, and the lines are
those that it started with or those of a subroutine that it has called. -/
theorem reached_through_calls (h : Reaches around base p q) (hp : p.Within given) :
    q.Within given ∧ q.state.subroutines = p.state.subroutines ∧
      (q.place.lines ⊆ p.place.lines ∨ ∃ r body, Reaches around base p r ∧
        Reaches around base r q ∧ r.Calls body ∧ q.place.lines ⊆ body) := by
  induction h with
  | refl => exact ⟨hp, rfl, .inl (List.Subset.refl _)⟩
  | @tail r q hreaches hleads ih =>
    obtain ⟨hr, hsame, hlines⟩ := ih
    refine ⟨hleads.within hr, (subroutines_of_leads hgiven hleads hr).trans hsame, ?_⟩
    rcases lines_of_leads hgiven hleads hr with hstays | hcalls
    · rcases hlines with hlines | ⟨o, body, hbefore, hafter, hcalls, hbody⟩
      · exact .inl (List.Subset.trans hstays hlines)
      · exact .inr ⟨o, body, hbefore, hafter.tail hleads, hcalls, List.Subset.trans hstays hbody⟩
    · exact .inr ⟨r, _, hreaches, .single hleads, hcalls, List.Subset.refl _⟩

end Calls

/-! ## Inner definitions -/

/-- A warning of a line that ends a definition. -/
def WarnsOfEnd (message : String) : Prop :=
  ∃ line position, Text.lower line = "enddef" ∧ message = unexpectedWarning line position

/-- A line like this is next at a point that is reached. -/
def Comes (around : Surroundings) (base : Option Path) (p : Point) (kind : String → Bool) : Prop :=
  ∃ q raw, Reaches around base p q ∧ q.next? = some raw ∧ kind raw = true

section Nested

variable {around : Surroundings} {base : Option Path} {p : Point} {lines : List String}
  {s : Interpreter} {raw message : String}

theorem next?_mem (h : p.next? = some raw) : raw ∈ p.place.lines := by
  obtain ⟨place, s, l⟩ := p
  cases place with
  | walk levels position lines =>
    cases lines with
    | nil => cases h
    | cons first rest =>
      cases h
      exact List.mem_cons_self
  | block levels lines => cases h
  | forRounds levels left name values body => cases h
  | whileRounds levels left condition body => cases h

theorem trim_subset (raw : String) : (Text.trim raw).toList ⊆ raw.toList := by
  intro c hc
  obtain ⟨lead, tail, -, -, hraw⟩ := Text.exists_blanks_around raw.toList
  rw [hraw]
  rw [Text.trim, String.toList_ofList] at hc
  exact List.mem_append_left _ (List.mem_append_right _ hc)

/-- Where no reference stands, a point gives a command that starts a definition exactly if a line
that does is next. -/
theorem gives_opening_iff (hdollar : ∀ raw ∈ p.place.lines, '$' ∉ raw.toList) :
    (∃ command, p.Gives command ∧ startsWith (Text.lower command) "def " = true) ↔
      ∃ raw, p.next? = some raw ∧ opensDefinition raw = true := by
  have htext {raw : String} (hnext : p.next? = some raw) :
      expandText p.state.bindings (Text.trim raw) = .ok (Text.trim raw) :=
    expandText_of_no_dollar _ fun h => hdollar raw (next?_mem hnext) (trim_subset raw h)
  constructor
  · rintro ⟨command, ⟨raw, hnext, -, hcommand⟩, hstarts⟩
    rw [htext hnext] at hcommand
    cases hcommand
    exact ⟨raw, hnext, hstarts⟩
  · rintro ⟨raw, hnext, hopens⟩
    exact ⟨_, ⟨raw, hnext, classify_of_opensDefinition hopens, htext hnext⟩, hopens⟩

/-- A point warns of a line that ends a definition exactly if one is next. -/
theorem warns_of_end_iff :
    (∃ message, p.Warns message ∧ WarnsOfEnd message) ↔
      ∃ raw, p.next? = some raw ∧ closesDefinition raw = true := by
  obtain ⟨place, s, l⟩ := p
  constructor
  · rintro ⟨message, hwarns, line, position', hlower, rfl⟩
    cases place with
    | walk levels position lines =>
      cases lines with
      | nil => exact hwarns.elim
      | cons raw rest =>
        obtain ⟨hstray, hmessage⟩ := hwarns
        have hline : ' ' ∉ line.toList := by
          intro hblank
          have hmem := Text.mem_lower hblank (by decide) (by decide)
          rw [hlower] at hmem
          exact absurd hmem (by decide)
        have hsame := line_of_warning hmessage hline (blank_notMem_of_stray hstray)
        refine ⟨raw, rfl, ?_⟩
        rw [closesDefinition, normalLine, ← hsame, hlower, beq_self_eq_true]
    | block levels lines => exact hwarns.elim
    | forRounds levels left name values body => exact hwarns.elim
    | whileRounds levels left condition body => exact hwarns.elim
  · rintro ⟨raw, hnext, hcloses⟩
    cases place with
    | walk levels position lines =>
      cases lines with
      | nil => cases hnext
      | cons first rest =>
        cases hnext
        exact ⟨_, ⟨classify_of_closesDefinition hcloses, rfl⟩, _, _, beq_iff_eq.mp hcloses, rfl⟩
    | block levels lines => cases hnext
    | forRounds levels left name values body => cases hnext
    | whileRounds levels left condition body => cases hnext

/-- Once the definitions are taken out of a script, only its lines are in play. -/
theorem within_of_extract {kept : List String} {t : Interpreter} (hfresh : s.subroutines = [])
    (hextract : (extractSubroutines lines).run s = .ok kept t) (levels : Nat)
    (l : Limits) : (Point.mk (.block levels kept) t l).Within lines := by
  have hs : s.HoldsOnly lines := by
    intro name body hbody
    rw [hfresh] at hbody
    cases hbody
  obtain ⟨hstate, hkept⟩ := emits_extractFrom .outside (List.nil_subset lines)
    (List.Subset.refl lines) s hs kept t hextract
  exact ⟨hkept, hstate⟩

end Nested

/-- In a script without include lines and references whose definitions are started and ended in
pairs, inner definitions define nothing. Before it is expanded, the definitions that stand outside
all others are taken out of it (`TakenOut`). What is left yields a command that starts a definition
exactly if a line that does is reached, and warns of an unexpected end of a definition exactly if
such an end is reached, however the script ends. Such lines are reached only inside of a subroutine
that has been called. All the while the subroutines stay the same, so the name of an inner
definition can be called only if an outer one has it. -/
theorem nested_definition_walked (around : Surroundings) (base : Option Path) {lines : List String}
    (hbalanced : Balanced lines)
    (hlines : ∀ raw ∈ lines, startsWith (normalLine raw) "include " = false ∧ '$' ∉ raw.toList)
    {s : Interpreter} (hfresh : s.subroutines = []) (hquiet : ∀ m ∈ s.printed, ¬ WarnsOfEnd m) :
    ∃ kept t, (extractSubroutines lines).run s = .ok kept t ∧ TakenOut lines kept s t ∧
      let start : Point := ⟨.block (levelsAt 0) kept, t, around.limits⟩
      (∀ commands u, (preprocess around base lines).run s = .ok commands u →
        u.subroutines = t.subroutines ∧
        ((∃ command ∈ commands, startsWith (Text.lower command) "def " = true) ↔
          Comes around base start opensDefinition)) ∧
      ((∃ message ∈ (after (preprocess around base lines) s).printed, WarnsOfEnd message) ↔
        Comes around base start closesDefinition) ∧
      ∀ q, Reaches around base start q → q.state.subroutines = t.subroutines ∧
        ∀ raw, q.next? = some raw → (opensDefinition raw || closesDefinition raw) = true →
          ∃ r body, Reaches around base start r ∧ Reaches around base r q ∧ r.Calls body ∧
            raw ∈ body := by
  have hgiven : ∀ raw ∈ lines, classify (Text.trim raw) ≠ .includeFile := by
    intro raw hraw hkind
    have hstarts := startsWith_of_classify hkind
    have hline : startsWith (Text.lower (Text.trim raw)) "include " = false := (hlines raw hraw).1
    rw [hline] at hstarts
    cases hstarts
  obtain ⟨kept, t, hextract, hout⟩ := hbalanced.takenOut s
  have hstart := within_of_extract hfresh hextract (levelsAt 0) around.limits
  have hrun : (preprocess around base lines).run s =
      (Point.mk (.block (levelsAt 0) kept) t around.limits).outcome around base := by
    unfold preprocess
    rw [EStateM.run_bind, hextract]
    rfl
  have hafter : after (preprocess around base lines) s =
      after (expandBlock around base (levelsAt 0) kept) t := after_bind_of_ok hextract
  refine ⟨kept, t, hextract, hout, ?_, ?_, ?_⟩
  · intro commands u hcommands
    rw [hrun] at hcommands
    refine ⟨((scope_expandBlock around base _ kept t).yields hcommands).subroutines, ?_⟩
    have hreached := mem_commands_iff_reached hgiven _ hstart hcommands
    constructor
    · rintro ⟨command, hmem, hstarts⟩
      obtain ⟨q, hreaches, hgives⟩ := (hreached command).mp hmem
      have hq := (reached_through_calls hgiven hreaches hstart).1
      obtain ⟨raw, hnext, hopens⟩ := (gives_opening_iff fun raw hraw =>
        (hlines raw (hq.lines hraw)).2).mp ⟨command, hgives, hstarts⟩
      exact ⟨q, raw, hreaches, hnext, hopens⟩
    · rintro ⟨q, raw, hreaches, hnext, hopens⟩
      have hq := (reached_through_calls hgiven hreaches hstart).1
      obtain ⟨command, hgives, hstarts⟩ := (gives_opening_iff fun raw hraw =>
        (hlines raw (hq.lines hraw)).2).mpr ⟨raw, hnext, hopens⟩
      exact ⟨command, (hreached command).mpr ⟨q, hreaches, hgives⟩, hstarts⟩
  · rw [hafter]
    have hwarned {message : String} (hmessage : WarnsOfEnd message) :
        message ∈ (after (expandBlock around base (levelsAt 0) kept) t).printed ↔
          ∃ q, Reaches around base ⟨.block (levelsAt 0) kept, t, around.limits⟩ q ∧
            q.Warns message := by
      have hbefore : message ∉ t.printed := by
        rw [hout.printed]
        exact fun hmem => hquiet message hmem hmessage
      obtain ⟨line, position, -, rfl⟩ := hmessage
      exact (warned_iff_reached hgiven _ hstart (soundsUnexpected_warning line position)).trans
        (or_iff_right hbefore)
    constructor
    · rintro ⟨message, hmem, hmessage⟩
      obtain ⟨q, hreaches, hwarns⟩ := (hwarned hmessage).mp hmem
      obtain ⟨raw, hnext, hcloses⟩ := warns_of_end_iff.mp ⟨message, hwarns, hmessage⟩
      exact ⟨q, raw, hreaches, hnext, hcloses⟩
    · rintro ⟨q, raw, hreaches, hnext, hcloses⟩
      obtain ⟨message, hwarns, hmessage⟩ := warns_of_end_iff.mpr ⟨raw, hnext, hcloses⟩
      exact ⟨message, (hwarned hmessage).mpr ⟨q, hreaches, hwarns⟩, hmessage⟩
  · intro q hreaches
    obtain ⟨-, hsame, hlines⟩ := reached_through_calls hgiven hreaches hstart
    refine ⟨hsame, fun raw hnext hkind => ?_⟩
    rcases hlines with hkept | ⟨r, body, hbefore, hafter, hcalls, hbody⟩
    · -- what was left of the script outside definitions holds no such line
      obtain ⟨hopens, hcloses⟩ := hout.kept raw (hkept (next?_mem hnext))
      rw [hopens, hcloses] at hkind
      cases hkind
    · exact ⟨r, body, hbefore, hafter, hcalls, hbody (next?_mem hnext)⟩

/-- A script with a definition in a definition, two levels deep, called by names of all levels. -/
def nestedGreetings : List String :=
  ["def outer", "  DEF inner", "  def innermost", "say deep", "ENDDEF", "say hi", "  enddef",
    "say done", "enddef", "call outer", "call inner", "call innermost"]

/-- Its inner definitions come out as commands, their ends are warned of, and their names cannot be
called. -/
theorem nested_greetings_walked :
    Balanced nestedGreetings ∧
      (∀ raw ∈ nestedGreetings,
        startsWith (normalLine raw) "include " = false ∧ '$' ∉ raw.toList) ∧
      yielded ((preprocess nowhere none nestedGreetings).run {}) =
        some ["DEF inner", "def innermost", "say deep", "say hi", "say done"] ∧
      (after (preprocess nowhere none nestedGreetings) {}).printed =
        #["Warning: Unexpected ENDDEF at line 4", "Warning: Unexpected enddef at line 6",
          "Error: Subroutine not found: inner", "Error: Subroutine not found: innermost"] ∧
      ∃ kept t, (extractSubroutines nestedGreetings).run {} = .ok kept t ∧
        Comes nowhere none ⟨.block (levelsAt 0) kept, t, nowhere.limits⟩ opensDefinition ∧
        Comes nowhere none ⟨.block (levelsAt 0) kept, t, nowhere.limits⟩ closesDefinition := by
  have hinnermost : Balanced ["  def innermost", "say deep", "ENDDEF", "say hi"] :=
    @Balanced.nested _ "ENDDEF" ["say deep"] ["say hi"] (by decide) (by decide)
      (.line (by decide) (by decide) .nil) (.line (by decide) (by decide) .nil)
  have hinner : Balanced ["  DEF inner", "  def innermost", "say deep", "ENDDEF", "say hi",
      "  enddef", "say done"] :=
    @Balanced.nested _ "  enddef" ["  def innermost", "say deep", "ENDDEF", "say hi"] ["say done"]
      (by decide) (by decide) hinnermost (.line (by decide) (by decide) .nil)
  have hcalls : Balanced ["call outer", "call inner", "call innermost"] :=
    .line (by decide) (by decide) (.line (by decide) (by decide)
      (.line (by decide) (by decide) .nil))
  have hbalanced : Balanced nestedGreetings :=
    @Balanced.nested "def outer" "enddef" ["  DEF inner", "  def innermost", "say deep", "ENDDEF",
      "say hi", "  enddef", "say done"] _ (by decide) (by decide) hinner hcalls
  have hlines : ∀ raw ∈ nestedGreetings,
      startsWith (normalLine raw) "include " = false ∧ '$' ∉ raw.toList := by
    decide +kernel
  have hyielded : yielded ((preprocess nowhere none nestedGreetings).run {}) =
      some ["DEF inner", "def innermost", "say deep", "say hi", "say done"] := by
    decide +kernel
  have hprinted : (after (preprocess nowhere none nestedGreetings) {}).printed =
      #["Warning: Unexpected ENDDEF at line 4", "Warning: Unexpected enddef at line 6",
        "Error: Subroutine not found: inner", "Error: Subroutine not found: innermost"] := by
    decide +kernel
  have hquiet : ∀ m ∈ ({} : Interpreter).printed, ¬ WarnsOfEnd m :=
    fun m hm => absurd hm (Array.not_mem_empty m)
  obtain ⟨kept, t, hextract, -, hcommands, hwarnings, -⟩ :=
    nested_definition_walked nowhere none hbalanced hlines (s := {}) rfl hquiet
  refine ⟨hbalanced, hlines, hyielded, hprinted, kept, t, hextract, ?_, ?_⟩
  · cases hrun : (preprocess nowhere none nestedGreetings).run {} with
    | error e u =>
      rw [hrun] at hyielded
      cases hyielded
    | ok commands u =>
      rw [hrun] at hyielded
      refine (hcommands commands u hrun).2.mp ⟨"DEF inner", ?_, by decide +kernel⟩
      rw [Option.some.inj hyielded]
      exact List.mem_cons_self
  · refine hwarnings.mp ⟨"Warning: Unexpected ENDDEF at line 4", ?_, "ENDDEF", 3, by decide, rfl⟩
    rw [hprinted]
    exact Array.mem_of_getElem? (i := 0) rfl

end RobotConsole.Script
