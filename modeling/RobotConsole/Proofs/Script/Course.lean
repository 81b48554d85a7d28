import RobotConsole.Proofs.Script.Scope

/-!
# The course of an expansion

`Expands` says how a block is expanded, rule by rule and with no bound on the number of steps: the
walk goes from position to position, a while loop goes on while its condition holds, a call expands
whatever the subroutine holds. A derivation is finite, so what has one comes to an end. With each
derivation goes its course: the lines that were visited, the position after each, and the blocks
that were expanded for it.

Every script has a derivation, and its course is bounded (`preprocess_ends`). The proof descends
with the program: on the levels left, in a level on the lines left, in a loop on the rounds left.
-/

namespace RobotConsole.Script

open Arithmetic (Value)
open Storage (Path)
open Contract

/-- How a step ends: with a result or an error, and in which state. -/
abbrev Outcome (α : Type) := EStateM.Result ScriptError Interpreter α

/-- Changes the result, if there is one. -/
def Outcome.map {α β : Type} (f : α → β) : Outcome α → Outcome β
  | .ok a t => .ok (f a) t
  | .error e t => .error e t

theorem run_bind_pure {α β : Type} (x : Run α) (f : α → β) (s : Interpreter) :
    (do return f (← x)).run s = Outcome.map f (x.run s) := by
  rw [EStateM.run_bind]
  cases x.run s <;> rfl

/-! ## What a line asks for -/

/-- What is left to do once a line has been read. -/
inductive Task where
  | finished (commands : List String)
  | once (body : List String) (old : List (String × Option Value))
  | forEach (name : String) (values : List Value) (body : List String)
  | whileHolds (condition : String) (body : List String)

/-- Reads the line at a position, given the lines after it: what is left to do, and how many of the
lines after it belong to it. No block is expanded. -/
def prepare (around : Surroundings) (base : Option Path) (position : Nat) (line : String)
    (rest : List String) : Run (Task × Nat) := do
  match classify line with
  | .skipped => return (.finished [], 0)
  | .includeFile => return (.finished (← expandInclude around base line), 0)
  | .assignment =>
    assign around.limits line
    return (.finished [], 0)
  | .forLoop =>
    match forLoopOf? line with
    | none =>
      print s!"Error: Invalid for syntax: {line}"
      return (.finished [], 0)
    | some (name, text) =>
      let values ← loopValues around.limits (← expandVariables text)
      let (body, length) ← loopBody "endfor" rest
      return (.forEach name values body, length)
  | .whileLoop =>
    match argumentOf? "while" line with
    | none =>
      print s!"Error: Invalid while syntax: {line}"
      return (.finished [], 0)
    | some condition =>
      let (body, length) ← loopBody "endwhile" rest
      return (.whileHolds condition body, length)
  | .conditional =>
    match argumentOf? "if" line with
    | none =>
      print s!"Error: Invalid if syntax: {line}"
      return (.finished [], 0)
    | some condition =>
      match branches? 0 false rest with
      | none =>
        print s!"Error: No matching endif for if at line {(position : Int) + 1}"
        return (.finished [], 0)
      | some parts =>
        let holds ← evaluateCondition around.limits.called condition
        return (.once (if holds then parts.thenLines else parts.elseLines) [], parts.length + 1)
  | .call =>
    match callOf? line with
    | none =>
      print s!"Error: Invalid call syntax: {line}"
      return (.finished [], 0)
    | some (name, text) =>
      match Dict.get? (← get).subroutines name with
      | none =>
        print s!"Error: Subroutine not found: {name}"
        return (.finished [], 0)
      | some body =>
        let old ← bindArguments 1 (Command.splitWords text)
        return (.once body old, 0)
  | .stray =>
    print s!"Warning: Unexpected {line} at line {position + 1}"
    return (.finished [], 0)
  | .command => return (.finished [← expandVariables line], 0)

/-- Does what is left to do, given how blocks are expanded. -/
def perform (limits : Limits) (expand : Expander) : Task → Run (List String)
  | .finished commands => return commands
  | .once body old => do
    let commands ← expand body
    old.forM fun (name, value) => restore name value
    return commands
  | .forEach name values body => do
    forRounds expand name body (← get).maxIterations.toNat values
  | .whileHolds condition body => do
    whileRounds limits.called expand condition body (← get).maxIterations.toNat

/-- A line is expanded by reading it and then doing what it asks for. -/
theorem expandLine_eq_perform (around : Surroundings) (base : Option Path) (expand : Expander)
    (position : Nat) (line : String) (rest : List String) :
    expandLine around base expand position line rest = do
      let (task, taken) ← prepare around base position line rest
      let commands ← perform around.limits expand task
      return (commands, taken) := by
  unfold expandLine prepare
  cases classify line with
  | skipped => simp only [pure_bind, perform]
  | includeFile => simp only [bind_assoc, pure_bind, perform]
  | assignment => simp only [bind_assoc, pure_bind, perform]
  | forLoop =>
    unfold expandFor
    cases forLoopOf? line with
    | none => simp only [bind_assoc, pure_bind, perform]
    | some parts => simp only [bind_assoc, pure_bind, perform]
  | whileLoop =>
    unfold expandWhile
    cases argumentOf? "while" line with
    | none => simp only [bind_assoc, pure_bind, perform]
    | some condition => simp only [bind_assoc, pure_bind, perform]
  | conditional =>
    unfold expandIf
    cases argumentOf? "if" line with
    | none => simp only [bind_assoc, pure_bind, perform]
    | some condition =>
      cases branches? 0 false rest with
      | none => simp only [bind_assoc, pure_bind, perform]
      | some parts => simp only [bind_assoc, pure_bind, perform, List.forM]
  | call =>
    unfold expandCall
    cases callOf? line with
    | none => simp only [bind_assoc, pure_bind, perform]
    | some parts =>
      simp only [bind_assoc]
      refine bind_congr fun s => ?_
      cases Dict.get? s.subroutines parts.1 with
      | none => simp only [bind_assoc, pure_bind, perform]
      | some body => simp only [bind_assoc, pure_bind, perform]
  | stray => simp only [bind_assoc, pure_bind, perform]
  | command => simp only [bind_assoc, pure_bind, perform]

/-! ## Rules of expansion -/

/-- A line that the walk came to: its kind, its position, the position after it (none when the
script stopped there), and the blocks that were expanded for it. -/
structure Visit (α : Type) where
  kind : LineKind
  position : Nat
  next : Option Nat
  bodies : List α

/-- The course of a block: its depth and the lines that were visited. -/
inductive Course where
  | block (depth : Int) (visits : List (Visit Course))

/-- The depth of the block. -/
def Course.depth : Course → Int
  | .block depth _ => depth

mutual

/-- A block at a depth is expanded: nothing is done too deep down, and elsewhere its lines are
walked from the first on. -/
inductive Expands :
    Surroundings → Option Path → Int → List String → Interpreter → Course →
    Outcome (List String) → Prop where
  | tooDeep {around base} {depth : Int} {lines s t} : maxDepth < depth →
      (print "Error: Maximum nesting depth exceeded").run s = .ok () t →
      Expands around base depth lines s (.block depth []) (.ok [] t)
  | walked {around base} {depth : Int} {lines s visits r} : depth ≤ maxDepth →
      Walks around base depth lines 0 s visits r →
      Expands around base depth lines s (.block depth visits) r

/-- The lines of a block are walked from a position on, up to the end or to an error. -/
inductive Walks :
    Surroundings → Option Path → Int → List String → Nat → Interpreter → List (Visit Course) →
    Outcome (List String) → Prop where
  | done {around base depth lines position s} : lines.length ≤ position →
      Walks around base depth lines position s [] (.ok [] s)
  | stops {around base depth lines position raw s bodies e t} : lines[position]? = some raw →
      Handles around base depth lines position (Text.trim raw) s bodies (.error e t) →
      Walks around base depth lines position s
        [⟨classify (Text.trim raw), position, none, bodies⟩] (.error e t)
  | goesOn {around base depth lines position raw s bodies commands next t visits r} :
      lines[position]? = some raw →
      Handles around base depth lines position (Text.trim raw) s bodies (.ok (commands, next) t) →
      Walks around base depth lines next t visits r →
      Walks around base depth lines position s
        (⟨classify (Text.trim raw), position, some next, bodies⟩ :: visits)
        (Outcome.map (commands ++ ·) r)

/-- The line at a position is read, and what it asks for is done. -/
inductive Handles :
    Surroundings → Option Path → Int → List String → Nat → String → Interpreter → List Course →
    Outcome (List String × Nat) → Prop where
  | unread {around base depth lines position line s e t} :
      (prepare around base position line (lines.drop (position + 1))).run s = .error e t →
      Handles around base depth lines position line s [] (.error e t)
  | read {around base depth lines position line s task taken t bodies r} :
      (prepare around base position line (lines.drop (position + 1))).run s = .ok (task, taken) t →
      Performs around base depth task t bodies r →
      Handles around base depth lines position line s bodies
        (Outcome.map (·, position + 1 + taken) r)

/-- What a line asks for is done; the blocks in it are one level further down. -/
inductive Performs :
    Surroundings → Option Path → Int → Task → Interpreter → List Course →
    Outcome (List String) → Prop where
  | finished {around base depth commands s} :
      Performs around base depth (.finished commands) s [] (.ok commands s)
  | fails {around base depth body old s course e t} :
      Expands around.inner base (depth + 1) body s course (.error e t) →
      Performs around base depth (.once body old) s [course] (.error e t)
  | once {around base depth body old s course commands t} :
      Expands around.inner base (depth + 1) body s course (.ok commands t) →
      Performs around base depth (.once body old) s [course]
        (.ok commands { t with bindings := restoredAll t.bindings old })
  | forEach {around base depth name values body s bodies r} :
      Iterates around base depth name body 0 values s bodies r →
      Performs around base depth (.forEach name values body) s bodies r
  | whileHolds {around base depth condition body s bodies r} :
      Repeats around base depth condition body 0 s bodies r →
      Performs around base depth (.whileHolds condition body) s bodies r

/-- A for loop goes on after some rounds, with the values that are left. -/
inductive Iterates :
    Surroundings → Option Path → Int → String → List String → Nat → List Value → Interpreter →
    List Course → Outcome (List String) → Prop where
  | done {around base depth name body} {rounds : Nat} {s} :
      Iterates around base depth name body rounds [] s [] (.ok [] s)
  | limit {around base depth name body} {rounds : Nat} {value values t} {s : Interpreter} :
      s.maxIterations ≤ rounds →
      (print s!"Warning: For loop exceeded max iterations ({s.maxIterations})").run s = .ok () t →
      Iterates around base depth name body rounds (value :: values) s [] (.ok [] t)
  | stops {around base depth name body} {rounds : Nat} {value values course e t} {s : Interpreter} :
      rounds < s.maxIterations →
      Expands around.inner base (depth + 1) body (s.lend name value) course (.error e t) →
      Iterates around base depth name body rounds (value :: values) s [course] (.error e t)
  | goesOn {around base depth name body} {rounds : Nat} {value values course commands bodies r}
      {s t : Interpreter} :
      rounds < s.maxIterations →
      Expands around.inner base (depth + 1) body (s.lend name value) course (.ok commands t) →
      Iterates around base depth name body (rounds + 1) values
        { t with bindings := restored t.bindings name (Dict.get? s.bindings name) } bodies r →
      Iterates around base depth name body rounds (value :: values) s (course :: bodies)
        (Outcome.map (commands ++ ·) r)

/-- A while loop goes on after some rounds. -/
inductive Repeats :
    Surroundings → Option Path → Int → String → List String → Nat → Interpreter → List Course →
    Outcome (List String) → Prop where
  | undecided {around base depth condition body} {rounds : Nat} {s e t} :
      (evaluateCondition around.limits.called condition).run s = .error e t →
      Repeats around base depth condition body rounds s [] (.error e t)
  | done {around base depth condition body} {rounds : Nat} {s t} :
      (evaluateCondition around.limits.called condition).run s = .ok false t →
      Repeats around base depth condition body rounds s [] (.ok [] t)
  | limit {around base depth condition body} {rounds : Nat} {s t u : Interpreter} :
      (evaluateCondition around.limits.called condition).run s = .ok true t →
      t.maxIterations ≤ rounds →
      (print s!"Warning: While loop exceeded max iterations ({t.maxIterations})").run t = .ok () u →
      Repeats around base depth condition body rounds s [] (.ok [] u)
  | stops {around base depth condition body} {rounds : Nat} {course e} {s t u : Interpreter} :
      (evaluateCondition around.limits.called condition).run s = .ok true t →
      rounds < t.maxIterations →
      Expands around.inner base (depth + 1) body t course (.error e u) →
      Repeats around base depth condition body rounds s [course] (.error e u)
  | goesOn {around base depth condition body} {rounds : Nat} {course commands bodies r}
      {s t u : Interpreter} :
      (evaluateCondition around.limits.called condition).run s = .ok true t →
      rounds < t.maxIterations →
      Expands around.inner base (depth + 1) body t course (.ok commands u) →
      Repeats around base depth condition body (rounds + 1) u bodies r →
      Repeats around base depth condition body rounds s (course :: bodies)
        (Outcome.map (commands ++ ·) r)

end

/-! ## Bounds on a course -/

/-- How many blocks a line of a kind may expand. -/
def allowance (limit : Nat) : LineKind → Nat
  | .forLoop => limit
  | .whileLoop => limit
  | .conditional => 1
  | .call => 1
  | _ => 0

/-- A course is bounded: too deep down nothing is visited, the walk only goes forward, no line
expands more blocks than it may, and those are one level further down and bounded themselves. -/
inductive Course.Bounded (limit : Nat) : Course → Prop where
  | block {depth : Int} {visits : List (Visit Course)}
      (idle : maxDepth < depth → visits = [])
      (forward : ∀ v ∈ visits, ∀ next, v.next = some next → v.position < next)
      (allowed : ∀ v ∈ visits, v.bodies.length ≤ allowance limit v.kind)
      (deeper : ∀ v ∈ visits, ∀ body ∈ v.bodies, body.depth = depth + 1)
      (bounded : ∀ v ∈ visits, ∀ body ∈ v.bodies, body.Bounded limit) :
      Course.Bounded limit (.block depth visits)

/-- A bounded course of a block at a depth. -/
def Course.Within (limit : Nat) (depth : Int) (course : Course) : Prop :=
  course.depth = depth ∧ course.Bounded limit

/-- A visit in a bounded course of a block at a depth. -/
structure Visit.Within (limit : Nat) (depth : Int) (v : Visit Course) : Prop where
  forward : ∀ next, v.next = some next → v.position < next
  allowed : v.bodies.length ≤ allowance limit v.kind
  bodies : ∀ body ∈ v.bodies, body.Within limit (depth + 1)

theorem within_visit {limit : Nat} {depth : Int} {kind : LineKind} {position : Nat}
    {next : Option Nat} {bodies : List Course} (hnext : ∀ n, next = some n → position < n)
    (hlength : bodies.length ≤ allowance limit kind)
    (hall : ∀ body ∈ bodies, body.Within limit (depth + 1)) :
    (⟨kind, position, next, bodies⟩ : Visit Course).Within limit depth :=
  ⟨hnext, hlength, hall⟩

theorem within_block {limit : Nat} {depth : Int} {visits : List (Visit Course)}
    (hidle : maxDepth < depth → visits = []) (hvisits : ∀ v ∈ visits, v.Within limit depth) :
    (Course.block depth visits).Within limit depth :=
  ⟨rfl, .block hidle (fun v hv => (hvisits v hv).forward) (fun v hv => (hvisits v hv).allowed)
    (fun v hv body hbody => ((hvisits v hv).bodies body hbody).1)
    (fun v hv body hbody => ((hvisits v hv).bodies body hbody).2)⟩

/-- How many blocks a task may expand. -/
def Task.blocks (limit : Nat) : Task → Nat
  | .finished _ => 0
  | .once _ _ => 1
  | .forEach _ _ _ => limit
  | .whileHolds _ _ => limit

/-- What reading a line of a kind does: it keeps the limit, and asks for no more than the line may
expand. -/
def Reads (limit : Nat) (kind : LineKind) (x : Run (Task × Nat)) : Prop :=
  ∀ s task taken t, x.run s = .ok (task, taken) t →
    t.maxIterations = s.maxIterations ∧ task.blocks limit ≤ allowance limit kind

section Reading

variable {limit : Nat} {kind : LineKind}

theorem reads_pure {task : Task} {taken : Nat} (h : task.blocks limit ≤ allowance limit kind) :
    Reads limit kind (pure (task, taken)) := by
  intro s task' taken' t hrun
  cases hrun
  exact ⟨rfl, h⟩

theorem reads_bind {α : Type} {x : Run α} {f : α → Run (Task × Nat)} (hx : scope.Holds x)
    (hf : ∀ a, Reads limit kind (f a)) : Reads limit kind (x >>= f) := by
  intro s task taken u hrun
  rw [EStateM.run_bind] at hrun
  cases hfirst : x.run s with
  | error e t =>
    rw [hfirst] at hrun
    cases hrun
  | ok a t =>
    rw [hfirst] at hrun
    obtain ⟨hmax, hblocks⟩ := hf a t task taken u hrun
    exact ⟨hmax.trans ((hx s).yields hfirst).maxIterations, hblocks⟩

theorem reads_report (message : String) :
    Reads limit kind (do print message; return (.finished [], 0)) :=
  reads_bind (keeping_print message) fun _ => reads_pure (Nat.zero_le _)

theorem reads_prepare (limit : Nat) (around : Surroundings) (base : Option Path) (position : Nat)
    (line : String) (rest : List String) :
    Reads limit (classify line) (prepare around base position line rest) := by
  unfold prepare
  cases classify line with
  | skipped => exact reads_pure (Nat.zero_le _)
  | includeFile =>
    exact reads_bind (keeping_expandInclude around base line) fun _ => reads_pure (Nat.zero_le _)
  | assignment => exact reads_bind (scope_assign line) fun _ => reads_pure (Nat.zero_le _)
  | forLoop =>
    cases forLoopOf? line with
    | none => exact reads_report _
    | some parts =>
      refine reads_bind (keeping_expandVariables _) fun text => ?_
      refine reads_bind (keeping_loopValues text) fun values => ?_
      exact reads_bind (keeping_loopBody "endfor" rest) fun _ => reads_pure (Nat.le_refl _)
  | whileLoop =>
    cases argumentOf? "while" line with
    | none => exact reads_report _
    | some condition =>
      exact reads_bind (keeping_loopBody "endwhile" rest) fun _ => reads_pure (Nat.le_refl _)
  | conditional =>
    cases argumentOf? "if" line with
    | none => exact reads_report _
    | some condition =>
      cases branches? 0 false rest with
      | none => exact reads_report _
      | some parts =>
        exact reads_bind (keeping_evaluateCondition condition) fun _ =>
          reads_pure (Nat.le_refl _)
  | call =>
    cases callOf? line with
    | none => exact reads_report _
    | some parts =>
      refine reads_bind holds_get fun s => ?_
      cases Dict.get? s.subroutines parts.1 with
      | none => exact reads_report _
      | some body =>
        exact reads_bind (scope_bindArguments 1 _) fun _ => reads_pure (Nat.le_refl _)
  | stray => exact reads_report _
  | command => exact reads_bind (keeping_expandVariables line) fun _ => reads_pure (Nat.zero_le _)

end Reading

/-! ## Every expansion has a course -/

/-- Blocks at a depth are expanded in scope, and by the rules with a bounded course from every state
that has the limit. -/
structure Follows (around : Surroundings) (base : Option Path) (limit : Nat) (depth : Int)
    (expand : Expander) : Prop where
  inScope : ∀ body, scope.Holds (expand body)
  expands : ∀ body s, s.maxIterations.toNat = limit →
    ∃ course, Expands around base depth body s course ((expand body).run s) ∧
      course.Within limit depth

section Steps

variable {around : Surroundings} {base : Option Path} {limit : Nat} {depth : Int}
  {expand : Expander}

/-- The rounds of a for loop, by induction on the values. The rounds made and those left make up the
limit. -/
theorem iterates_forRounds (hexpand : Follows around.inner base limit (depth + 1) expand)
    (name : String) (body : List String) (rounds left : Nat) (values : List Value) (s : Interpreter)
    (hs : s.maxIterations.toNat = limit) (hleft : rounds + left = limit) :
    ∃ bodies, Iterates around base depth name body rounds values s bodies
        ((forRounds expand name body left values).run s) ∧
      bodies.length ≤ left ∧ ∀ course ∈ bodies, course.Within limit (depth + 1) := by
  induction values generalizing rounds left s with
  | nil =>
    unfold forRounds
    exact ⟨[], .done, Nat.zero_le _, List.forall_mem_nil _⟩
  | cons value values ih =>
    cases left with
    | zero => exact ⟨[], .limit (by omega) rfl, Nat.zero_le _, List.forall_mem_nil _⟩
    | succ left =>
      have hround : rounds < s.maxIterations := by omega
      obtain ⟨course, hcourse, hwithin⟩ := hexpand.expands body (s.lend name value) hs
      unfold forRounds
      -- the loop variable is never missing after the body, so a round only lends it
      rw [EStateM.run_bind, forRound_eq_lending (hexpand.inScope body), run_lending]
      cases hrun : (expand body).run (s.lend name value) with
      | error e t =>
        rw [hrun] at hcourse
        exact ⟨[course], .stops hround hcourse, Nat.succ_le_succ (Nat.zero_le _),
          List.forall_mem_singleton.mpr hwithin⟩
      | ok commands t =>
        rw [hrun] at hcourse
        have hmax : t.maxIterations = s.maxIterations :=
          ((hexpand.inScope body _).yields hrun).maxIterations
        obtain ⟨bodies, hrest, hlength, hall⟩ := ih (rounds + 1) left
          { t with bindings := restored t.bindings name (Dict.get? s.bindings name) }
          (by rw [← hs, ← hmax]) (by omega)
        refine ⟨course :: bodies, ?_, Nat.succ_le_succ hlength,
          List.forall_mem_cons.mpr ⟨hwithin, hall⟩⟩
        dsimp only
        rw [run_bind_pure]
        exact .goesOn hround hcourse hrest

theorem repeats_whileRounds (hexpand : Follows around.inner base limit (depth + 1) expand)
    (condition : String) (body : List String) (rounds left : Nat) (s : Interpreter)
    (hs : s.maxIterations.toNat = limit) (hleft : rounds + left = limit) :
    ∃ bodies, Repeats around base depth condition body rounds s bodies
        ((whileRounds around.limits.called expand condition body left).run s) ∧
      bodies.length ≤ left ∧ ∀ course ∈ bodies, course.Within limit (depth + 1) := by
  have hscope : scope.Holds (evaluateCondition around.limits.called condition) :=
    keeping_evaluateCondition condition
  induction left generalizing rounds s with
  | zero =>
    refine ⟨[], ?_, Nat.le_refl _, List.forall_mem_nil _⟩
    unfold whileRounds
    rw [EStateM.run_bind]
    cases hdecide : (evaluateCondition around.limits.called condition).run s with
    | error e t => exact .undecided hdecide
    | ok holds t =>
      have hmax : t.maxIterations = s.maxIterations := ((hscope s).yields hdecide).maxIterations
      cases holds with
      | false => exact .done hdecide
      | true => exact .limit hdecide (by omega) rfl
  | succ left ih =>
    unfold whileRounds
    rw [EStateM.run_bind]
    cases hdecide : (evaluateCondition around.limits.called condition).run s with
    | error e t => exact ⟨[], .undecided hdecide, Nat.zero_le _, List.forall_mem_nil _⟩
    | ok holds t =>
      have hmax : t.maxIterations = s.maxIterations := ((hscope s).yields hdecide).maxIterations
      cases holds with
      | false => exact ⟨[], .done hdecide, Nat.zero_le _, List.forall_mem_nil _⟩
      | true =>
        -- deciding the condition left the limit alone, so a round is left in its state too
        have ht : t.maxIterations.toNat = limit := by rw [hmax, hs]
        have hround : rounds < t.maxIterations := by omega
        obtain ⟨course, hcourse, hwithin⟩ := hexpand.expands body t ht
        dsimp only
        rw [if_pos rfl, EStateM.run_bind]
        cases hrun : (expand body).run t with
        | error e u =>
          rw [hrun] at hcourse
          exact ⟨[course], .stops hdecide hround hcourse, Nat.succ_le_succ (Nat.zero_le _),
            List.forall_mem_singleton.mpr hwithin⟩
        | ok commands u =>
          rw [hrun] at hcourse
          have hu : u.maxIterations = t.maxIterations :=
            ((hexpand.inScope body t).yields hrun).maxIterations
          obtain ⟨bodies, hrest, hlength, hall⟩ :=
            ih (rounds + 1) u (by rw [hu, ht]) (by omega)
          refine ⟨course :: bodies, ?_, Nat.succ_le_succ hlength,
            List.forall_mem_cons.mpr ⟨hwithin, hall⟩⟩
          dsimp only
          rw [run_bind_pure]
          exact .goesOn hdecide hround hcourse hrest

theorem performs_perform (hexpand : Follows around.inner base limit (depth + 1) expand)
    (task : Task) (s : Interpreter) (hs : s.maxIterations.toNat = limit) :
    ∃ bodies, Performs around base depth task s bodies ((perform around.limits expand task).run s) ∧
      bodies.length ≤ task.blocks limit ∧ ∀ course ∈ bodies, course.Within limit (depth + 1) := by
  cases task with
  | finished commands => exact ⟨[], .finished, Nat.le_refl _, List.forall_mem_nil _⟩
  | once body old =>
    -- giving names back cannot fail, so the block alone decides how this ends
    obtain ⟨course, hcourse, hwithin⟩ := hexpand.expands body s hs
    refine ⟨[course], ?_, Nat.le_refl _, List.forall_mem_singleton.mpr hwithin⟩
    unfold perform
    rw [EStateM.run_bind]
    cases hrun : (expand body).run s with
    | error e t =>
      rw [hrun] at hcourse
      exact .fails hcourse
    | ok commands t =>
      rw [hrun] at hcourse
      simp only [EStateM.run_bind, run_restoreAll]
      exact .once hcourse
  | forEach name values body =>
    obtain ⟨bodies, hrounds, hlength, hall⟩ :=
      iterates_forRounds hexpand name body 0 limit values s hs (Nat.zero_add _)
    refine ⟨bodies, .forEach ?_, hlength, hall⟩
    rw [← hs] at hrounds
    exact hrounds
  | whileHolds condition body =>
    obtain ⟨bodies, hrounds, hlength, hall⟩ :=
      repeats_whileRounds hexpand condition body 0 limit s hs (Nat.zero_add _)
    refine ⟨bodies, .whileHolds ?_, hlength, hall⟩
    rw [← hs] at hrounds
    exact hrounds

/-- The line at a position is handled, and the walk goes on after it and the lines that it took. -/
theorem handles_expandLine (hexpand : Follows around.inner base limit (depth + 1) expand)
    (lines : List String) (position : Nat) (line : String) (s : Interpreter)
    (hs : s.maxIterations.toNat = limit) :
    ∃ bodies, Handles around base depth lines position line s bodies
        (Outcome.map (fun (commands, taken) => (commands, position + 1 + taken))
          ((expandLine around base expand position line (lines.drop (position + 1))).run s)) ∧
      bodies.length ≤ allowance limit (classify line) ∧
      ∀ course ∈ bodies, course.Within limit (depth + 1) := by
  rw [expandLine_eq_perform, EStateM.run_bind]
  cases hread : (prepare around base position line (lines.drop (position + 1))).run s with
  | error e t => exact ⟨[], .unread hread, Nat.zero_le _, List.forall_mem_nil _⟩
  | ok result t =>
    obtain ⟨task, taken⟩ := result
    obtain ⟨hmax, hblocks⟩ := reads_prepare limit around base position line _ s task taken t hread
    obtain ⟨bodies, hperform, hlength, hall⟩ :=
      performs_perform hexpand task t (by rw [hmax, hs])
    refine ⟨bodies, ?_, Nat.le_trans hlength hblocks, hall⟩
    have hhandles := Handles.read hread hperform
    dsimp only
    rw [run_bind_pure]
    cases hrun : (perform around.limits expand task).run t with
    | error e u =>
      rw [hrun] at hhandles
      exact hhandles
    | ok commands u =>
      rw [hrun] at hhandles
      exact hhandles

theorem walks_expandLines (hexpand : Follows around.inner base limit (depth + 1) expand)
    (lines : List String) (position : Nat) (left : List String) (s : Interpreter)
    (hs : s.maxIterations.toNat = limit) (hleft : lines.drop position = left) :
    ∃ visits, Walks around base depth lines position s visits
        ((expandLines around base expand position left).run s) ∧
      ∀ v ∈ visits, v.Within limit depth := by
  fun_induction expandLines around base expand position left generalizing s with
  | case1 position =>
    exact ⟨[], .done (List.drop_eq_nil_iff.mp hleft), List.forall_mem_nil _⟩
  | case2 position raw rest ih =>
    -- the lines left are those from the position on: the first of them is the one to handle
    have hraw : lines[position]? = some raw := by
      rw [← List.head?_drop, hleft]
      rfl
    have hrest : lines.drop (position + 1) = rest := by
      rw [← List.tail_drop, hleft]
      rfl
    obtain ⟨bodies, hhandles, hlength, hall⟩ :=
      handles_expandLine hexpand lines position (Text.trim raw) s hs
    rw [hrest] at hhandles
    rw [EStateM.run_bind]
    cases hrun : (expandLine around base expand position (Text.trim raw) rest).run s with
    | error e t =>
      rw [hrun] at hhandles
      refine ⟨[⟨classify (Text.trim raw), position, none, bodies⟩], .stops hraw hhandles, ?_⟩
      exact List.forall_mem_singleton.mpr (within_visit (by simp) hlength hall)
    | ok result t =>
      obtain ⟨commands, taken⟩ := result
      rw [hrun] at hhandles
      have hmax : t.maxIterations = s.maxIterations :=
        ((scope_expandLine hexpand.inScope around base position _ rest s).yields
          hrun).maxIterations
      obtain ⟨visits, hwalk, hvisits⟩ := ih taken t (by rw [hmax, hs]) (by
        rw [← hrest, List.drop_drop])
      refine ⟨⟨classify (Text.trim raw), position, some (position + 1 + taken), bodies⟩ ::
        visits, ?_, ?_⟩
      · dsimp only
        rw [run_bind_pure]
        exact .goesOn hraw hhandles hwalk
      · refine List.forall_mem_cons.mpr ⟨within_visit ?_ hlength hall, hvisits⟩
        intro next hnext
        have hstep : position + 1 + taken = next := Option.some.inj hnext
        omega

end Steps

/-- Blocks at every depth are expanded by the rules, by induction on the levels left. -/
theorem follows_expandBlock (around : Surroundings) (base : Option Path) (limit : Nat)
    (depth : Int) (levels : Nat) (hlevels : levelsAt depth = levels) :
    Follows around base limit depth (expandBlock around base levels) := by
  refine ⟨scope_expandBlock around base levels, ?_⟩
  unfold levelsAt at hlevels
  -- no level is left exactly where the depth is beyond the greatest one
  induction levels generalizing around depth with
  | zero =>
    intro body s _
    have hdeep : maxDepth < depth := by omega
    exact ⟨.block depth [], .tooDeep hdeep rfl,
      within_block (fun _ => rfl) (List.forall_mem_nil _)⟩
  | succ levels ih =>
    intro body s hs
    have hdepth : depth ≤ maxDepth := by omega
    have hinner : Follows around.inner base limit (depth + 1)
        (expandBlock around.inner base levels) :=
      ⟨scope_expandBlock around.inner base levels, ih around.inner (depth + 1) (by omega)⟩
    obtain ⟨visits, hwalk, hvisits⟩ := walks_expandLines hinner body 0 body s hs List.drop_zero
    exact ⟨.block depth visits, .walked hdepth hwalk, within_block (fun h => by omega) hvisits⟩

theorem run_extractFrom (state : Definition) (lines : List String) (s : Interpreter) :
    ∃ kept t, (extractFrom state lines).run s = .ok kept t ∧ kept.Sublist lines ∧
      t.maxIterations = s.maxIterations := by
  induction lines generalizing state s with
  | nil =>
    cases state with
    | outside => exact ⟨[], s, rfl, .slnil, rfl⟩
    | within name seen nested => exact ⟨[], _, rfl, .slnil, rfl⟩
  | cons raw rest ih =>
    -- a line is kept where it stands outside definitions, and dropped everywhere else
    have hdrop : ∀ state s, ∃ kept t, (extractFrom state rest).run s = .ok kept t ∧
        kept.Sublist (raw :: rest) ∧ t.maxIterations = s.maxIterations := by
      intro state s
      obtain ⟨kept, t, hrun, hsub, hmax⟩ := ih state s
      exact ⟨kept, t, hrun, hsub.cons raw, hmax⟩
    unfold extractFrom
    cases state with
    | outside =>
      dsimp only
      cases definedName? (Text.trim raw) with
      | some name => exact hdrop _ s
      | none =>
        obtain ⟨kept, t, hrun, hsub, hmax⟩ := ih .outside s
        refine ⟨raw :: kept, t, ?_, hsub.cons_cons raw, hmax⟩
        dsimp only
        rw [run_bind_pure, hrun]
        rfl
    | within name seen nested =>
      dsimp only
      split
      · exact hdrop _ s
      · split
        · cases nested with
          | zero => exact hdrop .outside _
          | succ nested => exact hdrop _ s
        · exact hdrop _ s

/-- Every script is expanded to the end, with a result or an error: definitions are taken out of it,
and for the lines that are left there is a finite derivation of what comes of them, whose course is
bounded by the limit on rounds. -/
theorem preprocess_ends (around : Surroundings) (base : Option Path) (lines : List String)
    (s : Interpreter) :
    ∃ kept t course, (extractSubroutines lines).run s = .ok kept t ∧ kept.Sublist lines ∧
      Expands around base 0 kept t course ((preprocess around base lines).run s) ∧
      course.depth = 0 ∧ course.Bounded s.maxIterations.toNat := by
  obtain ⟨kept, t, hextract, hsub, hmax⟩ := run_extractFrom .outside lines s
  obtain ⟨course, hcourse, hdepth, hbounded⟩ :=
    (follows_expandBlock around base s.maxIterations.toNat 0 (levelsAt 0) rfl).expands kept t
      (by rw [hmax])
  have hrun : (preprocess around base lines).run s =
      (expandBlock around base (levelsAt 0) kept).run t := by
    unfold preprocess extractSubroutines
    rw [EStateM.run_bind, hextract]
  rw [← hrun] at hcourse
  exact ⟨kept, t, course, hextract, hsub, hcourse, hdepth, hbounded⟩

end RobotConsole.Script
