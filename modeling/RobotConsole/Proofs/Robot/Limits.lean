import RobotConsole.Robot.Screen
import RobotConsole.Robot.Sound

/-!
# The limits of the actuators

Volume, head angle, speech and font sizes have limits, and what is asked for is brought into them
before it goes out. Bringing a number between two bounds gives a number between them, whatever the
number was, and also when it was none at all (`Number.within_clamp`). `Event.InRange` says of an
event that it keeps the limits.
-/

namespace RobotConsole

namespace Number

/-- Whether a whole number is at most a double. -/
def intAtMost (n : Int) (x : Float) : Bool :=
  if x.isNaN then false
  else if x.isInf then 0.0 < x
  else
    let (num, den) := exactRatio x
    n * den ≤ num

/-- Whether a double is at most a whole number. -/
def realAtMost (x : Float) (n : Int) : Bool :=
  if x.isNaN then false
  else if x.isInf then x < 0.0
  else
    let (num, den) := exactRatio x
    num ≤ n * den

/-- Whether a number is at most another. What is no number is at most none, and none is at most
it. -/
def atMost (a b : Number) : Bool :=
  match a, b with
  | .real x, .real y => x ≤ y
  | .real x, b => (b.whole?.map (realAtMost x)).getD false
  | a, .real y => (a.whole?.map (intAtMost · y)).getD false
  | a, b => a.whole?.getD 0 ≤ b.whole?.getD 0

/-- A number between two bounds, each of them included. -/
structure Within (a low high : Number) : Prop where
  low : low.atMost a = true
  high : a.atMost high = true

theorem float_le_of_lt {x y : Float} (h : x < y) : x ≤ y := by
  have hlt : x.toModel.unpack.compare y.toModel.unpack = some .lt :=
    beq_iff_eq.mp (of_decide_eq_true h)
  refine decide_eq_true ?_
  show (x.toModel.unpack.compare y.toModel.unpack).any Ordering.isLE = true
  rw [hlt]
  rfl

theorem isFinite_plain {x : Float} (h : x.isFinite = true) :
    x.isNaN = false ∧ x.isInf = false := by
  change x.toModel.unpack.isFinite = true at h
  show x.toModel.unpack.isNaN = false ∧ x.toModel.unpack.isInf = false
  cases hx : x.toModel.unpack with
  | zero | finite => exact ⟨rfl, rfl⟩
  | infinity | notANumber => rw [hx] at h; cases h

theorem intAtMost_of_intBelow {n : Int} {x : Float} (h : intBelow n x = true) :
    intAtMost n x = true := by
  unfold intBelow at h
  unfold intAtMost
  by_cases hnan : x.isNaN = true
  · rw [if_pos hnan] at h
    cases h
  rw [if_neg hnan] at h ⊢
  by_cases hinf : x.isInf = true
  · rwa [if_pos hinf] at h ⊢
  · rw [if_neg hinf] at h ⊢
    exact decide_eq_true (Int.le_of_lt (of_decide_eq_true h))

theorem realAtMost_of_realBelow {x : Float} {n : Int} (h : realBelow x n = true) :
    realAtMost x n = true := by
  unfold realBelow at h
  unfold realAtMost
  by_cases hnan : x.isNaN = true
  · rw [if_pos hnan] at h
    cases h
  rw [if_neg hnan] at h ⊢
  by_cases hinf : x.isInf = true
  · rwa [if_pos hinf] at h ⊢
  · rw [if_neg hinf] at h ⊢
    exact decide_eq_true (Int.le_of_lt (of_decide_eq_true h))

theorem atMost_of_below {a b : Number} (h : a.below b = true) : a.atMost b = true := by
  cases a with
  | real x =>
    cases b with
    | real y => exact decide_eq_true (float_le_of_lt (of_decide_eq_true h))
    | truth _ | int _ => exact realAtMost_of_realBelow h
  | truth _ | int _ =>
    cases b with
    | real y => exact intAtMost_of_intBelow h
    | truth _ | int _ => exact decide_eq_true (Int.le_of_lt (of_decide_eq_true h))

/-- What is brought between two bounds is between them. The comparisons are made the way round that
no number at all gives the upper bound. -/
theorem within_clamp {low high : Number} (hlow : low.Within low high)
    (hhigh : high.Within low high) (a : Number) : (clamp low high a).Within low high := by
  unfold clamp greatest least
  by_cases ha : a.below high = true
  · rw [if_pos ha]
    split
    · rename_i hbelow
      exact ⟨atMost_of_below hbelow, atMost_of_below ha⟩
    · exact hlow
  · rw [if_neg ha]
    split
    · exact hhigh
    · exact hlow

/-- The whole part of a finite double is the quotient that it is, rounded toward zero. -/
theorem truncate_eq_tdiv (x : Float) :
    Decimal.truncate x = (exactRatio x).1.tdiv (exactRatio x).2 := by
  unfold Decimal.truncate exactRatio
  obtain ⟨num, den⟩ := (Decimal.magnitude x).ratio
  dsimp only
  split
  · rw [Int.neg_tdiv, Int.ofNat_tdiv]
  · rw [Int.ofNat_tdiv]

/-- Toward zero, the whole part of a double does not leave a range that starts at zero. -/
theorem truncate_within {high : Nat} {x : Float} (hfinite : x.isFinite = true)
    (hlow : intAtMost 0 x = true) (hhigh : realAtMost x high = true) :
    0 ≤ Decimal.truncate x ∧ Decimal.truncate x ≤ high := by
  obtain ⟨hnan, hinf⟩ := isFinite_plain hfinite
  unfold intAtMost at hlow
  unfold realAtMost at hhigh
  rw [if_neg (ne_true_of_eq_false hnan), if_neg (ne_true_of_eq_false hinf)] at hlow hhigh
  rw [truncate_eq_tdiv]
  have hnum : 0 ≤ (exactRatio x).1 := by simpa using hlow
  have hle : (exactRatio x).1 ≤ high * (exactRatio x).2 := of_decide_eq_true hhigh
  refine ⟨Int.tdiv_nonneg hnum (Int.natCast_nonneg _), ?_⟩
  rw [Int.tdiv_eq_ediv_of_nonneg hnum]
  by_cases hden : (exactRatio x).2 = 0
  · simp [hden]
  · exact Int.ediv_le_of_le_mul (by omega) hle

/-- The whole part of a number from zero up to a whole bound is in the same range. -/
theorem toInt_within {high : Nat} {a : Number} {n : Int} (ha : a.Within (.int 0) (.int high))
    (h : a.toInt = .ok n) : 0 ≤ n ∧ n ≤ high := by
  cases a with
  | truth b =>
    cases h
    exact ⟨of_decide_eq_true ha.low, of_decide_eq_true ha.high⟩
  | int n =>
    cases h
    exact ⟨of_decide_eq_true ha.low, of_decide_eq_true ha.high⟩
  | real x =>
    by_cases hfinite : x.isFinite = true
    · simp only [toInt, if_pos hfinite, Except.ok.injEq] at h
      subst h
      exact truncate_within hfinite ha.low ha.high
    · simp only [toInt, if_neg hfinite] at h
      cases h

end Number

namespace Robot

/-- A text drawn with a font is drawn at a size that fits the screen. -/
def Drawing.InRange : Drawing → Prop
  | .text _ _ _ (some font) => font.size.Within (.int 8) (.int 24)
  | _ => True

/-- The head is only turned to where its joint reaches, and pictures are drawn in range. -/
def Request.InRange : Request → Prop
  | .setHeadAngle angle => angle.Within (.real (-0.44)) (.real 0.78)
  | .displayImage picture => ∀ drawing ∈ picture, drawing.InRange
  | _ => True

/-- The volume is a number of sixteen bits. -/
def Packet.InRange : Packet → Prop
  | .setVolume level => 0 ≤ level ∧ level ≤ 65535
  | _ => True

/-- The command that makes a speech. -/
def speechCommand (voice : String) (speed pitch amplitude : Number) (file text : String) :
    List String :=
  [speechTool, "-v", voice, "-s", speed.plain, "-p", pitch.plain, "-a", amplitude.plain, "-w", file,
    text]

/-- The speech tool is only run with a speed, a pitch and an amplitude that it takes. -/
def ToolInRange (command : List String) : Prop :=
  command.head? = some speechTool → ∃ voice speed pitch amplitude file text,
    command = speechCommand voice speed pitch amplitude file text ∧
      speed.Within (.int 80) (.int 450) ∧ pitch.Within (.int 0) (.int 99) ∧
      amplitude.Within (.int 0) (.int 200)

/-- An event that keeps the limits of the actuators. -/
def Event.InRange : Event → Prop
  | .call _ r => r.InRange
  | .send _ packet => packet.InRange
  | .run command => ToolInRange command
  | _ => True

theorem setVolume_inRange {level : Number} {n : Int}
    (h : (Number.clamp (.int 0) (.int 65535) level).toInt = .ok n) :
    (Packet.setVolume n).InRange :=
  Number.toInt_within
    (Number.within_clamp ⟨by decide, by decide⟩ ⟨by decide, by decide⟩ level) h

theorem setHeadAngle_inRange (angle : Number) :
    (Request.setHeadAngle (Number.clamp (.real (-0.44)) (.real 0.78) angle)).InRange :=
  Number.within_clamp ⟨by decide, by decide⟩ ⟨by decide, by decide⟩ angle

theorem raisedHead_inRange : (Request.setHeadAngle (.real 0.17)).InRange :=
  ⟨by decide, by decide⟩

theorem fontSize_within (size : Number) :
    (Number.clamp (.int 8) (.int 24) size).Within (.int 8) (.int 24) :=
  Number.within_clamp ⟨by decide, by decide⟩ ⟨by decide, by decide⟩ size

theorem speechCommand_inRange (speech : Speech) (file : String) :
    ToolInRange (speechCommand speech.voice (Number.clamp (.int 80) (.int 450) speech.speed)
      (Number.clamp (.int 0) (.int 99) speech.pitch)
      (Number.clamp (.int 0) (.int 200) speech.amplitude) file speech.text) :=
  fun _ => ⟨_, _, _, _, _, _, rfl,
    Number.within_clamp ⟨by decide, by decide⟩ ⟨by decide, by decide⟩ speech.speed,
    Number.within_clamp ⟨by decide, by decide⟩ ⟨by decide, by decide⟩ speech.pitch,
    Number.within_clamp ⟨by decide, by decide⟩ ⟨by decide, by decide⟩ speech.amplitude⟩

theorem toolInRange_of_head {program : String} {rest : List String} (h : program ≠ speechTool) :
    ToolInRange (program :: rest) :=
  fun hhead => absurd (Option.some.inj hhead) h

@[simp] theorem plainLine_inRange (x y : Int) (text : String) : (plainLine x y text).InRange :=
  trivial

theorem batteryPicture_inRange {percent : Number} {picture : Picture}
    (h : batteryPicture percent = .ok picture) : (Request.displayImage picture).InRange := by
  unfold batteryPicture at h
  simp only [bind, Except.bind, pure, Except.pure] at h
  split at h
  · cases h
  split at h
  · cases h
  split at h
  · cases h
  cases h
  have hlevel (width : Int) : ∀ drawing ∈
      (if 0 < width then [.box 12 10 (12 + width) 22] else [] : Picture), drawing.InRange := by
    split <;> simp [Drawing.InRange]
  intro drawing hdrawing
  simp only [List.mem_append, List.mem_cons, List.not_mem_nil, or_false] at hdrawing
  rcases hdrawing with ((rfl | rfl) | hdrawing) | rfl
  · trivial
  · trivial
  · exact hlevel _ drawing hdrawing
  · trivial

end Robot

end RobotConsole
