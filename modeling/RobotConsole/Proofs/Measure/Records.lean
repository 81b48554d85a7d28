import RobotConsole.Measure.Plateau

/-!
# Records and plateaus

A round sets a record if its value is lower than that of every round before it (`SetsRecord`). The
plateau of a series is found in one walk that keeps two numbers, and what they are is said of the
series alone (`Plateau.Measures`): the least value, and the number of rounds after the first one
that had it. One step of the walk keeps this (`Plateau.Measures.step`), so the whole walk does
(`measures_plateauFrom`). The first round with the least value is the last one that sets a record,
so the second number says how long ago that was (`Plateau.Measures.le_since_iff`).
-/

namespace RobotConsole.Measure

/-- A round sets a record: its value is lower than the values of all rounds before it. -/
def SetsRecord (series : List Int) (round : Nat) : Prop :=
  ∃ value, series[round]? = some value ∧ ∀ earlier ∈ series.take round, value < earlier

/-- None of so many last rounds of a series has set a record. -/
def NoRecordInLast (count : Nat) (series : List Int) : Prop :=
  ∀ round < series.length, series.length ≤ round + count → ¬ SetsRecord series round

/-- What a plateau says of a series: its least value, and the number of values after the first place
where that one stands. -/
structure Plateau.Measures (p : Plateau) (series : List Int) : Prop where
  least : ∀ value ∈ series, p.best ≤ value
  first : ∃ front back, series = front ++ p.best :: back ∧ p.best ∉ front ∧ p.since = back.length

namespace Plateau.Measures

variable {p : Plateau} {series : List Int}

theorem single (value : Int) : Measures ⟨value, 0⟩ [value] where
  least := by simp
  first := ⟨[], [], rfl, by simp, rfl⟩

/-- One more round is taken into account. An equal value counts as one more round without a new
best. -/
theorem step (h : p.Measures series) (value : Int) :
    (p.step value).Measures (series ++ [value]) := by
  obtain ⟨front, back, hseries, hfront, hsince⟩ := h.first
  unfold Plateau.step
  split
  · rename_i hlower
    refine ⟨fun v hv => ?_, series, [], rfl, fun hmem => ?_, rfl⟩
    · rcases List.mem_append.mp hv with hv | hv
      · exact Int.le_trans (Int.le_of_lt hlower) (h.least v hv)
      · exact Int.le_of_eq (List.mem_singleton.mp hv).symm
    · exact Int.not_lt.mpr (h.least value hmem) hlower
  · rename_i hnot
    refine ⟨fun v hv => ?_, front, back ++ [value], ?_, hfront, ?_⟩
    · rcases List.mem_append.mp hv with hv | hv
      · exact h.least v hv
      · rw [List.mem_singleton.mp hv]
        exact Int.not_lt.mp hnot
    · rw [hseries, List.append_assoc, List.cons_append]
    · rw [List.length_append, ← hsince]
      rfl

theorem foldl (h : p.Measures series) (rest : List Int) :
    (rest.foldl Plateau.step p).Measures (series ++ rest) := by
  induction rest generalizing p series with
  | nil => rwa [List.append_nil]
  | cons value rest ih =>
    have hnext := ih (h.step value)
    rwa [List.append_assoc] at hnext

theorem since_add_idxOf (h : p.Measures series) :
    p.since + series.idxOf p.best + 1 = series.length := by
  obtain ⟨front, back, rfl, hfront, hsince⟩ := h.first
  rw [hsince, List.idxOf_append, if_neg hfront, List.idxOf_cons_self, List.length_append,
    List.length_cons]
  omega

/-- A series has one least value and one first place where it stands. -/
theorem unique {q : Plateau} (h : p.Measures series) (h' : q.Measures series) : p = q := by
  have hmem {r : Plateau} (hr : r.Measures series) : r.best ∈ series := by
    obtain ⟨front, back, hseries, -⟩ := hr.first
    simp [hseries]
  have hbest : p.best = q.best := Int.le_antisymm (h.least _ (hmem h')) (h'.least _ (hmem h))
  have hsince : p.since = q.since := by
    have hplace := h.since_add_idxOf
    rw [← h'.since_add_idxOf, hbest] at hplace
    omega
  cases p
  cases q
  rw [Plateau.mk.injEq]
  exact ⟨hbest, hsince⟩

/-- There have been so many rounds since the best one exactly if none of as many last rounds has set
a record. -/
theorem le_since_iff (h : p.Measures series) (count : Nat) :
    count ≤ p.since ↔ NoRecordInLast count series := by
  obtain ⟨front, back, hseries, hfront, hsince⟩ := h.first
  have hlength : series.length = front.length + (back.length + 1) := by
    rw [hseries, List.length_append, List.length_cons]
  constructor
  · -- the best value stands before each of the last rounds, and is not higher
    rintro hcount round - hlast ⟨value, hvalue, hrecord⟩
    have hbest : p.best ∈ series.take round := by
      rw [hseries, List.take_append]
      refine List.mem_append_right _ ?_
      rw [List.take_cons (by omega)]
      exact List.mem_cons_self
    exact Int.not_lt.mpr (h.least value (List.mem_of_getElem? hvalue)) (hrecord p.best hbest)
  · -- the first round with the best value sets a record, so it is none of the last ones
    intro hnone
    refine Nat.not_lt.mp fun hfew => hnone front.length (by omega) (by omega) ?_
    refine ⟨p.best, by simp [hseries], fun earlier hmem => ?_⟩
    replace hmem : earlier ∈ front := by simpa [hseries] using hmem
    have hle : p.best ≤ earlier := h.least earlier (hseries ▸ List.mem_append_left _ hmem)
    exact Int.lt_iff_le_and_ne.mpr ⟨hle, fun heq => hfront (heq ▸ hmem)⟩

end Plateau.Measures

/-- The walk over a series ends with what the plateau is to measure. -/
theorem measures_plateauFrom (first : Int) (rest : List Int) :
    (plateauFrom first rest).Measures (first :: rest) :=
  (Plateau.Measures.single first).foldl rest

theorem exists_plateau {series : List Int} (h : series ≠ []) :
    ∃ p, plateau? series = some p ∧ p.Measures series := by
  obtain ⟨first, rest, rfl⟩ := List.exists_cons_of_ne_nil h
  exact ⟨plateauFrom first rest, rfl, measures_plateauFrom first rest⟩

end RobotConsole.Measure
