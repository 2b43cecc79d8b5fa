import Mathlib.Algebra.Order.Archimedean.Basic
import Mathlib.Tactic.Linarith

/-! # Multiples of a step

    A range rounded outward to whole multiples of a step, and the multiples
    between its ends.  Each end moves by less than one step, so rounding adds
    fewer than two intervals (`intervals_lt`). -/

namespace StepGrid

variable {K : Type*} [Field K] {step start low high x : K} {n : Nat}

/-- A whole multiple of the step. -/
def OnGrid (step x : K) : Prop := ∃ k : Int, x = k * step

/-- The point `start` and `n` more, each a step above the one before. -/
def points (start step : K) (n : Nat) : List K :=
  (List.range (n + 1)).map (fun i : Nat => start + (i : K) * step)

/-! ## The points of an axis -/

theorem mem_points : x ∈ points start step n ↔ ∃ i : Nat, i ≤ n ∧ x = start + (i : K) * step := by
  rw [points, List.mem_map]
  constructor
  · rintro ⟨i, hi, rfl⟩
    exact ⟨i, Nat.lt_succ_iff.mp (List.mem_range.mp hi), rfl⟩
  · rintro ⟨i, hi, rfl⟩
    exact ⟨i, List.mem_range.mpr (Nat.lt_succ_of_le hi), rfl⟩

theorem head?_points : (points start step n).head? = some start := by
  rw [points, List.range_succ_eq_map, List.map_cons, List.head?_cons, Nat.cast_zero, zero_mul,
    add_zero]

/-- The last one is `n` steps from it. -/
theorem getLast?_points :
    (points start step n).getLast? = some (start + (n : K) * step) := by
  rw [points, List.range_succ, List.map_append, List.map_singleton, List.getLast?_concat]

section Order

variable [LinearOrder K] [IsStrictOrderedRing K]

theorem pairwise_points (hstep : 0 < step) : (points start step n).Pairwise (· < ·) := by
  rw [points, List.pairwise_map]
  refine List.pairwise_lt_range.imp (fun {i j} hij => ?_)
  have hcast : (i : K) < (j : K) := by exact_mod_cast hij
  have hmul : (i : K) * step < (j : K) * step := mul_lt_mul_of_pos_right hcast hstep
  linarith

theorem le_of_mem_points (hstep : 0 ≤ step) (hx : x ∈ points start step n) :
    start ≤ x ∧ x ≤ start + (n : K) * step := by
  obtain ⟨i, hi, rfl⟩ := mem_points.mp hx
  have hcast : (i : K) ≤ (n : K) := by exact_mod_cast hi
  have hlow : 0 ≤ (i : K) * step := mul_nonneg (Nat.cast_nonneg i) hstep
  have hhigh : (i : K) * step ≤ (n : K) * step := mul_le_mul_of_nonneg_right hcast hstep
  constructor
  · linarith
  · linarith

end Order

/-! ## Rounding outward -/

section Rounding

variable [LinearOrder K] [FloorRing K]

/-- The greatest multiple of the step that is not above `x`. -/
def roundDown (step x : K) : K := (⌊x / step⌋ : K) * step

/-- The least multiple of the step that is not below `x`. -/
def roundUp (step x : K) : K := (⌈x / step⌉ : K) * step

/-- How many steps lie between the rounded ends of a range. -/
def intervals (step low high : K) : Int := ⌈high / step⌉ - ⌊low / step⌋

/-- Rounding down gives a point of the grid. -/
theorem onGrid_roundDown (step x : K) : OnGrid step (roundDown step x) := ⟨_, rfl⟩

/-- Rounding up gives a point of the grid. -/
theorem onGrid_roundUp (step x : K) : OnGrid step (roundUp step x) := ⟨_, rfl⟩

/-- From end to end it is a whole number of steps. -/
theorem roundUp_eq (step low high : K) :
    roundUp step high = roundDown step low + (intervals step low high : K) * step := by
  rw [roundUp, roundDown, intervals]
  push_cast
  ring

variable [IsStrictOrderedRing K]

/-- Rounding down does not go up. -/
theorem roundDown_le (hstep : 0 < step) (x : K) : roundDown step x ≤ x :=
  (le_div_iff₀ hstep).mp (Int.floor_le (x / step))

/-- Rounding up does not go down. -/
theorem le_roundUp (hstep : 0 < step) (x : K) : x ≤ roundUp step x :=
  (div_le_iff₀ hstep).mp (Int.le_ceil (x / step))

/-- Rounding up goes less than a step. -/
theorem roundUp_lt (hstep : 0 < step) (x : K) : roundUp step x < x + step := by
  have hceil : (⌈x / step⌉ : K) < x / step + 1 := Int.ceil_lt_add_one _
  calc roundUp step x < (x / step + 1) * step := mul_lt_mul_of_pos_right hceil hstep
    _ = x + step := by rw [add_mul, div_mul_cancel₀ _ hstep.ne', one_mul]

/-- Rounding down does not go below zero from above it. -/
theorem roundDown_nonneg (hstep : 0 < step) (hx : 0 ≤ x) : 0 ≤ roundDown step x := by
  have hfloor : 0 ≤ ⌊x / step⌋ := Int.floor_nonneg.mpr (div_nonneg hx hstep.le)
  exact mul_nonneg (by exact_mod_cast hfloor) hstep.le

/-- A range with two ends is at least one interval wide. -/
theorem intervals_pos (hstep : 0 < step) (hlow : low < high) :
    1 ≤ intervals step low high := by
  have hdiv : low / step < high / step := div_lt_div_of_pos_right hlow hstep
  have hlt : (⌊low / step⌋ : K) < (⌈high / step⌉ : K) :=
    lt_of_le_of_lt (Int.floor_le _) (lt_of_lt_of_le hdiv (Int.le_ceil _))
  have hint : ⌊low / step⌋ < ⌈high / step⌉ := by exact_mod_cast hlt
  rw [intervals]
  omega

/-- **Rounding outward adds fewer than two intervals.** -/
theorem intervals_lt (step low high : K) :
    (intervals step low high : K) < (high - low) / step + 2 := by
  have hceil : (⌈high / step⌉ : K) < high / step + 1 := Int.ceil_lt_add_one _
  have hfloor : low / step < (⌊low / step⌋ : K) + 1 := Int.lt_floor_add_one _
  rw [intervals, sub_div]
  push_cast
  linarith

/-- A range of `t` steps is covered by one more at the most. -/
theorem intervals_le (hstep : 0 < step) {t : Int} (h : high - low ≤ (t : K) * step) :
    intervals step low high ≤ t + 1 := by
  have hdiv : (high - low) / step ≤ (t : K) := (div_le_iff₀ hstep).mpr h
  have hlt : (intervals step low high : K) < ((t + 2 : Int) : K) := by
    refine lt_of_lt_of_le (intervals_lt step low high) ?_
    push_cast
    linarith
  have hint : intervals step low high < t + 2 := by exact_mod_cast hlt
  omega

end Rounding

end StepGrid
