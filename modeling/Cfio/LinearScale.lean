import Mathlib.Algebra.Order.Field.Basic
import Mathlib.Tactic.Linarith

/-! # Values on a scale

    `clamp` moves a value into an interval.  `ratio lo hi` says how far between two ends a value
    is: 0 at the one and below it, 1 at the other and above, and in between in proportion
    (`ratio_of_mem`), so that the order of values is kept (`ratio_mono`). -/

namespace LinearScale

/-! ## Clamping -/

section Clamp

variable {α : Type*} [LinearOrder α] {v w lo hi : α}

/-- Into an interval: its lower end for what is below, its upper end for what is above. -/
def clamp {α : Type*} [LT α] [DecidableLT α] (v lo hi : α) : α :=
  if v < lo then lo else if hi < v then hi else v

/-- A clamped value lies between the bounds. -/
theorem clamp_mem (h : lo ≤ hi) (v : α) : lo ≤ clamp v lo hi ∧ clamp v lo hi ≤ hi := by
  rw [clamp]
  split
  · exact ⟨le_refl lo, h⟩
  next hlo =>
    split
    · exact ⟨h, le_refl hi⟩
    next hhi => exact ⟨not_lt.mp hlo, not_lt.mp hhi⟩

theorem clamp_of_mem (hlo : lo ≤ v) (hhi : v ≤ hi) : clamp v lo hi = v := by
  rw [clamp, if_neg (not_lt.mpr hlo), if_neg (not_lt.mpr hhi)]

theorem clamp_of_le (h : lo ≤ hi) (hhi : hi ≤ v) : clamp v lo hi = hi := by
  rw [clamp, if_neg (not_lt.mpr (h.trans hhi))]
  split
  · rfl
  next hno => exact le_antisymm (not_lt.mp hno) hhi

theorem clamp_mono (h : lo ≤ hi) (hvw : v ≤ w) : clamp v lo hi ≤ clamp w lo hi := by
  rcases lt_or_ge v lo with hv | hv
  · rw [clamp, if_pos hv]
    exact (clamp_mem h w).1
  · rcases lt_or_ge hi w with hw | hw
    · rw [clamp_of_le h hw.le]
      exact (clamp_mem h v).2
    · rw [clamp_of_mem hv (hvw.trans hw), clamp_of_mem (hv.trans hvw) hw]
      exact hvw

end Clamp

/-! ## Ratios -/

section Ratio

variable {K : Type*} [Field K] [LinearOrder K] [IsStrictOrderedRing K] {v w lo hi : K}

/-- How far a value is between two ends. -/
def ratio (lo hi v : K) : K := clamp ((v - lo) / (hi - lo)) 0 1

/-- A ratio is a part of the whole. -/
theorem ratio_mem (lo hi v : K) : 0 ≤ ratio lo hi v ∧ ratio lo hi v ≤ 1 := clamp_mem zero_le_one _

theorem ratio_mono (h : lo < hi) (hvw : v ≤ w) : ratio lo hi v ≤ ratio lo hi w := by
  refine clamp_mono zero_le_one (div_le_div_of_nonneg_right ?_ (sub_pos.mpr h).le)
  exact sub_le_sub_right hvw lo

/-- Between the ends, in proportion. -/
theorem ratio_of_mem (h : lo < hi) (hlo : lo ≤ v) (hhi : v ≤ hi) :
    ratio lo hi v = (v - lo) / (hi - lo) := by
  have hspan := sub_pos.mpr h
  refine clamp_of_mem (div_nonneg (sub_nonneg.mpr hlo) hspan.le) ?_
  rw [div_le_one hspan]
  exact sub_le_sub_right hhi lo

theorem ratio_of_le (h : lo < hi) (hhi : hi ≤ v) : ratio lo hi v = 1 := by
  refine clamp_of_le zero_le_one ?_
  rw [one_le_div (sub_pos.mpr h)]
  exact sub_le_sub_right hhi lo

/-- From zero up: in proportion, and cut off at the upper end. -/
theorem ratio_zero (h : 0 < hi) (hv : 0 ≤ v) : ratio 0 hi v = min v hi / hi := by
  rcases le_total v hi with hle | hle
  · rw [ratio_of_mem h hv hle, min_eq_left hle, sub_zero, sub_zero]
  · rw [ratio_of_le h hle, min_eq_right hle, div_self h.ne']

end Ratio

end LinearScale
