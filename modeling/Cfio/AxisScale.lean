import Mathlib.Analysis.SpecialFunctions.Log.Base
import Mathlib.Data.Rat.Floor
import Cfio.StepGrid

/-! # The scale of a chart axis

    `MakeAxisScale` rounds a data range outward to multiples of a step of 1, 2 or 5
    times a power of ten.  The code computes with `double`; here the arithmetic,
    `log10`, `pow` and `floor` included, is exact, so every value is finite. -/

namespace CfioChart

open StepGrid

/-! ## Scales -/

/-- Rounded value range of one axis. -/
structure AxisScale where
  min : ℚ := 0
  max : ℚ := 1
  tickStep : ℚ := 1
  deriving DecidableEq, Repr

def kDefaultTickCount : Int := 5

def kMaxTicks : Int := 64

def kTickEpsilon : ℚ := 1 / 1000000000

/-- The factor of the power of ten, from the leading digits of the wanted step. -/
def niceFactor (fraction : ℚ) : ℚ :=
  if fraction ≤ 1 then 1
  else if fraction ≤ 2 then 2
  else if fraction ≤ 5 then 5
  else 10

/-- Pick a round tick distance of 1, 2 or 5 times a power of ten. -/
def niceTickStep (range : ℚ) (targetTicks : Int) : ℚ :=
  if range ≤ 0 then 1
  else
    let ticks := if targetTicks > 0 then targetTicks else kDefaultTickCount
    let raw := range / (ticks : ℚ)
    let exponent := Int.log 10 raw
    let power := (10 : ℚ) ^ exponent
    niceFactor (raw / power) * power

/-- The range that is rounded: in order, and widened when it is a single value. -/
def axisRange (minValue maxValue : ℚ) : ℚ × ℚ :=
  let (low, high) :=
    if maxValue < minValue then (maxValue, minValue) else (minValue, maxValue)
  if high ≤ low then (min low 0, if high > 0 then high else 1) else (low, high)

/-- Round a value range outwards to whole ticks. -/
def makeAxisScale (minValue maxValue : ℚ) (targetTicks : Int) : AxisScale :=
  let (low, high) := axisRange minValue maxValue
  let step := niceTickStep (high - low) targetTicks
  let scale : AxisScale :=
    { tickStep := step, min := ⌊low / step⌋ * step, max := ⌈high / step⌉ * step }
  if scale.max - scale.min < step then { scale with max := scale.min + step } else scale

/-- List every tick value of a scale. -/
def axisTicks (scale : AxisScale) : List ℚ :=
  if scale.tickStep ≤ 0 ∨ scale.max < scale.min then []
  else
    let span := scale.max - scale.min
    let count := ⌊span / scale.tickStep + kTickEpsilon⌋
    let limit := min count kMaxTicks
    (List.range (limit.toNat + 1)).map (fun i : Nat => scale.min + (i : ℚ) * scale.tickStep)

/-- The exponent is the integer part of the decimal logarithm. -/
theorem log_eq_floor_logb {raw : ℚ} (hraw : 0 < raw) :
    Int.log 10 raw = ⌊Real.logb (10 : Nat) (raw : ℝ)⌋ := by
  have hreal : (0 : ℝ) < (raw : ℝ) := by exact_mod_cast hraw
  rw [Real.floor_logb_natCast hreal.le]
  refine eq_of_forall_le_iff (fun z => ?_)
  rw [← Int.zpow_le_iff_le_log (by decide) hraw, ← Int.zpow_le_iff_le_log (by decide) hreal]
  rw [← Rat.cast_le (K := ℝ)]
  push_cast
  exact Iff.rfl

/-! ## The step -/

/-- 1, 2, 5 or 10 times a power of ten. -/
def IsNice (step : ℚ) : Prop :=
  ∃ factor ∈ [(1 : ℚ), 2, 5, 10], ∃ exponent : Int, step = factor * 10 ^ exponent

section Step

variable {range step fraction raw : ℚ} {t : Int}

theorem niceFactor_mem (fraction : ℚ) : niceFactor fraction ∈ [(1 : ℚ), 2, 5, 10] := by
  rw [niceFactor]
  split_ifs <;> simp

/-- The factor covers the leading digits and is less than two and a half times as large. -/
theorem le_niceFactor (hlow : 1 ≤ fraction) (hhigh : fraction < 10) :
    fraction ≤ niceFactor fraction ∧ niceFactor fraction < 5 / 2 * fraction := by
  rw [niceFactor]
  split_ifs with h1 h2 h5
  · constructor <;> linarith
  · constructor <;> linarith
  · constructor <;> linarith
  · constructor <;> linarith

/-- A nice step is positive. -/
theorem IsNice.pos (h : IsNice step) : 0 < step := by
  obtain ⟨factor, hfactor, exponent, rfl⟩ := h
  have hpower : (0 : ℚ) < 10 ^ exponent := by positivity
  simp only [List.mem_cons, List.not_mem_nil, or_false] at hfactor
  rcases hfactor with rfl | rfl | rfl | rfl <;> positivity

/-- A round step is at most one half, or a whole number. -/
theorem IsNice.half_or_natCast (h : IsNice step) :
    step ≤ 1 / 2 ∨ ∃ n : Nat, 1 ≤ n ∧ step = n := by
  obtain ⟨factor, hfactor, exponent, rfl⟩ := h
  simp only [List.mem_cons, List.not_mem_nil, or_false] at hfactor
  rcases lt_trichotomy exponent (-1) with hfine | rfl | hcoarse
  · left
    have hpower : (10 : ℚ) ^ exponent ≤ 1 / 100 :=
      calc (10 : ℚ) ^ exponent ≤ 10 ^ (-2 : Int) :=
            zpow_le_zpow_right₀ (by norm_num) (by omega)
        _ = 1 / 100 := by norm_num
    rcases hfactor with rfl | rfl | rfl | rfl <;> linarith
  · have htenth : (10 : ℚ) ^ (-1 : Int) = 1 / 10 := by norm_num
    rw [htenth]
    rcases hfactor with rfl | rfl | rfl | rfl
    · left; norm_num
    · left; norm_num
    · left; norm_num
    · exact Or.inr ⟨1, le_refl _, by norm_num⟩
  · right
    obtain ⟨k, rfl⟩ := Int.eq_ofNat_of_zero_le (show 0 ≤ exponent by omega)
    have hpower : 1 ≤ 10 ^ k := Nat.one_le_pow _ _ (by decide)
    rcases hfactor with rfl | rfl | rfl | rfl
    · exact ⟨1 * 10 ^ k, by omega, by push_cast; rw [zpow_natCast]⟩
    · exact ⟨2 * 10 ^ k, by omega, by push_cast; rw [zpow_natCast]⟩
    · exact ⟨5 * 10 ^ k, by omega, by push_cast; rw [zpow_natCast]⟩
    · exact ⟨10 * 10 ^ k, by omega, by push_cast; rw [zpow_natCast]⟩

/-- A nice step below one is a half at the most. -/
theorem IsNice.le_half (h : IsNice step) (hlt : step < 1) : step ≤ 1 / 2 := by
  rcases h.half_or_natCast with hhalf | ⟨n, hn, rfl⟩
  · exact hhalf
  · have hone : (1 : ℚ) ≤ (n : ℚ) := by exact_mod_cast hn
    linarith

/-- A nice step above a half is a whole number. -/
theorem IsNice.exists_natCast (h : IsNice step) (hlt : 1 / 2 < step) :
    ∃ n : Nat, 1 ≤ n ∧ step = n := by
  rcases h.half_or_natCast with hhalf | hwhole
  · exact absurd hlt (not_lt.mpr hhalf)
  · exact hwhole

/-- The step that is chosen is nice. -/
theorem isNice_niceTickStep (range : ℚ) (t : Int) : IsNice (niceTickStep range t) := by
  rw [niceTickStep]
  split
  · exact ⟨1, by simp, 0, by norm_num⟩
  · exact ⟨_, niceFactor_mem _, _, rfl⟩

/-- **The step is between the wanted one and two and a half times that.** -/
theorem niceTickStep_bounds (hrange : 0 < range) (ht : 1 ≤ t) :
    range / t ≤ niceTickStep range t ∧ niceTickStep range t < 5 / 2 * (range / t) := by
  have htarget : (0 : ℚ) < (t : ℚ) := by exact_mod_cast (show 0 < t by omega)
  have hraw : 0 < range / (t : ℚ) := div_pos hrange htarget
  rw [niceTickStep, if_neg (not_le.mpr hrange)]
  simp only [if_pos (show t > 0 by omega)]
  generalize range / (t : ℚ) = raw at hraw ⊢
  have hlow : (10 : ℚ) ^ Int.log 10 raw ≤ raw := by
    exact_mod_cast Int.zpow_log_le_self (by decide : 1 < 10) hraw
  have hhigh : raw < (10 : ℚ) ^ Int.log 10 raw * 10 := by
    rw [← zpow_add_one₀ (by norm_num)]
    exact_mod_cast Int.lt_zpow_succ_log_self (by decide : 1 < 10) raw
  have hpower : (0 : ℚ) < 10 ^ Int.log 10 raw := by positivity
  generalize (10 : ℚ) ^ Int.log 10 raw = power at hlow hhigh hpower ⊢
  have hone : 1 ≤ raw / power := (one_le_div hpower).mpr hlow
  have hten : raw / power < 10 := (div_lt_iff₀' hpower).mpr hhigh
  obtain ⟨hle, hlt⟩ := le_niceFactor hone hten
  constructor
  · exact (div_le_iff₀ hpower).mp hle
  · calc niceFactor (raw / power) * power
        < 5 / 2 * (raw / power) * power := mul_lt_mul_of_pos_right hlt hpower
      _ = 5 / 2 * raw := by rw [mul_assoc, div_mul_cancel₀ _ hpower.ne']

end Step

/-! ## The rounded range -/

section Range

variable {low high step : ℚ} {t : Int}

/-- The range that is rounded has two ends and both inputs between them. -/
theorem axisRange_spec (low high : ℚ) :
    (axisRange low high).1 < (axisRange low high).2 ∧
      (axisRange low high).1 ≤ min low high ∧ max low high ≤ (axisRange low high).2 ∧
      (low ≠ high → (axisRange low high).2 - (axisRange low high).1 = |high - low|) := by
  rcases lt_trichotomy low high with hlt | rfl | hgt
  · have hrange : axisRange low high = (low, high) := by
      simp [axisRange, not_lt.mpr hlt.le, not_le.mpr hlt]
    rw [hrange, min_eq_left hlt.le, max_eq_right hlt.le, abs_of_pos (sub_pos.mpr hlt)]
    exact ⟨hlt, le_refl _, le_refl _, fun _ => rfl⟩
  · have hrange : axisRange low low = (min low 0, if low > 0 then low else 1) := by
      simp [axisRange]
    rw [hrange, min_self, max_self]
    refine ⟨?_, min_le_left _ _, ?_, fun h => absurd rfl h⟩
    · split_ifs with hpos
      · exact lt_of_le_of_lt (min_le_right _ _) hpos
      · exact lt_of_le_of_lt (min_le_right _ _) (by norm_num)
    · split_ifs with hpos
      · exact le_refl _
      · exact le_trans (not_lt.mp hpos) (by norm_num)
  · have hrange : axisRange low high = (high, low) := by
      simp [axisRange, hgt, not_le.mpr hgt]
    rw [hrange, min_eq_right hgt.le, max_eq_left hgt.le, abs_of_neg (sub_neg.mpr hgt)]
    exact ⟨hgt, le_refl _, le_refl _, fun _ => (neg_sub high low).symm⟩

/-- Rounding outward leaves at least one interval, so the correction after it never acts. -/
theorem makeAxisScale_eq (low high : ℚ) (t : Int) :
    makeAxisScale low high t =
      { tickStep := niceTickStep ((axisRange low high).2 - (axisRange low high).1) t
        min := roundDown (niceTickStep ((axisRange low high).2 - (axisRange low high).1) t)
          (axisRange low high).1
        max := roundUp (niceTickStep ((axisRange low high).2 - (axisRange low high).1) t)
          (axisRange low high).2 } := by
  obtain ⟨hlt, -⟩ := axisRange_spec low high
  rw [makeAxisScale]
  generalize axisRange low high = range at hlt ⊢
  obtain ⟨a, b⟩ := range
  change a < b at hlt
  have hstep := (isNice_niceTickStep (b - a) t).pos
  have hwide := intervals_pos hstep hlt
  have hcast : (1 : ℚ) ≤ (intervals (niceTickStep (b - a) t) a b : ℚ) := by
    exact_mod_cast hwide
  have hmul := mul_le_mul_of_nonneg_right hcast hstep.le
  have heq := roundUp_eq (niceTickStep (b - a) t) a b
  refine if_neg (not_lt.mpr ?_)
  change niceTickStep (b - a) t ≤ roundUp (niceTickStep (b - a) t) b
    - roundDown (niceTickStep (b - a) t) a
  linarith

end Range

/-! ## The ticks -/

section Ticks

variable {scale : AxisScale}

/-- With at most `kMaxTicks` intervals, the ticks run from end to end. -/
theorem axisTicks_eq {n : Nat} (hstep : 0 < scale.tickStep)
    (hmax : scale.max = scale.min + (n : ℚ) * scale.tickStep) (hn : (n : Int) ≤ kMaxTicks) :
    axisTicks scale = points scale.min scale.tickStep n := by
  have hwide : 0 ≤ (n : ℚ) * scale.tickStep := mul_nonneg (Nat.cast_nonneg n) hstep.le
  have hspan : (scale.max - scale.min) / scale.tickStep = (n : ℚ) := by
    rw [hmax, add_sub_cancel_left, mul_div_cancel_right₀ _ hstep.ne']
  have hcount : ⌊(scale.max - scale.min) / scale.tickStep + kTickEpsilon⌋ = (n : Int) := by
    rw [hspan, Int.floor_eq_iff]
    constructor
    · rw [kTickEpsilon]
      push_cast
      linarith
    · rw [kTickEpsilon]
      push_cast
      linarith
  have hdrawn : ¬ (scale.tickStep ≤ 0 ∨ scale.max < scale.min) := by
    rintro (h | h)
    · exact absurd hstep (not_lt.mpr h)
    · rw [hmax] at h
      linarith
  rw [axisTicks, if_neg hdrawn]
  simp only [hcount, min_eq_left hn, Int.toNat_natCast]
  rfl

/-- The ticks are `min`, `min + tickStep`, …, `max`. -/
structure TicksEndToEnd (scale : AxisScale) : Prop where
  equally_spaced : ∃ n : Nat, scale.max = scale.min + (n : ℚ) * scale.tickStep ∧
    axisTicks scale = (List.range (n + 1)).map (fun i : Nat => scale.min + i * scale.tickStep)
  increasing : (axisTicks scale).Pairwise (· < ·)
  first : (axisTicks scale).head? = some scale.min
  last : (axisTicks scale).getLast? = some scale.max

/-- A whole number of steps, not too many, is ticked from end to end. -/
theorem ticksEndToEnd {n : Nat} (hstep : 0 < scale.tickStep)
    (hmax : scale.max = scale.min + (n : ℚ) * scale.tickStep) (hn : (n : Int) ≤ kMaxTicks) :
    TicksEndToEnd scale := by
  have hticks := axisTicks_eq hstep hmax hn
  refine ⟨⟨n, hmax, hticks⟩, ?_, ?_, ?_⟩
  · rw [hticks]
    exact pairwise_points hstep
  · rw [hticks]
    exact head?_points
  · rw [hticks, hmax]
    exact getLast?_points

end Ticks

/-! ## Data ranges -/

section DataRange

variable {low high : ℚ} {t : Int}

/-- What is asked of the scale of a data range: round numbers around it, and few of them. -/
structure RoundsRange (low high : ℚ) (target : Int) (scale : AxisScale) : Prop where
  step_nice : IsNice scale.tickStep
  step_pos : 0 < scale.tickStep
  min_onGrid : OnGrid scale.tickStep scale.min
  max_onGrid : OnGrid scale.tickStep scale.max
  min_le : scale.min ≤ low ∧ scale.min ≤ high
  le_max : low ≤ scale.max ∧ high ≤ scale.max
  wide : scale.min + scale.tickStep ≤ scale.max
  few_intervals : low ≠ high → scale.max - scale.min ≤ (target + 1) * scale.tickStep
  step_near : low ≠ high → |high - low| / target ≤ scale.tickStep ∧
    scale.tickStep < 5 / 2 * (|high - low| / target)

/-- A scale is a whole number of intervals wide, at least one and at most one more than
    wanted. -/
theorem exists_intervals (low high : ℚ) (ht : 1 ≤ t) :
    ∃ n : Nat, 1 ≤ n ∧ (n : Int) ≤ t + 1 ∧
      (makeAxisScale low high t).max = (makeAxisScale low high t).min
        + (n : ℚ) * (makeAxisScale low high t).tickStep := by
  obtain ⟨hlt, -⟩ := axisRange_spec low high
  rw [makeAxisScale_eq]
  generalize axisRange low high = range at hlt ⊢
  obtain ⟨a, b⟩ := range
  change a < b at hlt
  have hstep := (isNice_niceTickStep (b - a) t).pos
  have htarget : (0 : ℚ) < (t : ℚ) := by exact_mod_cast (show 0 < t by omega)
  have hcover : b - a ≤ (t : ℚ) * niceTickStep (b - a) t :=
    (div_le_iff₀' htarget).mp (niceTickStep_bounds (sub_pos.mpr hlt) ht).1
  have hwide := intervals_pos hstep hlt
  have hfew := intervals_le hstep hcover
  have hcast : ((intervals (niceTickStep (b - a) t) a b).toNat : Int)
      = intervals (niceTickStep (b - a) t) a b := Int.toNat_of_nonneg (by omega)
  refine ⟨(intervals (niceTickStep (b - a) t) a b).toNat, by omega, by omega, ?_⟩
  have hcast' : ((intervals (niceTickStep (b - a) t) a b).toNat : ℚ)
      = (intervals (niceTickStep (b - a) t) a b : ℚ) := by exact_mod_cast hcast
  rw [hcast']
  exact roundUp_eq _ a b

/-- The scale rounds the range outwards, to multiples of its step. -/
theorem roundsRange (low high : ℚ) (ht : 1 ≤ t) :
    RoundsRange low high t (makeAxisScale low high t) := by
  obtain ⟨n, hn, hfew, hmax⟩ := exists_intervals low high ht
  obtain ⟨hlt, hmin, hle, hspan⟩ := axisRange_spec low high
  have hnice : IsNice (makeAxisScale low high t).tickStep := by
    rw [makeAxisScale_eq]
    exact isNice_niceTickStep _ _
  have hdown : (makeAxisScale low high t).min ≤ min low high := by
    rw [makeAxisScale_eq]
    exact le_trans (roundDown_le (isNice_niceTickStep _ _).pos _) hmin
  have hup : max low high ≤ (makeAxisScale low high t).max := by
    rw [makeAxisScale_eq]
    exact le_trans hle (le_roundUp (isNice_niceTickStep _ _).pos _)
  have hone : (1 : ℚ) ≤ (n : ℚ) := by exact_mod_cast hn
  have hcast : (n : ℚ) ≤ (t : ℚ) + 1 := by exact_mod_cast hfew
  refine ⟨hnice, hnice.pos, ?_, ?_, le_min_iff.mp hdown, max_le_iff.mp hup, ?_, ?_, ?_⟩
  · rw [makeAxisScale_eq]
    exact onGrid_roundDown _ _
  · rw [makeAxisScale_eq]
    exact onGrid_roundUp _ _
  · have hmul := mul_le_mul_of_nonneg_right hone hnice.pos.le
    rw [hmax]
    linarith
  · intro _
    have hmul := mul_le_mul_of_nonneg_right hcast hnice.pos.le
    rw [hmax]
    linarith
  · intro hne
    rw [makeAxisScale_eq, ← hspan hne]
    exact niceTickStep_bounds (sub_pos.mpr hlt) ht

/-- The ticks of a scale run from end to end when `kMaxTicks` holds them. -/
theorem ticksEndToEnd_makeAxisScale (low high : ℚ) (ht : 1 ≤ t) (hcap : t + 1 ≤ kMaxTicks) :
    TicksEndToEnd (makeAxisScale low high t) := by
  obtain ⟨n, -, hfew, hmax⟩ := exists_intervals low high ht
  exact ticksEndToEnd (roundsRange low high ht).step_pos hmax (le_trans hfew hcap)

/-- **An axis scale encloses the data with few round ticks**, from the lowest to the
    highest. -/
theorem makeAxisScale_rounds (low high : ℚ) (target : Int) (hlow : 1 ≤ target)
    (hhigh : target ≤ 63) :
    RoundsRange low high target (makeAxisScale low high target)
      ∧ TicksEndToEnd (makeAxisScale low high target) := by
  refine ⟨roundsRange low high hlow, ticksEndToEnd_makeAxisScale low high hlow ?_⟩
  rw [kMaxTicks]
  omega

theorem makeAxisScale_rounds_five :
    RoundsRange 3 (-7) 5 (makeAxisScale 3 (-7) 5) ∧ TicksEndToEnd (makeAxisScale 3 (-7) 5) :=
  makeAxisScale_rounds 3 (-7) 5 (by decide) (by decide)

end DataRange

end CfioChart
