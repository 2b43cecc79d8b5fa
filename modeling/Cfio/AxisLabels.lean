import Cfio.AxisScale
import Cfio.MetricFormat
import Cfio.MetricsSnapshot
import Cfio.Words

/-! # The labels of the vertical axis

    A label shows a whole number of the unit that is drawn.  `MakeUnitAxisScale`
    raises a finer step to one unit; every other step of a unit or more is a whole
    number already, so no two ticks get the same label. -/

namespace CfioChart

open CfioMetrics CfioDisplay StepGrid Words

/-- Sub plot of the GUI. -/
inductive ChartKind
  | kIops | kBandwidth | kLatency
  deriving DecidableEq, Repr

/-- A tick value as a count; values that are not positive read as zero. -/
def tickToUnsigned (value : ℚ) : UInt64 :=
  if value ≤ 0 then 0 else UInt64.ofInt (llround value)

/-- Format a vertical tick value in the unit of its sub plot. -/
def formatAxisTick (kind : ChartKind) (value : ℚ) : String :=
  let rounded := tickToUnsigned value
  match kind with
  | .kIops => formatCount rounded
  | .kBandwidth => formatRate rounded
  | .kLatency => formatLatencyUs rounded

/-- The drawn unit of a sub plot in storage units. -/
def ChartKind.divisor : ChartKind → ℚ
  | .kIops => 1
  | .kBandwidth => (kBytesPerMiB.toNat : ℚ)
  | .kLatency => (kNsPerUs.toNat : ℚ)

/-- A scale in drawn units, with a finer step raised to one unit: labels are whole
    drawn units, and would repeat. -/
def wholeUnits (scale : AxisScale) : AxisScale :=
  if scale.tickStep < 1 then
    { tickStep := 1
      min := ⌊scale.min⌋
      max := max (⌈scale.max⌉ : ℚ) ((⌊scale.min⌋ : ℚ) + 1) }
  else scale

/-- Round a value range outwards to whole ticks of the displayed unit. -/
def makeUnitAxisScale (kind : ChartKind) (minValue maxValue : ℚ) : AxisScale :=
  let divisor := kind.divisor
  let scale :=
    wholeUnits (makeAxisScale (minValue / divisor) (maxValue / divisor) kDefaultTickCount)
  { min := scale.min * divisor
    max := scale.max * divisor
    tickStep := scale.tickStep * divisor }

/-! ## Labels -/

section Labels

variable {kind : ChartKind} {scale : AxisScale} {n : Nat}

theorem toNat_tickToUnsigned (h : n < 2 ^ 64) : (tickToUnsigned (n : ℚ)).toNat = n := by
  rw [tickToUnsigned]
  split
  · next hzero =>
      have hn : n = 0 := by
        have : (n : ℚ) = 0 := le_antisymm hzero (Nat.cast_nonneg n)
        exact_mod_cast this
      rw [hn]
      rfl
  · rw [llround_natCast]
    have hword := toNat_ofInt (i := (n : Int)) (by omega) (by exact_mod_cast h)
    exact_mod_cast hword

/-- The drawn unit is a whole number of storage units. -/
theorem divisor_cases (kind : ChartKind) :
    ∃ d : Nat, kind.divisor = (d : ℚ) ∧ 1 ≤ d ∧ d ≤ 2 ^ 20 := by
  cases kind with
  | kIops => exact ⟨1, Nat.cast_one.symm, by decide, by decide⟩
  | kBandwidth => exact ⟨kBytesPerMiB.toNat, rfl, by decide, by decide⟩
  | kLatency => exact ⟨kNsPerUs.toNat, rfl, by decide, by decide⟩

theorem divisor_pos (kind : ChartKind) : 0 < kind.divisor := by
  obtain ⟨d, hd, hpos, -⟩ := divisor_cases kind
  rw [hd]
  exact_mod_cast hpos

/-- **Labels of different whole units are different.** -/
theorem formatAxisTick_inj {i j : Nat} (hi : (i : ℚ) * kind.divisor < 2 ^ 64)
    (hj : (j : ℚ) * kind.divisor < 2 ^ 64)
    (h : formatAxisTick kind (i * kind.divisor) = formatAxisTick kind (j * kind.divisor)) :
    i = j := by
  have hvalue (d k : Nat) (hk : (k : ℚ) * (d : ℚ) < 2 ^ 64) :
      (tickToUnsigned ((k : ℚ) * (d : ℚ))).toNat = k * d := by
    rw [← Nat.cast_mul]
    exact toNat_tickToUnsigned (by exact_mod_cast hk)
  cases kind with
  | kIops =>
      have heq := congrArg UInt64.toNat (formatCount_inj h)
      have hone : ChartKind.kIops.divisor = ((1 : Nat) : ℚ) := Nat.cast_one.symm
      rw [hone] at hi hj heq
      rw [hvalue 1 i hi, hvalue 1 j hj] at heq
      omega
  | kBandwidth =>
      have heq := congrArg UInt64.toNat (formatRate_inj h)
      rw [rateMiB, rateMiB, UInt64.toNat_div, UInt64.toNat_div, ChartKind.divisor,
        hvalue _ i hi, hvalue _ j hj, Nat.mul_div_cancel _ (by decide),
        Nat.mul_div_cancel _ (by decide)] at heq
      exact heq
  | kLatency =>
      have heq := congrArg UInt64.toNat (formatLatencyUs_inj h)
      rw [latencyUs, latencyUs, UInt64.toNat_div, UInt64.toNat_div, ChartKind.divisor,
        hvalue _ i hi, hvalue _ j hj, Nat.mul_div_cancel _ (by decide),
        Nat.mul_div_cancel _ (by decide)] at heq
      exact heq

/-- A function of the ticks that tells them apart gives different labels. -/
theorem nodup_labels {α : Type} {label : ℚ → α} (hticks : TicksEndToEnd scale)
    (hlabel : ∀ x ∈ axisTicks scale, ∀ y ∈ axisTicks scale, label x = label y → x = y) :
    ((axisTicks scale).map label).Nodup :=
  List.Nodup.map_on hlabel hticks.increasing.nodup

end Labels

/-! ## Scales in drawn units -/

section WholeUnits

variable {low high : ℚ} {scale : AxisScale}

/-- The scale of a range of values that are not negative, in drawn units. -/
structure DrawnScale (low high : ℚ) (scale : AxisScale) : Prop where
  min_le : scale.min ≤ low
  le_max : high ≤ scale.max
  min_whole : ∃ m : Nat, scale.min = m
  step_whole : ∃ s : Nat, 1 ≤ s ∧ scale.tickStep = s
  intervals : ∃ n : Nat, n ≤ 64 ∧ scale.max = scale.min + (n : ℚ) * scale.tickStep
  max_lt : scale.max < 3 / 2 * high + 4

/-- Between values that are not negative the lowest tick is not negative, and the highest
    is less than half as high again, and two. -/
theorem makeAxisScale_ends (hlow : 0 ≤ low) (hle : low ≤ high) :
    (makeAxisScale low high kDefaultTickCount).max < 3 / 2 * high + 2 ∧
      0 ≤ (makeAxisScale low high kDefaultTickCount).min := by
  have hrange : 0 ≤ (axisRange low high).1 ∧ (axisRange low high).2 ≤ high + 1 := by
    simp only [axisRange, if_neg (not_lt.mpr hle)]
    split
    · refine ⟨le_min hlow (le_refl _), ?_⟩
      split <;> linarith
    · exact ⟨hlow, by linarith⟩
  obtain ⟨hlt, -⟩ := axisRange_spec low high
  rw [makeAxisScale_eq]
  generalize axisRange low high = range at hlt hrange ⊢
  obtain ⟨a, b⟩ := range
  obtain ⟨ha, hb⟩ := hrange
  have hstep := (isNice_niceTickStep (b - a) kDefaultTickCount).pos
  have hbound := (niceTickStep_bounds (sub_pos.mpr hlt) (by decide : 1 ≤ kDefaultTickCount)).2
  have hup := roundUp_lt hstep b
  have hfive : ((kDefaultTickCount : Int) : ℚ) = 5 := by norm_num [kDefaultTickCount]
  rw [hfive] at hbound
  refine ⟨?_, roundDown_nonneg hstep ha⟩
  change roundUp (niceTickStep (b - a) kDefaultTickCount) b < 3 / 2 * high + 2
  change 0 ≤ a at ha
  change b ≤ high + 1 at hb
  change niceTickStep (b - a) kDefaultTickCount < 5 / 2 * ((b - a) / 5) at hbound
  linarith

/-- A step below one unit is raised to one, and the ends move to whole units. -/
theorem drawnScale_raised {n : Nat} (hrounds : RoundsRange low high kDefaultTickCount scale)
    (hmin : 0 ≤ scale.min) (hlt : scale.max < 3 / 2 * high + 2) (hn : n ≤ 6)
    (hmax : scale.max = scale.min + (n : ℚ) * scale.tickStep) (hfine : scale.tickStep < 1) :
    DrawnScale low high (wholeUnits scale) := by
  have hhalf := hrounds.step_nice.le_half hfine
  have hnq : (n : ℚ) ≤ 6 := by exact_mod_cast hn
  have hspan : scale.max - scale.min ≤ 3 := by
    have hmul := mul_le_mul hnq hhalf hrounds.step_pos.le (by norm_num)
    linarith
  have hfloor := Int.floor_le scale.min
  have hfloor' := Int.lt_floor_add_one scale.min
  have hceil := Int.le_ceil scale.max
  have hceil' := Int.ceil_lt_add_one scale.max
  obtain ⟨m, hm⟩ := Int.eq_ofNat_of_zero_le (Int.floor_nonneg.mpr hmin)
  obtain ⟨k, hk⟩ := Int.eq_ofNat_of_zero_le
    (show 0 ≤ max ⌈scale.max⌉ (⌊scale.min⌋ + 1) - ⌊scale.min⌋ by omega)
  have hcap : k ≤ 64 := by
    have hwidth : ((⌈scale.max⌉ - ⌊scale.min⌋ : Int) : ℚ) < ((6 : Int) : ℚ) := by
      push_cast
      linarith
    have hint : ⌈scale.max⌉ - ⌊scale.min⌋ < 6 := by exact_mod_cast hwidth
    omega
  have hends : (m : ℚ) + (k : ℚ) = max (⌈scale.max⌉ : ℚ) ((⌊scale.min⌋ : ℚ) + 1) := by
    have hint : (m : Int) + (k : Int) = max ⌈scale.max⌉ (⌊scale.min⌋ + 1) := by
      rw [← hk, hm]
      omega
    exact_mod_cast hint
  have hmq : (⌊scale.min⌋ : ℚ) = (m : ℚ) := by
    rw [hm]
    exact Int.cast_natCast m
  rw [wholeUnits, if_pos hfine]
  refine ⟨le_trans hfloor hrounds.min_le.1,
    le_trans (le_trans hrounds.le_max.2 hceil) (le_max_left _ _), ⟨m, hmq⟩,
    ⟨1, le_refl _, Nat.cast_one.symm⟩, ⟨k, hcap, ?_⟩, ?_⟩
  · rw [mul_one, hmq, hends, hmq]
  · refine max_lt (by linarith) ?_
    linarith [hrounds.wide, hrounds.step_pos]

/-- A step of a unit or more is a whole number, and so are the ends. -/
theorem drawnScale_kept {n : Nat} (hrounds : RoundsRange low high kDefaultTickCount scale)
    (hmin : 0 ≤ scale.min) (hlt : scale.max < 3 / 2 * high + 2) (hn : n ≤ 6)
    (hmax : scale.max = scale.min + (n : ℚ) * scale.tickStep) (hfine : ¬ scale.tickStep < 1) :
    DrawnScale low high (wholeUnits scale) := by
  obtain ⟨s, hs, hstep⟩ := hrounds.step_nice.exists_natCast (by linarith)
  obtain ⟨m, hm⟩ := hrounds.min_onGrid
  have hnonneg : 0 ≤ m := by
    by_contra hneg
    have hq : (m : ℚ) < 0 := by exact_mod_cast not_le.mp hneg
    have hprod := mul_neg_of_neg_of_pos hq hrounds.step_pos
    linarith
  obtain ⟨k, rfl⟩ := Int.eq_ofNat_of_zero_le hnonneg
  rw [wholeUnits, if_neg hfine]
  refine ⟨hrounds.min_le.1, hrounds.le_max.2, ⟨k * s, ?_⟩, ⟨s, hs, hstep⟩,
    ⟨n, by omega, hmax⟩, by linarith⟩
  rw [hm, hstep]
  push_cast
  rfl

/-- **The scale drawn has whole units.** -/
theorem drawnScale_wholeUnits (hlow : 0 ≤ low) (hle : low ≤ high) :
    DrawnScale low high (wholeUnits (makeAxisScale low high kDefaultTickCount)) := by
  have hrounds := roundsRange low high (by decide : 1 ≤ kDefaultTickCount)
  obtain ⟨n, -, hn, hmax⟩ := exists_intervals low high (by decide : 1 ≤ kDefaultTickCount)
  obtain ⟨hlt, hmin⟩ := makeAxisScale_ends hlow hle
  have hfew : n ≤ 6 := by
    rw [kDefaultTickCount] at hn
    omega
  by_cases hfine : (makeAxisScale low high kDefaultTickCount).tickStep < 1
  · exact drawnScale_raised hrounds hmin hlt hfew hmax hfine
  · exact drawnScale_kept hrounds hmin hlt hfew hmax hfine

end WholeUnits

/-! ## The scale of a sub plot -/

section UnitScale

variable {kind : ChartKind} {low high : ℚ} {scale : AxisScale}

/-- What is asked of a vertical scale: it holds the data, its ticks are whole drawn
    units that `llround` can return, and their labels differ. -/
structure UnitScale (kind : ChartKind) (low high : ℚ) (scale : AxisScale) : Prop where
  min_le : scale.min ≤ low
  le_max : high ≤ scale.max
  min_whole : OnGrid kind.divisor scale.min
  max_whole : OnGrid kind.divisor scale.max
  step_whole : OnGrid kind.divisor scale.tickStep
  max_lt : scale.max < 2 ^ 63
  ticks : TicksEndToEnd scale
  labels : ((axisTicks scale).map (formatAxisTick kind)).Nodup

/-- With ends and step of whole units, every tick is a whole number of units. -/
theorem exists_units_of_mem {d x : ℚ} {m s n : Nat} (hmin : scale.min = m * d)
    (hstep : scale.tickStep = s * d) (hpos : 0 < scale.tickStep)
    (hmax : scale.max = scale.min + (n : ℚ) * scale.tickStep) (hn : (n : Int) ≤ kMaxTicks)
    (hx : x ∈ axisTicks scale) : ∃ i : Nat, x = (i : ℚ) * d ∧ (i : ℚ) * d ≤ scale.max := by
  rw [axisTicks_eq hpos hmax hn] at hx
  obtain ⟨-, hle⟩ := le_of_mem_points hpos.le hx
  obtain ⟨i, -, rfl⟩ := mem_points.mp hx
  have heq : scale.min + (i : ℚ) * scale.tickStep = ((m + i * s : Nat) : ℚ) * d := by
    rw [hmin, hstep]
    push_cast
    ring
  refine ⟨m + i * s, heq, ?_⟩
  rw [← heq, hmax]
  exact hle

/-- A scale of whole drawn units, in storage units. -/
theorem unitScale_of_units {m s n : Nat} (hs : 1 ≤ s) (hn : n ≤ 64)
    (hmin : scale.min = m * kind.divisor) (hstep : scale.tickStep = s * kind.divisor)
    (hmax : scale.max = scale.min + (n : ℚ) * scale.tickStep) (hlow : scale.min ≤ low)
    (hhigh : high ≤ scale.max) (hword : scale.max < 2 ^ 63) :
    UnitScale kind low high scale := by
  have hpos : 0 < scale.tickStep := by
    rw [hstep]
    exact mul_pos (by exact_mod_cast hs) (divisor_pos kind)
  have hcap : (n : Int) ≤ kMaxTicks := by
    rw [kMaxTicks]
    omega
  have hticks := ticksEndToEnd hpos hmax hcap
  refine ⟨hlow, hhigh, ⟨m, ?_⟩, ⟨m + n * s, ?_⟩, ⟨s, ?_⟩, hword, hticks,
    nodup_labels hticks ?_⟩
  · rw [hmin]
    push_cast
    rfl
  · rw [hmax, hmin, hstep]
    push_cast
    ring
  · rw [hstep]
    push_cast
    rfl
  · intro x hx y hy hsame
    obtain ⟨i, rfl, hi⟩ := exists_units_of_mem hmin hstep hpos hmax hcap hx
    obtain ⟨j, rfl, hj⟩ := exists_units_of_mem hmin hstep hpos hmax hcap hy
    have hword' : scale.max < 2 ^ 64 := by linarith
    rw [formatAxisTick_inj (lt_of_le_of_lt hi hword') (lt_of_le_of_lt hj hword') hsame]

/-- **Vertical tick labels never repeat**, on an axis that holds the data and whose ticks
    are whole drawn units. -/
theorem unitAxis_labels (kind : ChartKind) (low high : ℚ) (hlow : 0 ≤ low)
    (hle : low ≤ high) (hhigh : high ≤ 2 ^ 62) :
    UnitScale kind low high (makeUnitAxisScale kind low high) := by
  have hpos := divisor_pos kind
  obtain ⟨hmin, hmax, ⟨m, hm⟩, ⟨s, hs, hstep⟩, ⟨n, hn, hspan⟩, hlt⟩ :=
    drawnScale_wholeUnits (div_nonneg hlow hpos.le) (div_le_div_of_nonneg_right hle hpos.le)
  rw [makeUnitAxisScale]
  refine unitScale_of_units (m := m) (s := s) (n := n) hs hn ?_ ?_ ?_ ((le_div_iff₀ hpos).mp hmin)
    ((div_le_iff₀ hpos).mp hmax) ?_
  · exact congrArg (· * kind.divisor) hm
  · exact congrArg (· * kind.divisor) hstep
  · show _ * kind.divisor = _ * kind.divisor + (n : ℚ) * (_ * kind.divisor)
    rw [hspan]
    ring
  · obtain ⟨d, hd, -, hle⟩ := divisor_cases kind
    have hdq : kind.divisor ≤ 2 ^ 20 := by
      rw [hd]
      exact_mod_cast hle
    calc _ < (3 / 2 * (high / kind.divisor) + 4) * kind.divisor :=
          mul_lt_mul_of_pos_right hlt hpos
      _ = 3 / 2 * high + 4 * kind.divisor := by
          rw [add_mul, mul_assoc, div_mul_cancel₀ _ hpos.ne']
      _ < 2 ^ 63 := by linarith

theorem unitAxis_labels_rate :
    UnitScale .kBandwidth 0 3145728 (makeUnitAxisScale .kBandwidth 0 3145728) :=
  unitAxis_labels .kBandwidth 0 3145728 (le_refl 0) (by norm_num) (by norm_num)

end UnitScale

end CfioChart
