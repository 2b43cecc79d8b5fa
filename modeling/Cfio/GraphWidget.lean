import Cfio.AxisLabels

/-! # The labels of the time axis

    The horizontal scale of a chart covers the rounded run length.  Nothing raises its
    step to a second, and labels are whole seconds: below three seconds two ticks get
    the same label (`time_labels_iff`). -/

namespace CfioChart

open CfioMetrics CfioDisplay StepGrid

/-- Metric drawn on a chart. -/
inductive ChartMetric
  | kIops | kBandwidth | kLatencyP50 | kLatencyP95 | kLatencyP99
  deriving DecidableEq, Repr

/-- One point in value space. -/
structure ChartPoint where
  x : ℚ
  y : ℚ
  deriving DecidableEq, Repr

/-- Named sequence of points. -/
structure ChartSeries where
  label : String
  points : List ChartPoint := []
  deriving DecidableEq, Repr

def metricValue (metrics : PerJobMetrics) : ChartMetric → ℚ
  | .kIops => (metrics.iopsInstant.toNat : ℚ)
  | .kBandwidth => (metrics.bwInstant.toNat : ℚ)
  | .kLatencyP50 => (metrics.latP50Ns.toNat : ℚ)
  | .kLatencyP95 => (metrics.latP95Ns.toNat : ℚ)
  | .kLatencyP99 => (metrics.latP99Ns.toNat : ℚ)

def metricLabel : ChartMetric → String
  | .kIops => "IOPS"
  | .kBandwidth => "Bandwidth"
  | .kLatencyP50 => "p50"
  | .kLatencyP95 => "p95"
  | .kLatencyP99 => "p99"

/-- List the metrics one sub plot draws. -/
def chartKindMetrics : ChartKind → List ChartMetric
  | .kIops => [.kIops]
  | .kBandwidth => [.kBandwidth]
  | .kLatency => [.kLatencyP50, .kLatencyP95, .kLatencyP99]

/-- Build the line of one metric; it starts at the origin unless a sample is there. -/
def extractSeries (history : List MetricsSnapshot) (metric : ChartMetric) : ChartSeries :=
  match history with
  | [] => { label := metricLabel metric }
  | front :: _ =>
      { label := metricLabel metric
        points := (if front.elapsedSeconds > 0 then [{ x := 0, y := 0 }] else [])
          ++ history.map (fun snapshot =>
            { x := snapshot.elapsedSeconds, y := metricValue snapshot.aggregate metric }) }

/-- The time span of a history, rounded to whole seconds. -/
def seriesDurationSeconds (history : List MetricsSnapshot) : ℚ :=
  match history.getLast? with
  | none => 0
  | some last => max (llround last.elapsedSeconds : ℚ) 0

/-- The highest value over several series. -/
def maxY (series : List ChartSeries) : ℚ :=
  series.foldl (fun highest one =>
    one.points.foldl (fun highest point => max highest point.y) highest) 0

/-- Format an elapsed time tick. -/
def formatTimeTick (seconds : ℚ) : String :=
  if seconds ≤ 0 then formatDuration 0
  else formatDuration (Int32.ofInt (llround seconds))

/-- Time series sub plot. -/
structure QtGraphWidget where
  kind : ChartKind
  series : List ChartSeries := []
  xScale : AxisScale := {}
  yScale : AxisScale := {}
  hasData : Bool := false
  deriving DecidableEq, Repr

/-- Replace the plotted data. -/
def QtGraphWidget.setSeries (widget : QtGraphWidget) (history : List MetricsSnapshot) :
    QtGraphWidget :=
  let series := (chartKindMetrics widget.kind).map (extractSeries history)
  { widget with
    hasData := !history.isEmpty
    series := series
    xScale := makeAxisScale 0 (seriesDurationSeconds history) kDefaultTickCount
    yScale := makeUnitAxisScale widget.kind 0 (maxY series) }

/-! ## Time labels -/

section TimeLabels

variable {x : ℚ} {n : Nat}

theorem formatTimeTick_natCast (n : Nat) :
    formatTimeTick (n : ℚ) = formatDuration (Int32.ofInt n) := by
  rw [formatTimeTick, llround_natCast]
  split
  · next hzero =>
      have hn : n = 0 := by
        have : (n : ℚ) = 0 := le_antisymm hzero (Nat.cast_nonneg n)
        exact_mod_cast this
      rw [hn]
      rfl
  · rfl

/-- Labels of different whole seconds are different. -/
theorem formatTimeTick_inj {i j : Nat} (hi : i < 2 ^ 31) (hj : j < 2 ^ 31)
    (h : formatTimeTick (i : ℚ) = formatTimeTick (j : ℚ)) : i = j := by
  rw [formatTimeTick_natCast, formatTimeTick_natCast] at h
  have hint (k : Nat) (hk : k < 2 ^ 31) : (Int32.ofInt (k : Int)).toInt = (k : Int) :=
    Int32.toInt_ofInt_of_le (by omega) (by omega)
  have heq := formatDuration_inj (by rw [hint i hi]; omega) (by rw [hint j hj]; omega) h
  have hsame := congrArg Int32.toInt heq
  rw [hint i hi, hint j hj] at hsame
  omega

/-- Below half a second the label is that of zero. -/
theorem formatTimeTick_of_lt_half (hx : 0 ≤ x) (hlt : x < 1 / 2) :
    formatTimeTick x = formatTimeTick 0 := by
  rw [formatTimeTick, llround_of_lt_half hx hlt, formatTimeTick, if_pos (le_refl 0)]
  split <;> rfl

theorem formatTimeTick_half : formatTimeTick (1 / 2) = formatTimeTick 1 := by
  have hhalf : llround (1 / 2) = 1 := by
    rw [llround_of_nonneg (by norm_num), Int.floor_eq_iff]
    norm_num
  have hone : llround 1 = 1 := by exact_mod_cast llround_natCast 1
  rw [formatTimeTick, formatTimeTick, hhalf, hone, if_neg (by norm_num), if_neg (by norm_num)]

end TimeLabels

/-! ## The time scale -/

section TimeScale

variable {n : Nat}

/-- The span of the widened range of a run length. -/
theorem axisRange_zero (n : Nat) : axisRange 0 (n : ℚ) = (0, max (n : ℚ) 1) := by
  rcases Nat.eq_zero_or_pos n with rfl | hn
  · simp [axisRange]
  · have hone : (1 : ℚ) ≤ (n : ℚ) := by exact_mod_cast hn
    have hpos : (0 : ℚ) < (n : ℚ) := by linarith
    rw [max_eq_left hone]
    simp [axisRange, not_lt.mpr hpos.le, not_le.mpr hpos]

theorem timeScale_min (n : Nat) : (makeAxisScale 0 (n : ℚ) kDefaultTickCount).min = 0 := by
  rw [makeAxisScale_eq, axisRange_zero]
  show roundDown _ 0 = 0
  rw [roundDown, zero_div, Int.floor_zero, Int.cast_zero, zero_mul]

theorem timeScale_step (n : Nat) :
    max (n : ℚ) 1 / 5 ≤ (makeAxisScale 0 (n : ℚ) kDefaultTickCount).tickStep ∧
      (makeAxisScale 0 (n : ℚ) kDefaultTickCount).tickStep < 5 / 2 * (max (n : ℚ) 1 / 5) := by
  have hpos : 0 < max (n : ℚ) 1 - 0 := by
    have hone := le_max_right (n : ℚ) 1
    linarith
  have hbounds := niceTickStep_bounds hpos (by decide : 1 ≤ kDefaultTickCount)
  have hfive : ((kDefaultTickCount : Int) : ℚ) = 5 := by norm_num [kDefaultTickCount]
  rw [hfive, sub_zero] at hbounds
  rw [makeAxisScale_eq, axisRange_zero]
  show _ ≤ niceTickStep (max (n : ℚ) 1 - 0) _ ∧ niceTickStep (max (n : ℚ) 1 - 0) _ < _
  rw [sub_zero]
  exact hbounds

/-- The ticks of a time scale: whole multiples of the step from zero. -/
theorem mem_timeTicks (n : Nat) :
    ∃ count : Nat, count ≤ 6 ∧
      (makeAxisScale 0 (n : ℚ) kDefaultTickCount).max
        = (count : ℚ) * (makeAxisScale 0 (n : ℚ) kDefaultTickCount).tickStep ∧
      ∀ x, x ∈ axisTicks (makeAxisScale 0 (n : ℚ) kDefaultTickCount) ↔
        ∃ i : Nat, i ≤ count
          ∧ x = (i : ℚ) * (makeAxisScale 0 (n : ℚ) kDefaultTickCount).tickStep := by
  obtain ⟨count, -, hcount, hmax⟩ :=
    exists_intervals 0 (n : ℚ) (by decide : 1 ≤ kDefaultTickCount)
  have hpos := (roundsRange 0 (n : ℚ) (by decide : 1 ≤ kDefaultTickCount)).step_pos
  have hfew : count ≤ 6 := by
    rw [kDefaultTickCount] at hcount
    omega
  have hcap : (count : Int) ≤ kMaxTicks := by
    rw [kMaxTicks]
    omega
  have hticks := axisTicks_eq hpos hmax hcap
  rw [timeScale_min, zero_add] at hmax
  refine ⟨count, hfew, hmax, fun x => ?_⟩
  rw [hticks, mem_points, timeScale_min]
  simp only [zero_add]

/-- **From three seconds on no label repeats**: the step is a whole number of seconds. -/
theorem time_labels_of_le (hn : 3 ≤ n) (hcap : n ≤ 1000000) :
    ((axisTicks (makeAxisScale 0 (n : ℚ) kDefaultTickCount)).map formatTimeTick).Nodup := by
  have hrounds := roundsRange 0 (n : ℚ) (by decide : 1 ≤ kDefaultTickCount)
  have hticks := ticksEndToEnd_makeAxisScale 0 (n : ℚ) (by decide : 1 ≤ kDefaultTickCount)
    (by decide)
  obtain ⟨hlow, hhigh⟩ := timeScale_step n
  obtain ⟨count, hcount, -, hmem⟩ := mem_timeTicks n
  have hthree : (3 : ℚ) ≤ (n : ℚ) := by exact_mod_cast hn
  have hmillion : (n : ℚ) ≤ 1000000 := by exact_mod_cast hcap
  rw [max_eq_left (by linarith)] at hlow hhigh
  obtain ⟨s, -, hstep⟩ := hrounds.step_nice.exists_natCast (by linarith)
  rw [hstep] at hhigh
  have hs : s ≤ 500000 := by
    have hlt : (s : ℚ) ≤ ((500000 : Nat) : ℚ) := by
      push_cast
      linarith
    exact_mod_cast hlt
  refine nodup_labels hticks (fun x hx y hy hsame => ?_)
  obtain ⟨i, hi, rfl⟩ := (hmem x).mp hx
  obtain ⟨j, hj, rfl⟩ := (hmem y).mp hy
  have hword (k : Nat) (hk : k ≤ count) : k * s < 2 ^ 31 := by
    have hmul : k * s ≤ 6 * 500000 := Nat.mul_le_mul (le_trans hk hcount) hs
    omega
  rw [hstep, ← Nat.cast_mul, ← Nat.cast_mul] at hsame ⊢
  rw [formatTimeTick_inj (hword i hi) (hword j hj) hsame]

/-- **Up to two seconds a label repeats**: the step is half a second or less, and two of
    the first three ticks round to the same second. -/
theorem time_labels_repeat (hn : n ≤ 2) :
    ¬ ((axisTicks (makeAxisScale 0 (n : ℚ) kDefaultTickCount)).map formatTimeTick).Nodup := by
  have hrounds := roundsRange 0 (n : ℚ) (by decide : 1 ≤ kDefaultTickCount)
  obtain ⟨-, hhigh⟩ := timeScale_step n
  obtain ⟨count, -, hmax, hmem⟩ := mem_timeTicks n
  have hpos := hrounds.step_pos
  have htwo : max (n : ℚ) 1 ≤ 2 := max_le (by exact_mod_cast hn) (by norm_num)
  have hhalf := hrounds.step_nice.le_half (by linarith)
  have hone : 1 ≤ (makeAxisScale 0 (n : ℚ) kDefaultTickCount).max := by
    rw [makeAxisScale_eq, axisRange_zero]
    exact le_trans (le_max_right _ _) (le_roundUp (isNice_niceTickStep _ _).pos _)
  have hcount : 2 ≤ count := by
    by_contra hfew
    have hle : (count : ℚ) ≤ 1 := by exact_mod_cast (show count ≤ 1 by omega)
    have hmul := mul_le_mul hle hhalf hpos.le (by norm_num)
    linarith
  generalize (makeAxisScale 0 (n : ℚ) kDefaultTickCount).tickStep = step at hhalf hpos hmem
  intro hnodup
  have hinj (i j : Nat) (hi : i ≤ 2) (hj : j ≤ 2)
      (h : formatTimeTick ((i : ℚ) * step) = formatTimeTick ((j : ℚ) * step)) :
      (i : ℚ) * step = (j : ℚ) * step :=
    List.inj_on_of_nodup_map hnodup ((hmem _).mpr ⟨i, by omega, rfl⟩)
      ((hmem _).mpr ⟨j, by omega, rfl⟩) h
  rcases lt_or_eq_of_le hhalf with hlt | rfl
  · have hsame := hinj 1 0 (by decide) (by decide) (by
      rw [Nat.cast_one, one_mul, Nat.cast_zero, zero_mul]
      exact formatTimeTick_of_lt_half hpos.le hlt)
    push_cast at hsame
    linarith
  · have hsame := hinj 1 2 (by decide) (by decide) (by
      rw [Nat.cast_one, one_mul, show ((2 : Nat) : ℚ) * (1 / 2) = 1 by norm_num]
      exact formatTimeTick_half)
    norm_num at hsame

end TimeScale

/-! ## Histories -/

section History

variable {history : List MetricsSnapshot} {last : MetricsSnapshot}

/-- The scale of a history is that of its rounded length. -/
theorem setSeries_xScale (widget : QtGraphWidget) (hlast : history.getLast? = some last)
    (hnonneg : 0 ≤ last.elapsedSeconds) :
    (widget.setSeries history).xScale
      = makeAxisScale 0 (((llround last.elapsedSeconds).toNat : Nat) : ℚ) kDefaultTickCount := by
  have hround : 0 ≤ llround last.elapsedSeconds := by
    rw [llround_of_nonneg hnonneg]
    exact Int.floor_nonneg.mpr (by linarith)
  have hcast : (((llround last.elapsedSeconds).toNat : Nat) : ℚ)
      = (llround last.elapsedSeconds : ℚ) := by
    exact_mod_cast Int.toNat_of_nonneg hround
  have hduration : seriesDurationSeconds history = (llround last.elapsedSeconds : ℚ) := by
    rw [seriesDurationSeconds, hlast]
    exact max_eq_left (by exact_mod_cast hround)
  rw [hcast, ← hduration]
  rfl

theorem three_le_llround_iff (hnonneg : 0 ≤ last.elapsedSeconds) :
    3 ≤ (llround last.elapsedSeconds).toNat ↔ 5 / 2 ≤ last.elapsedSeconds := by
  rw [llround_of_nonneg hnonneg]
  have hiff : 3 ≤ ⌊last.elapsedSeconds + 1 / 2⌋ ↔ ((3 : Int) : ℚ) ≤ last.elapsedSeconds + 1 / 2 :=
    Int.le_floor
  push_cast at hiff
  constructor
  · intro h
    linarith [hiff.mp (by omega)]
  · intro h
    have := hiff.mpr (by linarith)
    omega

/-- **Time labels never repeat** if and only if the last sample is at least two and a half
    seconds into the run. -/
theorem time_labels_iff (widget : QtGraphWidget) (history : List MetricsSnapshot)
    (last : MetricsSnapshot) (hlast : history.getLast? = some last)
    (hnonneg : 0 ≤ last.elapsedSeconds) (hcap : last.elapsedSeconds ≤ 1000000) :
    ((axisTicks (widget.setSeries history).xScale).map formatTimeTick).Nodup
      ↔ 5 / 2 ≤ last.elapsedSeconds := by
  rw [setSeries_xScale widget hlast hnonneg, ← three_le_llround_iff hnonneg]
  constructor
  · intro hnodup
    by_contra hshort
    exact time_labels_repeat (by omega) hnodup
  · intro hlong
    refine time_labels_of_le hlong ?_
    have hround := llround_mono hnonneg hcap
    have hmillion : llround 1000000 = 1000000 := by exact_mod_cast llround_natCast 1000000
    omega

theorem time_labels_iff_three :
    ((axisTicks (({ kind := .kIops } : QtGraphWidget).setSeries
        [{ elapsedSeconds := 1 }, { elapsedSeconds := 3 }]).xScale).map formatTimeTick).Nodup
      ↔ 5 / 2 ≤ (3 : ℚ) :=
  time_labels_iff { kind := .kIops } [{ elapsedSeconds := 1 }, { elapsedSeconds := 3 }]
    { elapsedSeconds := 3 } rfl (by norm_num) (by norm_num)

/-- After one second the axis from zero to one repeats its labels. -/
theorem first_second_repeats :
    ¬ ((axisTicks (({ kind := .kIops } : QtGraphWidget).setSeries
        [{ elapsedSeconds := 1 }]).xScale).map formatTimeTick).Nodup := by
  have hone : llround 1 = 1 := by exact_mod_cast llround_natCast 1
  rw [setSeries_xScale { kind := .kIops } rfl
    (by norm_num)]
  show ¬ ((axisTicks (makeAxisScale 0 (((llround 1).toNat : Nat) : ℚ) _)).map _).Nodup
  rw [hone]
  exact time_labels_repeat (by decide)

end History

end CfioChart
