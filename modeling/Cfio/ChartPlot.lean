import Cfio.GraphWidget
import Cfio.LinearScale

/-! # What a chart draws

    A chart maps its series into the area between its margins, with the scales that
    `SetSeries` has made of the same series.  `chart_drawn_true` says what can be read off the
    picture: no line leaves the area, every height is true to scale, time runs to the right,
    and is cut off by less than a second at the end. -/

namespace CfioChart

open CfioMetrics CfioDisplay StepGrid LinearScale

/-- Pixel area the plot is drawn into. -/
structure ChartRect where
  left : ℚ := 0
  top : ℚ := 0
  width : ℚ := 1
  height : ℚ := 1
  deriving DecidableEq, Repr

/-- Blank space between the widget edges and the plot area. -/
structure ChartMargins where
  left : ℚ := 0
  top : ℚ := 0
  right : ℚ := 0
  bottom : ℚ := 0
  deriving DecidableEq, Repr

def kMinPlotSize : ℚ := 1

/-- Carve the plot area out of a widget. -/
def computePlotRect (width height : ℚ) (margins : ChartMargins) : ChartRect where
  left := margins.left
  top := margins.top
  width := max (width - margins.left - margins.right) kMinPlotSize
  height := max (height - margins.top - margins.bottom) kMinPlotSize

/-- Map a value to a pixel column. -/
def mapX (value : ℚ) (scale : AxisScale) (plot : ChartRect) : ℚ :=
  if scale.max - scale.min ≤ 0 then plot.left
  else plot.left + clamp ((value - scale.min) / (scale.max - scale.min)) 0 1 * plot.width

/-- Map a value to a pixel row. -/
def mapY (value : ℚ) (scale : AxisScale) (plot : ChartRect) : ℚ :=
  if scale.max - scale.min ≤ 0 then plot.top + plot.height
  else
    plot.top + plot.height
      - clamp ((value - scale.min) / (scale.max - scale.min)) 0 1 * plot.height

/-- Map a whole series into pixel space. -/
def mapPoints (points : List ChartPoint) (x y : AxisScale) (plot : ChartRect) :
    List ChartPoint :=
  points.map (fun point => { x := mapX point.x x plot, y := mapY point.y y plot })

/-! ## The scales -/

section Scales

variable {scale : AxisScale} {low high : ℚ} {kind : ChartKind}

/-- The scale of a chart starts at zero and holds what is drawn with it. -/
structure FromZero (high : ℚ) (scale : AxisScale) : Prop where
  min_eq : scale.min = 0
  le_max : high ≤ scale.max
  pos : 0 < scale.max
  intervals : ∃ n : Nat, 1 ≤ n ∧ axisTicks scale = points 0 scale.tickStep n
    ∧ scale.max = n * scale.tickStep

/-- Whatever the margins, the plot has an extent. -/
theorem computePlotRect_pos (width height : ℚ) (margins : ChartMargins) :
    0 < (computePlotRect width height margins).width
      ∧ 0 < (computePlotRect width height margins).height :=
  ⟨lt_of_lt_of_le zero_lt_one (le_max_right _ _), lt_of_lt_of_le zero_lt_one (le_max_right _ _)⟩

/-- The scale of the time axis is one. -/
theorem fromZero_timeScale (h : 0 ≤ high) :
    FromZero high (makeAxisScale 0 high kDefaultTickCount) := by
  have hrounds := roundsRange 0 high (by decide : 1 ≤ kDefaultTickCount)
  obtain ⟨n, hn, hfew, hmax⟩ := exists_intervals 0 high (by decide : 1 ≤ kDefaultTickCount)
  have hmin : (makeAxisScale 0 high kDefaultTickCount).min = 0 :=
    le_antisymm hrounds.min_le.1 (makeAxisScale_ends (le_refl 0) h).2
  rw [hmin, zero_add] at hmax
  have hpos : 0 < (makeAxisScale 0 high kDefaultTickCount).max := by
    have hwide := hrounds.wide
    have hstep := hrounds.step_pos
    rw [hmin] at hwide
    linarith
  have hcap : (n : Int) ≤ kMaxTicks := by
    rw [kDefaultTickCount] at hfew
    rw [kMaxTicks]
    omega
  have hticks := axisTicks_eq hrounds.step_pos
    (by rw [hmin, zero_add]; exact hmax) hcap
  exact ⟨hmin, hrounds.le_max.2, hpos, n, hn, hticks.trans (by rw [hmin]), hmax⟩

/-- Raising the step to whole units leaves a scale some width. -/
theorem wholeUnits_lt (h : scale.min < scale.max) :
    (wholeUnits scale).min < (wholeUnits scale).max := by
  rw [wholeUnits]
  split
  · exact lt_of_lt_of_le (lt_add_one _) (le_max_right _ _)
  · exact h

theorem fromZero_unitScale (h : 0 ≤ high) : FromZero high (makeUnitAxisScale kind 0 high) := by
  have hpos := divisor_pos kind
  have hrounds := roundsRange (0 / kind.divisor) (high / kind.divisor)
    (by decide : 1 ≤ kDefaultTickCount)
  have hlt := wholeUnits_lt
    (lt_of_lt_of_le (lt_add_of_pos_right _ hrounds.step_pos) hrounds.wide)
  obtain ⟨hmin, hmax, ⟨m, hm⟩, ⟨s, hs, hstep⟩, ⟨n, hn, hspan⟩, -⟩ :=
    drawnScale_wholeUnits (div_nonneg (le_refl 0) hpos.le)
      (div_le_div_of_nonneg_right h hpos.le)
  rw [makeUnitAxisScale]
  generalize wholeUnits (makeAxisScale (0 / kind.divisor) (high / kind.divisor)
    kDefaultTickCount) = drawn at hlt hmin hmax hm hstep hspan ⊢
  have hzero : drawn.min = 0 := by
    refine le_antisymm (by rwa [zero_div] at hmin) ?_
    rw [hm]
    exact Nat.cast_nonneg m
  have hstepPos : 0 < drawn.tickStep := by
    rw [hstep]
    exact_mod_cast hs
  have hone : 1 ≤ n := by
    rcases Nat.eq_zero_or_pos n with rfl | hn
    · rw [hspan, Nat.cast_zero, zero_mul, add_zero] at hlt
      exact absurd hlt (lt_irrefl _)
    · exact hn
  have hspan' : drawn.max * kind.divisor = n * (drawn.tickStep * kind.divisor) := by
    rw [hspan, hzero, zero_add, mul_assoc]
  have hticks : axisTicks { min := drawn.min * kind.divisor
                            max := drawn.max * kind.divisor
                            tickStep := drawn.tickStep * kind.divisor } = _ :=
    axisTicks_eq (n := n) (mul_pos hstepPos hpos)
      (by rw [hzero, zero_mul, zero_add]; exact hspan') (by rw [kMaxTicks]; omega)
  refine ⟨?_, (div_le_iff₀ hpos).mp hmax, mul_pos (hzero ▸ hlt) hpos, n, hone,
    hticks.trans ?_, hspan'⟩
  · rw [hzero, zero_mul]
  · rw [hzero, zero_mul]

end Scales

/-! ## The picture -/

section Picture

variable {scale : AxisScale} {plot : ChartRect} {v w high : ℚ}

/-- Where a time is drawn: in proportion, and at the edge beyond the end of the axis. -/
theorem FromZero.mapX_eq (h : FromZero high scale) (hv : 0 ≤ v) :
    mapX v scale plot = plot.left + min v scale.max / scale.max * plot.width := by
  have hspan : ¬ scale.max - scale.min ≤ 0 := by
    rw [h.min_eq, sub_zero]
    exact not_le.mpr h.pos
  rw [mapX, if_neg hspan]
  have hratio := ratio_zero h.pos hv
  rw [ratio] at hratio
  rw [h.min_eq, hratio]

/-- Where a value is drawn: in proportion, upwards. -/
theorem FromZero.mapY_eq (h : FromZero high scale) (hv : 0 ≤ v) (hle : v ≤ high) :
    mapY v scale plot = plot.top + plot.height - v / scale.max * plot.height := by
  have hspan : ¬ scale.max - scale.min ≤ 0 := by
    rw [h.min_eq, sub_zero]
    exact not_le.mpr h.pos
  rw [mapY, if_neg hspan]
  have hratio := ratio_zero h.pos hv
  rw [ratio] at hratio
  rw [h.min_eq, hratio, min_eq_left (hle.trans h.le_max)]

/-- The point is in the plot area. -/
structure InPlot (plot : ChartRect) (p : ChartPoint) : Prop where
  left : plot.left ≤ p.x
  right : p.x ≤ plot.left + plot.width
  top : plot.top ≤ p.y
  bottom : p.y ≤ plot.top + plot.height

/-- The scales clamp, so no point leaves the plot. -/
theorem mapPoint_inPlot (hwidth : 0 ≤ plot.width) (hheight : 0 ≤ plot.height)
    (x y : AxisScale) (p : ChartPoint) :
    InPlot plot { x := mapX p.x x plot, y := mapY p.y y plot } := by
  have hx : plot.left ≤ mapX p.x x plot ∧ mapX p.x x plot ≤ plot.left + plot.width := by
    rw [mapX]
    split
    · exact ⟨le_refl _, le_add_of_nonneg_right hwidth⟩
    · obtain ⟨hlow, hhigh⟩ := ratio_mem x.min x.max p.x
      rw [ratio] at hlow hhigh
      have h1 := mul_nonneg hlow hwidth
      have h2 := mul_le_mul_of_nonneg_right hhigh hwidth
      constructor <;> linarith
  have hy : plot.top ≤ mapY p.y y plot ∧ mapY p.y y plot ≤ plot.top + plot.height := by
    rw [mapY]
    split
    · exact ⟨le_add_of_nonneg_right hheight, le_refl _⟩
    · obtain ⟨hlow, hhigh⟩ := ratio_mem y.min y.max p.y
      rw [ratio] at hlow hhigh
      have h1 := mul_nonneg hlow hheight
      have h2 := mul_le_mul_of_nonneg_right hhigh hheight
      constructor <;> linarith
  exact ⟨hx.1, hx.2, hy.1, hy.2⟩

/-- A later time is drawn no further to the left. -/
theorem mapX_mono (hwidth : 0 ≤ plot.width) (x : AxisScale) (hvw : v ≤ w) :
    mapX v x plot ≤ mapX w x plot := by
  rw [mapX, mapX]
  split
  · exact le_refl _
  next hspan =>
    have hratio := ratio_mono (sub_pos.mp (not_le.mp hspan)) hvw
    rw [ratio, ratio] at hratio
    exact add_le_add_right (mul_le_mul_of_nonneg_right hratio hwidth) _

/-- Grid lines of a scale, at equal distances over its whole length. -/
theorem FromZero.grid (h : FromZero high scale) {place : ℚ → ℚ} {origin length : ℚ}
    (hplace : ∀ v, 0 ≤ v → v ≤ scale.max → place v = origin + v / scale.max * length) :
    ∃ n : Nat, 1 ≤ n ∧ (axisTicks scale).map place
      = (List.range (n + 1)).map (fun i : Nat => origin + (i : ℚ) / n * length) := by
  obtain ⟨n, hn, hticks, hmax⟩ := h.intervals
  have hnq : (0 : ℚ) < n := by exact_mod_cast hn
  have hstep : 0 < scale.tickStep := by
    have hpos := h.pos
    rw [hmax] at hpos
    exact (mul_pos_iff_of_pos_left hnq).mp hpos
  refine ⟨n, hn, ?_⟩
  rw [hticks, points, List.map_map]
  refine List.map_congr_left (fun i hi => ?_)
  have hin : (i : ℚ) ≤ n := by exact_mod_cast Nat.lt_succ_iff.mp (List.mem_range.mp hi)
  have hnonneg : 0 ≤ 0 + (i : ℚ) * scale.tickStep := by
    rw [zero_add]
    exact mul_nonneg (Nat.cast_nonneg i) hstep.le
  have hle : 0 + (i : ℚ) * scale.tickStep ≤ scale.max := by
    rw [zero_add, hmax]
    exact mul_le_mul_of_nonneg_right hin hstep.le
  rw [Function.comp_apply, hplace _ hnonneg hle, zero_add, hmax,
    mul_div_mul_right _ _ hstep.ne']

end Picture

/-! ## The series -/

section Series

variable {history : List MetricsSnapshot} {metric : ChartMetric} {p : ChartPoint}
variable {series : List ChartSeries} {one : ChartSeries}

theorem metricValue_nonneg (metrics : PerJobMetrics) (metric : ChartMetric) :
    0 ≤ metricValue metrics metric := by
  cases metric <;> exact Nat.cast_nonneg _

/-- A point is a sample, or the start of the run. -/
theorem mem_extractSeries (h : p ∈ (extractSeries history metric).points) :
    (p.x = 0 ∧ p.y = 0) ∨ ∃ snapshot ∈ history, p.x = snapshot.elapsedSeconds
      ∧ p.y = metricValue snapshot.aggregate metric := by
  cases history with
  | nil => exact absurd h List.not_mem_nil
  | cons front rest =>
      rcases List.mem_append.mp h with hstart | hsample
      · split at hstart
        · rw [List.mem_singleton.mp hstart]
          exact .inl ⟨rfl, rfl⟩
        · exact absurd hstart List.not_mem_nil
      · obtain ⟨snapshot, hmem, rfl⟩ := List.mem_map.mp hsample
        exact .inr ⟨snapshot, hmem, rfl, rfl⟩

/-- Samples in time order make a line that runs to the right. -/
theorem extractSeries_ordered
    (hordered : history.Pairwise (fun s t => s.elapsedSeconds ≤ t.elapsedSeconds))
    (hnonneg : ∀ s ∈ history, 0 ≤ s.elapsedSeconds) :
    (extractSeries history metric).points.Pairwise (fun p q => p.x ≤ q.x) := by
  cases history with
  | nil => exact List.Pairwise.nil
  | cons front rest =>
      refine List.pairwise_append.mpr ⟨?_, List.pairwise_map.mpr hordered, ?_⟩
      · split
        · exact List.pairwise_singleton _ _
        · exact List.Pairwise.nil
      · intro p hp q hq
        obtain ⟨snapshot, hmem, rfl⟩ := List.mem_map.mp hq
        split at hp
        · rw [List.mem_singleton.mp hp]
          exact hnonneg snapshot hmem
        · exact absurd hp List.not_mem_nil

/-- By induction on the points: the highest is above them all. -/
theorem le_foldl_max (points : List ChartPoint) (highest : ℚ) :
    highest ≤ points.foldl (fun highest point => max highest point.y) highest
      ∧ ∀ p ∈ points, p.y ≤ points.foldl (fun highest point => max highest point.y) highest := by
  induction points generalizing highest with
  | nil => exact ⟨le_refl _, fun p hp => absurd hp List.not_mem_nil⟩
  | cons q rest ih =>
      obtain ⟨hstart, hrest⟩ := ih (max highest q.y)
      refine ⟨(le_max_left _ _).trans hstart, fun p hp => ?_⟩
      rcases List.mem_cons.mp hp with rfl | hp
      · exact (le_max_right _ _).trans hstart
      · exact hrest p hp

/-- `MaxY` is above all points, and not below zero. -/
theorem le_maxY (series : List ChartSeries) :
    0 ≤ maxY series ∧ ∀ one ∈ series, ∀ p ∈ one.points, p.y ≤ maxY series := by
  have hfold (highest : ℚ) :
      highest ≤ series.foldl (fun highest one =>
          one.points.foldl (fun highest point => max highest point.y) highest) highest
        ∧ ∀ one ∈ series, ∀ p ∈ one.points, p.y ≤ series.foldl (fun highest one =>
          one.points.foldl (fun highest point => max highest point.y) highest) highest := by
    induction series generalizing highest with
    | nil => exact ⟨le_refl _, fun one hone => absurd hone List.not_mem_nil⟩
    | cons one rest ih =>
        obtain ⟨hstart, hpoints⟩ := le_foldl_max one.points highest
        obtain ⟨hfirst, hrest⟩ := ih
          (one.points.foldl (fun highest point => max highest point.y) highest)
        refine ⟨hstart.trans hfirst, fun other hother p hp => ?_⟩
        rcases List.mem_cons.mp hother with rfl | hother
        · exact (hpoints p hp).trans hfirst
        · exact hrest other hother p hp
  exact hfold 0

/-- The rounded length of a history is at most half a second short. -/
theorem elapsed_le_duration
    (hordered : history.Pairwise (fun s t => s.elapsedSeconds ≤ t.elapsedSeconds))
    (hnonneg : ∀ s ∈ history, 0 ≤ s.elapsedSeconds) {s : MetricsSnapshot} (hs : s ∈ history) :
    s.elapsedSeconds ≤ seriesDurationSeconds history + 1 / 2 := by
  obtain ⟨front, last, rfl⟩ : ∃ front last, history = front ++ [last] :=
    ⟨_, _, (List.dropLast_append_getLast (List.ne_nil_of_mem hs)).symm⟩
  have hlast : s.elapsedSeconds ≤ last.elapsedSeconds := by
    rcases List.mem_append.mp hs with hs | hs
    · exact (List.pairwise_append.mp hordered).2.2 s hs last (List.mem_singleton_self last)
    · rw [List.mem_singleton.mp hs]
  have hround := Int.lt_floor_add_one (last.elapsedSeconds + 1 / 2)
  rw [← llround_of_nonneg (hnonneg last (List.mem_append_right _ (List.mem_singleton_self last)))]
    at hround
  have hduration : (llround last.elapsedSeconds : ℚ) ≤ seriesDurationSeconds (front ++ [last]) := by
    rw [seriesDurationSeconds, List.getLast?_concat]
    exact le_max_left _ _
  linarith

end Series

/-! ## The chart -/

/-- The line drawn of a series: nothing leaves the plot, heights are true to scale, and time
    runs to the right, up to the end of the axis, which the run exceeds by half a second at the
    most. -/
structure DrawnTrue (widget : QtGraphWidget) (plot : ChartRect) (one : ChartSeries)
    (line : List ChartPoint) : Prop where
  inside : ∀ p ∈ line, InPlot plot p
  rightwards : line.Pairwise (fun p q => p.x ≤ q.x)
  to_scale : line = one.points.map (fun p =>
    { x := plot.left + min p.x widget.xScale.max / widget.xScale.max * plot.width
      y := plot.top + plot.height - p.y / widget.yScale.max * plot.height })
  cut : ∀ p ∈ one.points, p.x ≤ widget.xScale.max + 1 / 2

/-- Grid lines cut a length into equal parts. -/
def EvenGrid (origin length : ℚ) (lines : List ℚ) : Prop :=
  ∃ n : Nat, 1 ≤ n
    ∧ lines = (List.range (n + 1)).map (fun i : Nat => origin + (i : ℚ) / n * length)

/-- A chart that can be read: all series are drawn to the same scales inside the plot, and the
    grid lines divide it evenly from end to end. -/
structure ChartTrue (widget : QtGraphWidget) (plot : ChartRect) : Prop where
  lines : ∀ one ∈ widget.series,
    DrawnTrue widget plot one (mapPoints one.points widget.xScale widget.yScale plot)
  columns : EvenGrid plot.left plot.width
    ((axisTicks widget.xScale).map (mapX · widget.xScale plot))
  rows : EvenGrid (plot.top + plot.height) (-plot.height)
    ((axisTicks widget.yScale).map (mapY · widget.yScale plot))

section Chart

variable {history : List MetricsSnapshot}

/-- The line of one metric, on scales that hold it. -/
theorem drawnTrue_extractSeries {widget : QtGraphWidget} {plot : ChartRect}
    {metric : ChartMetric} {highest : ℚ}
    (hordered : history.Pairwise (fun s t => s.elapsedSeconds ≤ t.elapsedSeconds))
    (hnonneg : ∀ s ∈ history, 0 ≤ s.elapsedSeconds)
    (hwidth : 0 ≤ plot.width) (hheight : 0 ≤ plot.height)
    (hx : FromZero (seriesDurationSeconds history) widget.xScale)
    (hy : FromZero highest widget.yScale)
    (hbelow : ∀ p ∈ (extractSeries history metric).points, p.y ≤ highest) :
    DrawnTrue widget plot (extractSeries history metric)
      (mapPoints (extractSeries history metric).points widget.xScale widget.yScale plot) := by
  have hpoint : ∀ p ∈ (extractSeries history metric).points, 0 ≤ p.x ∧ 0 ≤ p.y
      ∧ p.x ≤ widget.xScale.max + 1 / 2 := by
    intro p hp
    have hmax := hx.le_max
    have hpos := hx.pos
    rcases mem_extractSeries hp with ⟨hpx, hpy⟩ | ⟨snapshot, hs, hpx, hpy⟩
    · rw [hpx, hpy]
      exact ⟨le_refl _, le_refl _, by linarith⟩
    · have hshort := elapsed_le_duration hordered hnonneg hs
      rw [hpx, hpy]
      exact ⟨hnonneg snapshot hs, metricValue_nonneg _ _, by linarith⟩
  refine ⟨?_, ?_, ?_, fun p hp => (hpoint p hp).2.2⟩
  · intro p hp
    obtain ⟨q, -, rfl⟩ := List.mem_map.mp hp
    exact mapPoint_inPlot hwidth hheight _ _ q
  · refine List.pairwise_map.mpr ((extractSeries_ordered hordered hnonneg).imp ?_)
    exact fun h => mapX_mono hwidth _ h
  · refine List.map_congr_left (fun p hp => ?_)
    obtain ⟨hpx, hpy, -⟩ := hpoint p hp
    rw [hx.mapX_eq hpx, hy.mapY_eq hpy (hbelow p hp)]

end Chart

end CfioChart
