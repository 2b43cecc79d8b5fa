import Mathlib.Data.Rat.Floor
import Mathlib.Tactic.Linarith
import Cfio.Types

/-! # Metrics of one sample

    The rows a sample consists of, and how counters become rates.  Seconds and
    rates are `double` in the code; here they are exact rationals. -/

namespace CfioMetrics

open CfioTypes

/-- Live performance metrics for one job. -/
structure PerJobMetrics where
  jobName : String := ""
  iopsInstant : UInt64 := 0
  iopsCumulative : UInt64 := 0
  bwInstant : UInt64 := 0
  bwCumulative : UInt64 := 0
  latP50Ns : UInt64 := 0
  latP95Ns : UInt64 := 0
  latP99Ns : UInt64 := 0
  readErrors : UInt64 := 0
  writeErrors : UInt64 := 0
  deriving DecidableEq, Repr

/-- One sample of live metrics across all jobs. -/
structure MetricsSnapshot where
  timestamp : TimePoint := 0
  elapsedSeconds : ℚ := 0
  jobs : List PerJobMetrics := []
  aggregate : PerJobMetrics := {}
  deriving DecidableEq, Repr

/-- `std::llround`: to the nearest integer, halves away from zero. -/
def llround (value : ℚ) : Int :=
  if 0 ≤ value then ⌊value + 1 / 2⌋ else ⌈value - 1 / 2⌉

/-- The shortest span a rate is computed over, in seconds. -/
def kMinElapsed : ℚ := 1 / 1000000000

/-- Fractional seconds between two time points, floored. -/
def elapsedSeconds (begin_ end_ : TimePoint) : ℚ :=
  max (((end_ - begin_ : Int) : ℚ) / 1000000000) kMinElapsed

/-- Round a non negative rate to an integer.  The rate is taken as exact, and `std::llround` is
    for those below 2^63. -/
def roundRate (value : ℚ) : UInt64 :=
  if value ≤ 0 then 0 else UInt64.ofInt (llround value)

/-! ## Rounding -/

section Rounding

variable {p q : ℚ}

theorem llround_of_nonneg (h : 0 ≤ p) : llround p = ⌊p + 1 / 2⌋ := if_pos h

theorem llround_mono (hp : 0 ≤ p) (hpq : p ≤ q) : llround p ≤ llround q := by
  rw [llround_of_nonneg hp, llround_of_nonneg (le_trans hp hpq)]
  exact Int.floor_le_floor (by linarith)

theorem llround_of_lt_half (h : 0 ≤ p) (hlt : p < 1 / 2) : llround p = 0 := by
  rw [llround_of_nonneg h, Int.floor_eq_iff]
  constructor
  · push_cast
    linarith
  · push_cast
    linarith

/-- It is at most half a unit away. -/
theorem abs_llround_sub_le (h : 0 ≤ p) : |(llround p : ℚ) - p| ≤ 1 / 2 := by
  have hfloor := Int.floor_le (p + 1 / 2)
  have hceil := Int.lt_floor_add_one (p + 1 / 2)
  rw [llround_of_nonneg h, abs_le]
  constructor
  · linarith
  · linarith

/-- Whole numbers stay. -/
theorem llround_natCast (n : Nat) : llround (n : ℚ) = n := by
  rw [llround_of_nonneg (Nat.cast_nonneg n), Int.floor_eq_iff]
  constructor
  · push_cast
    linarith
  · push_cast
    linarith

end Rounding

end CfioMetrics
