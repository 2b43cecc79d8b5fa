import Cfio.Binary64
import Cfio.LinearScale
import Cfio.MetricsSnapshot

/-! # The progress bar

    `FormatProgressBar` computes with `double`s: the fraction of the runtime, the cells that
    are filled and the percentage are each rounded to 53 bits (`Binary64`).  The cells are
    always as many as they should be, and the percentage is the nearest but for these
    roundings (`progress_filled`, `progress_percent`). -/

namespace CfioDisplay

open CfioMetrics LinearScale

def kBarFull : Char := '█'
def kBarEmpty : Char := '░'

/-- Repeat a glyph. -/
def repeatGlyph (glyph : Char) (count : Int) : String :=
  if count ≤ 0 then "" else String.ofList (List.replicate count.toNat glyph)

/-- `static_cast<int>` of a `double`. -/
def truncate (q : ℚ) : Int := if 0 ≤ q then ⌊q⌋ else ⌈q⌉

/-- How much of the run is over. -/
def progressFraction (elapsed total : Int32) : ℚ :=
  if total > 0 then clamp (Binary64.nearest ((elapsed.toInt : ℚ) / total.toInt)) 0 1 else 0

/-- The cells of the bar that are filled. -/
def progressFilled (elapsed total : Int32) (width : Int) : Int :=
  truncate (Binary64.nearest (progressFraction elapsed total * width))

/-- The percentage beside the bar. -/
def progressPercent (elapsed total : Int32) : Int :=
  llround (Binary64.nearest (progressFraction elapsed total * 100))

def formatProgressBar (elapsed total : Int32) (width : Int) : String :=
  let filled := progressFilled elapsed total width
  let pct := progressPercent elapsed total
  "[" ++ repeatGlyph kBarFull filled ++ repeatGlyph kBarEmpty (width - filled) ++ "] "
    ++ repeatGlyph ' ' (3 - pct.repr.length) ++ pct.repr ++ "%"

-- the nearest `double` to 23/40 is below it, and so is a hundred times as much to 57.5
example : formatProgressBar 23 40 10 = "[█████░░░░░]  57%" := by decide +kernel

example : formatProgressBar 41 40 10 = "[██████████] 100%" := by decide +kernel

section Progress

variable {elapsed total : Int32} {width : Nat} {q r : ℚ}

/-- Truncation goes down from what is not negative. -/
theorem truncate_mem {n : Nat} (h0 : 0 ≤ q) (h : q ≤ n) : 0 ≤ truncate q ∧ truncate q ≤ n := by
  rw [truncate, if_pos h0]
  refine ⟨Int.floor_nonneg.mpr h0, ?_⟩
  have hle : ((⌊q⌋ : Int) : ℚ) ≤ n := (Int.floor_le q).trans h
  exact_mod_cast hle

theorem progressFraction_mem (elapsed total : Int32) :
    0 ≤ progressFraction elapsed total ∧ progressFraction elapsed total ≤ 1 := by
  rw [progressFraction]
  split
  · exact clamp_mem zero_le_one _
  · exact ⟨le_refl 0, zero_le_one⟩

/-- A part of a small whole number is not more than it, however it is rounded. -/
theorem nearest_part_mem {n : Nat} (hn : n < 2 ^ 53) (h : 0 ≤ q ∧ q ≤ 1) :
    0 ≤ Binary64.nearest (q * n) ∧ Binary64.nearest (q * n) ≤ n := by
  have hn0 : (0 : ℚ) ≤ n := Nat.cast_nonneg n
  have h0 : 0 ≤ q * n := mul_nonneg h.1 hn0
  exact ⟨Binary64.nearest_nonneg h0,
    Binary64.nearest_le_natCast hn h0 (mul_le_of_le_one_left hn0 h.2)⟩

/-- **The bar does not overflow.** -/
theorem progress_filled (elapsed total : Int32) (hwidth : width < 2 ^ 53) :
    0 ≤ progressFilled elapsed total width ∧ progressFilled elapsed total width ≤ width := by
  obtain ⟨h0, hle⟩ := nearest_part_mem hwidth (progressFraction_mem elapsed total)
  exact truncate_mem h0 hle

/-- **The bar has the cells it should have**, in front of the percentage. -/
theorem formatProgressBar_cells (elapsed total : Int32) (hwidth : width < 2 ^ 53) :
    ∃ filled, filled ≤ width
      ∧ formatProgressBar elapsed total width
        = "[" ++ String.ofList (List.replicate filled kBarFull)
          ++ String.ofList (List.replicate (width - filled) kBarEmpty) ++ "] "
          ++ repeatGlyph ' ' (3 - (progressPercent elapsed total).repr.length)
          ++ (progressPercent elapsed total).repr ++ "%" := by
  obtain ⟨h0, hle⟩ := progress_filled elapsed total hwidth
  have hglyphs (glyph : Char) {count : Int} {n : Nat} (h : count = n) :
      repeatGlyph glyph count = String.ofList (List.replicate n glyph) := by
    rw [repeatGlyph, h, Int.toNat_natCast]
    split
    next hnone =>
      rw [show n = 0 by omega]
      rfl
    next => rfl
  obtain ⟨filled, hfilled⟩ := Int.eq_ofNat_of_zero_le h0
  refine ⟨filled, by omega, ?_⟩
  rw [formatProgressBar, hglyphs kBarFull hfilled,
    hglyphs kBarEmpty (n := width - filled) (by omega)]

/-- How much of a run is over, exactly. -/
theorem elapsed_div_total_mem (h0 : 0 ≤ elapsed.toInt) (hle : elapsed.toInt ≤ total.toInt) :
    (0 : ℚ) ≤ (elapsed.toInt : ℚ) / total.toInt ∧ (elapsed.toInt : ℚ) / total.toInt ≤ 1 := by
  have he : (0 : ℚ) ≤ elapsed.toInt := by exact_mod_cast h0
  have ht : (elapsed.toInt : ℚ) ≤ total.toInt := by exact_mod_cast hle
  exact ⟨div_nonneg he (he.trans ht), div_le_one_of_le₀ ht (he.trans ht)⟩

/-- The fraction of a run is the exact one, rounded. -/
theorem progressFraction_eq (h0 : 0 ≤ elapsed.toInt) (hle : elapsed.toInt ≤ total.toInt)
    (hpos : total > 0) :
    progressFraction elapsed total = Binary64.nearest ((elapsed.toInt : ℚ) / total.toInt) := by
  have hnearest := nearest_part_mem (n := 1) (by norm_num) (elapsed_div_total_mem h0 hle)
  rw [Nat.cast_one, mul_one] at hnearest
  rw [progressFraction, if_pos hpos, clamp_of_mem hnearest.1 hnearest.2]

/-- **The percentage is the nearest**, but for the two roundings to 53 bits. -/
theorem progress_percent (h0 : 0 ≤ elapsed.toInt) (hle : elapsed.toInt ≤ total.toInt)
    (hpos : total > 0) :
    |(progressPercent elapsed total : ℚ) - 100 * ((elapsed.toInt : ℚ) / total.toInt)|
      ≤ 1 / 2 + 1 / 2 ^ 45 := by
  have hmem := progressFraction_mem elapsed total
  have hround := abs_llround_sub_le (nearest_part_mem (n := 100) (by norm_num) hmem).1
  have hproduct := Binary64.abs_nearest_sub_le (progressFraction elapsed total * 100)
  have hquotient := Binary64.abs_nearest_sub_le ((elapsed.toInt : ℚ) / total.toInt)
  obtain ⟨hpart0, hpart1⟩ := elapsed_div_total_mem h0 hle
  rw [← progressFraction_eq h0 hle hpos, abs_of_nonneg hpart0, abs_le] at hquotient
  rw [abs_of_nonneg (mul_nonneg hmem.1 (by norm_num)), abs_le] at hproduct
  rw [Nat.cast_ofNat, abs_le] at hround
  rw [progressPercent, abs_le]
  constructor
  · linarith [hmem.2]
  · linarith [hmem.2]

end Progress

end CfioDisplay
