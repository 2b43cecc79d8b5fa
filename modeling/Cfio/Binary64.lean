import Mathlib.Data.Int.Log
import Mathlib.Data.Rat.Floor
import Mathlib.Tactic.Linarith
import Mathlib.Tactic.Ring

/-! # Binary floating point

    A `double` has 53 significant bits.  The result of one operation is the exact one,
    rounded to the nearest number with so many bits, halfway cases to the even one
    (`nearest`).  The exponent is not bounded here: this is the arithmetic of `double` as
    long as nothing overflows or falls below the normal numbers.

    A rounded result is off by at most one part in 2^53 (`abs_nearest_sub_le`), and it
    does not leave an interval from zero to a small whole number (`nearest_nonneg`,
    `nearest_le_natCast`). -/

namespace Binary64

/-! ## Whole numbers -/

/-- The nearest whole number, halves to the even one. -/
def roundHalfEven (q : ℚ) : ℤ :=
  if Int.fract q < 1 / 2 then ⌊q⌋
  else if 1 / 2 < Int.fract q then ⌊q⌋ + 1
  else if ⌊q⌋ % 2 = 0 then ⌊q⌋
  else ⌊q⌋ + 1

section RoundHalfEven

variable {q : ℚ} {n : ℤ}

/-- Either the floor, from the middle down, or the next number, from the middle up. -/
theorem roundHalfEven_cases (q : ℚ) :
    (roundHalfEven q = ⌊q⌋ ∧ Int.fract q ≤ 1 / 2)
      ∨ (roundHalfEven q = ⌊q⌋ + 1 ∧ 1 / 2 ≤ Int.fract q) := by
  rw [roundHalfEven]
  by_cases hlow : Int.fract q < 1 / 2
  · rw [if_pos hlow]
    exact .inl ⟨rfl, hlow.le⟩
  · rw [if_neg hlow]
    have hmid : 1 / 2 ≤ Int.fract q := not_lt.mp hlow
    by_cases hhigh : 1 / 2 < Int.fract q
    · rw [if_pos hhigh]
      exact .inr ⟨rfl, hmid⟩
    · rw [if_neg hhigh]
      by_cases heven : ⌊q⌋ % 2 = 0
      · rw [if_pos heven]
        exact .inl ⟨rfl, not_lt.mp hhigh⟩
      · rw [if_neg heven]
        exact .inr ⟨rfl, hmid⟩

/-- It is at most half a unit away. -/
theorem abs_roundHalfEven_sub_le (q : ℚ) : |(roundHalfEven q : ℚ) - q| ≤ 1 / 2 := by
  have hparts := Int.floor_add_fract q
  have hnonneg := Int.fract_nonneg q
  have hlt := Int.fract_lt_one q
  rcases roundHalfEven_cases q with ⟨hround, hfract⟩ | ⟨hround, hfract⟩
  · rw [hround, abs_le]
    constructor
    · linarith
    · linarith
  · rw [hround, abs_le]
    push_cast
    constructor
    · linarith
    · linarith

/-- Rounding does not pass a whole number. -/
theorem roundHalfEven_le (h : q ≤ n) : roundHalfEven q ≤ n := by
  rcases roundHalfEven_cases q with ⟨hround, -⟩ | ⟨hround, hfract⟩
  · rw [hround]
    exact Int.floor_le_iff.mpr (by linarith)
  · -- a number with a fraction is below the whole number, by more than its floor is
    have hlt : ⌊q⌋ < n := by
      have hparts := Int.floor_add_fract q
      have hcast : ((⌊q⌋ : ℤ) : ℚ) < n := by linarith
      exact_mod_cast hcast
    rw [hround]
    exact hlt

theorem le_roundHalfEven (h : (n : ℚ) ≤ q) : n ≤ roundHalfEven q := by
  have hfloor := Int.le_floor.mpr h
  rcases roundHalfEven_cases q with ⟨hround, -⟩ | ⟨hround, -⟩
  · rw [hround]
    exact hfloor
  · rw [hround]
    exact hfloor.trans (Int.le_add_one le_rfl)

end RoundHalfEven

/-! ## Numbers with 53 bits -/

/-- How far apart the numbers with 53 bits are where `q` is. -/
def spacing (q : ℚ) : ℚ := 2 ^ (Int.log 2 |q| - 52)

/-- The nearest number with 53 bits, of two equally near the even one. -/
def nearest (q : ℚ) : ℚ := roundHalfEven (q / spacing q) * spacing q

section Nearest

variable {q : ℚ} {n : ℕ}

theorem spacing_pos (q : ℚ) : 0 < spacing q := zpow_pos (by norm_num) _

/-- The leading bit of a number is 2^52 times the spacing. -/
theorem two_pow_mul_spacing (q : ℚ) :
    2 ^ 52 * spacing q = 2 ^ Int.log 2 |q| := by
  rw [spacing, zpow_sub₀ (by norm_num), zpow_ofNat, mul_div_cancel₀ _ (by norm_num)]

/-- The spacing is at most one part in 2^52. -/
theorem spacing_le (h : q ≠ 0) : spacing q ≤ |q| / 2 ^ 52 := by
  have hlog := Int.zpow_log_le_self (b := 2) (by decide) (abs_pos.mpr h)
  rw [Nat.cast_ofNat, ← two_pow_mul_spacing] at hlog
  rw [le_div_iff₀ (by norm_num)]
  linarith

/-- **An operation is off by at most one part in 2^53.** -/
theorem abs_nearest_sub_le (q : ℚ) : |nearest q - q| ≤ |q| / 2 ^ 53 := by
  by_cases h : q = 0
  · rw [h]
    decide +kernel
  · have hpos := spacing_pos q
    have herror : nearest q - q = (roundHalfEven (q / spacing q) - q / spacing q) * spacing q := by
      rw [sub_mul, div_mul_cancel₀ _ hpos.ne', nearest]
    rw [herror, abs_mul, abs_of_pos hpos]
    calc |(roundHalfEven (q / spacing q) : ℚ) - q / spacing q| * spacing q
        ≤ 1 / 2 * (|q| / 2 ^ 52) :=
          mul_le_mul (abs_roundHalfEven_sub_le _) (spacing_le h) hpos.le (by norm_num)
      _ = |q| / 2 ^ 53 := by ring

theorem nearest_nonneg (h : 0 ≤ q) : 0 ≤ nearest q := by
  have hpos := spacing_pos q
  have hround : (0 : ℤ) ≤ roundHalfEven (q / spacing q) :=
    le_roundHalfEven (by rw [Int.cast_zero]; exact div_nonneg h hpos.le)
  exact mul_nonneg (by exact_mod_cast hround) hpos.le

/-- A small whole number is a number with 53 bits, also where they are closer. -/
theorem exists_natCast_eq_mul_spacing (hn : n < 2 ^ 53) (hpos : 0 < q) (h : q ≤ n) :
    ∃ m : ℤ, (n : ℚ) = m * spacing q := by
  have hn0 : n ≠ 0 := by
    rintro rfl
    rw [Nat.cast_zero] at h
    exact absurd hpos (not_lt.mpr h)
  have hlog : Int.log 2 |q| ≤ 52 := by
    rw [abs_of_pos hpos]
    calc Int.log 2 q ≤ Int.log 2 (n : ℚ) := Int.log_mono_right hpos h
      _ = Nat.log 2 n := Int.log_natCast 2 n
      _ ≤ 52 := by exact_mod_cast Nat.lt_succ_iff.mp (Nat.log_lt_of_lt_pow hn0 hn)
  obtain ⟨k, hk⟩ := Int.eq_ofNat_of_zero_le (sub_nonneg.mpr hlog)
  refine ⟨n * 2 ^ k, ?_⟩
  have hexp : Int.log 2 |q| - 52 = -(k : ℤ) := by omega
  rw [spacing, hexp, zpow_neg, zpow_natCast]
  push_cast
  rw [mul_assoc, mul_inv_cancel₀ (by positivity), mul_one]

/-- A result below a small whole number is rounded to one that is. -/
theorem nearest_le_natCast (hn : n < 2 ^ 53) (h0 : 0 ≤ q) (h : q ≤ n) : nearest q ≤ n := by
  rcases h0.eq_or_lt with rfl | hpos
  · exact (abs_nonpos_iff.mp (by simpa using abs_nearest_sub_le 0)).le.trans (Nat.cast_nonneg n)
  · obtain ⟨m, hm⟩ := exists_natCast_eq_mul_spacing hn hpos h
    have hround : roundHalfEven (q / spacing q) ≤ m := by
      refine roundHalfEven_le ?_
      rw [div_le_iff₀ (spacing_pos q), ← hm]
      exact h
    rw [hm]
    exact mul_le_mul_of_nonneg_right (by exact_mod_cast hround) (spacing_pos q).le

end Nearest

end Binary64
