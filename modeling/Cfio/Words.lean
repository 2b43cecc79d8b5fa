import Mathlib.Data.Nat.Basic
import Mathlib.Data.List.Basic
import Mathlib.Algebra.Order.Ring.Nat

/-! # 64-bit words as numbers

    Wrap-around arithmetic on `UInt64` agrees with arithmetic on `Nat` as long as
    nothing wraps.  `NoWrapAdd` and `NoWrapMul` say that a given operation does
    not; the lemmas below turn such an operation into the operation on `Nat`.
    Casts between the signed and the unsigned word keep the value in the range
    the two share, and lose nothing outside of it. -/

namespace Words

/-- The sum fits in 64 bits. -/
def NoWrapAdd (a b : UInt64) : Prop := a.toNat + b.toNat < 2 ^ 64

/-- The product fits in 64 bits. -/
def NoWrapMul (a b : UInt64) : Prop := a.toNat * b.toNat < 2 ^ 64

theorem NoWrapAdd.toNat {a b : UInt64} (h : NoWrapAdd a b) :
    (a + b).toNat = a.toNat + b.toNat := by
  rw [UInt64.toNat_add]
  exact Nat.mod_eq_of_lt h

theorem NoWrapMul.toNat {a b : UInt64} (h : NoWrapMul a b) :
    (a * b).toNat = a.toNat * b.toNat := by
  rw [UInt64.toNat_mul]
  exact Nat.mod_eq_of_lt h

/-- A difference of words, the smaller taken from the larger. -/
theorem toNat_sub_of_le {a b : UInt64} (h : b.toNat ≤ a.toNat) :
    (a - b).toNat = a.toNat - b.toNat := by
  have ha := UInt64.toNat_lt a
  rw [UInt64.toNat_sub]
  omega

theorem toNat_min (a b : UInt64) : (min a b).toNat = min a.toNat b.toNat := by
  show (if a ≤ b then a else b).toNat = _
  by_cases h : a ≤ b
  · rw [if_pos h]
    rw [UInt64.le_iff_toNat_le] at h
    exact (Nat.min_eq_left h).symm
  · rw [if_neg h]
    rw [UInt64.le_iff_toNat_le] at h
    exact (Nat.min_eq_right (Nat.le_of_not_le h)).symm

theorem toNat_pos_of_ne {x : UInt64} (h : x ≠ 0) : 0 < x.toNat := by
  have h0 : x.toNat ≠ 0 := by
    intro hx
    exact h (UInt64.toNat_inj.mp (by rw [hx]; rfl))
  omega

theorem ne_zero_of_toNat_pos {x : UInt64} (h : 0 < x.toNat) : x ≠ 0 := by
  intro hx
  rw [hx] at h
  exact absurd h (by decide)

/-- A word that is not zero has a single bit if and only if it is a power of two. -/
theorem and_sub_one_eq_zero_iff {a : UInt64} (h : a ≠ 0) :
    a &&& (a - 1) = 0 ↔ a.toNat.isPowerOfTwo := by
  have hpos := toNat_pos_of_ne h
  rw [← Nat.and_sub_one_eq_zero_iff_isPowerOfTwo (Nat.pos_iff_ne_zero.mp hpos),
    ← UInt64.toNat_inj, UInt64.toNat_and,
    toNat_sub_of_le (show (1 : UInt64).toNat ≤ a.toNat from hpos)]
  rfl

/-- A remainder of zero is divisibility. -/
theorem dvd_of_mod_eq {x a : UInt64} (h : x % a = 0) : a.toNat ∣ x.toNat := by
  have hm : (x % a).toNat = (0 : UInt64).toNat := congrArg UInt64.toNat h
  rw [UInt64.toNat_mod] at hm
  exact Nat.dvd_of_mod_eq_zero hm

/-- Rounding down to a multiple never wraps. -/
theorem noWrapMul_div (x a : UInt64) : NoWrapMul (x / a) a := by
  have hx := UInt64.toNat_lt x
  have hle := Nat.div_mul_le_self x.toNat a.toNat
  show (x / a).toNat * a.toNat < 2 ^ 64
  rw [UInt64.toNat_div]
  omega

/-- Rounding down, as a number. -/
theorem toNat_div_mul (x a : UInt64) :
    (x / a * a).toNat = x.toNat / a.toNat * a.toNat := by
  rw [(noWrapMul_div x a).toNat, UInt64.toNat_div]

/-- A division-based overflow test is exact. -/
theorem noWrapMul_of_le_div {a b m : UInt64} (h : b.toNat ≤ m.toNat / a.toNat) :
    NoWrapMul a b := by
  have hm := UInt64.toNat_lt m
  have h1 : a.toNat * b.toNat ≤ a.toNat * (m.toNat / a.toNat) :=
    Nat.mul_le_mul_left _ h
  have h2 := Nat.mul_div_le m.toNat a.toNat
  show a.toNat * b.toNat < 2 ^ 64
  omega

/-! ## Signed and unsigned -/

/-- Below `2 ^ 63` the signed word is the same number. -/
theorem toInt_toInt64 {x : UInt64} (h : x.toNat < 2 ^ 63) :
    x.toInt64.toInt = (x.toNat : Int) := by
  show x.toBitVec.toInt = _
  rw [BitVec.toInt_eq_toNat_of_lt]
  · rfl
  · show 2 * x.toNat < 2 ^ 64
    omega

/-- The cast to the signed word loses nothing. -/
theorem toInt64_inj {x y : UInt64} (h : x.toInt64 = y.toInt64) : x = y := by
  have hxy : x.toInt64.toUInt64 = y.toInt64.toUInt64 := congrArg Int64.toUInt64 h
  rw [UInt64.toUInt64_toInt64, UInt64.toUInt64_toInt64] at hxy
  exact hxy

/-- A signed word that is not negative is the same number unsigned. -/
theorem toNat_toUInt64_of_nonneg {x : Int64} (h : 0 ≤ x.toInt) :
    (x.toUInt64.toNat : Int) = x.toInt := by
  have hc : x.toInt = _ := BitVec.toInt_eq_toNat_cond x.toBitVec
  have hn : x.toUInt64.toNat = x.toBitVec.toNat := rfl
  have hlt := x.toBitVec.isLt
  rw [hn]
  split at hc <;> omega

/-- A signed word that is not negative equals a word just when the numbers are equal. -/
theorem toUInt64_eq_iff {x : Int64} {y : UInt64} (h : 0 ≤ x.toInt) :
    x.toUInt64 = y ↔ x.toInt = (y.toNat : Int) := by
  rw [← toNat_toUInt64_of_nonneg h]
  exact ⟨fun heq => by rw [heq], fun heq => UInt64.toNat_inj.mp (Int.ofNat_inj.mp heq)⟩

/-- A signed word, reduced to an unsigned one. -/
theorem ofInt_toInt (x : Int64) : UInt64.ofInt x.toInt = x.toUInt64 := by
  have hc : x.toInt = _ := BitVec.toInt_eq_toNat_cond x.toBitVec
  have hn : x.toUInt64.toNat = x.toBitVec.toNat := rfl
  have hlt := x.toBitVec.isLt
  refine UInt64.toNat_inj.mp ?_
  rw [hn, UInt64.ofInt, UInt64.toNat_ofNat']
  split at hc <;> omega

/-- A number that fits is kept. -/
theorem toNat_ofInt {i : Int} (h : 0 ≤ i) (hlt : i < 2 ^ 64) :
    ((UInt64.ofInt i).toNat : Int) = i := by
  rw [UInt64.ofInt, UInt64.toNat_ofNat']
  omega

/-! ## Counting -/

/-- How many numbers below `m` lie in a window of length `k` that starts at
    `b`. -/
theorem countP_window (b k m : Nat) :
    (List.range m).countP (fun x => decide (b ≤ x ∧ x < b + k))
      = min (b + k) m - min b m := by
  induction m with
  | zero => simp
  | succ m ih =>
      rw [List.range_succ, List.countP_append, ih, List.countP_singleton]
      by_cases hm : b ≤ m ∧ m < b + k
      · rw [if_pos (decide_eq_true hm)]
        omega
      · rw [if_neg (by simpa using hm)]
        omega

/-- Rounding down gives `b` on a window of its own. -/
theorem div_mul_eq_iff {a b x : Nat} (ha : 0 < a) (hb : a ∣ b) :
    x / a * a = b ↔ b ≤ x ∧ x < b + a := by
  obtain ⟨q, rfl⟩ := hb
  have hmod := Nat.div_add_mod' x a
  have hlt := Nat.mod_lt x ha
  constructor
  · intro h
    omega
  · rintro ⟨hle, hup⟩
    have hq : x / a = q := by
      refine Nat.div_eq_of_lt_le ?_ ?_
      · rwa [Nat.mul_comm]
      · rw [Nat.succ_mul, Nat.mul_comm q a]
        exact hup
    rw [hq, Nat.mul_comm]

end Words
