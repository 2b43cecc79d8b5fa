import Mathlib.Algebra.BigOperators.Group.Finset.Basic
import Mathlib.Algebra.Order.BigOperators.Group.Finset
import Cfio.Log2Histogram
import Cfio.Words

/-! # Buckets and the loops over them

    A value lies in bucket `j` or below exactly when it is at most the upper
    bound of bucket `j` (`bucketIndex_le_iff`), and a percentile is at most that
    bound exactly when its target is at most the number of values counted there
    (`percentileFrom_le_iff`).  The two loops of a percentile may have read
    different counters, as they do when values are recorded in between. -/

namespace CfioHistogram

open Words

/-- The machine's comparison of unsigned words is a linear order. -/
instance linearOrderUInt64 : LinearOrder UInt64 where
  le_refl := UInt64.le_refl
  le_trans _ _ _ := UInt64.le_trans
  le_antisymm _ _ := UInt64.le_antisymm
  le_total := UInt64.le_total
  lt_iff_le_not_ge a b := by
    rw [UInt64.lt_iff_toNat_lt, UInt64.le_iff_toNat_le, UInt64.le_iff_toNat_le]
    omega
  min_def _ _ := rfl
  max_def _ _ := rfl
  toDecidableLE := inferInstance
  toDecidableLT := inferInstance
  toDecidableEq := inferInstance

/-! ## Buckets and values -/

/-- The index of a bucket, as a logarithm. -/
theorem bucketIndex_eq (x : UInt64) : bucketIndex 64 x = (x.toNat ||| 1).log2 := by
  have hor : (x ||| 1).toNat = x.toNat ||| 1 := UInt64.toNat_or x 1
  have hlt : (x.toNat ||| 1) < 2 ^ 64 :=
    Nat.or_lt_two_pow (UInt64.toNat_lt x) (by decide)
  have hne : x.toNat ||| 1 ≠ 0 := by
    have hle : 1 ≤ x.toNat ||| 1 := Nat.right_le_or
    omega
  have hlog : (x.toNat ||| 1).log2 < 64 := (Nat.log2_lt hne).mpr hlt
  rw [bucketIndex, builtinClzll, hor]
  show min (63 - (63 - (x.toNat ||| 1).log2)) 63 = _
  omega

/-- The upper bound of a bucket, as a number. -/
theorem toNat_bucketUpperBound {j : Nat} (hj : j < 64) :
    (bucketUpperBound j).toNat = 2 ^ (j + 1) - 1 := by
  have hall : ∀ i : Fin 64, (bucketUpperBound i).toNat = 2 ^ (i.val + 1) - 1 := by
    decide
  exact hall ⟨j, hj⟩

theorem toNat_bucketLowerBound {j : Nat} (hj : j < 64) :
    (bucketLowerBound j).toNat = if j = 0 then 0 else 2 ^ j := by
  have hall : ∀ i : Fin 64,
      (bucketLowerBound i).toNat = if i.val = 0 then 0 else 2 ^ i.val := by
    decide
  exact hall ⟨j, hj⟩

/-- **A value lies in a bucket or below exactly when it is at most the upper
    bound of the bucket.** -/
theorem bucketIndex_le_iff {x : UInt64} {j : Nat} (hj : j < 64) :
    bucketIndex 64 x ≤ j ↔ x ≤ bucketUpperBound j := by
  have hle : x.toNat ≤ x.toNat ||| 1 := Nat.left_le_or
  have hne : x.toNat ||| 1 ≠ 0 := by
    have hone : 1 ≤ x.toNat ||| 1 := Nat.right_le_or
    omega
  have hpow : 0 < 2 ^ (j + 1) := Nat.two_pow_pos _
  rw [bucketIndex_eq, UInt64.le_iff_toNat_le, toNat_bucketUpperBound hj,
    ← Nat.lt_succ_iff, Nat.log2_lt hne]
  constructor
  · intro h
    omega
  · intro h
    refine Nat.or_lt_two_pow (by omega) ?_
    exact Nat.one_lt_two_pow (Nat.succ_ne_zero j)

theorem bucketIndex_lt_64 (x : UInt64) : bucketIndex 64 x < 64 :=
  bucketIndex_lt (by decide) x

/-- A value is at most the upper bound of its own bucket. -/
theorem le_bucketUpperBound (x : UInt64) : x ≤ bucketUpperBound (bucketIndex 64 x) :=
  (bucketIndex_le_iff (bucketIndex_lt_64 x)).mp (Nat.le_refl _)

theorem bucketIndex_mono {x y : UInt64} (h : x ≤ y) :
    bucketIndex 64 x ≤ bucketIndex 64 y :=
  (bucketIndex_le_iff (bucketIndex_lt_64 y)).mpr
    (UInt64.le_trans h (le_bucketUpperBound y))

/-- The upper bound of a bucket is less than twice any value in it. -/
theorem bucketUpperBound_le (x : UInt64) :
    (bucketUpperBound (bucketIndex 64 x)).toNat ≤ max 1 (2 * x.toNat - 1) := by
  have hlt := bucketIndex_lt_64 x
  rw [toNat_bucketUpperBound hlt]
  cases hi : bucketIndex 64 x with
  | zero => exact Nat.le_max_left _ _
  | succ i =>
      rw [hi] at hlt
      have hbelow : ¬ x ≤ bucketUpperBound i := by
        intro hle
        have := (bucketIndex_le_iff (Nat.lt_of_succ_lt hlt)).mpr hle
        omega
      rw [UInt64.le_iff_toNat_le, toNat_bucketUpperBound (Nat.lt_of_succ_lt hlt)]
        at hbelow
      have hpow : 2 ^ (i + 1 + 1) = 2 * 2 ^ (i + 1) := Nat.pow_succ'
      omega

/-- The lower bound of the bucket of a value is at most the value. -/
theorem bucketLowerBound_le (x : UInt64) :
    bucketLowerBound (bucketIndex 64 x) ≤ x := by
  have hlt := bucketIndex_lt_64 x
  rw [UInt64.le_iff_toNat_le, toNat_bucketLowerBound hlt]
  cases hi : bucketIndex 64 x with
  | zero => exact Nat.zero_le _
  | succ i =>
      rw [hi] at hlt
      rw [if_neg (Nat.succ_ne_zero i)]
      by_contra hnot
      have hle : x ≤ bucketUpperBound i := by
        rw [UInt64.le_iff_toNat_le, toNat_bucketUpperBound (Nat.lt_of_succ_lt hlt)]
        omega
      have := (bucketIndex_le_iff (Nat.lt_of_succ_lt hlt)).mpr hle
      omega

/-- Upper bounds are in the order of the buckets. -/
theorem bucketUpperBound_le_iff {i j : Nat} (hi : i < 64) (hj : j < 64) :
    bucketUpperBound i ≤ bucketUpperBound j ↔ i ≤ j := by
  rw [UInt64.le_iff_toNat_le, toNat_bucketUpperBound hi, toNat_bucketUpperBound hj]
  have hpi := Nat.two_pow_pos (i + 1)
  have hpj := Nat.two_pow_pos (j + 1)
  have hpow : 2 ^ (i + 1) ≤ 2 ^ (j + 1) ↔ i + 1 ≤ j + 1 :=
    Nat.pow_le_pow_iff_right (by decide)
  omega

theorem bucketLowerBound_mono {i j : Nat} (hij : i ≤ j) (hj : j < 64) :
    bucketLowerBound i ≤ bucketLowerBound j := by
  rw [UInt64.le_iff_toNat_le, toNat_bucketLowerBound hj,
    toNat_bucketLowerBound (Nat.lt_of_le_of_lt hij hj)]
  have hpow : 2 ^ i ≤ 2 ^ j := Nat.pow_le_pow_right (by decide) hij
  by_cases hi0 : i = 0
  · rw [if_pos hi0]
    exact Nat.zero_le _
  · rw [if_neg hi0, if_neg (by omega)]
    exact hpow

/-! ## The loops over the counters -/

/-- The number of values counted in the buckets below `j`. -/
def countBelow (d : Nat → UInt64) (j : Nat) : Nat :=
  ∑ b ∈ Finset.range j, (d b).toNat

theorem countBelow_succ (d : Nat → UInt64) (j : Nat) :
    countBelow d (j + 1) = countBelow d j + (d j).toNat :=
  Finset.sum_range_succ _ _

theorem countBelow_mono (d : Nat → UInt64) {i j : Nat} (h : i ≤ j) :
    countBelow d i ≤ countBelow d j :=
  Finset.sum_le_sum_of_subset (Finset.range_mono h)

theorem countBelow_le {c d : Nat → UInt64} {j : Nat} (h : ∀ b, b < j → c b ≤ d b) :
    countBelow c j ≤ countBelow d j :=
  Finset.sum_le_sum (fun b hb => UInt64.le_iff_toNat_le.mp (h b (Finset.mem_range.mp hb)))

/-- The loop of `TotalCount` over counters that are given. -/
def sumOf (d : Nat → UInt64) (indices : List Nat) (total : UInt64) : UInt64 :=
  Id.run (sumBuckets (fun index => pure (d index)) indices total)

/-- The loop of `Percentile` over counters that are given. -/
def scanOf (d : Nat → UInt64) (n : Nat) (target : UInt64) (indices : List Nat)
    (cumulative : UInt64) : UInt64 :=
  Id.run (scanBuckets (fun index => pure (d index)) n target indices cumulative)

theorem sumOf_cons (d : Nat → UInt64) (index : Nat) (rest : List Nat)
    (total : UInt64) :
    sumOf d (index :: rest) total = sumOf d rest (total + d index) := rfl

theorem scanOf_cons (d : Nat → UInt64) (n : Nat) (target : UInt64) (index : Nat)
    (rest : List Nat) (cumulative : UInt64) :
    scanOf d n target (index :: rest) cumulative =
      if target ≤ cumulative + d index then bucketUpperBound index
      else scanOf d n target rest (cumulative + d index) := by
  show Id.run (if target ≤ cumulative + d index then _ else _) = _
  by_cases h : target ≤ cumulative + d index
  · rw [if_pos h, if_pos h]
    rfl
  · rw [if_neg h, if_neg h]
    rfl

/-- Adding up the counters from `i` on. -/
theorem toNat_sumOf {d : Nat → UInt64} {i r : Nat} {total : UInt64}
    (htotal : total.toNat = countBelow d i)
    (hfit : countBelow d (i + r) < 2 ^ 64) :
    (sumOf d (List.range' i r) total).toNat = countBelow d (i + r) := by
  induction r generalizing i total with
  | zero => exact htotal
  | succ r ih =>
      rw [List.range'_succ, sumOf_cons]
      have hnext : countBelow d (i + 1) ≤ countBelow d (i + (r + 1)) :=
        countBelow_mono d (by omega)
      rw [countBelow_succ] at hnext
      have hadd : (total + d i).toNat = countBelow d (i + 1) := by
        rw [NoWrapAdd.toNat (show _ < _ by omega), htotal, countBelow_succ]
      have hidx : i + (r + 1) = i + 1 + r := by omega
      rw [hidx] at hfit ⊢
      exact ih hadd hfit

/-- The scan stops at the first bucket where the target is reached. -/
theorem scanOf_stops {d : Nat → UInt64} {n i r : Nat} {target cumulative : UInt64}
    (hcum : cumulative.toNat = countBelow d i)
    (hbefore : countBelow d i < target.toNat)
    (hreach : target.toNat ≤ countBelow d (i + r))
    (hfit : countBelow d (i + r) < 2 ^ 64) :
    ∃ j, i ≤ j ∧ j < i + r ∧
      scanOf d n target (List.range' i r) cumulative = bucketUpperBound j ∧
      countBelow d j < target.toNat ∧ target.toNat ≤ countBelow d (j + 1) := by
  induction r generalizing i cumulative with
  | zero =>
      rw [Nat.add_zero] at hreach
      omega
  | succ r ih =>
      rw [List.range'_succ, scanOf_cons]
      have hnext : countBelow d (i + 1) ≤ countBelow d (i + (r + 1)) :=
        countBelow_mono d (by omega)
      have hadd : (cumulative + d i).toNat = countBelow d (i + 1) := by
        rw [countBelow_succ] at hnext
        rw [NoWrapAdd.toNat (show _ < _ by omega), hcum, countBelow_succ]
      by_cases hstop : target ≤ cumulative + d i
      · rw [if_pos hstop]
        rw [UInt64.le_iff_toNat_le, hadd] at hstop
        exact ⟨i, Nat.le_refl _, by omega, rfl, hbefore, hstop⟩
      · rw [if_neg hstop]
        rw [UInt64.le_iff_toNat_le, hadd] at hstop
        have hidx : i + (r + 1) = i + 1 + r := by omega
        rw [hidx] at hreach hfit
        obtain ⟨j, hij, hjr, hscan, hlt, hle⟩ :=
          ih hadd (Nat.lt_of_not_le hstop) hreach hfit
        exact ⟨j, by omega, by omega, hscan, hlt, hle⟩

/-- A percentile whose two loops may have read different counters. -/
def percentileFrom (n : Nat) (c d : Nat → UInt64) (rank : UInt64 → UInt64) :
    UInt64 :=
  let total := sumOf c (List.range n) 0
  if total = 0 then 0
  else scanOf d n (clampTarget (rank total) total) (List.range n) 0

/-- The total the first loop finds. -/
theorem toNat_total {n : Nat} {c : Nat → UInt64} (hfit : countBelow c n < 2 ^ 64) :
    (sumOf c (List.range n) 0).toNat = countBelow c n := by
  rw [List.range_eq_range']
  have hnone : (0 : UInt64).toNat = countBelow c 0 := rfl
  have hsum : (sumOf c (List.range' 0 n) 0).toNat = countBelow c (0 + n) := by
    rw [← Nat.zero_add n] at hfit
    exact toNat_sumOf hnone hfit
  rw [hsum, Nat.zero_add]

/-- The target lies between one and the total. -/
theorem toNat_clampTarget (target total : UInt64) :
    (clampTarget target total).toNat = min (max 1 target.toNat) total.toNat := by
  have hone : (1 : UInt64).toNat = 1 := rfl
  have hlow : (if target < 1 then 1 else target).toNat = max 1 target.toNat := by
    by_cases h1 : target < 1
    · rw [if_pos h1, hone]
      rw [UInt64.lt_iff_toNat_lt, hone] at h1
      omega
    · rw [if_neg h1]
      rw [UInt64.lt_iff_toNat_lt, hone] at h1
      omega
  rw [clampTarget]
  by_cases ht : total < (if target < 1 then 1 else target)
  · rw [if_pos ht]
    rw [UInt64.lt_iff_toNat_lt, hlow] at ht
    omega
  · rw [if_neg ht, hlow]
    rw [UInt64.lt_iff_toNat_lt, hlow] at ht
    omega

section Percentile

variable {c d : Nat → UInt64} {rank : UInt64 → UInt64}

/-- The target of a percentile, given the number of values. -/
def targetOf (rank : UInt64 → UInt64) (total : Nat) : Nat :=
  min (max 1 (rank (UInt64.ofNat total)).toNat) total

/-- With no values, a percentile is zero. -/
theorem percentileFrom_zero {n : Nat} (h : countBelow c n = 0) :
    percentileFrom n c d rank = 0 := by
  have hzero : sumOf c (List.range n) 0 = 0 := by
    refine UInt64.toNat_inj.mp ?_
    rw [toNat_total (by omega), h]
    rfl
  rw [percentileFrom]
  exact if_pos hzero

/-- **Where a percentile falls**: in the first bucket at which the second loop has
    counted as many values as the target. -/
theorem percentileFrom_stops (rank : UInt64 → UInt64) {n : Nat} (hcd : ∀ b, b < n → c b ≤ d b)
    (hfit : countBelow d n < 2 ^ 64) (hpos : 0 < countBelow c n) :
    ∃ j, j < n ∧ percentileFrom n c d rank = bucketUpperBound j ∧
      countBelow d j < targetOf rank (countBelow c n) ∧
      targetOf rank (countBelow c n) ≤ countBelow d (j + 1) := by
  have hle := countBelow_le hcd
  have htotal := toNat_total (c := c) (n := n) (by omega)
  have hof : UInt64.ofNat (countBelow c n) = sumOf c (List.range n) 0 := by
    rw [← htotal, UInt64.ofNat_toNat]
  have htarget : (clampTarget (rank (sumOf c (List.range n) 0))
      (sumOf c (List.range n) 0)).toNat = targetOf rank (countBelow c n) := by
    rw [toNat_clampTarget, targetOf, hof, htotal]
  have hne : sumOf c (List.range n) 0 ≠ 0 := ne_zero_of_toNat_pos (by omega)
  have hbounds : 0 < targetOf rank (countBelow c n) ∧
      targetOf rank (countBelow c n) ≤ countBelow c n := by
    rw [targetOf]
    omega
  rw [← htarget] at hbounds ⊢
  have hnone : (0 : UInt64).toNat = countBelow d 0 := rfl
  have hn : n = 0 + n := (Nat.zero_add n).symm
  obtain ⟨j, -, hj, hscan, hlt, hreach⟩ := scanOf_stops (n := n) hnone hbounds.1
    (hn ▸ Nat.le_trans hbounds.2 hle) (hn ▸ hfit)
  rw [Nat.zero_add] at hj
  rw [← List.range_eq_range'] at hscan
  refine ⟨j, hj, ?_, hlt, hreach⟩
  rw [percentileFrom]
  exact (if_neg hne).trans hscan

/-- **A percentile is at most the upper bound of a bucket exactly when its target
    is at most the number of values counted up to there.** -/
theorem percentileFrom_le_iff {j : Nat} (hj : j < 64)
    (hcd : ∀ b, b < 64 → c b ≤ d b) (hfit : countBelow d 64 < 2 ^ 64)
    (hpos : 0 < countBelow c 64) :
    percentileFrom 64 c d rank ≤ bucketUpperBound j ↔
      targetOf rank (countBelow c 64) ≤ countBelow d (j + 1) := by
  obtain ⟨i, hi, hp, hlt, hreach⟩ := percentileFrom_stops rank hcd hfit hpos
  rw [hp, bucketUpperBound_le_iff hi hj]
  constructor
  · intro hij
    exact Nat.le_trans hreach (countBelow_mono d (Nat.succ_le_succ hij))
  · intro hle
    by_contra hij
    have hmono := countBelow_mono d (show j + 1 ≤ i by omega)
    omega

/-- A percentile of some values is the upper bound of a bucket. -/
theorem exists_percentileFrom (hcd : ∀ b, b < 64 → c b ≤ d b)
    (hfit : countBelow d 64 < 2 ^ 64) (hpos : 0 < countBelow c 64) :
    ∃ j, j < 64 ∧ percentileFrom 64 c d rank = bucketUpperBound j := by
  obtain ⟨j, hj, hp, -, -⟩ := percentileFrom_stops rank hcd hfit hpos
  exact ⟨j, hj, hp⟩

end Percentile

end CfioHistogram
