import Mathlib.Data.Rat.Floor
import Mathlib.Tactic.NormNum
import Cfio.HistogramScan
import Cfio.OrderStatistics

/-! # What the histogram says about the values recorded into it

    Every counter counts the values of its bucket (`bucket_recordAll`), in any
    order and however the values are split among merged histograms.  With the
    counting law of order statistics, a percentile is the upper bound of the
    bucket of the value of its rank (`percentile_eq_bucketUpperBound`). -/

namespace CfioHistogram

open OrderStatistics Words

/-! ## Histograms of lists of values -/

section Recorded

variable {n : Nat}

/-- Record values one after another. -/
def Log2Histogram.recordAll (h : Log2Histogram n) (values : List UInt64) :
    Log2Histogram n :=
  values.foldl (fun h valueNs => h.record valueNs) h

theorem getElem?_bucket (h : Log2Histogram n) {i : Nat} (hi : i < n) :
    h.buckets[i]? = some (h.bucket i) := by
  rw [Log2Histogram.bucket, List.getD_eq_getElem?_getD,
    List.getElem?_eq_getElem (h.length_eq.symm ▸ hi)]
  rfl

/-- A histogram is its counters. -/
theorem buckets_eq (h : Log2Histogram n) :
    h.buckets = (List.range n).map h.bucket := by
  refine List.ext_getElem? (fun i => ?_)
  by_cases hi : i < n
  · rw [getElem?_bucket h hi, List.getElem?_map, List.getElem?_range hi]
    rfl
  · rw [List.getElem?_eq_none (h.length_eq.symm ▸ Nat.le_of_not_lt hi),
      List.getElem?_eq_none]
    rw [List.length_map, List.length_range]
    exact Nat.le_of_not_lt hi

theorem histogram_ext {h h' : Log2Histogram n}
    (hb : ∀ i, i < n → h.bucket i = h'.bucket i) : h = h' := by
  have hbuckets : h.buckets = h'.buckets := by
    rw [buckets_eq, buckets_eq]
    exact List.map_congr_left (fun i hi => hb i (List.mem_range.mp hi))
  obtain ⟨buckets, hlen⟩ := h
  obtain ⟨buckets', hlen'⟩ := h'
  obtain rfl : buckets = buckets' := hbuckets
  rfl

@[simp] theorem bucket_empty (i : Nat) : (Log2Histogram.empty n).bucket i = 0 := by
  show (List.replicate n (0 : UInt64)).getD i 0 = 0
  rw [List.getD_eq_getElem?_getD, List.getElem?_replicate]
  by_cases hi : i < n
  · rw [if_pos hi]
    rfl
  · rw [if_neg hi]
    rfl

/-- Recording a value adds one to its bucket. -/
theorem bucket_record (h : Log2Histogram n) (valueNs : UInt64) {i : Nat} (hi : i < n) :
    (h.record valueNs).bucket i =
      h.bucket i + if bucketIndex n valueNs = i then 1 else 0 := by
  have hlen : i < h.buckets.length := h.length_eq.symm ▸ hi
  have hget := getElem?_bucket h hi
  rw [List.getElem?_eq_getElem hlen] at hget
  have hrec : (h.record valueNs).buckets[i]? = _ := record_getElem hlen
  rw [getElem?_bucket _ hi, Option.some.inj hget] at hrec
  rw [Option.some.inj hrec]
  by_cases hb : bucketIndex n valueNs = i
  · rw [if_pos hb, if_pos hb]
  · rw [if_neg hb, if_neg hb, UInt64.add_zero]

/-- **Each counter counts the values of its bucket.** -/
theorem bucket_recordAll (h : Log2Histogram n) (values : List UInt64) {i : Nat}
    (hi : i < n) :
    (h.recordAll values).bucket i =
      h.bucket i + UInt64.ofNat (values.countP (fun x => bucketIndex n x = i)) := by
  induction values generalizing h with
  | nil =>
      show h.bucket i = h.bucket i + UInt64.ofNat 0
      exact (UInt64.add_zero _).symm
  | cons x xs ih =>
      show ((h.record x).recordAll xs).bucket i = _
      rw [ih, bucket_record h x hi, List.countP_cons, UInt64.add_assoc]
      congr 1
      by_cases hb : bucketIndex n x = i
      · rw [if_pos hb, if_pos (decide_eq_true hb), UInt64.ofNat_add, UInt64.add_comm]
        rfl
      · rw [if_neg hb, if_neg (by simpa using hb), UInt64.zero_add, Nat.add_zero]

/-- No counter of a fresh histogram wraps. -/
theorem toNat_bucket_recorded {xs : List UInt64} (hlen : xs.length < 2 ^ 64) {i : Nat}
    (hi : i < n) :
    (((Log2Histogram.empty n).recordAll xs).bucket i).toNat
      = xs.countP (fun x => bucketIndex n x = i) := by
  have hle : xs.countP (fun x => decide (bucketIndex n x = i)) ≤ xs.length :=
    List.countP_le_length
  rw [bucket_recordAll _ _ hi, bucket_empty, UInt64.zero_add, UInt64.toNat_ofNat']
  exact Nat.mod_eq_of_lt (by omega)

/-- The values counted below a bucket are those that lie below it. -/
theorem countBelow_recorded {xs : List UInt64} (hlen : xs.length < 2 ^ 64) {j : Nat}
    (hj : j ≤ n) :
    countBelow ((Log2Histogram.empty n).recordAll xs).bucket j
      = xs.countP (fun x => bucketIndex n x < j) := by
  induction j with
  | zero =>
      symm
      exact List.countP_eq_zero.mpr (by simp)
  | succ j ih =>
      rw [countBelow_succ, ih (Nat.le_of_succ_le hj), toNat_bucket_recorded hlen hj,
        countP_lt_succ]

/-- The order in which values are recorded does not matter. -/
theorem recordAll_perm (h : Log2Histogram n) {xs ys : List UInt64} (hp : xs.Perm ys) :
    h.recordAll xs = h.recordAll ys := by
  refine histogram_ext (fun i hi => ?_)
  rw [bucket_recordAll h xs hi, bucket_recordAll h ys hi, hp.countP_eq]

/-- Values are recorded one after the other. -/
theorem recordAll_append (h : Log2Histogram n) (xs ys : List UInt64) :
    h.recordAll (xs ++ ys) = (h.recordAll xs).recordAll ys :=
  List.foldl_append

/-- Adding to a bucket leaves the others as they are. -/
theorem bucket_fetchAdd (h : Log2Histogram n) (index : Nat) (count : UInt64) {i : Nat}
    (hi : i < n) :
    (h.fetchAdd index count).bucket i =
      if i = index then h.bucket i + count else h.bucket i := by
  show (h.buckets.modify index (· + count)).getD i 0 = _
  rw [List.getD_eq_getElem?_getD, List.getElem?_modify, getElem?_bucket h hi]
  by_cases hidx : i = index
  · subst hidx
    simp
  · simp [hidx, Ne.symm hidx]

/-- The loop of `Merge` over counters that are given. -/
def mergeOf (d : Nat → UInt64) (indices : List Nat) (h : Log2Histogram n) :
    Log2Histogram n :=
  Id.run (mergeBuckets (fun index => pure (d index)) indices h)

theorem mergeOf_cons (d : Nat → UInt64) (index : Nat) (rest : List Nat)
    (h : Log2Histogram n) :
    mergeOf d (index :: rest) h = mergeOf d rest (h.fetchAdd index (d index)) := rfl

/-- By induction on the buckets that are left: each is added once. -/
theorem bucket_mergeOf (d : Nat → UInt64) (h : Log2Histogram n)
    {indices : List Nat} (hnodup : indices.Nodup) {i : Nat} (hi : i < n) :
    (mergeOf d indices h).bucket i =
      if i ∈ indices then h.bucket i + d i else h.bucket i := by
  induction indices generalizing h with
  | nil => rfl
  | cons index rest ih =>
      obtain ⟨hnot, hnodup⟩ := List.nodup_cons.mp hnodup
      rw [mergeOf_cons, ih _ hnodup, bucket_fetchAdd _ _ _ hi]
      by_cases hidx : i = index
      · subst hidx
        simp [hnot]
      · simp [hidx]

/-- Merging adds bucket by bucket. -/
theorem bucket_merge (h other : Log2Histogram n) {i : Nat} (hi : i < n) :
    (h.merge other).bucket i = h.bucket i + other.bucket i := by
  have hmerge := bucket_mergeOf other.bucket h (@List.nodup_range n) hi
  rw [if_pos (List.mem_range.mpr hi)] at hmerge
  exact hmerge

/-- **Merging is recording the values of both.** -/
theorem merge_recordAll (h : Log2Histogram n) (xs : List UInt64) :
    h.merge ((Log2Histogram.empty n).recordAll xs) = h.recordAll xs := by
  refine histogram_ext (fun i hi => ?_)
  rw [bucket_merge _ _ hi, bucket_recordAll _ _ hi, bucket_recordAll _ _ hi,
    bucket_empty, UInt64.zero_add]

/-- The sum of the counters is what the loop of `TotalCount` finds. -/
theorem totalCount_eq (h : Log2Histogram n) :
    h.totalCount = sumOf h.bucket (List.range n) 0 := by
  have hfold : ∀ (indices : List Nat) (total : UInt64),
      sumOf h.bucket indices total
        = (indices.map h.bucket).foldl (· + ·) total := by
    intro indices
    induction indices with
    | nil => exact fun _ => rfl
    | cons index rest ih => exact fun total => ih _
  rw [hfold, ← buckets_eq]
  rfl

/-- A percentile of a histogram at rest reads the same counters twice. -/
theorem percentile_eq (h : Log2Histogram n) (rank : UInt64 → UInt64) :
    h.percentile rank = percentileFrom n h.bucket h.bucket rank := by
  rw [percentileFrom]
  show Id.run (if sumOf h.bucket (List.range n) 0 = 0 then _ else _) = _
  by_cases h0 : sumOf h.bucket (List.range n) 0 = 0
  · rw [if_pos h0, if_pos h0]
    rfl
  · rw [if_neg h0, if_neg h0]
    rfl

end Recorded

/-! ## Order statistics -/

section Order

variable {xs : List UInt64}

/-- A fresh histogram with these values recorded. -/
def histogramOf (xs : List UInt64) : Log2Histogram 64 :=
  (Log2Histogram.empty 64).recordAll xs

/-- A bucket counts the values that fall in it. -/
theorem toNat_bucket_histogramOf (hlen : xs.length < 2 ^ 64) {i : Nat} (hi : i < 64) :
    ((histogramOf xs).bucket i).toNat = xs.countP (fun x => bucketIndex 64 x = i) :=
  toNat_bucket_recorded hlen hi

/-- The buckets below `j` count the values that fall below it. -/
theorem countBelow_histogramOf (hlen : xs.length < 2 ^ 64) {j : Nat} (hj : j ≤ 64) :
    countBelow (histogramOf xs).bucket j = xs.countP (fun x => bucketIndex 64 x < j) :=
  countBelow_recorded hlen hj

/-- All buckets together count all values. -/
theorem countBelow_all (hlen : xs.length < 2 ^ 64) :
    countBelow (histogramOf xs).bucket 64 = xs.length := by
  rw [countBelow_histogramOf hlen (Nat.le_refl _)]
  exact List.countP_eq_length.mpr (fun x _ => decide_eq_true (bucketIndex_lt_64 x))

/-- The target of a percentile, computed exactly: `p` is brought into `[0, 1]` and
    the fraction of the total is rounded up. -/
def exactRank (p : ℚ) (total : UInt64) : UInt64 :=
  UInt64.ofNat ⌈max 0 (min p 1) * (total.toNat : ℚ)⌉.toNat

/-- The exact target never wraps. -/
theorem toNat_exactRank (p : ℚ) (total : UInt64) :
    (exactRank p total).toNat = ⌈max 0 (min p 1) * (total.toNat : ℚ)⌉.toNat := by
  have hle : max 0 (min p 1) * (total.toNat : ℚ) ≤ total.toNat :=
    mul_le_of_le_one_left (Nat.cast_nonneg _)
      (max_le zero_le_one (min_le_right p 1))
  have hceil : ⌈max 0 (min p 1) * (total.toNat : ℚ)⌉ ≤ (total.toNat : Int) :=
    Int.ceil_le.mpr (by push_cast; exact hle)
  have hlt := UInt64.toNat_lt total
  rw [exactRank, UInt64.toNat_ofNat']
  exact Nat.mod_eq_of_lt (by omega)

/-- A higher quantile of more values has a higher target. -/
theorem exactRank_mono {p q : ℚ} {t u : UInt64} (hpq : p ≤ q) (htu : t ≤ u) :
    exactRank p t ≤ exactRank q u := by
  rw [UInt64.le_iff_toNat_le] at htu
  have hmul : max 0 (min p 1) * (t.toNat : ℚ) ≤ max 0 (min q 1) * (u.toNat : ℚ) :=
    mul_le_mul (max_le_max (le_refl 0) (min_le_min hpq (le_refl 1)))
      (Nat.cast_le.mpr htu) (Nat.cast_nonneg _) (le_max_left _ _)
  rw [UInt64.le_iff_toNat_le, toNat_exactRank, toNat_exactRank]
  exact Int.toNat_le_toNat (Int.ceil_le_ceil hmul)

/-- The rank of a quantile among `total` values. -/
def rankOf (p : ℚ) (total : Nat) : Nat := max 1 ⌈p * (total : ℚ)⌉.toNat

/-- A quantile of some values has a rank among them. -/
theorem rankOf_le {p : ℚ} (hp : p ≤ 1) {total : Nat} (hpos : 0 < total) :
    rankOf p total ≤ total := by
  refine Nat.max_le.mpr ⟨hpos, ?_⟩
  have hceil : ⌈p * (total : ℚ)⌉ ≤ (total : Int) := by
    refine Int.ceil_le.mpr ?_
    push_cast
    exact mul_le_of_le_one_left (Nat.cast_nonneg total) hp
  omega

/-- A larger quantile has a larger rank. -/
theorem rankOf_mono {p q : ℚ} (hpq : p ≤ q) (total : Nat) :
    rankOf p total ≤ rankOf q total := by
  have hceil : ⌈p * (total : ℚ)⌉ ≤ ⌈q * (total : ℚ)⌉ :=
    Int.ceil_le_ceil (mul_le_mul_of_nonneg_right hpq (Nat.cast_nonneg total))
  simp only [rankOf]
  omega

/-- The exact target is the rank. -/
theorem targetOf_exactRank {p : ℚ} (h0 : 0 ≤ p) (h1 : p ≤ 1) {total : Nat}
    (hpos : 0 < total) (hfit : total < 2 ^ 64) :
    targetOf (exactRank p) total = rankOf p total := by
  have hle := rankOf_le h1 hpos
  have htotal : (UInt64.ofNat total).toNat = total := by
    rw [UInt64.toNat_ofNat']
    exact Nat.mod_eq_of_lt hfit
  have hrank : (exactRank p (UInt64.ofNat total)).toNat = ⌈p * (total : ℚ)⌉.toNat := by
    rw [toNat_exactRank, htotal, min_eq_left h1, max_eq_right h0]
  rw [targetOf, hrank]
  rw [rankOf] at hle ⊢
  omega

/-- A percentile of no values is zero. -/
theorem percentile_empty (rank : UInt64 → UInt64) :
    (histogramOf []).percentile rank = 0 := by
  rw [percentile_eq]
  have hnone : countBelow (histogramOf []).bucket 64 = 0 := countBelow_all (by decide)
  exact percentileFrom_zero hnone

/-- Where a percentile of recorded values falls. -/
theorem percentile_le_iff (hlen : xs.length < 2 ^ 64) (hpos : 0 < xs.length)
    {p : ℚ} (h0 : 0 ≤ p) (h1 : p ≤ 1) {j : Nat} (hj : j < 64) :
    (histogramOf xs).percentile (exactRank p) ≤ bucketUpperBound j ↔
      rankOf p xs.length ≤ xs.countP (fun x => bucketIndex 64 x < j + 1) := by
  have hall := countBelow_all hlen
  rw [percentile_eq, percentileFrom_le_iff hj (fun _ _ => UInt64.le_refl _)
    (by omega) (by omega), hall, targetOf_exactRank h0 h1 hpos hlen,
    countBelow_histogramOf hlen hj]

/-- A percentile is the upper bound of some bucket. -/
theorem exists_percentile (hlen : xs.length < 2 ^ 64) (hpos : 0 < xs.length)
    (rank : UInt64 → UInt64) :
    ∃ j, j < 64 ∧ (histogramOf xs).percentile rank = bucketUpperBound j := by
  have hall := countBelow_all hlen
  rw [percentile_eq]
  exact exists_percentileFrom (fun _ _ => UInt64.le_refl _) (by omega) (by omega)

/-- **A percentile is the upper bound of the bucket of an order statistic.** -/
theorem percentile_eq_bucketUpperBound (hlen : xs.length < 2 ^ 64)
    (hpos : 0 < xs.length) {p : ℚ} (h0 : 0 ≤ p) (h1 : p ≤ 1) {x : UInt64}
    (hx : kthSmallest xs (rankOf p xs.length) = some x) :
    (histogramOf xs).percentile (exactRank p)
      = bucketUpperBound (bucketIndex 64 x) := by
  obtain ⟨j, hj, hp⟩ := exists_percentile hlen hpos (exactRank p)
  have hlt := bucketIndex_lt_64 x
  have hiff : ∀ i, i < 64 → (j ≤ i ↔ bucketIndex 64 x ≤ i) := by
    intro i hi
    rw [← bucketUpperBound_le_iff hj hi, ← hp, percentile_le_iff hlen hpos h0 h1 hi]
    refine (kthSmallest_iff ?_ hx (Nat.le_max_left _ _)).trans ?_
    · intro a b hab hb
      have hmono := bucketIndex_mono hab
      simp only [decide_eq_true_eq] at hb ⊢
      omega
    · rw [decide_eq_true_eq, Nat.lt_succ_iff]
  have hji := (hiff j hj).mp (Nat.le_refl _)
  have hij := (hiff _ hlt).mpr (Nat.le_refl _)
  rw [hp, Nat.le_antisymm hij hji]

/-- A counter is not zero exactly when some value fell into its bucket. -/
theorem bucket_ne_zero_iff (hlen : xs.length < 2 ^ 64) {i : Nat} (hi : i < 64) :
    (histogramOf xs).bucket i ≠ 0 ↔ ∃ x ∈ xs, bucketIndex 64 x = i := by
  have hcount := toNat_bucket_histogramOf hlen hi
  have hpos : (histogramOf xs).bucket i ≠ 0 ↔
      0 < ((histogramOf xs).bucket i).toNat :=
    ⟨toNat_pos_of_ne, ne_zero_of_toNat_pos⟩
  rw [hpos, hcount, List.countP_pos_iff]
  simp only [decide_eq_true_eq]

/-- The first bucket that is not empty. -/
theorem minValue_spec (hlen : xs.length < 2 ^ 64) (hpos : 0 < xs.length) :
    ∃ i, i < 64 ∧ (histogramOf xs).minValue = bucketLowerBound i ∧
      (∃ x ∈ xs, bucketIndex 64 x = i) ∧ ∀ x ∈ xs, i ≤ bucketIndex 64 x := by
  obtain ⟨y, hy⟩ := List.exists_mem_of_length_pos hpos
  cases hfind : (List.range 64).find? (fun i => (histogramOf xs).bucket i ≠ 0) with
  | none =>
      have hempty := List.find?_eq_none.mp hfind (bucketIndex 64 y)
        (List.mem_range.mpr (bucketIndex_lt_64 y))
      exact absurd (decide_eq_true
        ((bucket_ne_zero_iff hlen (bucketIndex_lt_64 y)).mpr ⟨y, hy, rfl⟩)) hempty
  | some i =>
      have hi : i < 64 := List.mem_range.mp (List.mem_of_find?_eq_some hfind)
      have hsome := (bucket_ne_zero_iff hlen hi).mp
        (by simpa only [ne_eq, decide_not, Bool.not_eq_true', decide_eq_false_iff_not]
          using List.find?_some hfind)
      refine ⟨i, hi, ?_, hsome, fun x hx => ?_⟩
      · rw [Log2Histogram.minValue, hfind]
      · have hne := (bucket_ne_zero_iff hlen (bucketIndex_lt_64 x)).mpr ⟨x, hx, rfl⟩
        rcases find?_first List.pairwise_lt_range hfind
          (List.mem_range.mpr (bucketIndex_lt_64 x)) (decide_eq_true hne) with h | h
        · exact Nat.le_of_eq h.symm
        · exact Nat.le_of_lt h

/-- The last bucket that is not empty. -/
theorem maxValue_spec (hlen : xs.length < 2 ^ 64) (hpos : 0 < xs.length) :
    ∃ i, i < 64 ∧ (histogramOf xs).maxValue = bucketUpperBound i ∧
      (∃ x ∈ xs, bucketIndex 64 x = i) ∧ ∀ x ∈ xs, bucketIndex 64 x ≤ i := by
  obtain ⟨y, hy⟩ := List.exists_mem_of_length_pos hpos
  cases hfind : (List.range 64).reverse.find?
      (fun i => (histogramOf xs).bucket i ≠ 0) with
  | none =>
      have hempty := List.find?_eq_none.mp hfind (bucketIndex 64 y)
        (List.mem_reverse.mpr (List.mem_range.mpr (bucketIndex_lt_64 y)))
      exact absurd (decide_eq_true
        ((bucket_ne_zero_iff hlen (bucketIndex_lt_64 y)).mpr ⟨y, hy, rfl⟩)) hempty
  | some i =>
      have hi : i < 64 :=
        List.mem_range.mp (List.mem_reverse.mp (List.mem_of_find?_eq_some hfind))
      have hsome := (bucket_ne_zero_iff hlen hi).mp
        (by simpa only [ne_eq, decide_not, Bool.not_eq_true', decide_eq_false_iff_not]
          using List.find?_some hfind)
      refine ⟨i, hi, ?_, hsome, fun x hx => ?_⟩
      · rw [Log2Histogram.maxValue, hfind]
      · have hne := (bucket_ne_zero_iff hlen (bucketIndex_lt_64 x)).mpr ⟨x, hx, rfl⟩
        rcases find?_first (List.pairwise_reverse.mpr List.pairwise_lt_range) hfind
          (List.mem_reverse.mpr (List.mem_range.mpr (bucketIndex_lt_64 x)))
          (decide_eq_true hne) with h | h
        · exact Nat.le_of_eq h
        · exact Nat.le_of_lt h

/-- Every value lies between the smallest and the largest reported. -/
theorem minValue_le_maxValue (hlen : xs.length < 2 ^ 64) {x : UInt64} (hx : x ∈ xs) :
    (histogramOf xs).minValue ≤ x ∧ x ≤ (histogramOf xs).maxValue := by
  have hpos : 0 < xs.length := List.length_pos_of_mem hx
  obtain ⟨i, -, hmin, -, hle⟩ := minValue_spec hlen hpos
  obtain ⟨j, hj, hmax, -, hge⟩ := maxValue_spec hlen hpos
  rw [hmin, hmax]
  constructor
  · exact UInt64.le_trans (bucketLowerBound_mono (hle x hx) (bucketIndex_lt_64 x))
      (bucketLowerBound_le x)
  · exact (bucketIndex_le_iff hj).mp (hge x hx)

/-- The smallest value is reported as the lower bound of its bucket. -/
theorem minValue_eq (hlen : xs.length < 2 ^ 64) {x : UInt64} (hx : x ∈ xs)
    (hleast : ∀ y ∈ xs, x ≤ y) :
    (histogramOf xs).minValue = bucketLowerBound (bucketIndex 64 x) := by
  obtain ⟨i, -, hmin, ⟨y, hy, hyi⟩, hle⟩ := minValue_spec hlen (List.length_pos_of_mem hx)
  have hxy := bucketIndex_mono (hleast y hy)
  rw [hmin, Nat.le_antisymm (hle x hx) (hyi ▸ hxy)]

/-- The largest value is reported as the upper bound of its bucket. -/
theorem maxValue_eq (hlen : xs.length < 2 ^ 64) {x : UInt64} (hx : x ∈ xs)
    (hgreatest : ∀ y ∈ xs, y ≤ x) :
    (histogramOf xs).maxValue = bucketUpperBound (bucketIndex 64 x) := by
  obtain ⟨i, -, hmax, ⟨y, hy, hyi⟩, hge⟩ := maxValue_spec hlen (List.length_pos_of_mem hx)
  have hyx := bucketIndex_mono (hgreatest y hy)
  rw [hmax, Nat.le_antisymm (hyi ▸ hyx) (hge x hx)]

/-- A higher quantile has a percentile at least as high. -/
theorem percentile_mono (hlen : xs.length < 2 ^ 64) (hpos : 0 < xs.length)
    {p q : ℚ} (h0 : 0 ≤ p) (hpq : p ≤ q) (h1 : q ≤ 1) :
    (histogramOf xs).percentile (exactRank p)
      ≤ (histogramOf xs).percentile (exactRank q) := by
  obtain ⟨j, hj, hq⟩ := exists_percentile hlen hpos (exactRank q)
  have hle := (percentile_le_iff hlen hpos (le_trans h0 hpq) h1 hj).mp (le_of_eq hq)
  rw [hq]
  exact (percentile_le_iff hlen hpos h0 (le_trans hpq h1) hj).mpr
    (Nat.le_trans (rankOf_mono hpq _) hle)

/-- A percentile lies between the smallest and the largest value reported. -/
theorem percentile_between (hlen : xs.length < 2 ^ 64) (hpos : 0 < xs.length)
    {p : ℚ} (h0 : 0 ≤ p) (h1 : p ≤ 1) :
    (histogramOf xs).minValue ≤ (histogramOf xs).percentile (exactRank p) ∧
      (histogramOf xs).percentile (exactRank p) ≤ (histogramOf xs).maxValue := by
  obtain ⟨x, hx⟩ := exists_kthSmallest (Nat.le_max_left _ _) (rankOf_le h1 hpos)
  have hmem := mem_of_kthSmallest hx
  rw [percentile_eq_bucketUpperBound hlen hpos h0 h1 hx]
  constructor
  · exact UInt64.le_trans (minValue_le_maxValue hlen hmem).1 (le_bucketUpperBound x)
  · obtain ⟨j, hj, hmax, -, hge⟩ := maxValue_spec hlen hpos
    rw [hmax, bucketUpperBound_le_iff (bucketIndex_lt_64 x) hj]
    exact hge x hmem

/-! ### Unions -/

/-- Fewer values than the share of a quantile in each part are fewer than its share
    of all. -/
theorem countP_flatten_lt {p : ℚ} {f : UInt64 → Bool} {parts : List (List UInt64)}
    (h : ∀ xs ∈ parts, xs ≠ [] → (xs.countP f : ℚ) < p * xs.length)
    (hne : parts.flatten ≠ []) :
    (parts.flatten.countP f : ℚ) < p * parts.flatten.length := by
  induction parts with
  | nil => exact absurd rfl hne
  | cons xs parts ih =>
      have hrest := fun ys hys => h ys (List.mem_cons_of_mem xs hys)
      rw [List.flatten_cons, List.countP_append, List.length_append]
      push_cast
      rw [mul_add]
      by_cases hxs : xs = []
      · subst hxs
        rw [List.flatten_cons, List.nil_append] at hne
        have hlt := ih hrest hne
        simpa using hlt
      · have hlt := h xs (List.mem_cons_self ..) hxs
        by_cases hys : parts.flatten = []
        · rw [hys]
          simpa using hlt
        · exact add_lt_add hlt (ih hrest hys)

/-- At least the share of a quantile in each part is at least its share of all. -/
theorem le_countP_flatten {p : ℚ} {f : UInt64 → Bool} {parts : List (List UInt64)}
    (h : ∀ xs ∈ parts, xs ≠ [] → p * xs.length ≤ (xs.countP f : ℚ)) :
    p * parts.flatten.length ≤ (parts.flatten.countP f : ℚ) := by
  induction parts with
  | nil => simp
  | cons xs parts ih =>
      rw [List.flatten_cons, List.countP_append, List.length_append]
      push_cast
      rw [mul_add]
      refine add_le_add ?_ (ih (fun ys hys => h ys (List.mem_cons_of_mem xs hys)))
      by_cases hxs : xs = []
      · simp [hxs]
      · exact h xs (List.mem_cons_self ..) hxs

/-- A count below a rank is below the share of the quantile. -/
theorem lt_of_lt_rankOf {p : ℚ} (hp : 0 < p) {total c : Nat} (hpos : 0 < total)
    (h : c < rankOf p total) : (c : ℚ) < p * total := by
  have hceil : 0 < ⌈p * (total : ℚ)⌉ :=
    Int.ceil_pos.mpr (mul_pos hp (Nat.cast_pos.mpr hpos))
  have hlt : (c : Int) < ⌈p * (total : ℚ)⌉ := by
    rw [rankOf] at h
    omega
  have hcast := Int.lt_ceil.mp hlt
  exact_mod_cast hcast

/-- A count of at least the rank is at least the share of the quantile. -/
theorem le_of_rankOf_le {p : ℚ} {total c : Nat} (h : rankOf p total ≤ c) :
    p * total ≤ (c : ℚ) := by
  have hle : ⌈p * (total : ℚ)⌉ ≤ (c : Int) := by
    rw [rankOf] at h
    omega
  have hcast := Int.ceil_le.mp hle
  exact_mod_cast hcast

section Parts

variable {parts : List (List UInt64)} {p : ℚ}

/-- Some part has a percentile that is at most that of all values: otherwise every
    part has fewer than its share in the buckets up to the one it falls in. -/
theorem exists_percentile_le_flatten (hlen : parts.flatten.length < 2 ^ 64)
    (hne : parts.flatten ≠ []) (h0 : 0 < p) (h1 : p ≤ 1) :
    ∃ xs ∈ parts, xs ≠ [] ∧ (histogramOf xs).percentile (exactRank p)
      ≤ (histogramOf parts.flatten).percentile (exactRank p) := by
  have hpos := List.length_pos_of_ne_nil hne
  obtain ⟨j, hj, hp⟩ := exists_percentile hlen hpos (exactRank p)
  have hreach := (percentile_le_iff hlen hpos h0.le h1 hj).mp (le_of_eq hp)
  by_contra hnone
  refine absurd hreach (Nat.not_le.mpr ?_)
  have hshare : ∀ xs ∈ parts, xs ≠ [] →
      (xs.countP (fun x => bucketIndex 64 x < j + 1) : ℚ) < p * xs.length := by
    intro xs hxs hxs0
    have hxpos := List.length_pos_of_ne_nil hxs0
    have hxlen : xs.length < 2 ^ 64 :=
      Nat.lt_of_le_of_lt (List.sublist_flatten_of_mem hxs).length_le hlen
    refine lt_of_lt_rankOf h0 hxpos (Nat.lt_of_not_le (fun hle => hnone ?_))
    refine ⟨xs, hxs, hxs0, ?_⟩
    rw [hp]
    exact (percentile_le_iff hxlen hxpos h0.le h1 hj).mpr hle
  have hlt := countP_flatten_lt hshare hne
  have hceil : (parts.flatten.countP (fun x => bucketIndex 64 x < j + 1) : Int)
      < ⌈p * (parts.flatten.length : ℚ)⌉ := Int.lt_ceil.mpr (by exact_mod_cast hlt)
  rw [rankOf]
  omega

/-- A percentile below the upper bound of a bucket has its rank among the values in
    the buckets below. -/
theorem rankOf_le_of_percentile_lt {xs : List UInt64} (hlen : xs.length < 2 ^ 64)
    (hpos : 0 < xs.length) (h0 : 0 ≤ p) (h1 : p ≤ 1) {j : Nat} (hj : j < 64)
    (hlt : (histogramOf xs).percentile (exactRank p) < bucketUpperBound j) :
    0 < j ∧ rankOf p xs.length ≤ xs.countP (fun x => bucketIndex 64 x < j) := by
  obtain ⟨k, hk, hp⟩ := exists_percentile hlen hpos (exactRank p)
  rw [hp, ← not_le, bucketUpperBound_le_iff hj hk, not_le] at hlt
  have hle := (percentile_le_iff hlen hpos h0 h1 hk).mp (le_of_eq hp)
  refine ⟨by omega, Nat.le_trans hle (List.countP_mono_left (fun x _ hx => ?_))⟩
  simp only [decide_eq_true_eq] at hx ⊢
  omega

/-- Some part has a percentile that is at least that of all values: otherwise every
    part has its share in the buckets below the one it falls in. -/
theorem exists_flatten_le_percentile (hlen : parts.flatten.length < 2 ^ 64)
    (hne : parts.flatten ≠ []) (h0 : 0 < p) (h1 : p ≤ 1) :
    ∃ xs ∈ parts, xs ≠ [] ∧ (histogramOf parts.flatten).percentile (exactRank p)
      ≤ (histogramOf xs).percentile (exactRank p) := by
  have hpos := List.length_pos_of_ne_nil hne
  obtain ⟨j, hj, hp⟩ := exists_percentile hlen hpos (exactRank p)
  by_contra hnone
  have hcount : ∀ xs ∈ parts, xs ≠ [] → 0 < j ∧
      rankOf p xs.length ≤ xs.countP (fun x => bucketIndex 64 x < j) := by
    intro xs hxs hxs0
    refine rankOf_le_of_percentile_lt
      (Nat.lt_of_le_of_lt (List.sublist_flatten_of_mem hxs).length_le hlen)
      (List.length_pos_of_ne_nil hxs0) h0.le h1 hj ?_
    rw [← not_le, ← hp]
    exact fun hle => hnone ⟨xs, hxs, hxs0, hle⟩
  obtain ⟨y, hy⟩ := List.exists_mem_of_ne_nil _ hne
  obtain ⟨ys, hys, hyys⟩ := List.mem_flatten.mp hy
  obtain ⟨hjpos, hys1⟩ := hcount ys hys (List.ne_nil_of_mem hyys)
  have hshare : p * parts.flatten.length
      ≤ (parts.flatten.countP (fun x => bucketIndex 64 x < j) : ℚ) :=
    le_countP_flatten (fun xs hxs hxs0 => le_of_rankOf_le (hcount xs hxs hxs0).2)
  have hone : ys.countP (fun x => bucketIndex 64 x < j)
      ≤ parts.flatten.countP (fun x => bucketIndex 64 x < j) :=
    (List.sublist_flatten_of_mem hys).countP_le
  have hceil : ⌈p * (parts.flatten.length : ℚ)⌉
      ≤ (parts.flatten.countP (fun x => bucketIndex 64 x < j) : Int) :=
    Int.ceil_le.mpr (by exact_mod_cast hshare)
  have hrank : rankOf p parts.flatten.length
      ≤ parts.flatten.countP (fun x => bucketIndex 64 x < j) := by
    simp only [rankOf] at hys1 ⊢
    omega
  have hj1 : j - 1 + 1 = j := Nat.sub_add_cancel hjpos
  have hle := (percentile_le_iff hlen hpos h0.le h1 (j := j - 1) (by omega)).mpr
    (by rw [hj1]; exact hrank)
  rw [hp, bucketUpperBound_le_iff hj (by omega)] at hle
  omega

/-- **A percentile of all values lies between the percentiles of the parts.** -/
theorem percentile_flatten_between (hlen : parts.flatten.length < 2 ^ 64)
    (hne : parts.flatten ≠ []) (h0 : 0 < p) (h1 : p ≤ 1) :
    (∃ xs ∈ parts, xs ≠ [] ∧ (histogramOf xs).percentile (exactRank p)
      ≤ (histogramOf parts.flatten).percentile (exactRank p)) ∧
    (∃ xs ∈ parts, xs ≠ [] ∧ (histogramOf parts.flatten).percentile (exactRank p)
      ≤ (histogramOf xs).percentile (exactRank p)) :=
  ⟨exists_percentile_le_flatten hlen hne h0 h1, exists_flatten_le_percentile hlen hne h0 h1⟩

end Parts

end Order

/-- **The histogram refines exact order statistics.**  Whatever the order in which
    the values are recorded, a percentile is the upper bound of the bucket of the
    value of its rank, less than twice that value; the smallest and the largest
    reported enclose the values and the percentiles; and no counter wraps. -/
theorem percentile_refines {xs recorded : List UInt64} (hperm : recorded.Perm xs)
    (hlen : xs.length < 2 ^ 64) :
    (xs = [] → (histogramOf recorded).minValue = 0 ∧
      (histogramOf recorded).maxValue = 0 ∧
      ∀ p, (histogramOf recorded).percentile (exactRank p) = 0) ∧
    (xs ≠ [] → ∀ p : ℚ, 0 ≤ p → p ≤ 1 →
      ∃ x, kthSmallest xs (max 1 ⌈p * (xs.length : ℚ)⌉.toNat) = some x ∧
        (histogramOf recorded).percentile (exactRank p)
          = bucketUpperBound (bucketIndex 64 x) ∧
        x ≤ (histogramOf recorded).percentile (exactRank p) ∧
        ((histogramOf recorded).percentile (exactRank p)).toNat
          ≤ max 1 (2 * x.toNat - 1)) ∧
    (∀ x ∈ xs, (histogramOf recorded).minValue ≤ x ∧
      x ≤ (histogramOf recorded).maxValue) ∧
    (xs ≠ [] → ∀ p q : ℚ, 0 ≤ p → p ≤ q → q ≤ 1 →
      (histogramOf recorded).minValue
        ≤ (histogramOf recorded).percentile (exactRank p) ∧
      (histogramOf recorded).percentile (exactRank p)
        ≤ (histogramOf recorded).percentile (exactRank q) ∧
      (histogramOf recorded).percentile (exactRank q)
        ≤ (histogramOf recorded).maxValue) ∧
    (histogramOf recorded).totalCount.toNat = xs.length ∧
    (∀ i, i < 64 → ((histogramOf recorded).bucket i).toNat
      = xs.countP (fun x => bucketIndex 64 x = i)) := by
  have hsame : histogramOf recorded = histogramOf xs := recordAll_perm _ hperm
  rw [hsame]
  refine ⟨?_, ?_, fun x hx => minValue_le_maxValue hlen hx, ?_, ?_,
    fun i hi => toNat_bucket_histogramOf hlen hi⟩
  · rintro rfl
    exact ⟨by decide, by decide, fun p => percentile_empty _⟩
  · intro hne p h0 h1
    have hpos := List.length_pos_of_ne_nil hne
    obtain ⟨x, hx⟩ := exists_kthSmallest (Nat.le_max_left _ _) (rankOf_le h1 hpos)
    have hp := percentile_eq_bucketUpperBound hlen hpos h0 h1 hx
    refine ⟨x, hx, hp, ?_, ?_⟩
    · rw [hp]
      exact le_bucketUpperBound x
    · rw [hp]
      exact bucketUpperBound_le x
  · intro hne p q h0 hpq h1
    have hpos := List.length_pos_of_ne_nil hne
    exact ⟨(percentile_between hlen hpos h0 (le_trans hpq h1)).1,
      percentile_mono hlen hpos h0 hpq h1,
      (percentile_between hlen hpos (le_trans h0 hpq) h1).2⟩
  · have hall := countBelow_all hlen
    rw [totalCount_eq, toNat_total (by omega), hall]

/-- Values at the edges of buckets, the largest there is among them. -/
theorem percentile_refines_edges :
    (∃ x, kthSmallest [0, 1, 2, 0xFFFFFFFFFFFFFFFF] 2 = some x ∧
      (histogramOf [2, 1, 0xFFFFFFFFFFFFFFFF, 0]).percentile (exactRank (1 / 2))
        = bucketUpperBound (bucketIndex 64 x)) ∧
      (histogramOf [2, 1, 0xFFFFFFFFFFFFFFFF, 0]).totalCount.toNat = 4 := by
  have hperm : List.Perm [2, 1, 0xFFFFFFFFFFFFFFFF, 0]
      [0, 1, 2, (0xFFFFFFFFFFFFFFFF : UInt64)] := by decide
  obtain ⟨-, hp, -, -, htotal, -⟩ := percentile_refines hperm (by decide)
  obtain ⟨x, hx, hpx, -, -⟩ :=
    hp (List.cons_ne_nil _ _) (1 / 2) (by norm_num) (by norm_num)
  have hceil : ⌈(1 / 2 : ℚ) * ((4 : ℕ) : ℚ)⌉ = 2 := by norm_num
  have hrank : max 1 ⌈(1 / 2 : ℚ) * ((4 : ℕ) : ℚ)⌉.toNat = 2 := by
    rw [hceil]
    rfl
  exact ⟨⟨x, hrank ▸ hx, hpx⟩, htotal⟩

end CfioHistogram
