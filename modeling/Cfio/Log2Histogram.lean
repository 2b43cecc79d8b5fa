import Cfio.Types

/-! # The log-scale histogram

    `Log2Histogram` as a list of counters whose length is part of the type.  A
    `Record` bumps one counter, whatever the value (`record_getElem`), so
    `TotalCount` is the number of records modulo the width of a counter
    (`totalCount_record`).

    The counters are atomics that may change between two loads, so the loops
    that read them are written over any way of loading a counter; reading a
    histogram at rest is the case where a load is a look-up. -/

namespace CfioHistogram

/-- The buckets of a histogram, one counter each. -/
structure Log2Histogram (BucketCount : Nat) where
  buckets : List UInt64
  length_eq : buckets.length = BucketCount

/-- An empty histogram. -/
def Log2Histogram.empty (BucketCount : Nat) : Log2Histogram BucketCount :=
  ⟨List.replicate BucketCount 0, List.length_replicate⟩

/-- `__builtin_clzll`: the leading zeros of a value other than zero. -/
def builtinClzll (value : UInt64) : Nat := 63 - value.toNat.log2

/-- The bucket a value falls into. -/
def bucketIndex (BucketCount : Nat) (valueNs : UInt64) : Nat :=
  let rawIndex := 63 - builtinClzll (valueNs ||| 1)
  min rawIndex (BucketCount - 1)

variable {n : Nat}

/-- Record one value into its bucket. -/
def Log2Histogram.record (valueNs : UInt64) (h : Log2Histogram n) :
    Log2Histogram n :=
  ⟨h.buckets.modify (bucketIndex n valueNs) (· + 1), by
    rw [List.length_modify]
    exact h.length_eq⟩

/-- The sum of all counters, in the counter's type. -/
def Log2Histogram.totalCount (h : Log2Histogram n) : UInt64 :=
  h.buckets.foldl (· + ·) 0

/-- One counter. -/
def Log2Histogram.bucket (h : Log2Histogram n) (index : Nat) : UInt64 :=
  h.buckets.getD index 0

/-- The smallest value that falls into a bucket. -/
def bucketLowerBound (index : Nat) : UInt64 :=
  if index = 0 then 0 else (1 : UInt64) <<< UInt64.ofNat index

/-- The largest value that falls into a bucket. -/
def bucketUpperBound (index : Nat) : UInt64 :=
  if 63 ≤ index then 0xFFFFFFFFFFFFFFFF
  else ((1 : UInt64) <<< UInt64.ofNat (index + 1)) - 1

/-- The lower bound of the first bucket that is not empty. -/
def Log2Histogram.minValue (h : Log2Histogram n) : UInt64 :=
  match (List.range n).find? (fun index => h.bucket index ≠ 0) with
  | some index => bucketLowerBound index
  | none => 0

/-- The upper bound of the last bucket that is not empty. -/
def Log2Histogram.maxValue (h : Log2Histogram n) : UInt64 :=
  match (List.range n).reverse.find? (fun index => h.bucket index ≠ 0) with
  | some index => bucketUpperBound index
  | none => 0

/-- Add to one counter. -/
def Log2Histogram.fetchAdd (h : Log2Histogram n) (index : Nat) (count : UInt64) :
    Log2Histogram n :=
  ⟨h.buckets.modify index (· + count), by
    rw [List.length_modify]
    exact h.length_eq⟩

section Loads

variable {m : Type → Type} [Monad m]

/-- The loop of `TotalCount`. -/
def sumBuckets (load : Nat → m UInt64) : List Nat → UInt64 → m UInt64
  | [], total => pure total
  | index :: rest, total => do
      let count ← load index
      sumBuckets load rest (total + count)

/-- The loop of `Percentile`. -/
def scanBuckets (load : Nat → m UInt64) (BucketCount : Nat) (target : UInt64) :
    List Nat → UInt64 → m UInt64
  | [], _ => pure (bucketUpperBound (BucketCount - 1))
  | index :: rest, cumulative => do
      let count ← load index
      let cumulative := cumulative + count
      if target ≤ cumulative then pure (bucketUpperBound index)
      else scanBuckets load BucketCount target rest cumulative

/-- A rank, brought into `[1, total]`. -/
def clampTarget (target total : UInt64) : UInt64 :=
  let target := if target < 1 then 1 else target
  if total < target then total else target

/-- `Percentile`; `rank total` is what `ceil` makes of the fraction of the total. -/
def percentileOf (BucketCount : Nat) (load : Nat → m UInt64)
    (rank : UInt64 → UInt64) : m UInt64 := do
  let total ← sumBuckets load (List.range BucketCount) 0
  if total = 0 then pure 0
  else
    scanBuckets load BucketCount (clampTarget (rank total) total)
      (List.range BucketCount) 0

/-- The loop of `Merge`, into counters nobody else writes. -/
def mergeBuckets (load : Nat → m UInt64) :
    List Nat → Log2Histogram n → m (Log2Histogram n)
  | [], h => pure h
  | index :: rest, h => do
      let otherCount ← load index
      mergeBuckets load rest (h.fetchAdd index otherCount)

end Loads

/-- `Percentile` of a histogram at rest. -/
def Log2Histogram.percentile (h : Log2Histogram n) (rank : UInt64 → UInt64) :
    UInt64 :=
  Id.run (percentileOf n (fun index => pure (h.bucket index)) rank)

/-- `Merge` from a histogram at rest. -/
def Log2Histogram.merge (h other : Log2Histogram n) : Log2Histogram n :=
  Id.run (mergeBuckets (fun index => pure (other.bucket index)) (List.range n) h)

/-- The index is that of a bucket. -/
theorem bucketIndex_lt (hn : 0 < n) (valueNs : UInt64) : bucketIndex n valueNs < n := by
  have hle : bucketIndex n valueNs ≤ n - 1 := Nat.min_le_right _ _
  omega

/-- One counter goes up by one and the others keep their value. -/
theorem record_getElem {valueNs : UInt64} {h : Log2Histogram n} {i : Nat}
    (hi : i < h.buckets.length) :
    (h.record valueNs).buckets[i]? =
      some (if bucketIndex n valueNs = i then h.buckets[i] + 1 else h.buckets[i]) := by
  show (h.buckets.modify (bucketIndex n valueNs) (· + 1))[i]? = _
  rw [List.getElem?_modify, List.getElem?_eq_getElem hi]
  by_cases hb : bucketIndex n valueNs = i
  · simp [hb]
  · simp [hb]

@[simp] theorem totalCount_empty : (Log2Histogram.empty n).totalCount = 0 := by
  show (List.replicate n 0).foldl (· + ·) (0 : UInt64) = 0
  induction n with
  | zero => rfl
  | succ n ih =>
      rw [List.replicate_succ, List.foldl_cons]
      exact ih

/-- A sum that starts one higher ends one higher. -/
theorem foldl_add_one (xs : List UInt64) (a : UInt64) :
    xs.foldl (· + ·) (a + 1) = xs.foldl (· + ·) a + 1 := by
  induction xs generalizing a with
  | nil => rfl
  | cons x xs ih =>
      rw [List.foldl_cons, List.foldl_cons, ← ih]
      congr 1
      rw [UInt64.add_assoc, UInt64.add_comm 1 x, UInt64.add_assoc]

/-- One more in any one place is one more in the sum. -/
theorem foldl_modify_add_one {xs : List UInt64} {i : Nat} (hi : i < xs.length)
    (a : UInt64) :
    (xs.modify i (· + 1)).foldl (· + ·) a = xs.foldl (· + ·) a + 1 := by
  induction xs generalizing i a with
  | nil => exact absurd hi (Nat.not_lt_zero i)
  | cons x xs ih =>
      cases i with
      | zero =>
          rw [List.modify_zero_cons, List.foldl_cons, List.foldl_cons,
            ← UInt64.add_assoc]
          exact foldl_add_one xs (a + x)
      | succ i =>
          rw [List.modify_succ_cons, List.foldl_cons, List.foldl_cons]
          exact ih (Nat.lt_of_succ_lt_succ hi) (a + x)

/-- **Every record counts once.** -/
theorem totalCount_record (hn : 0 < n) (valueNs : UInt64) (h : Log2Histogram n) :
    (h.record valueNs).totalCount = h.totalCount + 1 := by
  refine foldl_modify_add_one ?_ 0
  rw [h.length_eq]
  exact bucketIndex_lt hn valueNs

end CfioHistogram
