import Mathlib.Algebra.Order.Ring.Nat
import Cfio.MetricsSnapshot
import Cfio.SlidingWindow
import Cfio.Words

/-! # The time series of the aggregator

    The recorded samples go to a circular buffer of one slot for each second of the
    run.  An access outside of the vector is `none`.  `HoldsSamples` ties the buffer to
    all samples that were ever recorded; `timeSeries_window` is what `TimeSeries()`
    makes of them. -/

namespace CfioMetrics

open SlidingWindow Words

/-- The circular time series buffer. -/
structure TimeSeriesBuffer where
  tsCapacity : UInt64
  timeSeriesRing : List MetricsSnapshot
  tsWriteIndex : UInt64 := 0
  tsCount : UInt64 := 0
  deriving DecidableEq, Repr

/-- `std::max(1, runtime_seconds)`. -/
def capacityOf (runtimeSeconds : Int32) : Nat := (max 1 runtimeSeconds.toInt).toNat

/-- The buffer as `MetricsAggregator::MetricsAggregator` makes it. -/
def TimeSeriesBuffer.make (runtimeSeconds : Int32) : TimeSeriesBuffer :=
  { tsCapacity := UInt64.ofNat (capacityOf runtimeSeconds)
    timeSeriesRing := List.replicate (capacityOf runtimeSeconds) {} }

/-- `MetricsAggregator::RecordTimeSeries`. -/
def recordTimeSeries (b : TimeSeriesBuffer) (snapshot : MetricsSnapshot) :
    Option TimeSeriesBuffer :=
  if b.tsWriteIndex.toNat < b.timeSeriesRing.length then
    some
      { b with
        timeSeriesRing := b.timeSeriesRing.set b.tsWriteIndex.toNat snapshot
        tsWriteIndex := (b.tsWriteIndex + 1) % b.tsCapacity
        tsCount := b.tsCount + 1 }
  else none

/-- `MetricsAggregator::TimeSeries`. -/
def timeSeries (b : TimeSeriesBuffer) : Option (List MetricsSnapshot) :=
  if b.tsCount = 0 then some []
  else if b.tsCount ≤ b.tsCapacity then
    (List.range b.tsCount.toNat).mapM (fun i => b.timeSeriesRing[i]?)
  else
    (List.range b.tsCapacity.toNat).mapM (fun k =>
      let idx := (b.tsWriteIndex + UInt64.ofNat k) % b.tsCapacity
      b.timeSeriesRing[idx.toNat]?)

/-! ## What the buffer holds -/

/-- The buffer after these samples were recorded: the next slot and the count follow
    from how many there were, and the slots hold those still in the window. -/
structure HoldsSamples (b : TimeSeriesBuffer) (history : List MetricsSnapshot) : Prop where
  capacity : b.tsCapacity.toNat = b.timeSeriesRing.length
  pos : 0 < b.timeSeriesRing.length
  small : b.timeSeriesRing.length < 2 ^ 31
  writeIndex : b.tsWriteIndex.toNat = history.length % b.timeSeriesRing.length
  count : b.tsCount.toNat = history.length % 2 ^ 64
  holds : Holds b.timeSeriesRing history

theorem capacityOf_pos (runtimeSeconds : Int32) : 0 < capacityOf runtimeSeconds := by
  rw [capacityOf]
  omega

theorem capacityOf_lt (runtimeSeconds : Int32) : capacityOf runtimeSeconds < 2 ^ 31 := by
  have := runtimeSeconds.toInt_lt
  rw [capacityOf]
  omega

theorem holdsSamples_make (runtimeSeconds : Int32) :
    HoldsSamples (TimeSeriesBuffer.make runtimeSeconds) [] := by
  have hpos := capacityOf_pos runtimeSeconds
  have hlt := capacityOf_lt runtimeSeconds
  have hlen : (TimeSeriesBuffer.make runtimeSeconds).timeSeriesRing.length
      = capacityOf runtimeSeconds := List.length_replicate
  refine ⟨?_, by rw [hlen]; exact hpos, by rw [hlen]; exact hlt, ?_, rfl, holds_nil _⟩
  · rw [hlen]
    exact UInt64.toNat_ofNat_of_lt' (Nat.lt_trans hlt (by decide))
  · rw [List.length_nil, Nat.zero_mod]
    rfl

section Buffer

variable {b : TimeSeriesBuffer} {history : List MetricsSnapshot}

theorem HoldsSamples.index_lt (h : HoldsSamples b history) :
    b.tsWriteIndex.toNat < b.timeSeriesRing.length := by
  rw [h.writeIndex]
  exact Nat.mod_lt _ h.pos

/-- The slot `k` places after the next one; the sum does not wrap. -/
theorem HoldsSamples.slot_after (h : HoldsSamples b history) {k : Nat}
    (hk : k < b.timeSeriesRing.length) :
    ((b.tsWriteIndex + UInt64.ofNat k) % b.tsCapacity).toNat
      = (history.length % b.timeSeriesRing.length + k) % b.timeSeriesRing.length := by
  have hsmall := h.small
  have hindex := h.index_lt
  have hk' : (UInt64.ofNat k).toNat = k :=
    UInt64.toNat_ofNat_of_lt' (Nat.lt_trans hk (Nat.lt_trans hsmall (by decide)))
  have hsum : NoWrapAdd b.tsWriteIndex (UInt64.ofNat k) := by
    show _ + (UInt64.ofNat k).toNat < _
    omega
  rw [UInt64.toNat_mod, hsum.toNat, hk', h.capacity, h.writeIndex]

/-- **Recording one more sample** stays inside the vector. -/
theorem HoldsSamples.record (h : HoldsSamples b history) (snapshot : MetricsSnapshot) :
    ∃ b', recordTimeSeries b snapshot = some b' ∧ HoldsSamples b' (history ++ [snapshot])
      ∧ b'.timeSeriesRing.length = b.timeSeriesRing.length := by
  have hpos := h.pos
  refine ⟨_, if_pos h.index_lt, ?_, List.length_set⟩
  have hlen : (b.timeSeriesRing.set b.tsWriteIndex.toNat snapshot).length
      = b.timeSeriesRing.length := List.length_set
  refine ⟨?_, ?_, ?_, ?_, ?_, ?_⟩
  · rw [hlen]
    exact h.capacity
  · rw [hlen]
    exact hpos
  · rw [hlen]
    exact h.small
  · have hnext : ((b.tsWriteIndex + 1) % b.tsCapacity).toNat
        = (history.length % b.timeSeriesRing.length + 1) % b.timeSeriesRing.length := by
      have hsmall := h.small
      have hindex := h.index_lt
      have hsum : NoWrapAdd b.tsWriteIndex 1 := by
        show _ + 1 < _
        omega
      rw [UInt64.toNat_mod, hsum.toNat, h.capacity, h.writeIndex]
      rfl
    rw [hlen, List.length_append, List.length_singleton, hnext, Nat.mod_add_mod]
  · have hcount : (b.tsCount + 1).toNat = (history.length % 2 ^ 64 + 1) % 2 ^ 64 := by
      rw [UInt64.toNat_add, h.count]
      rfl
    rw [List.length_append, List.length_singleton, hcount, Nat.mod_add_mod]
  · rw [h.writeIndex]
    exact h.holds.write hpos snapshot

/-- **Recording any number of samples.** -/
theorem HoldsSamples.recordAll (h : HoldsSamples b history) (samples : List MetricsSnapshot) :
    ∃ b', samples.foldlM recordTimeSeries b = some b' ∧ HoldsSamples b' (history ++ samples)
      ∧ b'.timeSeriesRing.length = b.timeSeriesRing.length := by
  induction samples generalizing b history with
  | nil => exact ⟨b, rfl, by rwa [List.append_nil], rfl⟩
  | cons s rest ih =>
      obtain ⟨b₁, hb₁, h₁, hlen₁⟩ := h.record s
      obtain ⟨b₂, hb₂, h₂, hlen₂⟩ := ih h₁
      refine ⟨b₂, ?_, ?_, hlen₂.trans hlen₁⟩
      · rw [List.foldlM_cons, hb₁]
        exact hb₂
      · rwa [List.append_assoc] at h₂

/-! ## Reading the series -/

/-- Every slot that is read is one of the vector's, and there are no more of them. -/
theorem HoldsSamples.read_some (h : HoldsSamples b history) :
    ∃ result, timeSeries b = some result
      ∧ result.length ≤ b.timeSeriesRing.length := by
  rw [timeSeries]
  by_cases hzero : b.tsCount = 0
  · rw [if_pos hzero]
    exact ⟨[], rfl, Nat.zero_le _⟩
  rw [if_neg hzero]
  by_cases hcount : b.tsCount ≤ b.tsCapacity
  · rw [if_pos hcount]
    have hle : b.tsCount.toNat ≤ b.timeSeriesRing.length := by
      rw [← h.capacity]
      exact UInt64.le_iff_toNat_le.mp hcount
    obtain ⟨result, hresult, hlen⟩ := mapM_some (l := List.range b.tsCount.toNat)
      (f := fun i => b.timeSeriesRing[i]?)
      (fun i hi =>
        (isSome_getElem? b.timeSeriesRing i).mpr
          (Nat.lt_of_lt_of_le (List.mem_range.mp hi) hle))
    refine ⟨result, hresult, ?_⟩
    rwa [hlen, List.length_range]
  · rw [if_neg hcount]
    obtain ⟨result, hresult, hlen⟩ := mapM_some (l := List.range b.tsCapacity.toNat)
      (f := fun k => b.timeSeriesRing[((b.tsWriteIndex + UInt64.ofNat k)
        % b.tsCapacity).toNat]?)
      (fun k hk => by
        rw [List.mem_range, h.capacity] at hk
        rw [h.slot_after hk]
        exact (isSome_getElem? b.timeSeriesRing _).mpr (Nat.mod_lt _ h.pos))
    refine ⟨result, hresult, ?_⟩
    rw [hlen, List.length_range, h.capacity]

/-- Unless the count has wrapped around to less than a round, the series is the
    window. -/
theorem HoldsSamples.read_window (h : HoldsSamples b history)
    (hwindow : history.length ≤ b.timeSeriesRing.length
      ∨ b.timeSeriesRing.length < history.length % 2 ^ 64) :
    timeSeries b = some (lastOf b.timeSeriesRing.length history) := by
  have hsmall := h.small
  have hcount := h.count
  rw [timeSeries]
  by_cases hzero : b.tsCount = 0
  · rw [if_pos hzero]
    rw [hzero] at hcount
    have hnone : history.length = 0 := by
      have hzero' : (0 : UInt64).toNat = 0 := rfl
      omega
    rw [List.length_eq_zero_iff.mp hnone, lastOf_of_le (Nat.zero_le _)]
  have hle : b.tsCount ≤ b.tsCapacity
      ↔ history.length % 2 ^ 64 ≤ b.timeSeriesRing.length := by
    rw [UInt64.le_iff_toNat_le, h.capacity, hcount]
  rw [if_neg hzero]
  by_cases hround : history.length ≤ b.timeSeriesRing.length
  · have hmod : history.length % 2 ^ 64 = history.length := Nat.mod_eq_of_lt (by omega)
    rw [if_pos (hle.mpr (by omega)), hcount, hmod, lastOf_of_le hround]
    exact h.holds.read_prefix hround
  · have hover := hwindow.resolve_left hround
    have hrest : ¬ b.tsCount ≤ b.tsCapacity := by
      rw [hle]
      omega
    have hslots : ∀ k ∈ List.range b.timeSeriesRing.length,
        b.timeSeriesRing[((b.tsWriteIndex + UInt64.ofNat k) % b.tsCapacity).toNat]?
          = b.timeSeriesRing[(history.length % b.timeSeriesRing.length + k)
              % b.timeSeriesRing.length]? := by
      intro k hk
      rw [h.slot_after (List.mem_range.mp hk)]
    rw [if_neg hrest, h.capacity, ← h.holds.read_round (by omega)]
    exact mapM_congr hslots

/-- The series is everything recorded just when that fits in the buffer. -/
theorem HoldsSamples.read_all_iff (h : HoldsSamples b history) :
    timeSeries b = some history ↔ history.length ≤ b.timeSeriesRing.length := by
  constructor
  · intro hall
    obtain ⟨result, hresult, hlen⟩ := h.read_some
    rw [hall] at hresult
    rwa [← Option.some.inj hresult] at hlen
  · intro hle
    rw [h.read_window (Or.inl hle), lastOf_of_le hle]

end Buffer

/-- **The time series is a sliding window**: for any number of samples no access
    leaves the vector, and the series is the last of them, as many as there are
    slots.  `ts_count_` starts over at `2 ^ 64`; the series is then shorter until
    a round has passed. -/
theorem timeSeries_window (runtimeSeconds : Int32) (samples : List MetricsSnapshot) :
    ∃ b result,
      samples.foldlM recordTimeSeries (TimeSeriesBuffer.make runtimeSeconds) = some b
        ∧ b.timeSeriesRing.length = capacityOf runtimeSeconds
        ∧ timeSeries b = some result
        ∧ (samples.length ≤ capacityOf runtimeSeconds
              ∨ capacityOf runtimeSeconds < samples.length % 2 ^ 64 →
            result = lastOf (capacityOf runtimeSeconds) samples) := by
  obtain ⟨b, hb, hholds, hlen⟩ := (holdsSamples_make runtimeSeconds).recordAll samples
  obtain ⟨result, hresult, -⟩ := hholds.read_some
  have hcap : b.timeSeriesRing.length = capacityOf runtimeSeconds := by
    rw [hlen]
    exact List.length_replicate
  refine ⟨b, result, hb, hcap, hresult, fun hwindow => ?_⟩
  rw [← hcap] at hwindow ⊢
  exact Option.some.inj (hresult.symm.trans (hholds.read_window hwindow))

/-- After `2 ^ 64` samples the series is empty. -/
theorem timeSeries_count_wraps :
    ∃ b, (List.replicate (2 ^ 64) ({} : MetricsSnapshot)).foldlM recordTimeSeries
          (TimeSeriesBuffer.make 1) = some b
        ∧ timeSeries b = some []
        ∧ lastOf (capacityOf 1) (List.replicate (2 ^ 64) ({} : MetricsSnapshot)) ≠ [] := by
  obtain ⟨b, hb, hholds, -⟩ :=
    (holdsSamples_make 1).recordAll (List.replicate (2 ^ 64) ({} : MetricsSnapshot))
  refine ⟨b, hb, ?_, ?_⟩
  · have hcount := hholds.count
    rw [List.nil_append, List.length_replicate] at hcount
    have hzero : b.tsCount = 0 := UInt64.toNat_inj.mp hcount
    rw [timeSeries, if_pos hzero]
  · intro hnil
    have hlen := congrArg List.length hnil
    rw [length_lastOf, List.length_replicate] at hlen
    exact absurd hlen (by decide)

end CfioMetrics
