import Cfio.HistogramOrder
import Cfio.Interference

/-! # A percentile while values are recorded

    `Percentile` loads every bucket twice, and any number of `Record` calls may
    come between two loads.  The shared state is the list of the values recorded
    so far, so every load reads what was recorded before it.

    A call is described by where it returns (`PercentileExit`).  What the first
    pass found lies below the counters at its end; the second pass finds at least
    those, so it reaches its target inside the loop (`ends_scanExit`), at a bucket
    whose counter it saw grow. -/

namespace CfioHistogram

open Interference Transition Words

/-! ## Where a call returns -/

/-- The `return` a call of `Percentile` leaves by: no values, a bucket of the loop,
    or the one behind the loop. -/
inductive PercentileExit where
  | noValues
  | inLoop (index : Nat)
  | fellThrough
  deriving DecidableEq, Repr

/-- What it returns there. -/
def PercentileExit.value (BucketCount : Nat) : PercentileExit → UInt64
  | .noValues => 0
  | .inLoop index => bucketUpperBound index
  | .fellThrough => bucketUpperBound (BucketCount - 1)

section Loads

variable {m : Type → Type} [Monad m]

/-- `scanBuckets`, keeping where it returns. -/
def scanExit (load : Nat → m UInt64) (target : UInt64) :
    List Nat → UInt64 → m PercentileExit
  | [], _ => pure .fellThrough
  | index :: rest, cumulative => do
      let count ← load index
      let cumulative := cumulative + count
      if target ≤ cumulative then pure (.inLoop index)
      else scanExit load target rest cumulative

/-- `percentileOf`, keeping where it returns. -/
def percentileExit (BucketCount : Nat) (load : Nat → m UInt64)
    (rank : UInt64 → UInt64) : m PercentileExit := do
  let total ← sumBuckets load (List.range BucketCount) 0
  if total = 0 then pure .noValues
  else
    scanExit load (clampTarget (rank total) total) (List.range BucketCount) 0

variable [LawfulMonad m]

theorem scanBuckets_eq (load : Nat → m UInt64) (n : Nat) (target : UInt64)
    (indices : List Nat) (cumulative : UInt64) :
    scanBuckets load n target indices cumulative
      = PercentileExit.value n <$> scanExit load target indices cumulative := by
  induction indices generalizing cumulative with
  | nil =>
      show pure _ = PercentileExit.value n <$> pure _
      rw [map_pure]
      rfl
  | cons index rest ih =>
      rw [scanBuckets, scanExit, map_bind]
      congr 1
      funext count
      by_cases hstop : target ≤ cumulative + count
      · rw [if_pos hstop, if_pos hstop, map_pure]
        rfl
      · rw [if_neg hstop, if_neg hstop]
        exact ih _

/-- The value is determined by where the call returns. -/
theorem percentileOf_eq (n : Nat) (load : Nat → m UInt64) (rank : UInt64 → UInt64) :
    percentileOf n load rank
      = PercentileExit.value n <$> percentileExit n load rank := by
  rw [percentileOf, percentileExit, map_bind]
  congr 1
  funext total
  by_cases h0 : total = 0
  · rw [if_pos h0, if_pos h0, map_pure]
    rfl
  · rw [if_neg h0, if_neg h0]
    exact scanBuckets_eq load n _ _ _

end Loads

/-! ## Recording, seen by a reader -/

/-- The counters after these values were recorded. -/
def cells (n : Nat) (recorded : List UInt64) : Nat → UInt64 :=
  ((Log2Histogram.empty n).recordAll recorded).bucket

/-- Any number of `Record` calls. -/
def recordsMore (recorded recorded' : List UInt64) : Bool := recorded.isPrefixOf recorded'

/-- A program of a thread that only reads. -/
abbrev Reader := Prog (List UInt64) Unit

/-- One atomic load of a bucket. -/
def loadCell (n index : Nat) : Reader UInt64 := load (fun recorded => cells n recorded index)

/-- Recording more and more is an interference. -/
theorem interferes_recordsMore : Interferes recordsMore :=
  ⟨fun _ => List.isPrefixOf_iff_prefix.mpr (List.prefix_refl _), fun _ _ _ h₁₂ h₂₃ =>
    List.isPrefixOf_iff_prefix.mpr
      ((List.isPrefixOf_iff_prefix.mp h₁₂).trans (List.isPrefixOf_iff_prefix.mp h₂₃))⟩

section Cells

variable {n : Nat} {recorded recorded' : List UInt64}

/-- A cell holds the number of values in its bucket. -/
theorem cells_eq (recorded : List UInt64) {b : Nat} (hb : b < n) :
    cells n recorded b
      = UInt64.ofNat (recorded.countP (fun v => bucketIndex n v = b)) := by
  rw [cells, bucket_recordAll _ _ hb, bucket_empty, UInt64.zero_add]

theorem length_le_of_recordsMore (h : recordsMore recorded recorded' = true) :
    recorded.length ≤ recorded'.length :=
  (List.isPrefixOf_iff_prefix.mp h).length_le

/-- Counters only grow. -/
theorem cells_mono (hfit : recorded'.length < 2 ^ 64)
    (h : recordsMore recorded recorded' = true) :
    ∀ b, b < n → cells n recorded b ≤ cells n recorded' b := by
  intro b hb
  have hlen := length_le_of_recordsMore h
  obtain ⟨later, rfl⟩ := List.isPrefixOf_iff_prefix.mp h
  rw [UInt64.le_iff_toNat_le, cells, cells, toNat_bucket_recorded (by omega) hb,
    toNat_bucket_recorded hfit hb, List.countP_append]
  exact Nat.le_add_right _ _

/-- The counters of the first `j` buckets count at most the values there are. -/
theorem countBelow_cells_le (hfit : recorded.length < 2 ^ 64) {j : Nat} (hj : j ≤ n) :
    countBelow (cells n recorded) j ≤ recorded.length := by
  rw [cells, countBelow_recorded hfit hj]
  exact List.countP_le_length

/-- A counter that is not zero has counted a value. -/
theorem exists_of_cells_pos (hfit : recorded.length < 2 ^ 64) {b : Nat} (hb : b < n)
    (hpos : 0 < (cells n recorded b).toNat) :
    ∃ v ∈ recorded, bucketIndex n v = b := by
  rw [cells, toNat_bucket_recorded hfit hb, List.countP_pos_iff] at hpos
  obtain ⟨v, hv, hvb⟩ := hpos
  exact ⟨v, hv, of_decide_eq_true hvb⟩

end Cells

/-! ## Loops that only read -/

section ReadOnly

variable {G S : Type} {load : Nat → Prog G S UInt64}
variable (hload : ∀ index, ReadOnly (load index))

include hload

theorem readOnly_sumBuckets (indices : List Nat) (total : UInt64) :
    ReadOnly (sumBuckets load indices total) := by
  induction indices generalizing total with
  | nil => trivial
  | cons index rest ih => exact readOnly_bind (hload index) (fun _ => ih _)

theorem readOnly_scanExit (target : UInt64) (indices : List Nat) (cumulative : UInt64) :
    ReadOnly (scanExit load target indices cumulative) := by
  induction indices generalizing cumulative with
  | nil => trivial
  | cons index rest ih =>
      exact readOnly_bind (hload index) (fun _ => readOnly_ite _ trivial (ih _))

/-- So `Percentile` only reads. -/
theorem readOnly_percentileOf (n : Nat) (rank : UInt64 → UInt64) :
    ReadOnly (percentileOf n load rank) := by
  rw [percentileOf_eq]
  refine readOnly_map _ (readOnly_bind (readOnly_sumBuckets hload _ _) (fun total => ?_))
  exact readOnly_ite _ trivial (readOnly_scanExit hload _ _ _)

theorem readOnly_mergeBuckets {n : Nat} (indices : List Nat) (h : Log2Histogram n) :
    ReadOnly (mergeBuckets load indices h) := by
  induction indices generalizing h with
  | nil => trivial
  | cons index rest ih => exact readOnly_bind (hload index) (fun _ => ih _)

end ReadOnly

/-! ## The two passes -/

section Passes

variable {n i r : Nat} {g g' : List UInt64} {s s' : Unit}

theorem readOnly_loadCell (index : Nat) : ReadOnly (loadCell n index) := readOnly_load _

/-- Adding what is in the next bucket, at a later moment. -/
theorem add_cell {h : List UInt64} {c : UInt64} (hfit : h.length < 2 ^ 64)
    (hgh : recordsMore g h = true) (hi : i < n)
    (hc : c.toNat ≤ countBelow (cells n g) i) :
    (c + cells n h i).toNat = c.toNat + (cells n h i).toNat
      ∧ (c + cells n h i).toNat ≤ countBelow (cells n h) (i + 1) := by
  have hmono : countBelow (cells n g) i ≤ countBelow (cells n h) i :=
    countBelow_le (fun b hb => cells_mono hfit hgh b (by omega))
  have hnext := countBelow_cells_le hfit (Nat.succ_le_of_lt hi)
  rw [countBelow_succ] at hnext ⊢
  have hadd : (c + cells n h i).toNat = c.toNat + (cells n h i).toNat :=
    NoWrapAdd.toNat (show _ < _ by omega)
  exact ⟨hadd, by omega⟩

/-- **The first pass** finds no more than the counters hold when it ends. -/
theorem ends_sumBuckets {total t : UInt64} (hfit : g'.length < 2 ^ 64) (hir : i + r ≤ n)
    (htotal : total.toNat ≤ countBelow (cells n g) i)
    (h : Ends recordsMore (sumBuckets (loadCell n) (List.range' i r) total) g s t g' s') :
    t.toNat ≤ countBelow (cells n g') (i + r) := by
  induction r generalizing i total g s with
  | zero =>
      obtain ⟨hg, rfl, -⟩ := h
      have hmono : countBelow (cells n g) i ≤ countBelow (cells n g') i :=
        countBelow_le (fun b hb => cells_mono hfit hg b (by omega))
      exact Nat.le_trans htotal hmono
  | succ r ih =>
      rw [List.range'_succ] at h
      obtain ⟨k, hgk, hrest⟩ := h
      have hkg := ((readOnly_sumBuckets readOnly_loadCell _ _).unchanged
        interferes_recordsMore hrest).2
      have hkfit := Nat.lt_of_le_of_lt (length_le_of_recordsMore hkg) hfit
      obtain ⟨-, hle⟩ := add_cell hkfit hgk (by omega : i < n) htotal
      have hidx : i + (r + 1) = i + 1 + r := by omega
      rw [hidx] at hir ⊢
      exact ih hir hle hrest

/-- **The second pass** reaches a target that the counters held when it began, and
    stops at a bucket that is not empty. -/
theorem ends_scanExit {low : Nat → UInt64} {target cumulative : UInt64}
    {exit : PercentileExit} (hfit : g'.length < 2 ^ 64) (hir : i + r ≤ n)
    (hlow : ∀ b, b < n → low b ≤ cells n g b)
    (hreach : target.toNat ≤ countBelow low (i + r))
    (hbefore : cumulative.toNat < target.toNat)
    (hge : countBelow low i ≤ cumulative.toNat)
    (hle : cumulative.toNat ≤ countBelow (cells n g) i)
    (h : Ends recordsMore (scanExit (loadCell n) target (List.range' i r) cumulative)
      g s exit g' s') :
    ∃ index, index < n ∧ exit = .inLoop index ∧ 0 < (cells n g' index).toNat := by
  induction r generalizing i cumulative g s with
  | zero =>
      rw [Nat.add_zero] at hreach
      omega
  | succ r ih =>
      rw [List.range'_succ] at h
      obtain ⟨k, hgk, hrest⟩ := h
      have hi : i < n := by omega
      change Ends recordsMore
        (if target ≤ cumulative + cells n k i then _ else _) k s exit g' s' at hrest
      by_cases hstop : target ≤ cumulative + cells n k i
      · rw [if_pos hstop] at hrest
        obtain ⟨hkg, rfl, -⟩ := hrest
        have hkfit := Nat.lt_of_le_of_lt (length_le_of_recordsMore hkg) hfit
        obtain ⟨hadd, -⟩ := add_cell hkfit hgk hi hle
        have hgrow := UInt64.le_iff_toNat_le.mp (cells_mono hfit hkg i hi)
        rw [UInt64.le_iff_toNat_le, hadd] at hstop
        exact ⟨i, hi, rfl, by omega⟩
      · rw [if_neg hstop] at hrest
        have hkg := ((readOnly_scanExit readOnly_loadCell _ _ _).unchanged
          interferes_recordsMore hrest).2
        have hkfit := Nat.lt_of_le_of_lt (length_le_of_recordsMore hkg) hfit
        obtain ⟨hadd, hle'⟩ := add_cell hkfit hgk hi hle
        have hlow' : ∀ b, b < n → low b ≤ cells n k b :=
          fun b hb => UInt64.le_trans (hlow b hb) (cells_mono hkfit hgk b hb)
        have hlowi := UInt64.le_iff_toNat_le.mp (hlow' i hi)
        rw [UInt64.le_iff_toNat_le] at hstop
        have hge' : countBelow low (i + 1) ≤ (cumulative + cells n k i).toNat := by
          rw [countBelow_succ, hadd]
          omega
        have hidx : i + (r + 1) = i + 1 + r := by omega
        rw [hidx] at hir hreach
        exact ih hir hlow' hreach (Nat.lt_of_not_le hstop) hge' hle' hrest

/-- A call that is over returned zero because it saw no values, or returned inside
    the loop, at a bucket that is not empty. -/
theorem ends_percentileExit {rank : UInt64 → UInt64} {exit : PercentileExit}
    (hfit : g'.length < 2 ^ 64)
    (h : Ends recordsMore (percentileExit n (loadCell n) rank) g s exit g' s') :
    exit = .noValues ∨
      ∃ index, index < n ∧ exit = .inLoop index ∧ 0 < (cells n g' index).toNat := by
  obtain ⟨total, k, t, hsum, hrest⟩ := (ends_bind interferes_recordsMore).mp h
  by_cases h0 : total = 0
  · rw [if_pos h0] at hrest
    exact Or.inl hrest.2.1.symm
  rw [if_neg h0] at hrest
  right
  rw [List.range_eq_range'] at hsum hrest
  have hkg := ((readOnly_scanExit readOnly_loadCell _ _ _).unchanged
    interferes_recordsMore hrest).2
  have hkfit := Nat.lt_of_le_of_lt (length_le_of_recordsMore hkg) hfit
  have hnone : (0 : UInt64).toNat ≤ 0 := Nat.le_refl 0
  have htotal := ends_sumBuckets hkfit (by omega : 0 + n ≤ n) hnone hsum
  have hpos := toNat_pos_of_ne h0
  have htarget := toNat_clampTarget (rank total) total
  have hstart : countBelow (cells n k) 0 ≤ (0 : UInt64).toNat := Nat.le_refl 0
  refine ends_scanExit hfit (by omega : 0 + n ≤ n) (fun b _ => UInt64.le_refl _) ?_ ?_
    hstart (Nat.zero_le _) hrest
  · omega
  · show 0 < _
    omega

end Passes

/-! ## Whole calls -/

/-- **A percentile is safe against concurrent recording**: whatever is recorded
    between its loads, a call that saw values returns from inside its loop, the upper
    bound of a bucket into which a value was recorded before the call returned.
    All values recorded together are fewer than `2 ^ 64`. -/
theorem percentile_concurrent (n : Nat) (p : ℚ) {recorded recorded' : List UInt64}
    {value : UInt64} {acts : List (ThreadAct (List UInt64) Unit)}
    (hrun : run (threadStep recordsMore progStep)
      (recorded, ((), percentileOf n (loadCell n) (exactRank p))) acts
        = some (recorded', ((), .done value)))
    (hfit : recorded'.length < 2 ^ 64) :
    ∃ exit : PercentileExit,
      run (threadStep recordsMore progStep)
          (recorded, ((), percentileExit n (loadCell n) (exactRank p))) acts
        = some (recorded', ((), .done exit))
      ∧ value = exit.value n
      ∧ (exit = .noValues ∨ ∃ index, index < n ∧ exit = .inLoop index ∧
          ∃ v ∈ recorded', bucketIndex n v = index) := by
  rw [percentileOf_eq, run_map] at hrun
  obtain ⟨⟨g, s, q⟩, hq, heq⟩ := Option.map_eq_some_iff.mp hrun
  obtain ⟨rfl, hsq⟩ := Prod.mk.inj heq
  obtain ⟨-, hdone⟩ := Prod.mk.inj hsq
  cases q with
  | step act next => exact nomatch hdone
  | done exit =>
      have hvalue : PercentileExit.value n exit = value := Prog.done.inj hdone
      refine ⟨exit, hq, hvalue.symm, ?_⟩
      have hends := (ends_iff_run interferes_recordsMore).mpr ⟨acts, hq⟩
      obtain hnone | ⟨index, hindex, hexit, hpos⟩ := ends_percentileExit hfit hends
      · exact Or.inl hnone
      · exact Or.inr ⟨index, hindex, hexit, exists_of_cells_pos hfit hindex hpos⟩

/-- The result of a program that is over. -/
def resultOf {G S α : Type} : Prog G S α → Option α
  | .done a => some a
  | .step _ _ => none

/-- A program with a result has ended. -/
theorem eq_done_of_resultOf {G S α : Type} {p : Prog G S α} {a : α}
    (h : resultOf p = some a) : p = .done a := by
  cases p with
  | done b => exact congrArg Prog.done (Option.some.inj h)
  | step act next => exact nomatch h

/-- A value recorded before either pass, and one between them. -/
def recordedBetween : List (ThreadAct (List UInt64) Unit) :=
  [.interfere [5], .own (), .own (), .interfere [5, 0], .own ()]

theorem percentile_concurrent_one :
    ∃ exit : PercentileExit,
      run (threadStep recordsMore progStep)
          ([], ((), percentileExit 2 (loadCell 2) (exactRank (1 / 2)))) recordedBetween
        = some ([5, 0], ((), .done exit))
      ∧ (1 : UInt64) = exit.value 2
      ∧ (exit = .noValues ∨ ∃ index, index < 2 ∧ exit = .inLoop index ∧
          ∃ v ∈ [(5 : UInt64), 0], bucketIndex 2 v = index) := by
  have hrun : (run (threadStep recordsMore progStep)
      ([], ((), percentileOf 2 (loadCell 2) (exactRank (1 / 2)))) recordedBetween).map
        (fun t => (t.1, resultOf t.2.2)) = some ([5, 0], some 1) := by decide +kernel
  obtain ⟨⟨g, s, q⟩, hq, hx⟩ := Option.map_eq_some_iff.mp hrun
  obtain ⟨rfl, hresult⟩ := Prod.mk.inj hx
  obtain rfl : q = .done 1 := eq_done_of_resultOf hresult
  exact percentile_concurrent 2 (1 / 2) hq (by decide)

/-- Two buckets whose counts add up to `2 ^ 64` during the call: the sum of the
    second pass wraps before it reaches its target. -/
theorem ends_fellThrough {g g' : List UInt64} (hg : recordsMore g g' = true)
    (h0 : cells 2 g 0 = 1) (h1 : cells 2 g 1 = 0xFFFFFFFFFFFFFFFE)
    (h0' : cells 2 g' 0 = 2) (h1' : cells 2 g' 1 = 0xFFFFFFFFFFFFFFFE) :
    Ends recordsMore (percentileExit 2 (loadCell 2) (exactRank 1)) g () .fellThrough
      g' () := by
  have hrefl := interferes_recordsMore.refl
  have htarget : clampTarget (exactRank 1 0xFFFFFFFFFFFFFFFF) 0xFFFFFFFFFFFFFFFF
      = 0xFFFFFFFFFFFFFFFF := by decide +kernel
  refine ⟨g, hrefl g, g, hrefl g, ?_⟩
  show Ends recordsMore (if 0 + cells 2 g 0 + cells 2 g 1 = 0 then _ else _) g () _ g' ()
  have htotal : 0 + cells 2 g 0 + cells 2 g 1 = 0xFFFFFFFFFFFFFFFF := by
    rw [h0, h1]
    rfl
  rw [htotal, if_neg (by decide), htarget]
  have hfirst : ¬ (0xFFFFFFFFFFFFFFFF : UInt64) ≤ 0 + cells 2 g' 0 := by
    rw [h0']
    decide
  have hsecond : ¬ (0xFFFFFFFFFFFFFFFF : UInt64) ≤ 0 + cells 2 g' 0 + cells 2 g' 1 := by
    rw [h0', h1']
    decide
  refine ⟨g', hg, ?_⟩
  show Ends recordsMore (if 0xFFFFFFFFFFFFFFFF ≤ 0 + cells 2 g' 0 then _ else _)
    g' () _ g' ()
  rw [if_neg hfirst]
  refine ⟨g', hrefl g', ?_⟩
  show Ends recordsMore (if 0xFFFFFFFFFFFFFFFF ≤ 0 + cells 2 g' 0 + cells 2 g' 1
    then _ else _) g' () _ g' ()
  rw [if_neg hsecond]
  exact ⟨hrefl g', rfl, rfl⟩

/-- As many values in the upper of two buckets as a counter can hold, almost. -/
def nearlyFull : List UInt64 := List.replicate (2 ^ 64 - 2) 2 ++ [0]

/-- What is counted among so many values. -/
theorem countP_nearlyFull (f : UInt64 → Bool) (later : List UInt64) :
    (nearlyFull ++ later).countP f
      = (if f 2 then 2 ^ 64 - 2 else 0) + (if f 0 then 1 else 0) + later.countP f := by
  rw [nearlyFull, List.countP_append, List.countP_append, List.countP_replicate,
    List.countP_singleton]

/-- Bounding each bucket is not enough: with fewer than `2 ^ 64` values in each
    bucket the loop can still be left behind its end. -/
theorem percentile_sum_wraps :
    (∃ acts, run (threadStep recordsMore progStep)
        (nearlyFull, ((), percentileExit 2 (loadCell 2) (exactRank 1))) acts
          = some (nearlyFull ++ [0], ((), .done .fellThrough)))
      ∧ ∀ b, b < 2 → (nearlyFull ++ [0]).countP (fun v => bucketIndex 2 v = b) < 2 ^ 64 := by
  have hcount := fun b => countP_nearlyFull (fun v => bucketIndex 2 v = b)
  constructor
  · refine (ends_iff_run interferes_recordsMore).mp (ends_fellThrough ?_ ?_ ?_ ?_ ?_)
    · exact List.isPrefixOf_iff_prefix.mpr (List.prefix_append _ _)
    · rw [← List.append_nil nearlyFull, cells_eq _ (by decide), hcount]
      rfl
    · rw [← List.append_nil nearlyFull, cells_eq _ (by decide), hcount]
      rfl
    · rw [cells_eq _ (by decide), hcount]
      rfl
    · rw [cells_eq _ (by decide), hcount]
      rfl
  · intro b _
    rw [hcount]
    match b with
    | 0 => decide
    | 1 => decide

end CfioHistogram
