import Cfio.HistogramReads
import Cfio.MetricsAggregator

/-! # What a snapshot reads

    A snapshot loads the counters one by one while they grow.  Each loop of a
    histogram is described by the counters it loaded (`Loaded`); the body of the
    loop over the workers, the loop and the snapshot follow, each with the
    invariant `I` of whoever uses it kept at every moment.  `safe_takeSnapshot`
    is the only thing the results about snapshots need. -/

namespace CfioMetrics

open CfioTypes CfioHistogram Interference Transition

variable {n : Nat}

/-! ## The loops of a histogram, while it changes -/

section Loops

variable {rely : Memory n → Memory n → Bool} {g : Memory n} {s : MetricsAggregator n}
variable {I : Memory n → MetricsAggregator n → Prop} {i : Fin n}

/-- Counters that were loaded between two moments. -/
def Loaded (i : Fin n) (g g' : Memory n) (c : Nat → UInt64) : Prop :=
  ∀ b, b < 64 → (g.workers i).histogram.bucket b ≤ c b ∧
    c b ≤ (g'.workers i).histogram.bucket b

theorem Memory.Le.bucket {g g' : Memory n} (h : g.Le g') (i : Fin n) {b : Nat}
    (hb : b < 64) :
    (g.workers i).histogram.bucket b ≤ (g'.workers i).histogram.bucket b :=
  (h.2 i).1 ⟨b, hb⟩

/-- Counters loaded in a stretch of time were loaded in any longer one. -/
theorem Loaded.mono {g₀ g₁ g₂ g₃ : Memory n} {c : Nat → UInt64}
    (h : Loaded i g₁ g₂ c) (h₀₁ : g₀.Le g₁) (h₂₃ : g₂.Le g₃) : Loaded i g₀ g₃ c :=
  fun b hb => ⟨UInt64.le_trans (h₀₁.bucket i hb) (h b hb).1,
    UInt64.le_trans (h b hb).2 (h₂₃.bucket i hb)⟩

/-- Counters loaded later are at least as large. -/
theorem Loaded.le {g₀ g₁ g₂ g₃ : Memory n} {c d : Nat → UInt64}
    (hc : Loaded i g₀ g₁ c) (hd : Loaded i g₂ g₃ d) (h : g₁.Le g₂) :
    ∀ b, b < 64 → c b ≤ d b :=
  fun b hb => UInt64.le_trans (hc b hb).2
    (UInt64.le_trans (h.bucket i hb) (hd b hb).1)

/-- Counters loaded at the first moment. -/
theorem loaded_now {g g' : Memory n} (h : g.Le g') :
    Loaded i g g' (g.workers i).histogram.bucket :=
  fun _ hb => ⟨UInt64.le_refl _, h.bucket i hb⟩

/-- Put the first counter that was loaded in front of the others. -/
theorem loaded_update {g g₁ g₂ : Memory n} {c : Nat → UInt64} (index : Nat)
    (hg₁ : g.Le g₁) (hg₂ : g₁.Le g₂) (hc : Loaded i g₁ g₂ c) :
    Loaded i g g₂
      (Function.update c index ((g₁.workers i).histogram.bucket index)) := by
  intro b hb
  by_cases hbi : b = index
  · subst hbi
    rw [Function.update_self]
    exact ⟨hg₁.bucket i hb, hg₂.bucket i hb⟩
  · rw [Function.update_of_ne hbi]
    exact hc.mono hg₁ (Memory.Le.refl _) b hb

/-- The loops look only at the counters of their own indices. -/
theorem sumOf_update {c : Nat → UInt64} {index : Nat} {v : UInt64} (rest : List Nat)
    (hnot : index ∉ rest) (total : UInt64) :
    sumOf (Function.update c index v) rest total = sumOf c rest total := by
  induction rest generalizing total with
  | nil => rfl
  | cons j rest ih =>
      rw [List.mem_cons, not_or] at hnot
      rw [sumOf_cons, sumOf_cons, Function.update_of_ne (Ne.symm hnot.1), ih hnot.2]

/-- A scan does not depend on a bucket it does not come to. -/
theorem scanOf_update {c : Nat → UInt64} {index : Nat} {v target : UInt64}
    (rest : List Nat) (hnot : index ∉ rest) (cumulative : UInt64) :
    scanOf (Function.update c index v) 64 target rest cumulative
      = scanOf c 64 target rest cumulative := by
  induction rest generalizing cumulative with
  | nil => rfl
  | cons j rest ih =>
      rw [List.mem_cons, not_or] at hnot
      rw [scanOf_cons, scanOf_cons, Function.update_of_ne (Ne.symm hnot.1), ih hnot.2]

/-- A merge does not depend on a bucket it does not come to. -/
theorem mergeOf_update {c : Nat → UInt64} {index : Nat} {v : UInt64}
    (rest : List Nat) (hnot : index ∉ rest) (h : Log2Histogram 64) :
    mergeOf (Function.update c index v) rest h = mergeOf c rest h := by
  induction rest generalizing h with
  | nil => rfl
  | cons j rest ih =>
      rw [List.mem_cons, not_or] at hnot
      rw [mergeOf_cons, mergeOf_cons, Function.update_of_ne (Ne.symm hnot.1), ih hnot.2]

variable (hrely : Interferes rely) (hle : ∀ g g', rely g g' = true → g.Le g')

include hrely hle

/-- `TotalCount`, with the counters it loaded. -/
theorem safe_sumBuckets (hI : ∀ g', rely g g' = true → I g' s) {indices : List Nat}
    (hnodup : indices.Nodup) (total : UInt64) :
    Safe rely I
      (fun r g' s' => s' = s ∧ rely g g' = true ∧
        ∃ c, Loaded i g g' c ∧ r = sumOf c indices total)
      (sumBuckets (loadBucket i) indices total) g s := by
  induction indices generalizing g total with
  | nil =>
      intro g' hg'
      exact ⟨hI g' hg', rfl, hg', _, loaded_now (hle g g' hg'), rfl⟩
  | cons index rest ih =>
      obtain ⟨hnot, hnodup⟩ := List.nodup_cons.mp hnodup
      intro g₁ hg₁
      refine ⟨hI g₁ hg₁, safe_mono (ih (fun g' hg' => hI g' (hrely.trans _ _ _ hg₁ hg'))
        hnodup _) ?_⟩
      rintro r g₂ s₂ - ⟨rfl, hg₂, c, hc, rfl⟩
      refine ⟨rfl, hrely.trans _ _ _ hg₁ hg₂, _,
        loaded_update index (hle _ _ hg₁) (hle _ _ hg₂) hc, ?_⟩
      rw [sumOf_cons, sumOf_update _ hnot, Function.update_self]

/-- The scan of `Percentile`, with the counters it loaded. -/
theorem safe_scanBuckets (hI : ∀ g', rely g g' = true → I g' s) {indices : List Nat}
    (hnodup : indices.Nodup) (target cumulative : UInt64) :
    Safe rely I
      (fun r g' s' => s' = s ∧ rely g g' = true ∧
        ∃ c, Loaded i g g' c ∧ r = scanOf c 64 target indices cumulative)
      (scanBuckets (loadBucket i) 64 target indices cumulative) g s := by
  induction indices generalizing g cumulative with
  | nil =>
      intro g' hg'
      exact ⟨hI g' hg', rfl, hg', _, loaded_now (hle g g' hg'), rfl⟩
  | cons index rest ih =>
      obtain ⟨hnot, hnodup⟩ := List.nodup_cons.mp hnodup
      intro g₁ hg₁
      refine ⟨hI g₁ hg₁, ?_⟩
      have hI₁ : ∀ g', rely g₁ g' = true → I g' s :=
        fun g' hg' => hI g' (hrely.trans _ _ _ hg₁ hg')
      show Safe rely I _ (if target ≤ cumulative + (g₁.workers i).histogram.bucket index
        then _ else _) g₁ s
      by_cases hstop : target ≤ cumulative + (g₁.workers i).histogram.bucket index
      · rw [if_pos hstop]
        intro g₂ hg₂
        refine ⟨hI₁ g₂ hg₂, rfl, hrely.trans _ _ _ hg₁ hg₂, _,
          (loaded_now (hle _ _ hg₂)).mono (hle _ _ hg₁) (Memory.Le.refl g₂), ?_⟩
        rw [scanOf_cons, if_pos hstop]
      · rw [if_neg hstop]
        refine safe_mono (ih hI₁ hnodup _) ?_
        rintro r g₂ s₂ - ⟨rfl, hg₂, c, hc, rfl⟩
        refine ⟨rfl, hrely.trans _ _ _ hg₁ hg₂, _,
          loaded_update index (hle _ _ hg₁) (hle _ _ hg₂) hc, ?_⟩
        rw [scanOf_cons, Function.update_self, if_neg hstop, scanOf_update _ hnot]

/-- **`Percentile`, while the histogram changes**: the second loop finds counters
    at least as large as the first. -/
theorem safe_percentileOf (hI : ∀ g', rely g g' = true → I g' s)
    (rank : UInt64 → UInt64) :
    Safe rely I
      (fun r g' s' => s' = s ∧ rely g g' = true ∧
        ∃ c d, Loaded i g g' c ∧ Loaded i g g' d ∧ (∀ b, b < 64 → c b ≤ d b) ∧
          r = percentileFrom 64 c d rank)
      (percentileOf 64 (loadBucket i) rank) g s := by
  refine safe_bind hrely (safe_mono
    (safe_sumBuckets hrely hle hI List.nodup_range 0) ?_)
  rintro total g₁ s₁ - ⟨rfl, hg₁, c, hc, rfl⟩
  have hI₁ : ∀ g', rely g₁ g' = true → I g' s₁ :=
    fun g' hg' => hI g' (hrely.trans _ _ _ hg₁ hg')
  by_cases h0 : sumOf c (List.range 64) 0 = 0
  · rw [if_pos h0]
    intro g₂ hg₂
    have hc₂ := hc.mono (Memory.Le.refl g) (hle _ _ hg₂)
    refine ⟨hI₁ g₂ hg₂, rfl, hrely.trans _ _ _ hg₁ hg₂, c, c, hc₂, hc₂,
      fun _ _ => UInt64.le_refl _, ?_⟩
    exact (if_pos h0).symm
  · rw [if_neg h0]
    refine safe_mono (safe_scanBuckets hrely hle hI₁ List.nodup_range _ 0) ?_
    rintro r g₂ s₂ - ⟨rfl, hg₂, d, hd, rfl⟩
    refine ⟨rfl, hrely.trans _ _ _ hg₁ hg₂, c, d,
      hc.mono (Memory.Le.refl g) (hle _ _ hg₂),
      hd.mono (hle _ _ hg₁) (Memory.Le.refl g₂),
      hc.le hd (Memory.Le.refl g₁), ?_⟩
    exact (if_neg h0).symm

/-- `Merge`, with the counters it loaded. -/
theorem safe_mergeBuckets (hI : ∀ g', rely g g' = true → I g' s) {indices : List Nat}
    (hnodup : indices.Nodup) (h : Log2Histogram 64) :
    Safe rely I
      (fun r g' s' => s' = s ∧ rely g g' = true ∧
        ∃ c, Loaded i g g' c ∧ r = mergeOf c indices h)
      (mergeBuckets (loadBucket i) indices h) g s := by
  induction indices generalizing g h with
  | nil =>
      intro g' hg'
      exact ⟨hI g' hg', rfl, hg', _, loaded_now (hle g g' hg'), rfl⟩
  | cons index rest ih =>
      obtain ⟨hnot, hnodup⟩ := List.nodup_cons.mp hnodup
      intro g₁ hg₁
      refine ⟨hI g₁ hg₁, safe_mono (ih (fun g' hg' => hI g' (hrely.trans _ _ _ hg₁ hg'))
        hnodup _) ?_⟩
      rintro r g₂ s₂ - ⟨rfl, hg₂, c, hc, rfl⟩
      refine ⟨rfl, hrely.trans _ _ _ hg₁ hg₂, _,
        loaded_update index (hle _ _ hg₁) (hle _ _ hg₂) hc, ?_⟩
      rw [mergeOf_cons, mergeOf_update _ hnot, Function.update_self]

end Loops

/-! ## One worker -/

/-- Counters loaded by the two loops of one percentile. -/
structure Pass (i : Fin n) (g g' : Memory n) (c d : Nat → UInt64) : Prop where
  first : Loaded i g g' c
  second : Loaded i g g' d
  le : ∀ b, b < 64 → c b ≤ d b

/-- A pass lies within any longer time. -/
theorem Pass.mono {i : Fin n} {g₀ g₁ g₂ g₃ : Memory n} {c d : Nat → UInt64}
    (h : Pass i g₁ g₂ c d) (h₀₁ : g₀.Le g₁) (h₂₃ : g₂.Le g₃) : Pass i g₀ g₃ c d :=
  ⟨h.first.mono h₀₁ h₂₃, h.second.mono h₀₁ h₂₃, h.le⟩

/-- Three passes, one after the other. -/
def LatencyReads (rank : ℚ → UInt64 → UInt64) (i : Fin n) (g g' : Memory n)
    (m : PerJobMetrics) : Prop :=
  ∃ c₁ d₁ c₂ d₂ c₃ d₃, Pass i g g' c₁ d₁ ∧ Pass i g g' c₂ d₂ ∧ Pass i g g' c₃ d₃ ∧
    (∀ b, b < 64 → c₁ b ≤ c₂ b) ∧ (∀ b, b < 64 → c₂ b ≤ c₃ b) ∧
    m.latP50Ns = percentileFrom 64 c₁ d₁ (rank kP50) ∧
    m.latP95Ns = percentileFrom 64 c₂ d₂ (rank kP95) ∧
    m.latP99Ns = percentileFrom 64 c₃ d₃ (rank kP99)

/-- What was read of a worker between two moments, measured against the basis
    `s`. -/
structure ReadingOf (rank : ℚ → UInt64 → UInt64) (names : Fin n → String)
    (g g' : Memory n) (s : MetricsAggregator n) (i : Fin n) (r : Reading) : Prop where
  iops : (g.workers i).iopsCount ≤ r.curIops ∧
    r.curIops ≤ (g'.workers i).iopsCount
  bytes : (g.workers i).bytesTransferred ≤ r.curBytes ∧
    r.curBytes ≤ (g'.workers i).bytesTransferred
  deltaIops : r.deltaIops = r.curIops - s.prevIops i
  deltaBytes : r.deltaBytes = r.curBytes - s.prevBytes i
  jobName : r.metrics.jobName = names i
  latencies : LatencyReads rank i g g' r.metrics

/-- An invariant that survives interference and the recording of what was read. -/
structure Keeps (rely : Memory n → Memory n → Bool)
    (I : Memory n → MetricsAggregator n → Prop) : Prop where
  stable : ∀ g g' s, I g s → rely g g' = true → I g' s
  iops : ∀ g s i v, I g s → v ≤ (g.workers i).iopsCount →
    I g { s with prevIops := Function.update s.prevIops i v }
  bytes : ∀ g s i v, I g s → v ≤ (g.workers i).bytesTransferred →
    I g { s with prevBytes := Function.update s.prevBytes i v }
  time : ∀ g s now, I g s → now ≤ g.clock → I g { s with prevSampleTime := now }

/-- The basis after a snapshot recorded the counters of a worker, if it did. -/
def MetricsAggregator.recordIf (s : MetricsAggregator n) (recordTs : Bool) (i : Fin n)
    (curIops curBytes : UInt64) : MetricsAggregator n :=
  if recordTs then
    { s with
      prevIops := Function.update s.prevIops i curIops
      prevBytes := Function.update s.prevBytes i curBytes }
  else s

theorem Gathered.push_self (acc : Gathered n) (i : Fin n) (r : Reading)
    (global : Log2Histogram 64) : (acc.push i r global).readings i = r :=
  Function.update_self ..

/-- What the body of the loop leaves. -/
structure Sampled (rank : ℚ → UInt64 → UInt64) (names : Fin n → String)
    (recordTs : Bool) (g : Memory n) (s : MetricsAggregator n) (i : Fin n)
    (acc acc' : Gathered n) (g' : Memory n) (s' : MetricsAggregator n) : Prop where
  reading : ReadingOf rank names g g' s i (acc'.readings i)
  others : ∀ j, j ≠ i → acc'.readings j = acc.readings j
  jobs : acc'.jobs = acc.jobs ++ [(acc'.readings i).metrics]
  global : ∃ e, Loaded i g g' e ∧
    acc'.global = mergeOf e (List.range 64) acc.global
  basis : s' = s.recordIf recordTs i (acc'.readings i).curIops (acc'.readings i).curBytes

section Snapshot

variable {rely : Memory n → Memory n → Bool}
variable {I : Memory n → MetricsAggregator n → Prop}
variable {rank : ℚ → UInt64 → UInt64} {names : Fin n → String}
variable {g : Memory n} {s : MetricsAggregator n} {recordTs : Bool}

variable (hrely : Interferes rely) (hle : ∀ g g', rely g g' = true → g.Le g')
variable (hkeeps : Keeps rely I)

include hrely hle hkeeps

/-- Recording what was read keeps the invariant. -/
theorem safe_recordCounters (hI : I g s) {i : Fin n} {curIops curBytes : UInt64}
    (hiops : curIops ≤ (g.workers i).iopsCount)
    (hbytes : curBytes ≤ (g.workers i).bytesTransferred) :
    Safe rely I
      (fun _ g' s' => rely g g' = true ∧ s' = s.recordIf recordTs i curIops curBytes)
      (recordCounters recordTs i curIops curBytes) g s := by
  cases recordTs with
  | false =>
      intro g' hg'
      exact ⟨hkeeps.stable _ _ _ hI hg', hg', rfl⟩
  | true =>
      refine safe_update_bind.mpr (fun g₁ hg₁ => ⟨hkeeps.stable _ _ _ hI hg₁, ?_⟩)
      have hI₁ := hkeeps.iops g₁ s i curIops (hkeeps.stable _ _ _ hI hg₁)
        (UInt64.le_trans hiops ((hle _ _ hg₁).2 i).2.1)
      intro g₂ hg₂
      have h₂ := hrely.trans _ _ _ hg₁ hg₂
      refine ⟨hkeeps.stable _ _ _ hI₁ hg₂, fun g₃ hg₃ => ?_⟩
      have hI₂ := hkeeps.bytes g₂ _ i curBytes (hkeeps.stable _ _ _ hI₁ hg₂)
        (UInt64.le_trans hbytes ((hle _ _ h₂).2 i).2.2.1)
      exact ⟨hkeeps.stable _ _ _ hI₂ hg₃, hrely.trans _ _ _ h₂ hg₃, rfl⟩

/-- **One worker.** -/
theorem safe_sampleWorker (hI : I g s) (sinceStart sincePrev : ℚ) (i : Fin n)
    (acc : Gathered n) :
    Safe rely I
      (fun acc' g' s' => rely g g' = true ∧
        Sampled rank names recordTs g s i acc acc' g' s')
      (sampleWorker rank names sinceStart sincePrev recordTs i acc) g s := by
  have hstable : ∀ {g₁ g₂}, rely g g₁ = true → rely g₁ g₂ = true → I g₂ s :=
    fun h₁ h₂ => hkeeps.stable _ _ _ hI (hrely.trans _ _ _ h₁ h₂)
  rw [sampleWorker]
  refine safe_load_bind.mpr (fun g₁ hg₁ => ⟨hkeeps.stable _ _ _ hI hg₁, ?_⟩)
  refine safe_load_bind.mpr (fun g₂ hg₂ => ⟨hstable hg₁ hg₂, ?_⟩)
  have h₂ := hrely.trans _ _ _ hg₁ hg₂
  refine safe_own_bind.mpr (fun g₃ hg₃ => ⟨hstable h₂ hg₃, ?_⟩)
  have h₃ := hrely.trans _ _ _ h₂ hg₃
  -- three percentiles
  refine safe_bind hrely (safe_mono
    (safe_percentileOf hrely hle (fun g' hg' => hstable h₃ hg') _) ?_)
  rintro p50 g₄ _ - ⟨rfl, hg₄, c₁, d₁, hc₁, hd₁, hcd₁, rfl⟩
  have h₄ := hrely.trans _ _ _ h₃ hg₄
  refine safe_bind hrely (safe_mono
    (safe_percentileOf hrely hle (fun g' hg' => hstable h₄ hg') _) ?_)
  rintro p95 g₅ _ - ⟨rfl, hg₅, c₂, d₂, hc₂, hd₂, hcd₂, rfl⟩
  have h₅ := hrely.trans _ _ _ h₄ hg₅
  refine safe_bind hrely (safe_mono
    (safe_percentileOf hrely hle (fun g' hg' => hstable h₅ hg') _) ?_)
  rintro p99 g₆ _ - ⟨rfl, hg₆, c₃, d₃, hc₃, hd₃, hcd₃, rfl⟩
  have h₆ := hrely.trans _ _ _ h₅ hg₆
  refine safe_load_bind.mpr (fun g₇ hg₇ => ⟨hstable h₆ hg₇, ?_⟩)
  have h₇ := hrely.trans _ _ _ h₆ hg₇
  refine safe_load_bind.mpr (fun g₈ hg₈ => ⟨hstable h₇ hg₈, ?_⟩)
  have h₈ := hrely.trans _ _ _ h₇ hg₈
  refine safe_bind hrely (safe_mono
    (safe_mergeBuckets hrely hle (fun g' hg' => hstable h₈ hg') List.nodup_range _) ?_)
  rintro global g₉ _ - ⟨rfl, hg₉, e, he, rfl⟩
  have h₉ := hrely.trans _ _ _ h₈ hg₉
  -- the moments of the loads, seen from the end
  have k₈ := hle _ _ hg₉
  have k₇ := (hle _ _ hg₈).trans k₈
  have k₆ := (hle _ _ hg₇).trans k₇
  have k₅ := (hle _ _ hg₆).trans k₆
  have k₄ := (hle _ _ hg₅).trans k₅
  have k₂ := (hle _ _ hg₃).trans ((hle _ _ hg₄).trans k₄)
  have k₁ := (hle _ _ hg₂).trans k₂
  refine safe_bind hrely (safe_mono
    (safe_recordCounters hrely hle hkeeps (hkeeps.stable _ _ _ hI h₉)
      (k₁.2 i).2.1 (k₂.2 i).2.2.1) ?_)
  rintro _ g₁₀ _ hI₁₀ ⟨hg₁₀, rfl⟩ g₁₁ hg₁₁
  have h₁₁ := hrely.trans _ _ _ hg₁₀ hg₁₁
  have k := hle _ _ h₁₁
  refine ⟨hkeeps.stable _ _ _ hI₁₀ hg₁₁, hrely.trans _ _ _ h₉ h₁₁, ?_⟩
  have hpass₁ : Pass i g g₁₁ c₁ d₁ :=
    Pass.mono ⟨hc₁, hd₁, hcd₁⟩ (hle _ _ h₃) (k₄.trans k)
  have hpass₂ : Pass i g g₁₁ c₂ d₂ :=
    Pass.mono ⟨hc₂, hd₂, hcd₂⟩ (hle _ _ h₄) (k₅.trans k)
  have hpass₃ : Pass i g g₁₁ c₃ d₃ :=
    Pass.mono ⟨hc₃, hd₃, hcd₃⟩ (hle _ _ h₅) (k₆.trans k)
  constructor
  · rw [Gathered.push_self]
    exact ⟨⟨((hle _ _ hg₁).2 i).2.1, ((k₁.trans k).2 i).2.1⟩,
      ⟨((hle _ _ h₂).2 i).2.2.1, ((k₂.trans k).2 i).2.2.1⟩, rfl, rfl, rfl,
      c₁, d₁, c₂, d₂, c₃, d₃, hpass₁, hpass₂, hpass₃,
      hc₁.le hc₂ (Memory.Le.refl g₄), hc₂.le hc₃ (Memory.Le.refl g₅), rfl, rfl, rfl⟩
  · intro j hj
    exact Function.update_of_ne hj ..
  · rw [Gathered.push_self]
    rfl
  · exact ⟨e, he.mono (hle _ _ h₈) k, rfl⟩
  · rw [Gathered.push_self]

end Snapshot

/-! ## All workers -/

/-- What is read between two moments is read in any longer stretch of time. -/
theorem LatencyReads.mono {i : Fin n} {g₀ g₁ g₂ g₃ : Memory n} {m : PerJobMetrics}
    {rank : ℚ → UInt64 → UInt64} (h : LatencyReads rank i g₁ g₂ m) (h₀₁ : g₀.Le g₁)
    (h₂₃ : g₂.Le g₃) : LatencyReads rank i g₀ g₃ m := by
  obtain ⟨c₁, d₁, c₂, d₂, c₃, d₃, hp₁, hp₂, hp₃, hrest⟩ := h
  exact ⟨c₁, d₁, c₂, d₂, c₃, d₃, hp₁.mono h₀₁ h₂₃, hp₂.mono h₀₁ h₂₃,
    hp₃.mono h₀₁ h₂₃, hrest⟩

/-- A reading was made within any longer time. -/
theorem ReadingOf.mono {rank : ℚ → UInt64 → UInt64} {names : Fin n → String}
    {i : Fin n} {g₀ g₁ g₂ g₃ : Memory n} {s s' : MetricsAggregator n} {r : Reading}
    (h : ReadingOf rank names g₁ g₂ s i r) (h₀₁ : g₀.Le g₁) (h₂₃ : g₂.Le g₃)
    (hiops : s.prevIops i = s'.prevIops i) (hbytes : s.prevBytes i = s'.prevBytes i) :
    ReadingOf rank names g₀ g₃ s' i r where
  iops := ⟨UInt64.le_trans (h₀₁.2 i).2.1 h.iops.1,
    UInt64.le_trans h.iops.2 (h₂₃.2 i).2.1⟩
  bytes := ⟨UInt64.le_trans (h₀₁.2 i).2.2.1 h.bytes.1,
    UInt64.le_trans h.bytes.2 (h₂₃.2 i).2.2.1⟩
  deltaIops := hiops ▸ h.deltaIops
  deltaBytes := hbytes ▸ h.deltaBytes
  jobName := h.jobName
  latencies := h.latencies.mono h₀₁ h₂₃

/-- The basis after a snapshot recorded these workers, if it did. -/
def MetricsAggregator.recordAllIf (s : MetricsAggregator n) (recordTs : Bool)
    (workers : List (Fin n)) (readings : Fin n → Reading) : MetricsAggregator n :=
  if recordTs then
    { s with
      prevIops := fun i => if i ∈ workers then (readings i).curIops else s.prevIops i
      prevBytes := fun i => if i ∈ workers then (readings i).curBytes else s.prevBytes i }
  else s

/-- What was recorded of one worker, and then of the others. -/
theorem ite_update_cons {i : Fin n} {rest : List (Fin n)} (hnot : i ∉ rest)
    (read prev : Fin n → UInt64) :
    (fun j => if j ∈ rest then read j else Function.update prev i (read i) j)
      = fun j => if j ∈ i :: rest then read j else prev j := by
  funext j
  by_cases hne : j = i
  · subst hne
    rw [if_neg hnot, if_pos (List.mem_cons_self ..), Function.update_self]
  · simp [hne]

/-- What is remembered of one worker does not depend on the others. -/
theorem recordAllIf_cons (s : MetricsAggregator n) (recordTs : Bool) {i : Fin n}
    {rest : List (Fin n)} (hnot : i ∉ rest) (readings : Fin n → Reading) :
    (s.recordIf recordTs i (readings i).curIops (readings i).curBytes).recordAllIf
        recordTs rest readings
      = s.recordAllIf recordTs (i :: rest) readings := by
  cases recordTs with
  | false => rfl
  | true =>
      simp only [MetricsAggregator.recordAllIf, MetricsAggregator.recordIf, if_true,
        MetricsAggregator.mk.injEq, true_and]
      exact ⟨ite_update_cons hnot (fun j => (readings j).curIops) s.prevIops,
        ite_update_cons hnot (fun j => (readings j).curBytes) s.prevBytes⟩

/-- What the loop over these workers leaves. -/
structure Gathers (rank : ℚ → UInt64 → UInt64) (names : Fin n → String)
    (recordTs : Bool) (g : Memory n) (s : MetricsAggregator n)
    (workers : List (Fin n)) (acc acc' : Gathered n) (g' : Memory n)
    (s' : MetricsAggregator n) : Prop where
  reading : ∀ i ∈ workers, ReadingOf rank names g g' s i (acc'.readings i)
  others : ∀ i, i ∉ workers → acc'.readings i = acc.readings i
  jobs : acc'.jobs = acc.jobs ++ workers.map (fun i => (acc'.readings i).metrics)
  global : ∃ e : Fin n → Nat → UInt64, (∀ i ∈ workers, Loaded i g g' (e i)) ∧
    acc'.global = workers.foldl (fun h i => mergeOf (e i) (List.range 64) h) acc.global
  basis : s' = s.recordAllIf recordTs workers acc'.readings

section Snapshot

variable {rely : Memory n → Memory n → Bool}
variable {I : Memory n → MetricsAggregator n → Prop}
variable {rank : ℚ → UInt64 → UInt64} {names : Fin n → String}
variable {g : Memory n} {s : MetricsAggregator n} {recordTs : Bool}

/-- One worker, then the others. -/
theorem Gathers.cons {g₁ g₂ : Memory n} {s₁ s₂ : MetricsAggregator n} {i : Fin n}
    {rest : List (Fin n)} (hnot : i ∉ rest) {acc acc₁ acc₂ : Gathered n}
    (h : Sampled rank names recordTs g s i acc acc₁ g₁ s₁)
    (hrest : Gathers rank names recordTs g₁ s₁ rest acc₁ acc₂ g₂ s₂)
    (hg₁ : g.Le g₁) (hg₂ : g₁.Le g₂) :
    Gathers rank names recordTs g s (i :: rest) acc acc₂ g₂ s₂ := by
  have hi := hrest.others i hnot
  have hprev : ∀ j, j ≠ i → s₁.prevIops j = s.prevIops j ∧
      s₁.prevBytes j = s.prevBytes j := by
    intro j hj
    rw [h.basis]
    cases recordTs with
    | false => exact ⟨rfl, rfl⟩
    | true => exact ⟨Function.update_of_ne hj .., Function.update_of_ne hj ..⟩
  constructor
  · intro j hj
    rcases List.mem_cons.mp hj with rfl | hmem
    · rw [hi]
      exact h.reading.mono (Memory.Le.refl g) hg₂ rfl rfl
    · have hne : j ≠ i := fun heq => hnot (heq ▸ hmem)
      exact (hrest.reading j hmem).mono hg₁ (Memory.Le.refl g₂) (hprev j hne).1
        (hprev j hne).2
  · intro j hj
    rw [List.mem_cons, not_or] at hj
    rw [hrest.others j hj.2, h.others j hj.1]
  · rw [hrest.jobs, h.jobs, List.map_cons, List.append_assoc, hi]
    rfl
  · obtain ⟨e₁, he₁, hglobal₁⟩ := h.global
    obtain ⟨e, he, hglobal⟩ := hrest.global
    refine ⟨Function.update e i e₁, ?_, ?_⟩
    · intro j hj
      by_cases hne : j = i
      · subst hne
        rw [Function.update_self]
        exact he₁.mono (Memory.Le.refl g) hg₂
      · rw [Function.update_of_ne hne]
        exact (he j ((List.mem_cons.mp hj).resolve_left hne)).mono hg₁
          (Memory.Le.refl g₂)
    · rw [hglobal, hglobal₁, List.foldl_cons, Function.update_self]
      refine List.foldl_ext _ _ _ (fun hist j hj => ?_)
      have hne : j ≠ i := fun heq => hnot (heq ▸ hj)
      rw [Function.update_of_ne hne]
  · rw [hrest.basis, h.basis, ← hi]
    exact recordAllIf_cons s recordTs hnot acc₂.readings

variable (hrely : Interferes rely) (hle : ∀ g g', rely g g' = true → g.Le g')
variable (hkeeps : Keeps rely I)

include hrely hle hkeeps

/-- **All workers.** -/
theorem safe_sampleWorkers (hI : I g s) (sinceStart sincePrev : ℚ)
    {workers : List (Fin n)} (hnodup : workers.Nodup) (acc : Gathered n) :
    Safe rely I
      (fun acc' g' s' => rely g g' = true ∧
        Gathers rank names recordTs g s workers acc acc' g' s')
      (sampleWorkers rank names sinceStart sincePrev recordTs workers acc) g s := by
  induction workers generalizing g s acc with
  | nil =>
      intro g' hg'
      refine ⟨hkeeps.stable _ _ _ hI hg', hg', (fun _ h => nomatch h), fun _ _ => rfl,
        (List.append_nil _).symm, ⟨fun _ _ => 0, (fun _ h => nomatch h), rfl⟩, ?_⟩
      cases recordTs with
      | false => rfl
      | true => simp [MetricsAggregator.recordAllIf]
  | cons i rest ih =>
      obtain ⟨hnot, hnodup⟩ := List.nodup_cons.mp hnodup
      refine safe_bind hrely (safe_mono
        (safe_sampleWorker hrely hle hkeeps hI sinceStart sincePrev i acc) ?_)
      rintro acc₁ g₁ s₁ hI₁ ⟨hg₁, hsampled⟩
      refine safe_mono (ih hI₁ hnodup acc₁) ?_
      rintro acc₂ g₂ s₂ - ⟨hg₂, hrest⟩
      exact ⟨hrely.trans _ _ _ hg₁ hg₂,
        Gathers.cons hnot hsampled hrest (hle _ _ hg₁) (hle _ _ hg₂)⟩

end Snapshot

/-! ## The snapshot -/

/-- All histograms merged into a fresh one, from counters that are given. -/
def mergedOf (e : Fin n → Nat → UInt64) : Log2Histogram 64 :=
  (List.finRange n).foldl (fun h i => mergeOf (e i) (List.range 64) h)
    (Log2Histogram.empty 64)

/-- The basis after a snapshot, if it recorded. -/
def MetricsAggregator.after (s : MetricsAggregator n) (x : Sample n) :
    MetricsAggregator n :=
  if x.recordTs then
    { s with
      prevSampleTime := x.now
      prevIops := fun i => (x.readings i).curIops
      prevBytes := fun i => (x.readings i).curBytes }
  else s

/-- What a snapshot between two moments is. -/
structure SnapshotOf (rank : ℚ → UInt64 → UInt64) (names : Fin n → String)
    (g g' : Memory n) (s : MetricsAggregator n) (x : Sample n) : Prop where
  begin_ : x.begin_ = s.prevSampleTime
  now : g.clock ≤ x.now ∧ x.now ≤ g'.clock
  reading : ∀ i, ReadingOf rank names g g' s i (x.readings i)
  jobs : x.snapshot.jobs = (List.finRange n).map (fun i => (x.readings i).metrics)
  total : ∃ e, (∀ i, Loaded i g g' (e i)) ∧
    x.snapshot.aggregate.latP50Ns = (mergedOf e).percentile (rank kP50) ∧
    x.snapshot.aggregate.latP95Ns = (mergedOf e).percentile (rank kP95) ∧
    x.snapshot.aggregate.latP99Ns = (mergedOf e).percentile (rank kP99)

section Snapshot

variable {rely : Memory n → Memory n → Bool}
variable {I : Memory n → MetricsAggregator n → Prop}
variable {rank : ℚ → UInt64 → UInt64} {names : Fin n → String}
variable {g : Memory n} {s : MetricsAggregator n}

variable (hrely : Interferes rely) (hle : ∀ g g', rely g g' = true → g.Le g')
variable (hkeeps : Keeps rely I)

include hrely hkeeps in
/-- Recording the time keeps the invariant. -/
theorem safe_recordTime (hI : I g s) {now : TimePoint} (hnow : now ≤ g.clock)
    (hle : ∀ g g', rely g g' = true → g.Le g') (recordTs : Bool) :
    Safe rely I
      (fun _ g' s' => rely g g' = true ∧
        s' = if recordTs then { s with prevSampleTime := now } else s)
      (recordTime recordTs now) g s := by
  cases recordTs with
  | false =>
      intro g' hg'
      exact ⟨hkeeps.stable _ _ _ hI hg', hg', rfl⟩
  | true =>
      intro g₁ hg₁
      have hI₁ := hkeeps.stable _ _ _ hI hg₁
      refine ⟨hI₁, fun g₂ hg₂ => ?_⟩
      have hI₂ := hkeeps.time g₁ s now hI₁ (Int.le_trans hnow (hle _ _ hg₁).1)
      exact ⟨hkeeps.stable _ _ _ hI₂ hg₂, hrely.trans _ _ _ hg₁ hg₂, rfl⟩

include hrely hle hkeeps in
/-- **A snapshot**, whatever happens to the counters meanwhile. -/
theorem safe_takeSnapshot (hI : I g s) (recordTs : Bool) :
    Safe rely I
      (fun x g' s' => rely g g' = true ∧ x.recordTs = recordTs ∧
        SnapshotOf rank names g g' s x ∧ s' = s.after x)
      (takeSnapshot rank names recordTs) g s := by
  rw [takeSnapshot]
  refine safe_load_bind.mpr (fun g₁ hg₁ => ?_)
  have hI₁ := hkeeps.stable _ _ _ hI hg₁
  refine ⟨hI₁, safe_own_bind.mpr (fun g₂ hg₂ => ?_)⟩
  have hI₂ := hkeeps.stable _ _ _ hI₁ hg₂
  have h₂ := hrely.trans _ _ _ hg₁ hg₂
  refine ⟨hI₂, safe_bind hrely (safe_mono
    (safe_sampleWorkers hrely hle hkeeps hI₂ _ _ (List.nodup_finRange n) _) ?_)⟩
  rintro acc g₃ s₃ hI₃ ⟨hg₃, hgathers⟩
  have h₃ := hrely.trans _ _ _ h₂ hg₃
  have hnow : g₁.clock ≤ g₃.clock := (hle _ _ (hrely.trans _ _ _ hg₂ hg₃)).1
  refine safe_bind hrely (safe_mono
    (safe_recordTime hrely hkeeps hI₃ hnow hle recordTs) ?_)
  rintro _ g₄ s₄ hI₄ ⟨hg₄, hs₄⟩ g₅ hg₅
  have h₄ := hrely.trans _ _ _ hg₄ hg₅
  have h₅ := hrely.trans _ _ _ h₃ h₄
  have hlast := hle _ _ h₄
  obtain ⟨e, he, hglobal⟩ := hgathers.global
  refine ⟨hkeeps.stable _ _ _ hI₄ hg₅, h₅, rfl,
    ⟨rfl, ⟨(hle _ _ hg₁).1, Int.le_trans hnow hlast.1⟩, fun i => ?_, ?_, e, ?_, ?_⟩, ?_⟩
  · exact (hgathers.reading i (List.mem_finRange i)).mono (hle _ _ h₂) hlast rfl rfl
  · have hjobs := hgathers.jobs
    rw [List.nil_append] at hjobs
    exact hjobs
  · exact fun i => (he i (List.mem_finRange i)).mono (hle _ _ h₂) hlast
  · show acc.global.percentile _ = _ ∧ acc.global.percentile _ = _ ∧
      acc.global.percentile _ = _
    rw [hglobal]
    exact ⟨rfl, rfl, rfl⟩
  · rw [hs₄, hgathers.basis]
    cases recordTs with
    | false => rfl
    | true => simp [MetricsAggregator.recordAllIf, MetricsAggregator.after]

end Snapshot

/-! ## Snapshots that are not recorded -/

section ReadOnly

variable {rank : ℚ → UInt64 → UInt64} {names : Fin n → String}

theorem readOnly_loadBucket (i : Fin n) (index : Nat) : ReadOnly (loadBucket i index) :=
  readOnly_load _

theorem readOnly_sampleWorkers (sinceStart sincePrev : ℚ) (workers : List (Fin n))
    (acc : Gathered n) :
    ReadOnly (sampleWorkers rank names sinceStart sincePrev false workers acc) := by
  induction workers generalizing acc with
  | nil => trivial
  | cons i rest ih =>
      refine readOnly_bind ?_ (fun _ => ih _)
      refine readOnly_bind (readOnly_load _) (fun _ => ?_)
      refine readOnly_bind (readOnly_load _) (fun _ => ?_)
      refine readOnly_bind readOnly_own (fun _ => ?_)
      refine readOnly_bind (readOnly_percentileOf (readOnly_loadBucket i) _ _) (fun _ => ?_)
      refine readOnly_bind (readOnly_percentileOf (readOnly_loadBucket i) _ _) (fun _ => ?_)
      refine readOnly_bind (readOnly_percentileOf (readOnly_loadBucket i) _ _) (fun _ => ?_)
      refine readOnly_bind (readOnly_load _) (fun _ => ?_)
      refine readOnly_bind (readOnly_load _) (fun _ => ?_)
      exact readOnly_bind (readOnly_mergeBuckets (readOnly_loadBucket i) _ _) (fun _ => trivial)

/-- **A snapshot that is not recorded changes nothing.** -/
theorem readOnly_takeSnapshot :
    ReadOnly (takeSnapshot rank names false : Sampling n (Sample n)) := by
  refine readOnly_bind (readOnly_load _) (fun _ => ?_)
  refine readOnly_bind readOnly_own (fun _ => ?_)
  exact readOnly_bind (readOnly_sampleWorkers _ _ _ _) (fun _ => trivial)

end ReadOnly

/-! ## A snapshot that ran -/

/-- An invariant that asks for nothing. -/
theorem keeps_true (rely : Memory n → Memory n → Bool) : Keeps rely (fun _ _ => True) :=
  ⟨fun _ _ _ _ _ => trivial, fun _ _ _ _ _ _ => trivial, fun _ _ _ _ _ _ => trivial,
    fun _ _ _ _ _ => trivial⟩

/-- A snapshot that ran under interference. -/
theorem snapshotOf_run {rely : Memory n → Memory n → Bool} (hrely : Interferes rely)
    (hle : ∀ g g', rely g g' = true → g.Le g') {rank : ℚ → UInt64 → UInt64}
    {names : Fin n → String} {recordTs : Bool} {g g' : Memory n}
    {s s' : MetricsAggregator n} {x : Sample n}
    {acts : List (ThreadAct (Memory n) Unit)}
    (h : run (threadStep rely progStep) (g, (s, takeSnapshot rank names recordTs)) acts
      = some (g', (s', .done x))) :
    rely g g' = true ∧ x.recordTs = recordTs ∧ SnapshotOf rank names g g' s x := by
  have hsafe : Safe rely _ _ (takeSnapshot rank names recordTs) g s :=
    safe_takeSnapshot hrely hle (keeps_true rely) trivial recordTs
  have hresult := (run_safe hrely h hsafe).result hrely
  exact ⟨hresult.1, hresult.2.1, hresult.2.2.1⟩

/-- What has grown is not less anywhere. -/
theorem le_of_grows (g g' : Memory n) (h : grows g g' = true) : g.Le g' :=
  of_decide_eq_true h

end CfioMetrics
