import Cfio.HistogramOrder
import Cfio.Interference
import Cfio.MetricsSnapshot

/-! # MetricsAggregator

    The sampling thread reads the counters of the workers while these go on
    counting.  Every atomic load is a step of its own, so a snapshot is a program
    under interference; between two steps any counter may grow and the clock may
    advance.

    A snapshot is described once, by `safe_takeSnapshot`: what it read lay
    between the counters at its start and at its end, and what it computed
    follows from that. -/

namespace CfioMetrics

open CfioTypes CfioHistogram Interference Transition

/-! ## What is shared -/

/-- The counters a worker publishes. -/
structure WorkerCells where
  histogram : Log2Histogram 64
  iopsCount : UInt64 := 0
  bytesTransferred : UInt64 := 0
  readErrorCount : UInt64 := 0
  writeErrorCount : UInt64 := 0

/-- The counters of all workers, and the steady clock. -/
structure Memory (n : Nat) where
  clock : TimePoint
  workers : Fin n → WorkerCells

/-- No counter of a worker has gone down. -/
def WorkerCells.Le (w w' : WorkerCells) : Prop :=
  (∀ b : Fin 64, w.histogram.bucket b ≤ w'.histogram.bucket b) ∧
    w.iopsCount ≤ w'.iopsCount ∧ w.bytesTransferred ≤ w'.bytesTransferred ∧
    w.readErrorCount ≤ w'.readErrorCount ∧ w.writeErrorCount ≤ w'.writeErrorCount

instance (w w' : WorkerCells) : Decidable (w.Le w') :=
  inferInstanceAs (Decidable (_ ∧ _ ∧ _ ∧ _ ∧ _))

/-- Time has not gone back, nor has any counter gone down. -/
def Memory.Le {n : Nat} (g g' : Memory n) : Prop :=
  g.clock ≤ g'.clock ∧ ∀ i, (g.workers i).Le (g'.workers i)

instance {n : Nat} (g g' : Memory n) : Decidable (g.Le g') :=
  inferInstanceAs (Decidable (_ ∧ _))

/-- What may happen to the counters between two steps of the sampling thread. -/
def grows {n : Nat} (g g' : Memory n) : Bool := decide (g.Le g')

/-- The atomic steps of `WorkerThread::RecordCompletion`. -/
inductive WorkerStep where
  | record (valueNs : UInt64)
  | countIo
  | addBytes (bytes : UInt64)
  | countReadError
  | countWriteError

def WorkerStep.apply : WorkerStep → WorkerCells → WorkerCells
  | .record valueNs, w => { w with histogram := w.histogram.record valueNs }
  | .countIo, w => { w with iopsCount := w.iopsCount + 1 }
  | .addBytes bytes, w => { w with bytesTransferred := w.bytesTransferred + bytes }
  | .countReadError, w => { w with readErrorCount := w.readErrorCount + 1 }
  | .countWriteError, w => { w with writeErrorCount := w.writeErrorCount + 1 }

/-! ## Taking a snapshot -/

/-- What the aggregator keeps between samples. -/
structure MetricsAggregator (n : Nat) where
  startTime : TimePoint := 0
  prevSampleTime : TimePoint := 0
  prevIops : Fin n → UInt64 := fun _ => 0
  prevBytes : Fin n → UInt64 := fun _ => 0

/-- A program of the sampling thread. -/
abbrev Sampling (n : Nat) := Prog (Memory n) (MetricsAggregator n)

/-- What the loop read of one worker, and the row it made of it. -/
structure Reading where
  curIops : UInt64 := 0
  curBytes : UInt64 := 0
  deltaIops : UInt64 := 0
  deltaBytes : UInt64 := 0
  metrics : PerJobMetrics := {}

/-- A snapshot, with what was read for it: the time it was taken, the time its
    rates are measured from, and the readings of the workers. -/
structure Sample (n : Nat) where
  recordTs : Bool
  begin_ : TimePoint
  now : TimePoint
  readings : Fin n → Reading
  snapshot : MetricsSnapshot

/-- What the loop over the workers carries along. -/
structure Gathered (n : Nat) where
  readings : Fin n → Reading := fun _ => {}
  jobs : List PerJobMetrics := []
  global : Log2Histogram 64 := Log2Histogram.empty 64
  aggregate : PerJobMetrics := { jobName := "TOTAL" }

def kP50 : ℚ := 50 / 100
def kP95 : ℚ := 95 / 100
def kP99 : ℚ := 99 / 100

variable {n : Nat}

/-- Load one bucket of a worker's histogram. -/
def loadBucket (i : Fin n) (index : Nat) : Sampling n UInt64 :=
  load (fun g => (g.workers i).histogram.bucket index)

/-- Add the counts and rates of a job to those of all jobs. -/
def PerJobMetrics.add (aggregate metrics : PerJobMetrics) : PerJobMetrics :=
  { aggregate with
    iopsInstant := aggregate.iopsInstant + metrics.iopsInstant
    iopsCumulative := aggregate.iopsCumulative + metrics.iopsCumulative
    bwInstant := aggregate.bwInstant + metrics.bwInstant
    bwCumulative := aggregate.bwCumulative + metrics.bwCumulative
    readErrors := aggregate.readErrors + metrics.readErrors
    writeErrors := aggregate.writeErrors + metrics.writeErrors }

/-- One more worker, with the histogram it was merged into. -/
def Gathered.push (acc : Gathered n) (i : Fin n) (r : Reading)
    (global : Log2Histogram 64) : Gathered n :=
  { readings := Function.update acc.readings i r
    jobs := acc.jobs ++ [r.metrics]
    global := global
    aggregate := acc.aggregate.add r.metrics }

/-- A recording snapshot makes what it read the basis of the next. -/
def recordCounters (recordTs : Bool) (i : Fin n) (curIops curBytes : UInt64) :
    Sampling n Unit :=
  if recordTs then do
    update (fun a => { a with prevIops := Function.update a.prevIops i curIops })
    update (fun a => { a with prevBytes := Function.update a.prevBytes i curBytes })
  else pure ()

def recordTime (recordTs : Bool) (now : TimePoint) : Sampling n Unit :=
  if recordTs then update (fun a => { a with prevSampleTime := now }) else pure ()

section Sampling

-- which rank a quantile has among a number of values, as `Percentile` computes
-- it, and the names of the jobs
variable (rank : ℚ → UInt64 → UInt64) (names : Fin n → String)

/-- The body of the loop over the workers. -/
def sampleWorker (sinceStart sincePrev : ℚ) (recordTs : Bool) (i : Fin n)
    (acc : Gathered n) : Sampling n (Gathered n) := do
  let curIops ← load (fun g => (g.workers i).iopsCount)
  let curBytes ← load (fun g => (g.workers i).bytesTransferred)
  let fields ← own
  let deltaIops := curIops - fields.prevIops i
  let deltaBytes := curBytes - fields.prevBytes i
  let latP50Ns ← percentileOf 64 (loadBucket i) (rank kP50)
  let latP95Ns ← percentileOf 64 (loadBucket i) (rank kP95)
  let latP99Ns ← percentileOf 64 (loadBucket i) (rank kP99)
  let readErrors ← load (fun g => (g.workers i).readErrorCount)
  let writeErrors ← load (fun g => (g.workers i).writeErrorCount)
  let metrics : PerJobMetrics :=
    { jobName := names i
      iopsInstant := roundRate ((deltaIops.toNat : ℚ) / sincePrev)
      bwInstant := roundRate ((deltaBytes.toNat : ℚ) / sincePrev)
      iopsCumulative := roundRate ((curIops.toNat : ℚ) / sinceStart)
      bwCumulative := roundRate ((curBytes.toNat : ℚ) / sinceStart)
      latP50Ns := latP50Ns
      latP95Ns := latP95Ns
      latP99Ns := latP99Ns
      readErrors := readErrors
      writeErrors := writeErrors }
  let global ← mergeBuckets (loadBucket i) (List.range 64) acc.global
  recordCounters recordTs i curIops curBytes
  pure (acc.push i ⟨curIops, curBytes, deltaIops, deltaBytes, metrics⟩ global)

/-- The loop over the workers. -/
def sampleWorkers (sinceStart sincePrev : ℚ) (recordTs : Bool) :
    List (Fin n) → Gathered n → Sampling n (Gathered n)
  | [], acc => pure acc
  | i :: rest, acc => do
      let acc ← sampleWorker rank names sinceStart sincePrev recordTs i acc
      sampleWorkers sinceStart sincePrev recordTs rest acc

/-- `MetricsAggregator::TakeSnapshot`. -/
def takeSnapshot (recordTs : Bool) : Sampling n (Sample n) := do
  let now ← load Memory.clock
  let fields ← own
  let sinceStart := elapsedSeconds fields.startTime now
  let sincePrev := elapsedSeconds fields.prevSampleTime now
  let acc ← sampleWorkers rank names sinceStart sincePrev recordTs (List.finRange n) {}
  let aggregate : PerJobMetrics :=
    { acc.aggregate with
      latP50Ns := acc.global.percentile (rank kP50)
      latP95Ns := acc.global.percentile (rank kP95)
      latP99Ns := acc.global.percentile (rank kP99) }
  recordTime recordTs now
  pure
    { recordTs := recordTs
      begin_ := fields.prevSampleTime
      now := now
      readings := acc.readings
      snapshot :=
        { timestamp := now
          elapsedSeconds := sinceStart
          jobs := acc.jobs
          aggregate := aggregate } }

/-- `MetricsAggregator::Start`, as far as the samples go. -/
def start : Sampling n Unit := do
  let now ← load Memory.clock
  update (fun a => { a with startTime := now })
  update (fun a => { a with prevSampleTime := now })

/-- One snapshot after another. -/
def takeSnapshots : List Bool → Sampling n (List (Sample n))
  | [] => pure []
  | recordTs :: rest => do
      let sample ← takeSnapshot rank names recordTs
      let samples ← takeSnapshots rest
      pure (sample :: samples)

/-- `Start`, then any sequence of snapshots. -/
def session (calls : List Bool) : Sampling n (List (Sample n)) := do
  start
  takeSnapshots rank names calls

end Sampling

/-! ## Counters only grow -/

theorem WorkerCells.Le.refl (w : WorkerCells) : w.Le w :=
  ⟨fun _ => UInt64.le_refl _, UInt64.le_refl _, UInt64.le_refl _, UInt64.le_refl _,
    UInt64.le_refl _⟩

theorem WorkerCells.Le.trans {w₁ w₂ w₃ : WorkerCells} (h₁₂ : w₁.Le w₂)
    (h₂₃ : w₂.Le w₃) : w₁.Le w₃ := by
  obtain ⟨hb, hi, hy, hr, hw⟩ := h₁₂
  obtain ⟨hb', hi', hy', hr', hw'⟩ := h₂₃
  exact ⟨fun b => UInt64.le_trans (hb b) (hb' b), UInt64.le_trans hi hi',
    UInt64.le_trans hy hy', UInt64.le_trans hr hr', UInt64.le_trans hw hw'⟩

theorem Memory.Le.refl (g : Memory n) : g.Le g :=
  ⟨Int.le_refl _, fun _ => WorkerCells.Le.refl _⟩

theorem Memory.Le.trans {g₁ g₂ g₃ : Memory n} (h₁₂ : g₁.Le g₂) (h₂₃ : g₂.Le g₃) :
    g₁.Le g₃ :=
  ⟨Int.le_trans h₁₂.1 h₂₃.1, fun i => (h₁₂.2 i).trans (h₂₃.2 i)⟩

theorem interferes_grows : Interferes (grows (n := n)) :=
  ⟨fun g => decide_eq_true (Memory.Le.refl g), fun _ _ _ h₁₂ h₂₃ =>
    decide_eq_true ((of_decide_eq_true h₁₂).trans (of_decide_eq_true h₂₃))⟩

/-- A counter that has not reached its end goes up. -/
theorem le_add_one {x : UInt64} (h : x.toNat + 1 < 2 ^ 64) : x ≤ x + 1 := by
  rw [UInt64.le_iff_toNat_le, Words.NoWrapAdd.toNat (show _ < _ from h)]
  exact Nat.le_add_right _ _

/-- No counter is at its end, and the bytes that are added do not wrap theirs. -/
structure WorkerStep.HasRoom (a : WorkerStep) (w : WorkerCells) : Prop where
  buckets : ∀ b : Fin 64, (w.histogram.bucket b).toNat + 1 < 2 ^ 64
  iops : w.iopsCount.toNat + 1 < 2 ^ 64
  readErrors : w.readErrorCount.toNat + 1 < 2 ^ 64
  writeErrors : w.writeErrorCount.toNat + 1 < 2 ^ 64
  bytes : ∀ bytes, a = .addBytes bytes → Words.NoWrapAdd w.bytesTransferred bytes

theorem WorkerStep.apply_le {w : WorkerCells} {a : WorkerStep} (h : a.HasRoom w) :
    w.Le (a.apply w) := by
  have hw := WorkerCells.Le.refl w
  cases a with
  | record valueNs =>
      refine ⟨fun b => ?_, hw.2⟩
      show _ ≤ (w.histogram.record valueNs).bucket b
      rw [bucket_record _ _ b.isLt]
      by_cases hb : bucketIndex 64 valueNs = b
      · rw [if_pos hb]
        exact le_add_one (h.buckets b)
      · rw [if_neg hb, UInt64.add_zero]
  | countIo => exact ⟨hw.1, le_add_one h.iops, hw.2.2⟩
  | addBytes bytes =>
      refine ⟨hw.1, hw.2.1, ?_, hw.2.2.2⟩
      show _ ≤ w.bytesTransferred + bytes
      rw [UInt64.le_iff_toNat_le, (h.bytes bytes rfl).toNat]
      exact Nat.le_add_right _ _
  | countReadError => exact ⟨hw.1, hw.2.1, hw.2.2.1, le_add_one h.readErrors, hw.2.2.2.2⟩
  | countWriteError =>
      exact ⟨hw.1, hw.2.1, hw.2.2.1, hw.2.2.2.1, le_add_one h.writeErrors⟩

/-- **What a worker does is growth**, as long as no counter wraps: a snapshot that allows for
    growth allows for the workers. -/
theorem grows_of_workerStep {g : Memory n} {i : Fin n} {a : WorkerStep}
    (h : a.HasRoom (g.workers i)) :
    grows g { g with workers := Function.update g.workers i (a.apply (g.workers i)) } = true := by
  refine decide_eq_true ⟨Int.le_refl _, fun j => ?_⟩
  show (g.workers j).Le (Function.update g.workers i (a.apply (g.workers i)) j)
  by_cases hji : j = i
  · rw [hji, Function.update_self]
    exact WorkerStep.apply_le h
  · rw [Function.update_of_ne hji]
    exact WorkerCells.Le.refl _

end CfioMetrics
