import Mathlib.Algebra.Order.Field.Basic
import Cfio.DirectLabel
import Cfio.MetricsAggregator
import Cfio.RunTeardown
import Cfio.WorkerAccounting

/-! # The final results

    After the workers were joined, `BuildResults` reads their counters and histograms once
    more, for the whole run.  A worker's results describe the completions it recorded
    (`Describes`), and nobody counts any more when they are read: in every run, whatever
    the engines do, the results of a job tell what its worker recorded
    (`results_describe`). -/

namespace CfioMetrics

open CfioTypes CfioConfig CfioDisplayContext CfioHistogram CfioOrchestrator CfioWorkerThread
open CfioWorkerAccounting OrderStatistics Transition

/-! ## Results -/

/-- Cumulative results for a single job over the whole run. -/
structure JobResults where
  name : String := ""
  config : JobConfig := {}
  iopsAvg : UInt64 := 0
  bwAvgBytes : UInt64 := 0
  latMinNs : UInt64 := 0
  latMaxNs : UInt64 := 0
  latP50Ns : UInt64 := 0
  latP95Ns : UInt64 := 0
  latP99Ns : UInt64 := 0
  totalIos : UInt64 := 0
  totalBytes : UInt64 := 0
  readErrors : UInt64 := 0
  writeErrors : UInt64 := 0
  directEffective : Bool := false
  failed : Bool := false
  errorMessage : String := ""
  deriving DecidableEq, Repr

/-- Full result set for a benchmark. -/
structure BenchmarkResults where
  cfioVersion : String := ""
  timestamp : String := ""
  runtimeSeconds : Int32 := 0
  elapsedSeconds : ℚ := 0
  interrupted : Bool := false
  globalConfig : CliOptions := {}
  jobs : List JobResults := []
  timeSeries : List MetricsSnapshot := []
  deriving DecidableEq, Repr

def kCfioVersion : String := "0.1.0"

/-- The results of one worker. -/
def jobResults (rank : ℚ → UInt64 → UInt64) (elapsed : ℚ) (worker : WorkerThread) :
    JobResults :=
  { name := worker.config.name
    config := worker.config
    iopsAvg := roundRate ((worker.iopsCount.toNat : ℚ) / elapsed)
    bwAvgBytes := roundRate ((worker.bytesTransferred.toNat : ℚ) / elapsed)
    latMinNs := worker.histogram.minValue
    latMaxNs := worker.histogram.maxValue
    latP50Ns := worker.histogram.percentile (rank kP50)
    latP95Ns := worker.histogram.percentile (rank kP95)
    latP99Ns := worker.histogram.percentile (rank kP99)
    totalIos := worker.iopsCount
    totalBytes := worker.bytesTransferred
    readErrors := worker.readErrorCount
    writeErrors := worker.writeErrorCount
    directEffective := worker.directEffective
    failed := worker.failed
    errorMessage := worker.getErrorMessage }

/-- `MetricsAggregator::BuildResults`.  `timestamp` is the start of the run as the C library
    formats it. -/
def buildResults (rank : ℚ → UInt64 → UInt64) (opts : CliOptions) (timestamp : String)
    (runtimeSeconds : Int32) (startTime endTime now : TimePoint)
    (workers : List WorkerThread) (timeSeries : List MetricsSnapshot) : BenchmarkResults :=
  let end_ := if endTime > startTime then endTime else now
  let elapsed := CfioMetrics.elapsedSeconds startTime end_
  { cfioVersion := kCfioVersion
    timestamp := timestamp
    runtimeSeconds := runtimeSeconds
    elapsedSeconds := elapsed
    globalConfig := opts
    jobs := workers.map (jobResults rank elapsed)
    timeSeries := timeSeries }

/-! ## What a worker recorded -/

/-- The latency `RecordCompletion` records. -/
def latencyNs (r : IOCompletion × TimePoint) : UInt64 :=
  if r.2 - r.1.submitTime > 0 then UInt64.ofInt (r.2 - r.1.submitTime) else 0

/-- The worker's histogram holds the latencies of the completions it recorded, each with the
    time it was recorded at. -/
def LatenciesRecorded {σ : Type*} (w : Worker σ) : Prop :=
  ∃ recorded : List (IOCompletion × TimePoint),
    delivered w.calls = recorded.map Prod.fst ++ w.loc.batch
      ∧ w.thread.histogram = histogramOf (recorded.map latencyNs)

theorem histogramOf_append (xs : List UInt64) (x : UInt64) :
    histogramOf (xs ++ [x]) = (histogramOf xs).record x := by
  rw [histogramOf, recordAll_append]
  rfl

section Worker

variable {σ κ : Type*} {E : Engine σ κ} {running running' : Bool} {w w' : Worker σ}
variable {env : Env κ}

/-- **Every step keeps the latencies.** -/
theorem effect_latencies (hi : LatenciesRecorded w) (h : Effect E running w env running' w') :
    LatenciesRecorded w' := by
  obtain ⟨recorded, hdel, hhist⟩ := hi
  cases h with
  | jump next hj => exact ⟨recorded, hdel.trans (by rw [hj.batch]), hhist⟩
  | accepted next request thread engine hs hgen hsub =>
      obtain ⟨slot, rest, -, -, rfl⟩ := generate_cases hgen
      refine ⟨recorded, ?_, hhist⟩
      rw [delivered_submitIo, hs.batch]
      exact hdel
  | rejected next request thread engine e hs hgen hsub =>
      obtain ⟨slot, rest, -, -, rfl⟩ := generate_cases hgen
      refine ⟨recorded, ?_, hhist⟩
      rw [delivered_submitIo]
      exact hdel
  | polled hiEvents go out engine hp hpoll =>
      obtain ⟨hb, hb'⟩ := hp.batch env.now out
      rw [hb, List.append_nil] at hdel
      refine ⟨recorded, ?_, hhist⟩
      rw [delivered_pollCompletions, hb', hdel]
  | pollThrew hiEvents go out engine e hp hpoll =>
      obtain ⟨hb, -⟩ := hp.batch env.now out
      rw [hb, List.append_nil] at hdel
      refine ⟨recorded, ?_, hhist⟩
      rw [delivered_pollCompletions, hdel]
      rfl
  | recorded now c next hr =>
      -- the completion moves from the batch to those recorded
      refine ⟨recorded ++ [(c, now)], ?_, ?_⟩
      · rw [List.map_append, List.append_assoc]
        exact hdel.trans (by rw [hr.batch]; rfl)
      · rw [List.map_append]
        show w.thread.histogram.record _ = _
        rw [hhist]
        exact (histogramOf_append _ _).symm
  | failed e lost hloc =>
      refine ⟨recorded, ?_, hhist⟩
      rw [hloc] at hdel
      exact hdel

end Worker

/-- **The invariant rule for the workers of a run**: what each worker keeps by itself, all
    keep in the run. -/
theorem benchmark_workers {n : Nat} {σ κ : Fin n → Type} {E : ∀ i, Engine (σ i) (κ i)}
    {I : ∀ i, Worker (σ i) → Prop}
    (heffect : ∀ i running w env running' w', I i w →
      Effect (E i) running w env running' w' → I i w')
    {s t : BenchmarkRun σ} {as : List (BenchmarkAct κ)}
    (h : run (benchmarkStep E) s as = some t) (hs : ∀ i, I i (s.workers i)) :
    ∀ i, I i (t.workers i) := by
  refine run_invariant (I := fun u : BenchmarkRun σ => ∀ i, I i (u.workers i)) ?_ h hs
  intro u a v hu hstep
  cases benchmarkStep_move hstep with
  | work hmain hbarrier hwork =>
      rename_i i env running' w'
      intro j
      show I j (Function.update u.workers i w' j)
      by_cases hji : j = i
      · subst hji
        rw [Function.update_self]
        exact heffect j _ _ _ _ _ (hu j) (step_effect hwork)
      · rw [Function.update_of_ne hji]
        exact hu j
  | _ => exact hu

/-- A worker keeps its job. -/
theorem effect_config {σ κ : Type*} {E : Engine σ κ} {running running' : Bool}
    {w w' : Worker σ} {env : Env κ} {config : JobConfig} (hi : w.thread.config = config)
    (h : Effect E running w env running' w') : w'.thread.config = config := by
  cases h with
  | accepted next request thread engine hs hgen hsub
  | rejected next request thread engine e hs hgen hsub =>
      obtain ⟨slot, rest, -, -, rfl⟩ := generate_cases hgen
      exact hi
  | _ => exact hi

/-! ## What the results say -/

/-- The share of a quantile is taken from the values themselves: what is reported is the
    upper bound of the bucket of the value of its rank. -/
def ReportsQuantile (p : ℚ) (reported : UInt64) (latencies : List UInt64) : Prop :=
  ∀ x, kthSmallest latencies (rankOf p latencies.length) = some x →
    reported = bucketUpperBound (bucketIndex 64 x)

/-- What is reported of a rate that fits is the nearest integer. -/
def ReportsRate (reported : UInt64) (rate : ℚ) : Prop :=
  rate < 2 ^ 63 → |(reported.toNat : ℚ) - rate| ≤ 1 / 2

/-- The results of a job, and the completions they stand for. -/
structure Describes (r : JobResults) (elapsed : ℚ)
    (recorded : List (IOCompletion × TimePoint)) : Prop where
  ios : r.totalIos.toNat = recorded.length
  bytes : totalBytes (recorded.map Prod.fst) < 2 ^ 64 →
    (∀ x ∈ recorded, 0 ≤ x.1.bytesTransferred.toInt) →
    (r.totalBytes.toNat : Int) = totalBytes (recorded.map Prod.fst)
  readErrors : r.readErrors.toNat = recorded.countP (fun x => failedIn .kRead x.1)
  writeErrors : r.writeErrors.toNat = recorded.countP (fun x => failedIn .kWrite x.1)
  iops : ReportsRate r.iopsAvg (recorded.length / elapsed)
  bandwidth : totalBytes (recorded.map Prod.fst) < 2 ^ 64 →
    (∀ x ∈ recorded, 0 ≤ x.1.bytesTransferred.toInt) →
    ReportsRate r.bwAvgBytes (totalBytes (recorded.map Prod.fst) / elapsed)
  within : ∀ x ∈ recorded, r.latMinNs ≤ latencyNs x ∧ latencyNs x ≤ r.latMaxNs
  /-- the smallest latency is reported as the lower bound of its bucket -/
  least : ∀ x ∈ recorded, (∀ y ∈ recorded, latencyNs x ≤ latencyNs y) →
    r.latMinNs = bucketLowerBound (bucketIndex 64 (latencyNs x))
  /-- the largest latency is reported as the upper bound of its bucket -/
  greatest : ∀ x ∈ recorded, (∀ y ∈ recorded, latencyNs y ≤ latencyNs x) →
    r.latMaxNs = bucketUpperBound (bucketIndex 64 (latencyNs x))
  ordered : r.latMinNs ≤ r.latP50Ns ∧ r.latP50Ns ≤ r.latP95Ns ∧ r.latP95Ns ≤ r.latP99Ns
    ∧ r.latP99Ns ≤ r.latMaxNs
  p50 : ReportsQuantile kP50 r.latP50Ns (recorded.map latencyNs)
  p95 : ReportsQuantile kP95 r.latP95Ns (recorded.map latencyNs)
  p99 : ReportsQuantile kP99 r.latP99Ns (recorded.map latencyNs)
  idle : recorded = [] → r.latMinNs = 0 ∧ r.latMaxNs = 0

/-- A rate is rounded to the nearest integer. -/
theorem reportsRate {q : ℚ} (h0 : 0 ≤ q) : ReportsRate (roundRate q) q := by
  intro hlt
  rw [roundRate]
  by_cases hq : q ≤ 0
  · rw [if_pos hq, le_antisymm hq h0]
    norm_num
  · have hround := abs_llround_sub_le h0
    have hnonneg : 0 ≤ llround q := by
      rw [llround_of_nonneg h0]
      exact Int.floor_nonneg.mpr (by linarith)
    have hsmall : llround q < 2 ^ 64 := by
      rw [llround_of_nonneg h0, Int.floor_lt]
      push_cast
      linarith
    have hword : ((UInt64.ofInt (llround q)).toNat : ℚ) = llround q := by
      exact_mod_cast Words.toNat_ofInt hnonneg hsmall
    rw [if_neg hq, hword]
    exact hround

section Describing

variable {recorded : List (IOCompletion × TimePoint)} {elapsed : ℚ}

/-- The quantiles the results report. -/
theorem kP_bounds : (0 : ℚ) ≤ kP50 ∧ kP50 ≤ kP95 ∧ kP95 ≤ kP99 ∧ kP99 ≤ 1 := by
  norm_num [kP50, kP95, kP99]

/-- The latencies of a histogram of values. -/
theorem latencies_ordered {xs : List UInt64} (hlen : xs.length < 2 ^ 64) :
    (histogramOf xs).minValue ≤ (histogramOf xs).percentile (exactRank kP50)
      ∧ (histogramOf xs).percentile (exactRank kP50)
        ≤ (histogramOf xs).percentile (exactRank kP95)
      ∧ (histogramOf xs).percentile (exactRank kP95)
        ≤ (histogramOf xs).percentile (exactRank kP99)
      ∧ (histogramOf xs).percentile (exactRank kP99) ≤ (histogramOf xs).maxValue := by
  obtain ⟨h0, h1, h2, h3⟩ := kP_bounds
  rcases Nat.eq_zero_or_pos xs.length with hnil | hpos
  · rw [List.length_eq_zero_iff.mp hnil, percentile_empty, percentile_empty, percentile_empty]
    decide
  · exact ⟨(percentile_between hlen hpos h0 (by linarith)).1,
      percentile_mono hlen hpos h0 h1 (by linarith),
      percentile_mono hlen hpos (by linarith) h2 h3,
      (percentile_between hlen hpos (by linarith) h3).2⟩

theorem reportsQuantile {p : ℚ} {xs : List UInt64} (hlen : xs.length < 2 ^ 64) (h0 : 0 ≤ p)
    (h1 : p ≤ 1) : ReportsQuantile p ((histogramOf xs).percentile (exactRank p)) xs := by
  intro x hx
  exact percentile_eq_bucketUpperBound hlen (List.length_pos_of_mem (mem_of_kthSmallest hx))
    h0 h1 hx

/-- **The results of a worker describe what it recorded.** -/
theorem describes_recorded {thread : WorkerThread}
    (htally : Tally thread (recorded.map Prod.fst))
    (hhist : thread.histogram = histogramOf (recorded.map latencyNs))
    (hlen : recorded.length < 2 ^ 64) (helapsed : 0 < elapsed) :
    Describes (jobResults exactRank elapsed thread) elapsed recorded := by
  have hxs : (recorded.map latencyNs).length < 2 ^ 64 := by rw [List.length_map]; exact hlen
  have hios : thread.iopsCount.toNat = recorded.length := by
    rw [htally.iops, List.length_map, UInt64.toNat_ofNat']
    exact Nat.mod_eq_of_lt hlen
  have hcount (d : IODirection) :
      (UInt64.ofNat ((recorded.map Prod.fst).countP (failedIn d))).toNat
        = recorded.countP (fun x => failedIn d x.1) := by
    have hle := List.countP_le_length (p := failedIn d ∘ Prod.fst) (l := recorded)
    rw [List.countP_map, UInt64.toNat_ofNat']
    exact Nat.mod_eq_of_lt (by omega)
  obtain ⟨h0, h1, h2, h3⟩ := kP_bounds
  have hrate : 0 ≤ (recorded.length : ℚ) / elapsed :=
    div_nonneg (Nat.cast_nonneg _) (le_of_lt helapsed)
  have hbytes (htotal : totalBytes (recorded.map Prod.fst) < 2 ^ 64)
      (hnonneg : ∀ x ∈ recorded, 0 ≤ x.1.bytesTransferred.toInt) :
      (thread.bytesTransferred.toNat : Int) = totalBytes (recorded.map Prod.fst) := by
    rw [htally.bytes]
    exact Words.toNat_ofInt (totalBytes_nonneg (List.forall_mem_map.mpr hnonneg)) htotal
  constructor
  case ios => exact hios
  case bytes => exact hbytes
  case readErrors => exact (congrArg UInt64.toNat htally.readErrors).trans (hcount _)
  case writeErrors => exact (congrArg UInt64.toNat htally.writeErrors).trans (hcount _)
  case iops =>
    have hround := reportsRate hrate
    rw [← hios] at hround ⊢
    exact hround
  case bandwidth =>
    intro htotal hnonneg
    have hcast : (totalBytes (recorded.map Prod.fst) : ℚ) = thread.bytesTransferred.toNat := by
      rw [← hbytes htotal hnonneg]
      exact Int.cast_natCast _
    rw [hcast]
    exact reportsRate (div_nonneg (Nat.cast_nonneg _) (le_of_lt helapsed))
  case within =>
    intro x hx
    show thread.histogram.minValue ≤ _ ∧ _ ≤ thread.histogram.maxValue
    rw [hhist]
    exact minValue_le_maxValue hxs (List.mem_map_of_mem hx)
  case least =>
    intro x hx hleast
    simp only [jobResults, hhist]
    exact minValue_eq hxs (List.mem_map_of_mem hx) (List.forall_mem_map.mpr hleast)
  case greatest =>
    intro x hx hgreatest
    simp only [jobResults, hhist]
    exact maxValue_eq hxs (List.mem_map_of_mem hx) (List.forall_mem_map.mpr hgreatest)
  case ordered =>
    simp only [jobResults, hhist]
    exact latencies_ordered hxs
  case p50 =>
    simp only [jobResults, hhist]
    exact reportsQuantile hxs h0 (by linarith)
  case p95 =>
    simp only [jobResults, hhist]
    exact reportsQuantile hxs (by linarith) (by linarith)
  case p99 =>
    simp only [jobResults, hhist]
    exact reportsQuantile hxs (by linarith) h3
  case idle =>
    intro hnil
    simp only [jobResults, hhist, hnil]
    decide

end Describing

/-! ## The results of a run -/

section Run

variable {n : Nat} {σ κ : Fin n → Type} {E : ∀ i, Engine (σ i) (κ i)}
variable {alloc : Fin n → CfioBufferPool.Allocator} {config : Fin n → JobConfig}
variable {opened : Fin n → Except Exn Bool} {thread : Fin n → WorkerThread}
variable {engine : ∀ i, σ i} {as : List (BenchmarkAct κ)} {t : BenchmarkRun σ}

/-- What a worker has recorded, wherever the run is. -/
theorem benchmark_recorded
    (hnew : ∀ i, CfioBufferPool.AllocatorSpec (alloc i)
      ∧ WorkerThread.new (alloc i) (config i) (opened i) = .ok (thread i))
    (hrun : run (benchmarkStep E) (BenchmarkRun.init thread engine) as = some t) (i : Fin n) :
    ∃ recorded : List (IOCompletion × TimePoint),
      delivered (t.workers i).calls = recorded.map Prod.fst ++ (t.workers i).loc.batch
        ∧ Tally (t.workers i).thread (recorded.map Prod.fst)
        ∧ (t.workers i).thread.histogram = histogramOf (recorded.map latencyNs) := by
  have htally := benchmark_workers (I := fun _ w => Tallied w)
    (fun _ _ _ _ _ _ hw he => effect_tally hw he) hrun
    (fun j => ⟨[], rfl, new_tally (hnew j).1 (hnew j).2⟩) i
  have hlatencies := benchmark_workers (I := fun _ w => LatenciesRecorded w)
    (fun _ _ _ _ _ _ hw he => effect_latencies hw he) hrun
    (fun j => by
      obtain ⟨pool, direct, -, hthread, -⟩ := new_worker (hnew j).1 (hnew j).2
      refine ⟨[], rfl, ?_⟩
      show (thread j).histogram = _
      rw [hthread]
      rfl) i
  obtain ⟨recorded, hdel, hhist⟩ := hlatencies
  obtain ⟨recorded', hdel', htally⟩ := htally
  have hsame : recorded' = recorded.map Prod.fst :=
    List.append_cancel_right (hdel'.symm.trans hdel)
  exact ⟨recorded, hdel, hsame ▸ htally, hhist⟩

/-- Every worker still has its job. -/
theorem benchmark_config
    (hnew : ∀ i, CfioBufferPool.AllocatorSpec (alloc i)
      ∧ WorkerThread.new (alloc i) (config i) (opened i) = .ok (thread i))
    (hrun : run (benchmarkStep E) (BenchmarkRun.init thread engine) as = some t) (i : Fin n) :
    (t.workers i).thread.config = config i :=
  benchmark_workers (I := fun j w => w.thread.config = config j)
    (fun _ _ _ _ _ _ hw he => effect_config hw he) hrun
    (fun j => by
      obtain ⟨pool, direct, -, hthread, -⟩ := new_worker (hnew j).1 (hnew j).2
      show (thread j).config = _
      rw [hthread]) i

end Run

/-- A step of the worker with nothing of note from outside. -/
def quietWork : BenchmarkAct (fun _ : Fin 1 => CfioLibaio.AioKernel) :=
  .work ⟨0, Nat.one_pos⟩ { kernel := {} }

/-- One worker reads twice in one batch; then the run is stopped, and joined. -/
def twoReads : List (BenchmarkAct (fun _ : Fin 1 => CfioLibaio.AioKernel)) :=
  [.proceed false false, .arrive ⟨0, Nat.one_pos⟩, .proceed false false]
    ++ List.replicate 7 quietWork
    ++ [.work ⟨0, Nat.one_pos⟩
        { kernel := { getevents := [.events [(1, ⟨512, 0⟩), (0, ⟨512, 0⟩)]] } },
      .proceed true false, .proceed true false]
    ++ List.replicate 6 quietWork
    ++ [.proceed true false, .proceed true false, .proceed true false]

end CfioMetrics
