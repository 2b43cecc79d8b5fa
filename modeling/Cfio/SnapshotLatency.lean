import Cfio.SnapshotReads

/-! # Latencies of a snapshot

    The three percentiles of a job come from three passes over counters that keep
    changing.  A pass can only fall behind an earlier one when values were
    recorded below what the earlier one reported (`percentile_le_of_quiet`); when
    that happens the row is out of order.

    At rest, the row of all jobs is the percentile of one histogram of all
    latencies, and lies between the percentiles of the jobs. -/

namespace CfioMetrics

open CfioTypes CfioHistogram Interference Transition

variable {n : Nat}

/-! ## While the workers run -/

/-- A higher quantile of more values has a rank at least as high. -/
def RankMono (rank : ℚ → UInt64 → UInt64) : Prop :=
  ∀ p q t u, p ≤ q → t ≤ u → rank p t ≤ rank q u

theorem targetOf_mono {rank : ℚ → UInt64 → UInt64} (hrank : RankMono rank) {p q : ℚ}
    (hpq : p ≤ q) {t u : Nat} (htu : t ≤ u) (hu : u < 2 ^ 64) :
    targetOf (rank p) t ≤ targetOf (rank q) u := by
  have hword : UInt64.ofNat t ≤ UInt64.ofNat u := by
    rw [UInt64.le_iff_toNat_le, UInt64.toNat_ofNat', UInt64.toNat_ofNat',
      Nat.mod_eq_of_lt (by omega), Nat.mod_eq_of_lt hu]
    exact htu
  have hle := hrank p q _ _ hpq hword
  rw [UInt64.le_iff_toNat_le] at hle
  simp only [targetOf]
  omega

/-- **A later pass does not fall behind** when no value was recorded below what
    the earlier one found. -/
theorem percentile_le_of_quiet {rank : ℚ → UInt64 → UInt64} (hrank : RankMono rank)
    {i : Fin n} {g g' : Memory n} {c₁ d₁ c₂ d₂ : Nat → UInt64}
    (hp₁ : Pass i g g' c₁ d₁) (hp₂ : Pass i g g' c₂ d₂)
    (hc : ∀ b, b < 64 → c₁ b ≤ c₂ b)
    (hfit : countBelow (g'.workers i).histogram.bucket 64 < 2 ^ 64) {p q : ℚ}
    (hpq : p ≤ q)
    (hquiet : ∀ b, b < 64 → bucketUpperBound b < percentileFrom 64 c₁ d₁ (rank p) →
      (g'.workers i).histogram.bucket b = (g.workers i).histogram.bucket b) :
    percentileFrom 64 c₁ d₁ (rank p) ≤ percentileFrom 64 c₂ d₂ (rank q) := by
  have hc₁₂ := countBelow_le hc
  have hc₂d₂ := countBelow_le hp₂.le
  have hd₁ := countBelow_le (fun b hb => (hp₁.second b hb).2)
  have hd₂ := countBelow_le (fun b hb => (hp₂.second b hb).2)
  by_cases h0 : countBelow c₁ 64 = 0
  · rw [percentileFrom_zero h0]
    exact UInt64.zero_le
  · obtain ⟨j, hj, hpj, hlt, -⟩ := percentileFrom_stops (rank p) hp₁.le
      (Nat.lt_of_le_of_lt hd₁ hfit) (Nat.pos_of_ne_zero h0)
    obtain ⟨k, hk, hqk, -, hreach⟩ := percentileFrom_stops (rank q) hp₂.le
      (Nat.lt_of_le_of_lt hd₂ hfit) (by omega)
    rw [hpj, hqk, bucketUpperBound_le_iff hj hk]
    by_contra hjk
    -- below the earlier result both passes found the same counters
    have hsame : countBelow d₂ (k + 1) = countBelow d₁ (k + 1) := by
      refine Finset.sum_congr rfl (fun b hb => ?_)
      have hbj : b < j := by
        have hbk := Finset.mem_range.mp hb
        omega
      have hb64 : b < 64 := Nat.lt_trans hbj hj
      have hbelow : bucketUpperBound b < percentileFrom 64 c₁ d₁ (rank p) := by
        rw [hpj, ← not_le, bucketUpperBound_le_iff hj hb64]
        omega
      have hq := hquiet b hb64 hbelow
      have h₁ := hp₁.second b hb64
      have h₂ := hp₂.second b hb64
      rw [hq] at h₁ h₂
      rw [UInt64.le_antisymm h₁.2 h₁.1, UInt64.le_antisymm h₂.2 h₂.1]
    have hmono := countBelow_mono d₁ (show k + 1 ≤ j by omega)
    have htarget := targetOf_mono hrank hpq hc₁₂ (by omega)
    omega

/-- No latency of this job was recorded, between two moments, in a bucket below the
    one of its reported median or 95th percentile. -/
def QuietBelow (g g' : Memory n) (i : Fin n) (m : PerJobMetrics) : Prop :=
  ∀ b, b < 64 → bucketUpperBound b < m.latP50Ns ∨ bucketUpperBound b < m.latP95Ns →
    (g'.workers i).histogram.bucket b = (g.workers i).histogram.bucket b

/-- **Live percentiles of a job are in order unless a latency is recorded below
    them during the call.** -/
theorem live_percentiles_ordered {rank : ℚ → UInt64 → UInt64} (hrank : RankMono rank)
    {names : Fin n → String} {recordTs : Bool} {g g' : Memory n}
    {s s' : MetricsAggregator n} {x : Sample n}
    {acts : List (ThreadAct (Memory n) Unit)}
    (h : run (threadStep grows progStep)
      (g, (s, takeSnapshot rank names recordTs)) acts = some (g', (s', .done x)))
    (hfit : ∀ i, countBelow (g'.workers i).histogram.bucket 64 < 2 ^ 64) :
    ∀ i : Fin n, ∃ m, x.snapshot.jobs[i.val]? = some m ∧ m.jobName = names i ∧
      (QuietBelow g g' i m → m.latP50Ns ≤ m.latP95Ns ∧ m.latP95Ns ≤ m.latP99Ns) := by
  intro i
  obtain ⟨-, -, hx⟩ := snapshotOf_run interferes_grows le_of_grows h
  refine ⟨(x.readings i).metrics, ?_, (hx.reading i).jobName, fun hquiet => ?_⟩
  · rw [hx.jobs, List.getElem?_map, List.getElem?_eq_getElem (by simp)]
    simp
  · obtain ⟨c₁, d₁, c₂, d₂, c₃, d₃, hp₁, hp₂, hp₃, hc₁₂, hc₂₃, h50, h95, h99⟩ :=
      (hx.reading i).latencies
    constructor
    · rw [h50, h95]
      refine percentile_le_of_quiet hrank hp₁ hp₂ hc₁₂ (hfit i) ?_ (fun b hb hlt => ?_)
      · norm_num [kP50, kP95]
      · exact hquiet b hb (.inl (h50 ▸ hlt))
    · rw [h95, h99]
      refine percentile_le_of_quiet hrank hp₂ hp₃ hc₂₃ (hfit i) ?_ (fun b hb hlt => ?_)
      · norm_num [kP95, kP99]
      · exact hquiet b hb (.inr (h95 ▸ hlt))

/-- The exact ranks are in order. -/
theorem rankMono_exactRank : RankMono exactRank :=
  fun _ _ _ _ hpq htu => exactRank_mono hpq htu

/-- One worker with these latencies. -/
def oneWorker (latencies : List UInt64) : Memory 1 :=
  { clock := 1000000000, workers := fun _ => { histogram := histogramOf latencies } }

/-- A snapshot of one job that is not recorded. -/
def oneSnapshot : Sampling 1 (Sample 1) := takeSnapshot exactRank (fun _ => "job") false

/-- The sampling thread takes steps. -/
def ownSteps (k : Nat) : List (ThreadAct (Memory 1) Unit) := List.replicate k (.own ())

/-- The median and the 95th percentile of each row of a finished snapshot. -/
def latencyRows : Prog (Memory 1) (MetricsAggregator 1) (Sample 1) →
    List (UInt64 × UInt64)
  | .done x => x.snapshot.jobs.map (fun m => (m.latP50Ns, m.latP95Ns))
  | .step _ _ => []

/-- A program that has rows is finished. -/
theorem exists_of_latencyRows {p : Prog (Memory 1) (MetricsAggregator 1) (Sample 1)}
    {row : UInt64 × UInt64} (h : latencyRows p = [row]) :
    ∃ x, p = .done x ∧ ∃ m ∈ x.snapshot.jobs, (m.latP50Ns, m.latP95Ns) = row := by
  cases p with
  | step act next => exact nomatch h
  | done x =>
      have hmem : row ∈ x.snapshot.jobs.map (fun m => (m.latP50Ns, m.latP95Ns)) := by
        rw [show x.snapshot.jobs.map (fun m => (m.latP50Ns, m.latP95Ns)) = [row] from h]
        exact List.mem_singleton_self row
      exact ⟨x, rfl, List.mem_map.mp hmem⟩

/-- A histogram is its list of counters. -/
theorem histogram_inj {h h' : Log2Histogram 64} (hb : h.buckets = h'.buckets) :
    h = h' := by
  refine histogram_ext (fun i _ => ?_)
  rw [Log2Histogram.bucket, Log2Histogram.bucket, hb]

/-- A latency is recorded while the median is taken, and a higher one while the 95th
    percentile is. -/
def highLatencies : List (ThreadAct (Memory 1) Unit) :=
  ownSteps 10 ++ .interfere (oneWorker [2, 1000]) :: ownSteps 90
    ++ .interfere (oneWorker [2, 1000, 5000]) :: ownSteps 188

/-- Nothing is recorded below the percentiles, so they are in order. -/
theorem live_percentiles_ordered_above :
    ∃ g' s' x, run (threadStep grows progStep)
        (oneWorker [2], ({}, oneSnapshot)) highLatencies = some (g', (s', .done x)) ∧
      (g'.workers 0).histogram = histogramOf [2, 1000, 5000] ∧
      ∃ m, x.snapshot.jobs[(0 : Fin 1).val]? = some m ∧ m.jobName = "job" ∧
        QuietBelow (oneWorker [2]) g' 0 m ∧
        m.latP50Ns ≤ m.latP95Ns ∧ m.latP95Ns ≤ m.latP99Ns := by
  have h : (run (threadStep grows progStep) (oneWorker [2], ({}, oneSnapshot))
      highLatencies).map (fun t => (latencyRows t.2.2, (t.1.workers 0).histogram.buckets))
        = some ([(3, 1023)], (histogramOf [2, 1000, 5000]).buckets) := by
    decide +kernel
  obtain ⟨⟨g', s', p⟩, hrun, hat⟩ := Option.map_eq_some_iff.mp h
  obtain ⟨hrows, hbuckets⟩ := Prod.mk.inj hat
  have hhist : (g'.workers 0).histogram = histogramOf [2, 1000, 5000] := histogram_inj hbuckets
  obtain ⟨x, rfl, -⟩ := exists_of_latencyRows hrows
  obtain ⟨m, hm, hname, hordered⟩ := live_percentiles_ordered rankMono_exactRank hrun
    (fun i => by rw [Fin.fin_one_eq_zero i, hhist]; decide +kernel) 0
  have hquiet : QuietBelow (oneWorker [2]) g' 0 m := by
    have hpair : (m.latP50Ns, m.latP95Ns) = (3, 1023) := by
      have hmem : (m.latP50Ns, m.latP95Ns)
          ∈ x.snapshot.jobs.map (fun m => (m.latP50Ns, m.latP95Ns)) :=
        List.mem_map_of_mem (List.mem_of_getElem? hm)
      rw [show x.snapshot.jobs.map (fun m => (m.latP50Ns, m.latP95Ns)) = [(3, 1023)]
        from hrows] at hmem
      exact List.mem_singleton.mp hmem
    obtain ⟨h50, h95⟩ := Prod.mk.inj hpair
    rw [QuietBelow, h50, h95, hhist]
    decide +kernel
  exact ⟨g', s', x, hrun, hhist, m, hm, hname, hquiet, hordered hquiet⟩

/-- After the pass for the median, 39 latencies are recorded one by one in the bucket
    below. -/
def lowLatencies : List (ThreadAct (Memory 1) Unit) :=
  (List.range 39).map (fun k => .interfere (oneWorker (2 :: List.replicate (k + 1) 1)))

/-- The 95th percentile falls below the median. -/
theorem live_percentiles_cross :
    ∃ acts g' s' x, run (threadStep grows progStep)
        (oneWorker [2], ({}, oneSnapshot)) acts = some (g', (s', .done x)) ∧
      ∃ m ∈ x.snapshot.jobs, m.latP95Ns < m.latP50Ns := by
  have h : (run (threadStep grows progStep) (oneWorker [2], ({}, oneSnapshot))
      (ownSteps 71 ++ lowLatencies ++ ownSteps 197)).map (fun t => latencyRows t.2.2)
        = some [(3, 1)] := by
    decide +kernel
  obtain ⟨⟨g', s', p⟩, hrun, hrows⟩ := Option.map_eq_some_iff.mp h
  obtain ⟨x, rfl, m, hm, hrow⟩ := exists_of_latencyRows hrows
  obtain ⟨h50, h95⟩ := Prod.mk.inj hrow
  exact ⟨_, g', s', x, hrun, m, hm, by rw [h50, h95]; decide⟩

/-! ## While no latency is recorded -/

/-- What may happen between two steps while no histogram is written. -/
def growsAtRest (g g' : Memory n) : Bool :=
  grows g g' && decide (∀ i, (g'.workers i).histogram.buckets
    = (g.workers i).histogram.buckets)

theorem growsAtRest_iff {g g' : Memory n} : growsAtRest g g' = true ↔
    grows g g' = true ∧ ∀ i, (g'.workers i).histogram = (g.workers i).histogram := by
  rw [growsAtRest, Bool.and_eq_true, decide_eq_true_eq]
  exact and_congr_right' (forall_congr' (fun _ => ⟨histogram_inj, fun h => h ▸ rfl⟩))

theorem interferes_growsAtRest : Interferes (growsAtRest (n := n)) where
  refl g := growsAtRest_iff.mpr ⟨interferes_grows.refl g, fun _ => rfl⟩
  trans g₁ g₂ g₃ h₁₂ h₂₃ := by
    obtain ⟨hg₁₂, hh₁₂⟩ := growsAtRest_iff.mp h₁₂
    obtain ⟨hg₂₃, hh₂₃⟩ := growsAtRest_iff.mp h₂₃
    exact growsAtRest_iff.mpr ⟨interferes_grows.trans _ _ _ hg₁₂ hg₂₃,
      fun i => (hh₂₃ i).trans (hh₁₂ i)⟩

/-- Counters loaded while the histogram is at rest are its counters. -/
theorem Loaded.eq {i : Fin n} {g g' : Memory n} {c : Nat → UInt64}
    (h : Loaded i g g' c)
    (hrest : (g'.workers i).histogram = (g.workers i).histogram) :
    ∀ b, b < 64 → c b = (g.workers i).histogram.bucket b := by
  intro b hb
  have hload := h b hb
  rw [hrest] at hload
  exact UInt64.le_antisymm hload.2 hload.1

/-- A sum depends on the counters it adds only. -/
theorem sumOf_congr {c c' : Nat → UInt64} (hc : ∀ b, b < 64 → c b = c' b)
    {indices : List Nat} (hlt : ∀ b ∈ indices, b < 64) (total : UInt64) :
    sumOf c indices total = sumOf c' indices total := by
  induction indices generalizing total with
  | nil => rfl
  | cons b rest ih =>
      obtain ⟨hb, hrest⟩ := List.forall_mem_cons.mp hlt
      rw [sumOf_cons, sumOf_cons, hc b hb]
      exact ih hrest _

/-- So does a scan. -/
theorem scanOf_congr {d d' : Nat → UInt64} (hd : ∀ b, b < 64 → d b = d' b)
    {indices : List Nat} (hlt : ∀ b ∈ indices, b < 64) (target cumulative : UInt64) :
    scanOf d 64 target indices cumulative = scanOf d' 64 target indices cumulative := by
  induction indices generalizing cumulative with
  | nil => rfl
  | cons b rest ih =>
      obtain ⟨hb, hrest⟩ := List.forall_mem_cons.mp hlt
      rw [scanOf_cons, scanOf_cons, hd b hb, ih hrest]

/-- A percentile depends on the counters only. -/
theorem percentileFrom_congr {c d : Nat → UInt64} {h : Log2Histogram 64}
    (hc : ∀ b, b < 64 → c b = h.bucket b) (hd : ∀ b, b < 64 → d b = h.bucket b)
    (rank : UInt64 → UInt64) : percentileFrom 64 c d rank = h.percentile rank := by
  have hrange : ∀ b ∈ List.range 64, b < 64 := fun b hb => List.mem_range.mp hb
  rw [percentile_eq, percentileFrom, percentileFrom, sumOf_congr hc hrange,
    scanOf_congr hd hrange]

/-- Merging histograms of lists is recording the lists one after the other. -/
theorem foldl_mergeOf {e : Fin n → Nat → UInt64} {latencies : Fin n → List UInt64}
    (he : ∀ i b, b < 64 → e i b = (histogramOf (latencies i)).bucket b)
    (workers : List (Fin n)) (h : Log2Histogram 64) :
    workers.foldl (fun h i => mergeOf (e i) (List.range 64) h) h
      = h.recordAll (workers.map latencies).flatten := by
  induction workers generalizing h with
  | nil => rfl
  | cons i rest ih =>
      have hmerge : mergeOf (e i) (List.range 64) h = h.recordAll (latencies i) := by
        rw [← merge_recordAll]
        refine histogram_ext (fun b hb => ?_)
        rw [bucket_mergeOf _ _ List.nodup_range hb, if_pos (List.mem_range.mpr hb),
          bucket_merge _ _ hb, he i b hb]
        rfl
      rw [List.foldl_cons, ih, hmerge, List.map_cons, List.flatten_cons,
        recordAll_append]

/-- The three percentiles of a row, each with its quantile. -/
def latencyFields : List (ℚ × (PerJobMetrics → UInt64)) :=
  [(kP50, PerJobMetrics.latP50Ns), (kP95, PerJobMetrics.latP95Ns),
    (kP99, PerJobMetrics.latP99Ns)]

/-- What holds of each of the three holds of all. -/
theorem forall_latencyFields {P : ℚ × (PerJobMetrics → UInt64) → Prop}
    (h50 : P (kP50, PerJobMetrics.latP50Ns)) (h95 : P (kP95, PerJobMetrics.latP95Ns))
    (h99 : P (kP99, PerJobMetrics.latP99Ns)) : ∀ q ∈ latencyFields, P q := by
  intro q hq
  simp only [latencyFields, List.mem_cons, List.not_mem_nil, or_false] at hq
  rcases hq with rfl | rfl | rfl
  · exact h50
  · exact h95
  · exact h99

/-- The quantiles are fractions. -/
theorem latencyFields_bounds : ∀ q ∈ latencyFields, 0 < q.1 ∧ q.1 ≤ 1 :=
  forall_latencyFields (by norm_num [kP50]) (by norm_num [kP95]) (by norm_num [kP99])

section AtRest

variable {names : Fin n → String} {g g' : Memory n} {s : MetricsAggregator n} {x : Sample n}
variable {latencies : Fin n → List UInt64}

/-- A row that is read at rest has the percentiles of the latencies of its job. -/
theorem row_at_rest {i : Fin n} {m : PerJobMetrics}
    (hlatencies : (g.workers i).histogram = histogramOf (latencies i))
    (hrest : (g'.workers i).histogram = (g.workers i).histogram)
    (h : LatencyReads exactRank i g g' m) :
    ∀ q ∈ latencyFields, q.2 m = (histogramOf (latencies i)).percentile (exactRank q.1) := by
  obtain ⟨c₁, d₁, c₂, d₂, c₃, d₃, hp₁, hp₂, hp₃, -, -, h50, h95, h99⟩ := h
  have hpass {c d : Nat → UInt64} (hp : Pass i g g' c d) (rank : UInt64 → UInt64) :
      percentileFrom 64 c d rank = (histogramOf (latencies i)).percentile rank := by
    rw [← hlatencies]
    exact percentileFrom_congr (hp.first.eq hrest) (hp.second.eq hrest) rank
  exact forall_latencyFields (h50.trans (hpass hp₁ _)) (h95.trans (hpass hp₂ _))
    (h99.trans (hpass hp₃ _))

/-- The row of all jobs has the percentiles of the latencies of all jobs. -/
theorem total_at_rest
    (hlatencies : ∀ i, (g.workers i).histogram = histogramOf (latencies i))
    (hrest : ∀ i, (g'.workers i).histogram = (g.workers i).histogram)
    (hx : SnapshotOf exactRank names g g' s x) :
    ∀ q ∈ latencyFields, q.2 x.snapshot.aggregate
      = (histogramOf ((List.finRange n).map latencies).flatten).percentile
        (exactRank q.1) := by
  obtain ⟨e, he, h50, h95, h99⟩ := hx.total
  have hmerged : mergedOf e = histogramOf ((List.finRange n).map latencies).flatten := by
    refine foldl_mergeOf (fun i b hb => ?_) _ _
    rw [← hlatencies i]
    exact (he i).eq (hrest i) b hb
  rw [hmerged] at h50 h95 h99
  exact forall_latencyFields h50 h95 h99

end AtRest

/-- **The row of all jobs is the latency of the union of all jobs.**  It does not
    depend on the order of the workers or on how the latencies are split among
    them; the histograms of the workers are left as they were; and as soon as one
    job has a completion, the row lies between the rows of the jobs that have
    one. -/
theorem total_row_is_union {names : Fin n → String} {recordTs : Bool}
    {g g' : Memory n} {s s' : MetricsAggregator n} {x : Sample n}
    {acts : List (ThreadAct (Memory n) Unit)} {latencies : Fin n → List UInt64}
    (hlatencies : ∀ i, (g.workers i).histogram = histogramOf (latencies i))
    (hfit : ((List.finRange n).map latencies).flatten.length < 2 ^ 64)
    (h : run (threadStep growsAtRest progStep)
      (g, (s, takeSnapshot exactRank names recordTs)) acts = some (g', (s', .done x))) :
    (∀ i, (g'.workers i).histogram = (g.workers i).histogram) ∧
    ∀ q ∈ latencyFields,
      (∀ all, all.Perm ((List.finRange n).map latencies).flatten →
        q.2 x.snapshot.aggregate = (histogramOf all).percentile (exactRank q.1)) ∧
      ((∃ i, latencies i ≠ []) →
        (∃ i : Fin n, ∃ m, latencies i ≠ [] ∧ x.snapshot.jobs[i.val]? = some m ∧
          q.2 m ≤ q.2 x.snapshot.aggregate) ∧
        (∃ i : Fin n, ∃ m, latencies i ≠ [] ∧ x.snapshot.jobs[i.val]? = some m ∧
          q.2 x.snapshot.aggregate ≤ q.2 m)) := by
  obtain ⟨hrest, -, hx⟩ := snapshotOf_run interferes_growsAtRest
    (fun g g' hg => le_of_grows g g' (growsAtRest_iff.mp hg).1) h
  have hsame := (growsAtRest_iff.mp hrest).2
  refine ⟨hsame, fun q hq => ?_⟩
  have hrow := fun i =>
    row_at_rest (hlatencies i) (hsame i) (hx.reading i).latencies q hq
  have htotal := total_at_rest hlatencies hsame hx q hq
  have hjob : ∀ i : Fin n, x.snapshot.jobs[i.val]? = some (x.readings i).metrics := by
    intro i
    rw [hx.jobs, List.getElem?_map, List.getElem?_eq_getElem (by simp)]
    simp
  obtain ⟨hpos, hone⟩ := latencyFields_bounds q hq
  constructor
  · intro all hall
    have hperm : histogramOf all = histogramOf ((List.finRange n).map latencies).flatten :=
      recordAll_perm _ hall
    rw [htotal, hperm]
  · rintro ⟨i, hi⟩
    have hne : ((List.finRange n).map latencies).flatten ≠ [] := by
      intro hnil
      exact hi (List.flatten_eq_nil_iff.mp hnil _
        (List.mem_map_of_mem (List.mem_finRange i)))
    obtain ⟨⟨lo, hlo, hlo0, hle⟩, hi', hhi, hhi0, hge⟩ :=
      percentile_flatten_between hfit hne hpos hone
    obtain ⟨a, -, rfl⟩ := List.mem_map.mp hlo
    obtain ⟨b, -, rfl⟩ := List.mem_map.mp hhi
    refine ⟨⟨a, _, hlo0, hjob a, ?_⟩, b, _, hhi0, hjob b, ?_⟩
    · rw [hrow, htotal]
      exact hle
    · rw [hrow, htotal]
      exact hge

/-- Two jobs, with one and with two completions. -/
def twoJobs (i : Fin 2) : List UInt64 := if i = 0 then [2] else [1000, 5]

/-- The counters of the two jobs. -/
def twoWorkers : Memory 2 :=
  { clock := 1000000000, workers := fun i => { histogram := histogramOf (twoJobs i) } }

theorem total_row_is_union_two :
    ∃ acts x, run (threadStep growsAtRest progStep)
        (twoWorkers, ({}, takeSnapshot exactRank (fun _ => "job") false)) acts
          = some (twoWorkers, ({}, .done x)) ∧
      x.snapshot.aggregate.latP50Ns
        = (histogramOf [5, 2, 1000]).percentile (exactRank kP50) ∧
      ∃ i : Fin 2, ∃ m, twoJobs i ≠ [] ∧ x.snapshot.jobs[i.val]? = some m ∧
        m.latP50Ns ≤ x.snapshot.aggregate.latP50Ns := by
  have hrely := interferes_growsAtRest (n := 2)
  obtain ⟨x, hx⟩ := readOnly_takeSnapshot.ends hrely twoWorkers {}
  obtain ⟨acts, hrun⟩ := (ends_iff_run hrely).mp hx
  have hlatencies : ∀ i, (twoWorkers.workers i).histogram = histogramOf (twoJobs i) :=
    fun _ => rfl
  obtain ⟨hall, hbetween⟩ :=
    (total_row_is_union hlatencies (by decide) hrun).2 _ (List.mem_cons_self ..)
  exact ⟨acts, x, hrun, hall _ (by decide), (hbetween ⟨0, by decide⟩).1⟩

end CfioMetrics
