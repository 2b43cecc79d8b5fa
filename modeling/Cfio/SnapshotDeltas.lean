import Cfio.SnapshotReads

/-! # Deltas of a time series

    A snapshot measures what was counted since the basis, and only a recording
    snapshot moves the basis.  From that (`Chain`) the deltas of the recording
    snapshots add up, and their intervals tile the time.  A snapshot that is not
    recorded can be taken or left out: the recordings that are possible are the
    same (`recorded_filter`). -/

namespace CfioMetrics

open CfioTypes CfioHistogram Interference Transition Words

variable {n : Nat}

/-! ## The basis -/

/-- The basis is at most what the workers have counted. -/
def Basis (g : Memory n) (s : MetricsAggregator n) : Prop :=
  ∀ i, s.prevIops i ≤ (g.workers i).iopsCount ∧
    s.prevBytes i ≤ (g.workers i).bytesTransferred

/-- Counting on and recording what was read keep it so. -/
theorem keeps_basis : Keeps (grows (n := n)) Basis where
  stable g g' s h hg i := by
    have hle := (of_decide_eq_true hg : g.Le g').2 i
    exact ⟨UInt64.le_trans (h i).1 hle.2.1, UInt64.le_trans (h i).2 hle.2.2.1⟩
  iops g s i v h hv j := by
    refine ⟨?_, (h j).2⟩
    show Function.update s.prevIops i v j ≤ _
    by_cases hj : j = i
    · subst hj
      rw [Function.update_self]
      exact hv
    · rw [Function.update_of_ne hj]
      exact (h j).1
  bytes g s i v h hv j := by
    refine ⟨(h j).1, ?_⟩
    show Function.update s.prevBytes i v j ≤ _
    by_cases hj : j = i
    · subst hj
      rw [Function.update_self]
      exact hv
    · rw [Function.update_of_ne hj]
      exact (h j).2
  time _ _ _ h _ := h

/-- A snapshot measures from the basis. -/
structure Measures (s : MetricsAggregator n) (x : Sample n) : Prop where
  begin_ : x.begin_ = s.prevSampleTime
  time : s.prevSampleTime ≤ x.now
  iops : ∀ i, s.prevIops i ≤ (x.readings i).curIops ∧
    (x.readings i).deltaIops = (x.readings i).curIops - s.prevIops i
  bytes : ∀ i, s.prevBytes i ≤ (x.readings i).curBytes ∧
    (x.readings i).deltaBytes = (x.readings i).curBytes - s.prevBytes i

/-- Snapshots that measure each from the basis the one before left. -/
def Chain : MetricsAggregator n → List (Sample n) → Prop
  | _, [] => True
  | s, x :: xs => Measures s x ∧ Chain (s.after x) xs

theorem after_prevIops (i : Fin n) (s : MetricsAggregator n) (x : Sample n) :
    (s.after x).prevIops i
      = if x.recordTs then (x.readings i).curIops else s.prevIops i := by
  rw [MetricsAggregator.after]
  cases x.recordTs <;> rfl

theorem after_prevBytes (i : Fin n) (s : MetricsAggregator n) (x : Sample n) :
    (s.after x).prevBytes i
      = if x.recordTs then (x.readings i).curBytes else s.prevBytes i := by
  rw [MetricsAggregator.after]
  cases x.recordTs <;> rfl

theorem after_prevSampleTime (s : MetricsAggregator n) (x : Sample n) :
    (s.after x).prevSampleTime = if x.recordTs then x.now else s.prevSampleTime := by
  rw [MetricsAggregator.after]
  cases x.recordTs <;> rfl

/-- The basis in the end. -/
def MetricsAggregator.afterAll (s : MetricsAggregator n) (xs : List (Sample n)) :
    MetricsAggregator n := xs.foldl MetricsAggregator.after s

/-- The snapshots that were recorded. -/
def recordings (xs : List (Sample n)) : List (Sample n) :=
  xs.filter (fun x => x.recordTs)

theorem recordings_cons (x : Sample n) (xs : List (Sample n)) :
    recordings (x :: xs) = if x.recordTs then x :: recordings xs else recordings xs :=
  List.filter_cons

/-! ## Snapshots of a running system -/

section Runs

variable {rank : ℚ → UInt64 → UInt64} {names : Fin n → String}
variable {g : Memory n} {s : MetricsAggregator n}

/-- One snapshot after another. -/
theorem safe_takeSnapshots (calls : List Bool) (hI : Basis g s)
    (htime : s.prevSampleTime ≤ g.clock) :
    Safe grows Basis
      (fun xs g' s' => grows g g' = true ∧ xs.map Sample.recordTs = calls ∧
        Chain s xs ∧ s' = s.afterAll xs)
      (takeSnapshots rank names calls) g s := by
  have hrely := interferes_grows (n := n)
  induction calls generalizing g s with
  | nil =>
      intro g' hg'
      exact ⟨keeps_basis.stable _ _ _ hI hg', hg', rfl, trivial, rfl⟩
  | cons recordTs rest ih =>
      refine safe_bind hrely (safe_mono (safe_takeSnapshot hrely
        (fun _ _ h => of_decide_eq_true h) keeps_basis hI recordTs) ?_)
      rintro x g₁ s₁ hI₁ ⟨hg₁, hrec, hx, rfl⟩
      have hle : g.Le g₁ := of_decide_eq_true hg₁
      have htime₁ : (s.after x).prevSampleTime ≤ g₁.clock := by
        rw [after_prevSampleTime]
        by_cases hr : x.recordTs = true
        · rw [if_pos hr]
          exact hx.now.2
        · rw [if_neg hr]
          exact Int.le_trans htime hle.1
      have hmeasures : Measures s x :=
        ⟨hx.begin_, Int.le_trans htime hx.now.1,
          fun i => ⟨UInt64.le_trans (hI i).1 (hx.reading i).iops.1,
            (hx.reading i).deltaIops⟩,
          fun i => ⟨UInt64.le_trans (hI i).2 (hx.reading i).bytes.1,
            (hx.reading i).deltaBytes⟩⟩
      refine safe_bind hrely (safe_mono (ih hI₁ htime₁) ?_)
      rintro xs g₂ s₂ hI₂ ⟨hg₂, hmap, hchain, rfl⟩ g₃ hg₃
      have h₁₃ := hrely.trans _ _ _ hg₂ hg₃
      refine ⟨keeps_basis.stable _ _ _ hI₂ hg₃, hrely.trans _ _ _ hg₁ h₁₃, ?_,
        ⟨hmeasures, hchain⟩, rfl⟩
      rw [List.map_cons, hrec, hmap]

/-- The basis of a session is the time of its start. -/
theorem safe_start (hI : Basis g s) :
    Safe grows Basis
      (fun _ g' s' => grows g g' = true ∧ ∃ time, g.clock ≤ time ∧ time ≤ g'.clock ∧
        s' = { s with startTime := time, prevSampleTime := time })
      start g s := by
  have hrely := interferes_grows (n := n)
  refine safe_load_bind.mpr (fun g₁ hg₁ => ?_)
  have hI₁ := keeps_basis.stable _ _ _ hI hg₁
  refine ⟨hI₁, safe_update_bind.mpr (fun g₂ hg₂ => ?_)⟩
  have hI₂ := keeps_basis.stable _ _ _ hI₁ hg₂
  refine ⟨hI₂, fun g₃ hg₃ => ?_⟩
  have hI₃ := keeps_basis.stable _ _ _ hI₂ hg₃
  refine ⟨hI₃, fun g₄ hg₄ => ?_⟩
  have h₁₄ := hrely.trans _ _ _ hg₂ (hrely.trans _ _ _ hg₃ hg₄)
  exact ⟨keeps_basis.stable _ _ _ hI₃ hg₄, hrely.trans _ _ _ hg₁ h₁₄, g₁.clock,
    (of_decide_eq_true hg₁ : g.Le g₁).1, (of_decide_eq_true h₁₄ : g₁.Le g₄).1, rfl⟩

/-- **A session**: the basis never overtakes the counters, and the snapshots are a
    chain that begins at the start. -/
theorem safe_session (calls : List Bool) (hI : Basis g s) :
    Safe grows Basis
      (fun xs g' s' => xs.map Sample.recordTs = calls ∧
        ∃ time, g.clock ≤ time ∧ time ≤ g'.clock ∧
          Chain { s with startTime := time, prevSampleTime := time } xs ∧
          s' = MetricsAggregator.afterAll
            { s with startTime := time, prevSampleTime := time } xs)
      (session rank names calls) g s := by
  have hrely := interferes_grows (n := n)
  refine safe_bind hrely (safe_mono (safe_start hI) ?_)
  rintro _ g₁ _ hI₁ ⟨-, time, hge, hle, rfl⟩
  refine safe_mono (safe_takeSnapshots calls hI₁ hle) ?_
  rintro xs g₂ s₂ - ⟨hg₂, hmap, hchain, hs₂⟩
  exact ⟨hmap, time, hge, Int.le_trans hle (of_decide_eq_true hg₂ : g₁.Le g₂).1, hchain,
    hs₂⟩

end Runs

/-! ## What a chain adds up to -/

section Sums

variable {s : MetricsAggregator n} {xs : List (Sample n)}

/-- **Deltas telescope**, for any counter that is measured from the basis and that
    a recording makes the basis. -/
theorem sum_deltas (prev : MetricsAggregator n → UInt64) (cur delta : Sample n → UInt64)
    (hafter : ∀ s x, prev (s.after x) = if x.recordTs then cur x else prev s)
    (hmeasure : ∀ s x, Measures s x → prev s ≤ cur x ∧ delta x = cur x - prev s)
    (h : Chain s xs) :
    ((recordings xs).map (fun x => (delta x).toNat)).sum + (prev s).toNat
      = (prev (s.afterAll xs)).toNat := by
  induction xs generalizing s with
  | nil => exact Nat.zero_add _
  | cons x xs ih =>
      obtain ⟨hx, hchain⟩ := h
      obtain ⟨hle, hdelta⟩ := hmeasure s x hx
      have hrest := ih hchain
      rw [hafter] at hrest
      rw [recordings_cons]
      cases hr : x.recordTs with
      | false =>
          rw [hr] at hrest
          exact hrest
      | true =>
          rw [hr, if_pos rfl] at hrest
          rw [UInt64.le_iff_toNat_le] at hle
          rw [if_pos rfl, List.map_cons, List.sum_cons, hdelta, toNat_sub_of_le hle]
          show _ = (prev ((s.after x).afterAll xs)).toNat
          omega

/-- The basis in the end is what the last recording read. -/
theorem afterAll_last {β : Type} (prev : MetricsAggregator n → β) (cur : Sample n → β)
    (hafter : ∀ s x, prev (s.after x) = if x.recordTs then cur x else prev s) :
    prev (s.afterAll xs) = (recordings xs).getLast?.elim (prev s) cur := by
  induction xs generalizing s with
  | nil => rfl
  | cons x xs ih =>
      have hstep : prev (s.afterAll (x :: xs)) = prev ((s.after x).afterAll xs) := rfl
      rw [hstep, ih, hafter, recordings_cons]
      cases hr : x.recordTs with
      | false => rfl
      | true =>
          rw [if_pos rfl, if_pos rfl, List.getLast?_cons]
          cases (recordings xs).getLast? <;> rfl

/-- The interval of a recording contains this time. -/
def Sample.covers (t : TimePoint) (x : Sample n) : Bool := x.begin_ ≤ t ∧ t < x.now

/-- The time does not go back. -/
theorem Chain.time_le (h : Chain s xs) :
    s.prevSampleTime ≤ (s.afterAll xs).prevSampleTime := by
  induction xs generalizing s with
  | nil => exact Int.le_refl _
  | cons x xs ih =>
      obtain ⟨hx, hchain⟩ := h
      refine Int.le_trans ?_ (ih hchain)
      rw [after_prevSampleTime]
      by_cases hr : x.recordTs = true
      · rw [if_pos hr]
        exact hx.time
      · rw [if_neg hr]

/-- **The intervals tile the time**: every moment from the basis to the last
    recording lies in exactly one of them, and no other moment in any. -/
theorem countP_covers (h : Chain s xs) (t : TimePoint) :
    (recordings xs).countP (Sample.covers t)
      = if s.prevSampleTime ≤ t ∧ t < (s.afterAll xs).prevSampleTime then 1 else 0 := by
  induction xs generalizing s with
  | nil =>
      have hno : ¬ (s.prevSampleTime ≤ t ∧ t < s.prevSampleTime) :=
        fun h => absurd h.2 (Int.not_lt.mpr h.1)
      exact (if_neg hno).symm
  | cons x xs ih =>
      obtain ⟨hx, hchain⟩ := h
      have hrest := ih hchain
      have hend : s.afterAll (x :: xs) = (s.after x).afterAll xs := rfl
      have hle := hchain.time_le
      rw [recordings_cons, hend]
      cases hr : x.recordTs with
      | false =>
          have hsame : s.after x = s := if_neg (Bool.eq_false_iff.mp hr)
          rw [hsame] at hrest ⊢
          exact hrest
      | true =>
          have hnow : (s.after x).prevSampleTime = x.now := by
            rw [after_prevSampleTime, if_pos hr]
          rw [hnow] at hrest hle
          have hcovers : x.covers t = decide (s.prevSampleTime ≤ t ∧ t < x.now) := by
            rw [Sample.covers, hx.begin_]
          rw [if_pos rfl, List.countP_cons, hrest, hcovers]
          have htime := hx.time
          generalize ((s.after x).afterAll xs).prevSampleTime = last at hle ⊢
          by_cases hin : s.prevSampleTime ≤ t ∧ t < x.now
          · have hlater : ¬ (x.now ≤ t ∧ t < last) :=
              fun h => absurd hin.2 (Int.not_lt.mpr h.1)
            have hall : s.prevSampleTime ≤ t ∧ t < last :=
              ⟨hin.1, Int.lt_of_lt_of_le hin.2 hle⟩
            rw [if_neg hlater, if_pos (decide_eq_true hin), if_pos hall]
          · rw [if_neg (fun h => hin (of_decide_eq_true h)), Nat.add_zero]
            by_cases hlater : x.now ≤ t ∧ t < last
            · rw [if_pos hlater, if_pos ⟨Int.le_trans htime hlater.1, hlater.2⟩]
            · have hall : ¬ (s.prevSampleTime ≤ t ∧ t < last) := by
                intro h
                by_cases hnow : t < x.now
                · exact hin ⟨h.1, hnow⟩
                · exact hlater ⟨Int.not_lt.mp hnow, h.2⟩
              rw [if_neg hlater, if_neg hall]

end Sums

/-! ## Leaving out what is not recorded -/

section Recorded

variable (rank : ℚ → UInt64 → UInt64) (names : Fin n → String)

/-- These calls can give the recordings `xs` and end in the states `g'` and `s'`. -/
def Recorded (calls : List Bool) (g : Memory n) (s : MetricsAggregator n)
    (xs : List (Sample n)) (g' : Memory n) (s' : MetricsAggregator n) : Prop :=
  ∃ all, Ends grows (takeSnapshots rank names calls) g s all g' s' ∧
    recordings all = xs

variable {rank names} {rest : List Bool} {g g' : Memory n} {s s' : MetricsAggregator n}
variable {xs : List (Sample n)}

/-- A sample tells whether it is recorded. -/
theorem recordTs_of_ends {recordTs : Bool} {x : Sample n}
    (h : Ends grows (takeSnapshot rank names recordTs) g s x g' s') :
    x.recordTs = recordTs := by
  obtain ⟨acts, hrun⟩ := (ends_iff_run interferes_grows).mp h
  exact (snapshotOf_run interferes_grows le_of_grows hrun).2.1

/-- A first snapshot, and what the others record. -/
theorem recorded_cons {recordTs : Bool} :
    Recorded rank names (recordTs :: rest) g s xs g' s' ↔
      ∃ x h t ys, Ends grows (takeSnapshot rank names recordTs) g s x h t ∧
        Recorded rank names rest h t ys g' s' ∧
        xs = if recordTs then x :: ys else ys := by
  have hrely := interferes_grows (n := n)
  constructor
  · rintro ⟨all, hends, rfl⟩
    obtain ⟨x, h, t, hx, hrest⟩ := (ends_bind hrely).mp hends
    obtain ⟨others, k, u, hothers, hk, rfl, rfl⟩ := (ends_bind hrely).mp hrest
    refine ⟨x, h, t, recordings others, hx, ⟨others, hothers.later hrely hk, rfl⟩, ?_⟩
    rw [recordings_cons, recordTs_of_ends hx]
  · rintro ⟨x, h, t, ys, hx, ⟨others, hothers, rfl⟩, rfl⟩
    refine ⟨x :: others, (ends_bind hrely).mpr ⟨x, h, t, hx, (ends_bind hrely).mpr
      ⟨others, g', s', hothers, hrely.refl g', rfl, rfl⟩⟩, ?_⟩
    rw [recordings_cons, recordTs_of_ends hx]

/-- A snapshot that is not recorded can be left out, or put in. -/
theorem recorded_cons_false :
    Recorded rank names (false :: rest) g s xs g' s' ↔
      Recorded rank names rest g s xs g' s' := by
  have hrely := interferes_grows (n := n)
  rw [recorded_cons]
  constructor
  · rintro ⟨x, h, t, ys, hx, ⟨others, hothers, hys⟩, rfl⟩
    obtain ⟨rfl, hg⟩ := readOnly_takeSnapshot.unchanged hrely hx
    exact ⟨others, hothers.interfere hrely hg, hys⟩
  · intro hrest
    have hread : ReadOnly (takeSnapshot rank names false : Sampling n (Sample n)) :=
      readOnly_takeSnapshot
    obtain ⟨x, hx⟩ := hread.ends hrely g s
    exact ⟨x, g, s, xs, hx, hrest, rfl⟩

/-- **Only the recording snapshots matter for what is recorded.** -/
theorem recorded_filter (calls : List Bool) :
    Recorded rank names calls g s xs g' s' ↔
      Recorded rank names (calls.filter id) g s xs g' s' := by
  induction calls generalizing g s xs with
  | nil => exact Iff.rfl
  | cons recordTs rest ih =>
      cases recordTs with
      | false => exact recorded_cons_false.trans ih
      | true =>
          rw [List.filter_cons_of_pos rfl, recorded_cons, recorded_cons]
          simp only [ih]

end Recorded

/-! ## A session -/

/-- The value of a counter that may not have been read. -/
theorem toNat_elim_zero {β : Type} (o : Option β) (f : β → UInt64) :
    (o.elim 0 f).toNat = o.elim 0 (fun x => (f x).toNat) := by
  cases o <;> rfl

/-- No sample changes when the run began. -/
theorem afterAll_startTime {s : MetricsAggregator n} (xs : List (Sample n)) :
    (s.afterAll xs).startTime = s.startTime := by
  induction xs generalizing s with
  | nil => rfl
  | cons x xs ih =>
      refine (ih (s := s.after x)).trans ?_
      rw [MetricsAggregator.after]
      cases x.recordTs <;> rfl

/-- What the recordings of a session add up to. -/
structure Accounted (g₀ : Memory n) (s : MetricsAggregator n) (all : List (Sample n)) :
    Prop where
  began : g₀.clock ≤ s.startTime
  -- each snapshot measures from the last recording, and no delta underflows
  chain : Chain { startTime := s.startTime, prevSampleTime := s.startTime } all
  -- the deltas of the recordings sum to what the last one read
  iops : ∀ i, ((recordings all).map (fun x => (x.readings i).deltaIops.toNat)).sum
    = (recordings all).getLast?.elim 0 (fun x => (x.readings i).curIops.toNat)
  bytes : ∀ i, ((recordings all).map (fun x => (x.readings i).deltaBytes.toNat)).sum
    = (recordings all).getLast?.elim 0 (fun x => (x.readings i).curBytes.toNat)
  -- every moment up to the last recording lies in the interval of just one
  tiles : ∀ t, (recordings all).countP (Sample.covers t)
    = if s.startTime ≤ t ∧ t < (recordings all).getLast?.elim s.startTime Sample.now
      then 1 else 0

/-- A chain that begins at the start of a session accounts for everything. -/
theorem accounted_of_chain {g₀ : Memory n} {time : TimePoint} {all : List (Sample n)}
    (hge : g₀.clock ≤ time)
    (h : Chain { startTime := time, prevSampleTime := time } all) :
    Accounted g₀ (MetricsAggregator.afterAll
      { startTime := time, prevSampleTime := time } all) all := by
  have hstart := afterAll_startTime
    (s := ({ startTime := time, prevSampleTime := time } : MetricsAggregator n)) all
  refine ⟨?_, ?_, fun i => ?_, fun i => ?_, fun t => ?_⟩
  · rw [hstart]
    exact hge
  · rw [hstart]
    exact h
  · have hsum := sum_deltas (fun s => s.prevIops i) (fun x => (x.readings i).curIops)
      (fun x => (x.readings i).deltaIops) (after_prevIops i) (fun _ _ hx => hx.iops i) h
    rw [afterAll_last (fun s => s.prevIops i) (fun x => (x.readings i).curIops)
      (after_prevIops i)] at hsum
    exact hsum.trans (toNat_elim_zero _ _)
  · have hsum := sum_deltas (fun s => s.prevBytes i) (fun x => (x.readings i).curBytes)
      (fun x => (x.readings i).deltaBytes) (after_prevBytes i) (fun _ _ hx => hx.bytes i) h
    rw [afterAll_last (fun s => s.prevBytes i) (fun x => (x.readings i).curBytes)
      (after_prevBytes i)] at hsum
    exact hsum.trans (toNat_elim_zero _ _)
  · rw [hstart, countP_covers h t,
      afterAll_last MetricsAggregator.prevSampleTime Sample.now after_prevSampleTime]

/-- A complete session with these calls can give the recordings `xs`. -/
def SessionRecords (rank : ℚ → UInt64 → UInt64) (names : Fin n → String)
    (calls : List Bool) (g₀ : Memory n) (xs : List (Sample n)) (g : Memory n)
    (s : MetricsAggregator n) : Prop :=
  ∃ acts all, run (threadStep grows progStep) (g₀, ({}, session rank names calls)) acts
    = some (g, (s, .done all)) ∧ recordings all = xs

/-- What a session records is what its snapshots record after `start`. -/
theorem sessionRecords_iff {rank : ℚ → UInt64 → UInt64} {names : Fin n → String}
    {calls : List Bool} {g₀ g : Memory n} {xs : List (Sample n)}
    {s : MetricsAggregator n} :
    SessionRecords rank names calls g₀ xs g s ↔
      ∃ h t, Ends grows start g₀ {} () h t ∧ Recorded rank names calls h t xs g s := by
  have hrely := interferes_grows (n := n)
  constructor
  · rintro ⟨acts, all, hrun, rfl⟩
    obtain ⟨_, h, t, hstart, hall⟩ :=
      (ends_bind hrely).mp ((ends_iff_run hrely).mpr ⟨acts, hrun⟩)
    exact ⟨h, t, hstart, all, hall, rfl⟩
  · rintro ⟨h, t, hstart, all, hall, rfl⟩
    have hends : Ends grows (session rank names calls) g₀ {} all g s :=
      (ends_bind hrely).mpr ⟨(), h, t, hstart, hall⟩
    obtain ⟨acts, hrun⟩ := (ends_iff_run hrely).mp hends
    exact ⟨acts, all, hrun, rfl⟩

/-- **The deltas neither lose nor double count.**  At no moment is the basis ahead of
    the counters; the deltas of the recordings sum to what the last of them read,
    and their intervals tile the time from the start; and with or without
    snapshots that are not recorded, the possible recordings are the same. -/
theorem deltas_account (rank : ℚ → UInt64 → UInt64) (names : Fin n → String)
    (g₀ : Memory n) (calls : List Bool) :
    (∀ acts g s p, run (threadStep grows progStep)
        (g₀, ({}, session rank names calls)) acts = some (g, (s, p)) →
      (∀ i, s.prevIops i ≤ (g.workers i).iopsCount ∧
        s.prevBytes i ≤ (g.workers i).bytesTransferred) ∧
      ∀ all, p = .done all → all.map Sample.recordTs = calls ∧ Accounted g₀ s all) ∧
    ∀ calls' : List Bool, calls'.filter id = calls.filter id → ∀ xs g s,
      SessionRecords rank names calls' g₀ xs g s ↔
        SessionRecords rank names calls g₀ xs g s := by
  have hrely := interferes_grows (n := n)
  have hI : Basis g₀ ({} : MetricsAggregator n) :=
    fun _ => ⟨UInt64.zero_le, UInt64.zero_le⟩
  constructor
  · intro acts g s p hrun
    have hsafe := run_safe hrely hrun (safe_session calls hI)
    refine ⟨hsafe.now hrely, ?_⟩
    rintro all rfl
    obtain ⟨hcalls, time, hge, -, hchain, rfl⟩ := hsafe.result hrely
    exact ⟨hcalls, accounted_of_chain hge hchain⟩
  · intro calls' hcalls xs g s
    rw [sessionRecords_iff, sessionRecords_iff]
    refine exists_congr (fun h => exists_congr (fun t => and_congr_right' ?_))
    rw [recorded_filter calls', hcalls, ← recorded_filter calls]

/-- One worker with so many completions of 4096 bytes. -/
def countedWorker (clock : TimePoint) (ios : UInt64) : Memory 1 :=
  { clock := clock
    workers := fun _ =>
      { histogram := Log2Histogram.empty 64
        iopsCount := ios
        bytesTransferred := 4096 * ios } }

/-- The sampling thread takes all steps of a session, while the worker goes on before
    the first snapshot and within the second, which is not recorded. -/
def countedActs : List (ThreadAct (Memory 1) Unit) :=
  List.replicate 3 (.own ()) ++ [.interfere (countedWorker 1000 5)] ++
    List.replicate 366 (.own ()) ++ [.interfere (countedWorker 2000 9)] ++
    List.replicate 429 (.own ())

/-- The deltas a finished session recorded. -/
def recordedDeltas : Prog (Memory 1) (MetricsAggregator 1) (List (Sample 1)) →
    Option (List (UInt64 × UInt64))
  | .done all => some ((recordings all).map (fun x =>
      ((x.readings 0).deltaIops, (x.readings 0).deltaBytes)))
  | .step _ _ => none

theorem deltas_account_two :
    ∃ acts g s all, run (threadStep grows progStep)
        (countedWorker 0 0, ({}, session exactRank (fun _ => "job") [true, false, true])) acts
          = some (g, (s, .done all)) ∧
      (recordings all).map (fun x => ((x.readings 0).deltaIops, (x.readings 0).deltaBytes))
        = [(5, 20480), (4, 16384)] ∧
      all.map Sample.recordTs = [true, false, true] ∧
      Accounted (countedWorker 0 0) s all := by
  have h : (run (threadStep grows progStep) (countedWorker 0 0,
      ({}, session exactRank (fun _ => "job") [true, false, true])) countedActs).map
        (fun t => recordedDeltas t.2.2) = some (some [(5, 20480), (4, 16384)]) := by
    decide +kernel
  obtain ⟨⟨g, s, p⟩, hrun, hdeltas⟩ := Option.map_eq_some_iff.mp h
  cases p with
  | step act next => exact nomatch hdeltas
  | done all =>
      have haccount := (deltas_account exactRank _ _ _).1 _ _ _ _ hrun
      exact ⟨_, g, s, all, hrun, Option.some.inj hdeltas, haccount.2 all rfl⟩

end CfioMetrics
