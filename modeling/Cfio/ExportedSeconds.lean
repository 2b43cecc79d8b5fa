import Cfio.ResultsExporter
import Cfio.SamplingRun

/-! # The seconds of the exported rows

    `ExportCsv` rounds the elapsed time of a sample to a whole second.  Regular
    samples are a second apart and round to different seconds; the final one may
    come half a second after the last of them, and then it depends on where the
    halves of the seconds lie (`one_row_per_second_iff`). -/

namespace CfioReporting

open CfioTypes CfioMetrics Transition SlidingWindow IntegerText

/-- The `timestamp_s` of a sample's rows. -/
def csvSecond (sample : MetricsSnapshot) : Int := llround sample.elapsedSeconds

/-- The fields `timestamp_s` and `job_name` of every row of the file
    (`exportCsv_eq_write`). -/
def rowKeys (timeSeries : List MetricsSnapshot) : List (List String) :=
  (timeSeriesRecords timeSeries).map (List.take 2)

/-- The seconds increase from sample to sample, and no two rows share second and job. -/
def OneRowPerSecond (timeSeries : List MetricsSnapshot) : Prop :=
  (timeSeries.map csvSecond).Pairwise (· < ·) ∧ (rowKeys timeSeries).Nodup

/-! ## Rows -/

section Rows

variable {names : List String} {series : List MetricsSnapshot}

/-- Different integers have different texts. -/
theorem toString_int_inj {i j : Int} (h : toString i = toString j) : i = j := by
  have hread := readInteger_repr i
  rw [show i.repr = j.repr from h, readInteger_repr j] at hread
  exact (Prod.mk.inj (Option.some.inj hread)).1.symm

/-- The keys of the rows, sample by sample. -/
theorem rowKeys_eq (series : List MetricsSnapshot) :
    rowKeys series = series.flatMap (fun sample =>
      sample.jobs.map (fun job => [toString (csvSecond sample), job.jobName])) := by
  rw [rowKeys, timeSeriesRecords, List.map_flatMap]
  simp only [List.map_map]
  rfl

/-- With different names in each sample, different seconds make the keys unique. -/
theorem rowKeys_nodup (hnames : names.Nodup)
    (hjobs : ∀ x ∈ series, x.jobs.map (·.jobName) = names)
    (hseconds : (series.map csvSecond).Pairwise (· < ·)) : (rowKeys series).Nodup := by
  rw [rowKeys_eq, List.nodup_flatMap]
  constructor
  · intro x hx
    have hnodup : (x.jobs.map (·.jobName)).Nodup := by
      rw [hjobs x hx]
      exact hnames
    have hmap : x.jobs.map (fun job => [toString (csvSecond x), job.jobName])
        = (x.jobs.map (·.jobName)).map (fun name => [toString (csvSecond x), name]) := by
      rw [List.map_map]
      rfl
    rw [hmap]
    exact hnodup.map (fun _ _ h => (List.cons.inj (List.cons.inj h).2).1)
  · rw [List.pairwise_map] at hseconds
    refine hseconds.imp (fun {x y} hlt => ?_)
    intro key hx hy
    obtain ⟨job, -, rfl⟩ := List.mem_map.mp hx
    obtain ⟨job', -, hkey⟩ := List.mem_map.mp hy
    have hsame := toString_int_inj (List.cons.inj hkey).1
    omega

/-- With the same distinct jobs in every sample it is a matter of their seconds. -/
theorem oneRowPerSecond_iff (hnames : names.Nodup)
    (hjobs : ∀ x ∈ series, x.jobs.map (·.jobName) = names) :
    OneRowPerSecond series ↔ (series.map csvSecond).Pairwise (· < ·) :=
  ⟨fun h => h.1, fun h => ⟨h, rowKeys_nodup hnames hjobs h⟩⟩

end Rows

/-! ## Rounding -/

section Rounding

variable {p q : ℚ} {startTime a b : TimePoint}

/-- The middle of a second lies between two times. -/
def HalfSecondBetween (p q : ℚ) : Prop := ∃ m : Nat, p < m + 1 / 2 ∧ (m : ℚ) + 1 / 2 ≤ q

/-- **Two times round to different seconds** if and only if the middle of a second lies
    between them. -/
theorem llround_lt_iff (hp : 0 ≤ p) (hpq : p ≤ q) :
    llround p < llround q ↔ HalfSecondBetween p q := by
  rw [llround_of_nonneg hp, llround_of_nonneg (le_trans hp hpq)]
  constructor
  · intro hlt
    have hnonneg : 0 ≤ ⌊p + 1 / 2⌋ := Int.floor_nonneg.mpr (by linarith)
    have hle : ((⌊p + 1 / 2⌋ + 1 : Int) : ℚ) ≤ q + 1 / 2 := Int.le_floor.mp hlt
    have hfloor := Int.lt_floor_add_one (p + 1 / 2)
    have hcast : ((⌊p + 1 / 2⌋.toNat : Nat) : ℚ) = (⌊p + 1 / 2⌋ : ℚ) := by
      exact_mod_cast Int.toNat_of_nonneg hnonneg
    push_cast at hle
    refine ⟨⌊p + 1 / 2⌋.toNat, ?_, ?_⟩
    · rw [hcast]
      linarith
    · rw [hcast]
      linarith
  · rintro ⟨m, hpm, hmq⟩
    have hbelow : ⌊p + 1 / 2⌋ < (m : Int) + 1 := by
      refine Int.floor_lt.mpr ?_
      push_cast
      linarith
    have habove : (m : Int) + 1 ≤ ⌊q + 1 / 2⌋ := by
      refine Int.le_floor.mpr ?_
      push_cast
      linarith
    omega

/-- No time before the start is reported. -/
theorem elapsedSeconds_nonneg (begin_ end_ : TimePoint) : 0 ≤ elapsedSeconds begin_ end_ :=
  le_trans (by rw [kMinElapsed]; norm_num) (le_max_right _ _)

/-- The later, the longer since the start. -/
theorem elapsedSeconds_mono (h : a ≤ b) :
    elapsedSeconds startTime a ≤ elapsedSeconds startTime b := by
  have hcast : ((a - startTime : Int) : ℚ) ≤ ((b - startTime : Int) : ℚ) := by
    exact_mod_cast Int.sub_le_sub_right h startTime
  refine max_le_max ?_ (le_refl _)
  linarith

/-- A whole record interval apart, times round to different seconds. -/
theorem csvSecond_lt_of_interval (ha : startTime + kRecordInterval ≤ a)
    (hab : a + kRecordInterval ≤ b) :
    llround (elapsedSeconds startTime a) < llround (elapsedSeconds startTime b) := by
  have hinterval : kRecordInterval = 1000000000 := by decide
  rw [hinterval] at ha hab
  have hspan (t : TimePoint) (ht : startTime + 1000000000 ≤ t) :
      elapsedSeconds startTime t = ((t - startTime : Int) : ℚ) / 1000000000 := by
    refine max_eq_left ?_
    have hcast : ((1000000000 : Int) : ℚ) ≤ ((t - startTime : Int) : ℚ) := by
      have : (1000000000 : Int) ≤ t - startTime := by linarith
      exact_mod_cast this
    rw [kMinElapsed]
    push_cast at hcast ⊢
    linarith
  have hb : startTime + 1000000000 ≤ b := by linarith
  rw [llround_of_nonneg (elapsedSeconds_nonneg _ _),
    llround_of_nonneg (elapsedSeconds_nonneg _ _), hspan a ha, hspan b hb]
  have hcast : ((a - startTime : Int) : ℚ) + 1000000000 ≤ ((b - startTime : Int) : ℚ) := by
    have : a - startTime + 1000000000 ≤ b - startTime := by linarith
    exact_mod_cast this
  refine Int.lt_of_lt_of_le (Int.lt_add_one_of_le (Int.le_refl _)) (Int.le_floor.mpr ?_)
  have hfloor := Int.floor_le (((a - startTime : Int) : ℚ) / 1000000000 + 1 / 2)
  push_cast at hcast hfloor ⊢
  linarith

end Rounding

/-! ## Regular samples -/

section Regular

variable {names : List String} {startTime prev : TimePoint}
variable {recorded : List MetricsSnapshot}

/-- The second of a recorded sample is that of its time stamp. -/
theorem csvSecond_of_mem (h : Regular names startTime prev recorded) {x : MetricsSnapshot}
    (hx : x ∈ recorded) :
    csvSecond x = llround (elapsedSeconds startTime x.timestamp) := by
  rw [csvSecond, (h.mem hx).2.2.1]

/-- **Regular samples have increasing seconds.** -/
theorem regular_seconds (h : Regular names startTime prev recorded) :
    (recorded.map csvSecond).Pairwise (· < ·) := by
  rw [List.pairwise_map]
  refine h.spaced.imp_of_mem (fun {x y} hx hy hspaced => ?_)
  rw [csvSecond_of_mem h hx, csvSecond_of_mem h hy]
  exact csvSecond_lt_of_interval (h.mem hx).1 hspaced

/-- The seconds of the last few regular samples increase. -/
theorem regular_window_seconds (h : Regular names startTime prev recorded) (c : Nat) :
    ((lastOf c recorded).map csvSecond).Pairwise (· < ·) :=
  (regular_seconds h).sublist ((lastOf_sublist c recorded).map csvSecond)

/-- Nothing but the latest sample matters for one that follows. -/
theorem window_seconds_lt_iff (h : Regular names startTime prev recorded)
    (hne : recorded ≠ []) (c : Nat) (second : Int) :
    (∀ x ∈ lastOf (c + 1) recorded, csvSecond x < second)
      ↔ llround (elapsedSeconds startTime prev) < second := by
  obtain ⟨earlier, last, rfl, hlast⟩ := h.last hne
  have hmem : last ∈ earlier ++ [last] :=
    List.mem_append_right _ (List.mem_singleton_self _)
  have hsecond := csvSecond_of_mem h hmem
  rw [hlast] at hsecond
  constructor
  · intro hall
    rw [← hsecond]
    refine hall last ?_
    rw [lastOf_concat]
    exact List.mem_append_right _ (List.mem_singleton_self _)
  · intro hlt x hx
    have hx' := (lastOf_sublist _ _).mem hx
    rw [csvSecond_of_mem h hx']
    exact Int.lt_of_le_of_lt (llround_mono (elapsedSeconds_nonneg _ _)
      (elapsedSeconds_mono (h.mem hx').2.1)) hlt

end Regular

/-! ## Runs -/

/-- A final snapshot that is recorded falls into a second of its own: nothing was
    recorded before it, or the buffer has a single slot, or the middle of a second has
    passed since the last record. -/
def SecondPasses (runtimeSeconds : Int32) (s : SamplingRun) : SamplingAct → Prop
  | .takeFinal _ =>
      s.main = .finalSampling true →
        s.tick < kTicksPerRecord ∨ capacityOf runtimeSeconds = 1
          ∨ HalfSecondBetween (elapsedSeconds s.startTime s.prevSampleTime)
              (elapsedSeconds s.startTime s.clock)
  | _ => True

section Run

variable {runtimeSeconds : Int32} {names : List String} {s t : SamplingRun}
variable {a : SamplingAct}

/-- The seconds of the window increase. -/
def WindowIncreases (runtimeSeconds : Int32) (s : SamplingRun) : Prop :=
  ((lastOf (capacityOf runtimeSeconds) s.recorded).map csvSecond).Pairwise (· < ·)

/-- Before the end the records are regular, so their seconds increase. -/
theorem windowIncreases_of_live (h : SamplingInv runtimeSeconds names s)
    (hlive : s.main ≠ .finished) : WindowIncreases runtimeSeconds s := by
  by_cases hmain : s.main = .constructed
  · rw [WindowIncreases, (h.fresh hmain).2.2, lastOf_of_le (Nat.zero_le _)]
    exact List.Pairwise.nil
  · exact regular_window_seconds (h.regular hmain hlive) _

/-- A sample behind a window that increases. -/
theorem pairwise_lastOf_concat {c : Nat} {recorded : List MetricsSnapshot}
    (hbefore : ((lastOf c recorded).map csvSecond).Pairwise (· < ·)) (x : MetricsSnapshot) :
    ((lastOf (c + 1) (recorded ++ [x])).map csvSecond).Pairwise (· < ·)
      ↔ ∀ y ∈ lastOf c recorded, csvSecond y < csvSecond x := by
  rw [lastOf_concat, List.map_append, List.pairwise_append]
  constructor
  · rintro ⟨-, -, hlt⟩ y hy
    exact hlt _ (List.mem_map_of_mem hy) _ (List.mem_singleton_self _)
  · intro hlt
    refine ⟨hbefore, List.pairwise_singleton _ _, ?_⟩
    intro i hi j hj
    obtain ⟨y, hy, rfl⟩ := List.mem_map.mp hi
    rw [List.mem_singleton.mp hj]
    exact hlt y hy

/-- The final snapshot. -/
theorem windowIncreases_final {rows : Rows} (h : SamplingInv runtimeSeconds names s)
    (hstep : samplingStep runtimeSeconds names s (.takeFinal rows) = some t) :
    WindowIncreases runtimeSeconds t ↔ SecondPasses runtimeSeconds s (.takeFinal rows) := by
  have hrecorded := recorded_step hstep
  rw [SecondPasses]
  cases hmain : s.main with
  | finalSampling recordTs =>
      have hregular := h.regular (by simp [hmain]) (by simp [hmain])
      have hbefore := regular_window_seconds hregular
      cases recordTs with
      | false =>
          rw [recordsNow, hmain] at hrecorded
          have hsame : t.recorded = s.recorded := hrecorded.trans (List.append_nil _)
          rw [WindowIncreases, hsame]
          exact iff_of_true (hbefore _) (fun hrec => by cases hrec)
      | true =>
          rw [recordsNow, hmain] at hrecorded
          change t.recorded = s.recorded ++ [rows.stamped s.startTime s.clock] at hrecorded
          obtain ⟨c, hc⟩ := Nat.exists_eq_succ_of_ne_zero
            (Nat.ne_of_gt (capacityOf_pos runtimeSeconds))
          have hlen := h.length_of_final hmain
          have htail := h.tail hmain
          have hinterval : kRecordInterval = 1000000000 := by decide
          have hle : s.prevSampleTime ≤ s.clock := by
            rw [hinterval] at htail
            linarith
          have hround := llround_lt_iff (elapsedSeconds_nonneg s.startTime s.prevSampleTime)
            (elapsedSeconds_mono hle)
          have hwindow : WindowIncreases runtimeSeconds t
              ↔ ∀ x ∈ lastOf c s.recorded,
                csvSecond x < llround (elapsedSeconds s.startTime s.clock) := by
            rw [WindowIncreases, hrecorded, hc]
            exact pairwise_lastOf_concat (hbefore c) (rows.stamped s.startTime s.clock)
          rw [hwindow, imp_iff_right rfl, hc]
          by_cases hempty : s.recorded = []
          · rw [hempty, List.length_nil] at hlen
            rw [hempty, lastOf_of_le (Nat.zero_le _), kTicksPerRecord]
            refine iff_of_true (List.forall_mem_nil _) (Or.inl ?_)
            rw [kTicksPerRecord] at hlen
            omega
          have hpos := List.length_pos_of_ne_nil hempty
          have htick : ¬ s.tick < kTicksPerRecord := by
            rw [kTicksPerRecord] at hlen ⊢
            omega
          rw [or_iff_right htick]
          cases c with
          | zero =>
              have hnone : lastOf 0 s.recorded = [] := by
                rw [lastOf, Nat.sub_zero, List.drop_length]
              rw [hnone]
              exact iff_of_true (List.forall_mem_nil _) (Or.inl rfl)
          | succ c =>
              rw [or_iff_right (by omega), window_seconds_lt_iff hregular hempty c]
              exact hround
  | _ =>
      simp only [samplingStep, hmain] at hstep
      cases hstep

/-- A step keeps the seconds increasing just when a final record falls into one of its own. -/
theorem windowIncreases_step (h : SamplingInv runtimeSeconds names s)
    (hstep : samplingStep runtimeSeconds names s a = some t) :
    WindowIncreases runtimeSeconds t
      ↔ WindowIncreases runtimeSeconds s ∧ SecondPasses runtimeSeconds s a := by
  have hrecorded := recorded_step hstep
  cases a with
  | takeFinal rows =>
      have hlive : s.main ≠ .finished := by
        intro hf
        simp only [samplingStep, hf] at hstep
        cases hstep
      rw [windowIncreases_final h hstep]
      exact (and_iff_right (windowIncreases_of_live h hlive)).symm
  | sample rows =>
      obtain ⟨⟨hloop, -⟩, hmap⟩ := Option.ite_none_right_eq_some.mp hstep
      obtain ⟨u, hu, rfl⟩ := Option.map_eq_some_iff.mp hmap
      obtain ⟨-, hjoined⟩ := h.live (by simp [hloop]) (by simp [hloop])
      have hlive := MainLoc.ne_finished hjoined
      have hafter : u.main ≠ .finished := by
        rcases take_cases hu with ⟨-, buffer, -, rfl⟩ | ⟨-, rfl⟩
        · exact hlive
        · exact hlive
      exact iff_of_true (windowIncreases_of_live (inv_step h hstep) hafter)
        ⟨windowIncreases_of_live h hlive, trivial⟩
  | _ =>
      have hsame : t.recorded = s.recorded := hrecorded.trans (List.append_nil _)
      rw [WindowIncreases, hsame]
      exact (and_iff_left trivial).symm

/-- What is recorded has a row for each job. -/
theorem recordsNow_names {rows : Rows} (hrows : recordsNow s a = some rows)
    (hstep : samplingStep runtimeSeconds names s a = some t) :
    rows.jobs.map (·.jobName) = names := by
  cases a with
  | sample rows' =>
      obtain ⟨⟨-, hnames⟩, -⟩ := Option.ite_none_right_eq_some.mp hstep
      obtain ⟨-, hsome⟩ := Option.ite_none_right_eq_some.mp hrows
      rwa [← Option.some.inj hsome]
  | takeFinal rows' =>
      obtain ⟨hmain, hsome⟩ := Option.ite_none_right_eq_some.mp hrows
      simp only [samplingStep, hmain] at hstep
      obtain ⟨hnames, -⟩ := Option.ite_none_right_eq_some.mp hstep
      rwa [← Option.some.inj hsome]
  | _ => cases hrows

/-- The clock would wrap before there were more regular samples. -/
theorem length_of_live (h : SamplingInv runtimeSeconds names s)
    (hlive : s.main ≠ .finished) : s.recorded.length < 2 ^ 36 := by
  by_cases hmain : s.main = .constructed
  · rw [(h.fresh hmain).2.2]
    decide
  · have hcount := (h.regular hmain hlive).count_le
    obtain ⟨-, hstart, hprev⟩ := h.range
    have hinterval : kRecordInterval = 1000000000 := by decide
    have hlow := hstart.1
    have hhigh := hprev.2
    rw [hinterval] at hcount
    have hbound : (s.recorded.length : Int) < 2 ^ 36 := by
      by_contra hnot
      rw [not_lt] at hnot
      norm_num at hnot hlow hhigh
      linarith
    exact_mod_cast hbound

/-- What has been recorded: a row for each job every time, and not too often for the
    count of the buffer. -/
theorem recorded_run {clock : Int64} {acts : List SamplingAct}
    (hrun : run (samplingStep runtimeSeconds names) (SamplingRun.init runtimeSeconds clock)
      acts = some t) :
    (∀ x ∈ t.recorded, x.jobs.map (·.jobName) = names) ∧ t.recorded.length ≤ 2 ^ 36 := by
  have hinit : SamplingInv runtimeSeconds names (SamplingRun.init runtimeSeconds clock) :=
    inv_init clock
  refine (run_invariant
    (I := fun s => SamplingInv runtimeSeconds names s
      ∧ (∀ x ∈ s.recorded, x.jobs.map (·.jobName) = names) ∧ s.recorded.length ≤ 2 ^ 36)
    ?_ hrun ⟨hinit, nofun, Nat.zero_le _⟩).2
  rintro s a u ⟨hinv, hnames, hlen⟩ hstep
  have hrecorded := recorded_step hstep
  have hnext := inv_step hinv hstep
  refine ⟨hnext, ?_, ?_⟩
  · intro x hx
    rw [hrecorded] at hx
    rcases List.mem_append.mp hx with hold | hnew
    · exact hnames x hold
    · obtain ⟨rows, hrows, rfl⟩ := Option.map_eq_some_iff.mp (Option.mem_toList.mp hnew)
      exact recordsNow_names hrows hstep
  · by_cases hlive : u.main = .finished
    · by_cases hbefore : s.main = .finished
      · have hnone : recordsNow s a = none := by
          cases a with
          | sample rows =>
              obtain ⟨⟨hloop, -⟩, -⟩ := Option.ite_none_right_eq_some.mp hstep
              rw [hinv.joined (by rw [hbefore]; rfl)] at hloop
              exact nomatch hloop
          | takeFinal rows => exact if_neg (by rw [hbefore]; nofun)
          | _ => rfl
        rw [hrecorded, hnone]
        simpa using hlen
      · have hfew := length_of_live hinv hbefore
        rw [hrecorded, List.length_append]
        have hone : ((recordsNow s a).map
            (fun rows => rows.stamped s.startTime s.clock)).toList.length ≤ 1 := by
          cases (recordsNow s a).map (fun rows => rows.stamped s.startTime s.clock) with
          | none => exact Nat.zero_le 1
          | some x => exact Nat.le_refl 1
        omega
    · exact Nat.le_of_lt (length_of_live hnext hlive)

end Run

/-- **When there is one row per second and job**: at every moment of a run, the exported
    seconds increase and the keys are unique just when the final snapshot, if it was
    recorded, fell into a second of its own. -/
theorem one_row_per_second_iff {runtimeSeconds : Int32} {names : List String}
    (hnames : names.Nodup) {clock : Int64} {acts : List SamplingAct} {t : SamplingRun}
    (hrun : run (samplingStep runtimeSeconds names) (SamplingRun.init runtimeSeconds clock)
      acts = some t) :
    ∃ series, timeSeries t.buffer = some series
      ∧ (OneRowPerSecond series ↔
          Meets (samplingStep runtimeSeconds names) (SecondPasses runtimeSeconds)
            (SamplingRun.init runtimeSeconds clock) acts) := by
  have hinv := inv_run hrun
  obtain ⟨hjobs, hfew⟩ := recorded_run hrun
  have hseries := hinv.holds.read_window (by
    have hsmall := hinv.holds.small
    rw [Nat.mod_eq_of_lt (by omega)]
    omega)
  rw [hinv.capacity] at hseries
  refine ⟨_, hseries, ?_⟩
  have hmeets := run_iff_meets (Q := WindowIncreases runtimeSeconds)
    (fun _ _ _ h hstep => inv_step h hstep)
    (fun _ _ _ h hstep => windowIncreases_step h hstep) hrun (inv_init clock)
  rw [oneRowPerSecond_iff hnames (fun x hx => hjobs x ((lastOf_sublist _ _).mem hx))]
  have hinit : SamplingInv runtimeSeconds names (SamplingRun.init runtimeSeconds clock) :=
    inv_init clock
  exact hmeets.trans (and_iff_right (windowIncreases_of_live hinit
    (show MainLoc.constructed ≠ .finished by decide)))

/-- A run of two seconds, with the tick that records at `second`. -/
def twoSeconds (second : Int64) : List SamplingAct :=
  [.start, .setDeadline] ++ tickAt 500000000 ++ tickAt second
    ++ endAt 2000000000 2000000000

theorem one_row_per_second_iff_steady :
    ∃ t series, run (samplingStep 2 ["job"]) (SamplingRun.init 2 0)
          (twoSeconds 1000000000) = some t
      ∧ timeSeries t.buffer = some series
      ∧ (OneRowPerSecond series ↔
          Meets (samplingStep 2 ["job"]) (SecondPasses 2) (SamplingRun.init 2 0)
            (twoSeconds 1000000000)) := by
  have hrun : (run (samplingStep 2 ["job"]) (SamplingRun.init 2 0)
      (twoSeconds 1000000000)).isSome = true := by decide +kernel
  obtain ⟨t, ht⟩ := Option.isSome_iff_exists.mp hrun
  obtain ⟨series, hseries, hiff⟩ := one_row_per_second_iff (List.nodup_singleton "job") ht
  exact ⟨t, series, ht, hseries, hiff⟩

/-- The second tick comes half a second late, and the final snapshot rounds to the same
    second. -/
theorem second_exported_twice :
    ∃ t series, run (samplingStep 2 ["job"]) (SamplingRun.init 2 0)
          (twoSeconds 1500000000) = some t
      ∧ timeSeries t.buffer = some series
      ∧ rowKeys series = [["2", "job"], ["2", "job"]] ∧ ¬ OneRowPerSecond series := by
  have hrun : (run (samplingStep 2 ["job"]) (SamplingRun.init 2 0)
      (twoSeconds 1500000000)).bind (fun t => (timeSeries t.buffer).map rowKeys)
        = some [["2", "job"], ["2", "job"]] := by decide +kernel
  obtain ⟨t, ht, hx⟩ := Option.bind_eq_some_iff.mp hrun
  obtain ⟨series, hseries, hkeys⟩ := Option.map_eq_some_iff.mp hx
  refine ⟨t, series, ht, hseries, hkeys, ?_⟩
  rintro ⟨-, hnodup⟩
  rw [hkeys] at hnodup
  exact absurd hnodup (by decide)

end CfioReporting
