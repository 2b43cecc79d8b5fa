import Mathlib.Tactic.Linarith
import Cfio.SnapshotReads
import Cfio.TimeSeries

/-! # The sampling thread over a whole run

    The main thread starts the sampling thread, computes its deadline, clears the
    run flag, waits for the workers, stops the sampling thread and takes a final
    snapshot.  The sampling thread wakes every half second and records every second
    time.  Both are steps of one system with a clock, which may advance between any
    two of them.

    A recorded sample is a whole record interval younger than the one before it
    (`Regular`); the final one may come after half of that. -/

namespace CfioMetrics

open CfioTypes Transition Interference

/-! ## The system -/

/-- Half a second. -/
def kTickInterval : Int := 500000000

def kTicksPerRecord : Nat := 2

/-- Half a record interval, in seconds. -/
def kMinFinalRecordSeconds : ℚ := (kTickInterval * kTicksPerRecord : ℚ) / 1000000000 / 2

/-- What a snapshot says about the workers. -/
structure Rows where
  jobs : List PerJobMetrics
  aggregate : PerJobMetrics
  deriving DecidableEq, Repr

/-- The snapshot with these rows, taken at `now`. -/
def Rows.stamped (rows : Rows) (startTime now : TimePoint) : MetricsSnapshot :=
  { timestamp := now
    elapsedSeconds := elapsedSeconds startTime now
    jobs := rows.jobs
    aggregate := rows.aggregate }

section Stamped

variable {n : Nat} {rely : Memory n → Memory n → Bool} {rank : ℚ → UInt64 → UInt64}
variable {names : Fin n → String} {g g' : Memory n} {s s' : MetricsAggregator n}

/-- `TakeSnapshot` stamps its rows with the time it loaded first. -/
theorem safe_stamped (hrely : Interferes rely)
    (hle : ∀ g g', rely g g' = true → g.Le g') (recordTs : Bool) :
    Safe rely (fun _ _ => True)
      (fun x _ _ => x.snapshot.timestamp = x.now
        ∧ x.snapshot.elapsedSeconds = elapsedSeconds s.startTime x.now)
      (takeSnapshot rank names recordTs) g s := by
  have hkeeps := keeps_true rely
  rw [takeSnapshot]
  refine safe_load_bind.mpr (fun g₁ hg₁ => ⟨trivial, safe_own_bind.mpr (fun g₂ hg₂ =>
    ⟨trivial, ?_⟩)⟩)
  refine safe_bind hrely (safe_mono
    (safe_sampleWorkers hrely hle hkeeps trivial _ _ (List.nodup_finRange n) _) ?_)
  rintro acc g₃ s₃ - ⟨hg₃, -⟩
  have hnow : g₁.clock ≤ g₃.clock := (hle _ _ (hrely.trans _ _ _ hg₂ hg₃)).1
  refine safe_bind hrely (safe_mono
    (safe_recordTime hrely hkeeps trivial hnow hle recordTs) ?_)
  intro _ _ _ _ _ _ _
  exact ⟨trivial, rfl, rfl⟩

/-- **What a run of `TakeSnapshot` leaves of the times**: the same as a step that reads
    the clock, stamps some rows of these jobs and, if it records, keeps the time. -/
theorem takeSnapshot_stamped (hrely : Interferes rely)
    (hle : ∀ g g', rely g g' = true → g.Le g') {recordTs : Bool} {x : Sample n}
    {acts : List (ThreadAct (Memory n) Unit)}
    (hrun : run (threadStep rely progStep) (g, (s, takeSnapshot rank names recordTs)) acts
      = some (g', (s', .done x))) :
    g.clock ≤ x.now ∧ x.now ≤ g'.clock
      ∧ (∃ rows : Rows, rows.jobs.map (·.jobName) = (List.finRange n).map names
          ∧ x.snapshot = rows.stamped s.startTime x.now)
      ∧ s'.startTime = s.startTime
      ∧ s'.prevSampleTime = if recordTs then x.now else s.prevSampleTime := by
  have hsafe : Safe rely (fun _ _ => True) _ (takeSnapshot rank names recordTs) g s :=
    safe_takeSnapshot hrely hle (keeps_true rely) trivial recordTs
  obtain ⟨-, hrec, hsnapshot, hafter⟩ := (run_safe hrely hrun hsafe).result hrely
  obtain ⟨htime, helapsed⟩ :=
    (run_safe hrely hrun (safe_stamped hrely hle recordTs)).result hrely
  refine ⟨hsnapshot.now.1, hsnapshot.now.2,
    ⟨⟨x.snapshot.jobs, x.snapshot.aggregate⟩, ?_, ?_⟩, ?_⟩
  · show x.snapshot.jobs.map _ = _
    rw [hsnapshot.jobs, List.map_map]
    exact List.map_congr_left (fun i _ => (hsnapshot.reading i).jobName)
  · rw [Rows.stamped, ← helapsed, ← htime]
  · rw [hafter, MetricsAggregator.after, hrec]
    cases recordTs with
    | true => exact ⟨rfl, rfl⟩
    | false => exact ⟨rfl, rfl⟩

end Stamped

/-- Where the sampling thread is: at the loop condition, in `wait_for`, behind it, or
    past the second look at the flag. -/
inductive LoopLoc where
  | notStarted
  | atLoop
  | waiting (since : TimePoint)
  | woken
  | sampling
  | exited
  deriving DecidableEq, Repr

/-- Where the main thread is in `RunBenchmark`. -/
inductive MainLoc where
  | constructed
  | started
  | running (deadline : TimePoint)
  | draining
  | joining
  | stopped
  | finalSampling (recordTs : Bool)
  | finished
  deriving DecidableEq, Repr

/-- The sampling thread has been joined. -/
def MainLoc.hasJoined : MainLoc → Bool
  | .stopped => true
  | .finalSampling _ => true
  | .finished => true
  | _ => false

/-- The state of a run.  `recorded` is every sample that was ever handed to
    `RecordTimeSeries`; the code keeps no such list.  Of `tick` only the parity is
    used, which survives the wrap of the code's 64 bits. -/
structure SamplingRun where
  clock : TimePoint
  gRunning : Bool := true
  stopRequested : Bool := false
  startTime : TimePoint := 0
  prevSampleTime : TimePoint := 0
  tick : Nat := 0
  latestSnapshot : MetricsSnapshot := {}
  buffer : TimeSeriesBuffer
  loop : LoopLoc := .notStarted
  main : MainLoc := .constructed
  recorded : List MetricsSnapshot := []
  deriving DecidableEq, Repr

/-- The aggregator is constructed and the flag is set.  The steady clock counts
    nanoseconds in 64 bits. -/
def SamplingRun.init (runtimeSeconds : Int32) (clock : Int64) : SamplingRun :=
  { clock := clock.toInt, buffer := TimeSeriesBuffer.make runtimeSeconds }

/-- What happens next. -/
inductive SamplingAct where
  -- time passes; a signal or a failing worker clears the flag
  | pass (now : Int64)
  | clearFlag
  -- the main thread
  | start
  | setDeadline
  | finishLoop (stopRequested : Bool)
  | requestStop
  | join
  | measureTail
  | takeFinal (rows : Rows)
  -- the sampling thread
  | checkLoop
  | wake
  | checkWoken
  | sample (rows : Rows)

/-- `TakeSnapshot`, and `RecordTimeSeries` if it records. -/
def SamplingRun.take (s : SamplingRun) (recordTs : Bool) (rows : Rows) :
    Option SamplingRun :=
  let snapshot := rows.stamped s.startTime s.clock
  if recordTs then
    (recordTimeSeries s.buffer snapshot).map (fun buffer =>
      { s with
        prevSampleTime := s.clock
        latestSnapshot := snapshot
        buffer := buffer
        recorded := s.recorded ++ [snapshot] })
  else some { s with latestSnapshot := snapshot }

/-- Does this tick record? -/
def SamplingRun.recordTs (s : SamplingRun) : Bool := decide (s.tick % kTicksPerRecord = 0)

section Step

variable (runtimeSeconds : Int32) (names : List String)

/-- One step.  Nobody but the two threads uses what they sample into, and never at the
    same time, so a snapshot and its recording are one step. -/
def samplingStep (s : SamplingRun) : SamplingAct → Option SamplingRun
  | .pass now => if s.clock ≤ now.toInt then some { s with clock := now.toInt } else none
  | .clearFlag => some { s with gRunning := false }
  -- `MetricsAggregator::Start`
  | .start =>
      if s.main = .constructed then
        some
          { s with
            startTime := s.clock
            prevSampleTime := s.clock
            loop := .atLoop
            main := .started }
      else none
  | .setDeadline =>
      if s.main = .started then
        some { s with main := .running (s.clock + runtimeSeconds.toInt * 1000000000) }
      else none
  -- the main loop ends on a stop or at the deadline
  | .finishLoop stop =>
      match s.main with
      | .running deadline =>
          if s.gRunning = false ∨ stop = true ∨ deadline ≤ s.clock then
            some { s with gRunning := false, main := .draining }
          else none
      | _ => none
  -- `MetricsAggregator::Stop`, once the workers are joined
  | .requestStop =>
      if s.main = .draining then
        some { s with stopRequested := true, main := .joining }
      else none
  | .join =>
      if s.main = .joining ∧ s.loop = .exited then some { s with main := .stopped }
      else none
  -- `MetricsAggregator::TakeFinalSnapshot`
  | .measureTail =>
      if s.main = .stopped then
        let tail := elapsedSeconds s.prevSampleTime s.clock
        some { s with main := .finalSampling (decide (kMinFinalRecordSeconds ≤ tail)) }
      else none
  | .takeFinal rows =>
      match s.main with
      | .finalSampling recordTs =>
          if rows.jobs.map (·.jobName) = names then
            (s.take recordTs rows).map (fun t => { t with main := .finished })
          else none
      | _ => none
  -- `MetricsAggregator::Run`
  | .checkLoop =>
      if s.loop = .atLoop then
        some
          { s with
            loop := if s.gRunning = true ∧ s.stopRequested = false then .waiting s.clock
              else .exited }
      else none
  | .wake =>
      match s.loop with
      | .waiting since =>
          if s.stopRequested = true ∨ since + kTickInterval ≤ s.clock then
            some { s with loop := .woken }
          else none
      | _ => none
  | .checkWoken =>
      if s.loop = .woken then
        if s.stopRequested = true ∨ s.gRunning = false then some { s with loop := .exited }
        else some { s with tick := s.tick + 1, loop := .sampling }
      else none
  | .sample rows =>
      if s.loop = .sampling ∧ rows.jobs.map (·.jobName) = names then
        (s.take s.recordTs rows).map (fun t => { t with loop := .atLoop })
      else none

end Step

/-! ## The spacing of the samples -/

/-- One record interval. -/
def kRecordInterval : Int := kTickInterval * kTicksPerRecord

/-- Samples the sampling thread recorded, the last of them at `prev`: the first comes
    at least a record interval after the start, and each other one at least a record
    interval after the one before it. -/
inductive Regular (names : List String) (startTime : TimePoint) :
    TimePoint → List MetricsSnapshot → Prop
  | nil : Regular names startTime startTime []
  | snoc {prev now : TimePoint} {recorded : List MetricsSnapshot} {rows : Rows}
      (h : Regular names startTime prev recorded) (hlater : prev + kRecordInterval ≤ now)
      (hnames : rows.jobs.map (·.jobName) = names) :
      Regular names startTime now (recorded ++ [rows.stamped startTime now])

section Regular

variable {names : List String} {startTime prev : TimePoint}
variable {recorded : List MetricsSnapshot}

/-- Each sample takes its record interval. -/
theorem Regular.count_le (h : Regular names startTime prev recorded) :
    startTime + recorded.length * kRecordInterval ≤ prev := by
  induction h with
  | nil => simp
  | snoc h hlater hnames ih =>
      rw [List.length_append, List.length_singleton, Int.natCast_add, Int.add_mul,
        Int.natCast_one, Int.one_mul]
      linarith

/-- What every regular sample is. -/
theorem Regular.mem (h : Regular names startTime prev recorded) {x : MetricsSnapshot}
    (hx : x ∈ recorded) :
    startTime + kRecordInterval ≤ x.timestamp ∧ x.timestamp ≤ prev
      ∧ x.elapsedSeconds = elapsedSeconds startTime x.timestamp
      ∧ x.jobs.map (·.jobName) = names := by
  induction h with
  | nil => exact nomatch hx
  | @snoc prev now recorded rows h hlater hnames ih =>
      have hcount := h.count_le
      have hpos : 0 ≤ (recorded.length : Int) * kRecordInterval :=
        Int.mul_nonneg (Int.natCast_nonneg _) (by decide)
      have hinterval : 0 < kRecordInterval := by decide
      rcases List.mem_append.mp hx with hold | hnew
      · obtain ⟨hstart, hprev, hrest⟩ := ih hold
        exact ⟨hstart, by linarith, hrest⟩
      · rw [List.mem_singleton.mp hnew]
        refine ⟨?_, Int.le_refl _, rfl, hnames⟩
        show _ ≤ now
        linarith

/-- **Regular samples are at least a record interval apart.** -/
theorem Regular.spaced (h : Regular names startTime prev recorded) :
    recorded.Pairwise (fun x y => x.timestamp + kRecordInterval ≤ y.timestamp) := by
  induction h with
  | nil => exact List.Pairwise.nil
  | snoc h hlater hnames ih =>
      rw [List.pairwise_append]
      refine ⟨ih, List.pairwise_singleton _ _, fun x hx y hy => ?_⟩
      rw [List.mem_singleton.mp hy]
      have hprev := (h.mem hx).2.1
      show _ ≤ _
      exact Int.le_trans (Int.add_le_add_right hprev _) hlater

/-- The last of them was taken at `prev`. -/
theorem Regular.last (h : Regular names startTime prev recorded) (hne : recorded ≠ []) :
    ∃ earlier x, recorded = earlier ++ [x] ∧ x.timestamp = prev := by
  cases h with
  | nil => exact absurd rfl hne
  | snoc h hlater hnames => exact ⟨_, _, rfl, rfl⟩

end Regular

/-! ## What holds at every moment -/

/-- A time point the clock can show. -/
def InRange (t : TimePoint) : Prop := -2 ^ 63 ≤ t ∧ t < 2 ^ 63

theorem inRange_toInt (now : Int64) : InRange now.toInt :=
  ⟨now.le_toInt, now.toInt_lt⟩

/-- The time a tick that did not record has taken. -/
def owed (tick : Nat) : Int := if tick % kTicksPerRecord = 0 then 0 else kTickInterval

/-- How much time has passed since the last record, by where the sampling thread is. -/
def SinceRecord (s : SamplingRun) : Prop :=
  match s.loop with
  | .atLoop => s.prevSampleTime + owed s.tick ≤ s.clock
  | .waiting since => s.prevSampleTime + owed s.tick ≤ since ∧ since ≤ s.clock
  | .woken =>
      s.stopRequested = true
        ∨ s.prevSampleTime + owed s.tick + kTickInterval ≤ s.clock
  | .sampling =>
      0 < s.tick ∧ s.prevSampleTime + owed (s.tick - 1) + kTickInterval ≤ s.clock
  | _ => True

/-- The ticks whose sample is taken. -/
def SamplingRun.ticksTaken (s : SamplingRun) : Nat :=
  if s.loop = .sampling then s.tick - 1 else s.tick

/-- What holds at every moment of a run. -/
structure SamplingInv (runtimeSeconds : Int32) (names : List String) (s : SamplingRun) :
    Prop where
  range : InRange s.clock ∧ InRange s.startTime ∧ InRange s.prevSampleTime
  holds : HoldsSamples s.buffer s.recorded
  capacity : s.buffer.timeSeriesRing.length = capacityOf runtimeSeconds
  fresh : s.main = .constructed → s.loop = .notStarted ∧ s.tick = 0 ∧ s.recorded = []
  joined : s.main.hasJoined = true → s.loop = .exited
  regular : s.main ≠ .constructed → s.main ≠ .finished →
    Regular names s.startTime s.prevSampleTime s.recorded
  ticks : s.main ≠ .finished → s.recorded.length = s.ticksTaken / 2
  since : SinceRecord s
  tail : s.main = .finalSampling true →
    s.prevSampleTime * 2 + kRecordInterval ≤ s.clock * 2

/-! ## Every step keeps it -/

section Invariant

variable {runtimeSeconds : Int32} {names : List String} {s t : SamplingRun}

/-- A snapshot that is recorded, and one that is not. -/
theorem take_cases {recordTs : Bool} {rows : Rows} (h : s.take recordTs rows = some t) :
    (recordTs = true ∧ ∃ buffer,
        recordTimeSeries s.buffer (rows.stamped s.startTime s.clock) = some buffer
          ∧ t = { s with
              prevSampleTime := s.clock
              latestSnapshot := rows.stamped s.startTime s.clock
              buffer := buffer
              recorded := s.recorded ++ [rows.stamped s.startTime s.clock] })
      ∨ (recordTs = false
          ∧ t = { s with latestSnapshot := rows.stamped s.startTime s.clock }) := by
  cases recordTs with
  | true =>
      obtain ⟨buffer, hbuffer, ht⟩ := Option.map_eq_some_iff.mp h
      exact Or.inl ⟨rfl, buffer, hbuffer, ht.symm⟩
  | false => exact Or.inr ⟨rfl, (Option.some.inj h).symm⟩

/-- The buffer behind a record. -/
theorem SamplingInv.recorded (h : SamplingInv runtimeSeconds names s)
    {x : MetricsSnapshot} {buffer : TimeSeriesBuffer}
    (hbuffer : recordTimeSeries s.buffer x = some buffer) :
    HoldsSamples buffer (s.recorded ++ [x])
      ∧ buffer.timeSeriesRing.length = capacityOf runtimeSeconds := by
  obtain ⟨buffer', hbuffer', hholds, hlen⟩ := h.holds.record x
  obtain rfl : buffer = buffer' := Option.some.inj (hbuffer.symm.trans hbuffer')
  exact ⟨hholds, hlen.trans h.capacity⟩

/-- A tick that records comes a whole interval after the last record. -/
theorem owed_of_record {tick : Nat} (hpos : 0 < tick) (hrec : tick % kTicksPerRecord = 0) :
    owed (tick - 1) + kTickInterval = kRecordInterval := by
  rw [kTicksPerRecord] at hrec
  rw [owed, kTicksPerRecord, if_neg (by omega)]
  rfl

/-- One that does not comes a tick after it. -/
theorem owed_of_skip {tick : Nat} (hpos : 0 < tick) (hskip : tick % kTicksPerRecord ≠ 0) :
    owed (tick - 1) = 0 ∧ owed tick = kTickInterval := by
  rw [kTicksPerRecord] at hskip
  rw [owed, owed, kTicksPerRecord, if_pos (by omega), if_neg (by omega)]
  exact ⟨rfl, rfl⟩

/-- A tail that counts is half a record interval long. -/
theorem tail_of_le {begin_ end_ : TimePoint}
    (h : kMinFinalRecordSeconds ≤ elapsedSeconds begin_ end_) :
    begin_ * 2 + kRecordInterval ≤ end_ * 2 := by
  have hmin : kMinFinalRecordSeconds = 1 / 2 := by
    rw [kMinFinalRecordSeconds, kTickInterval, kTicksPerRecord]
    norm_num
  rw [hmin, elapsedSeconds, le_max_iff] at h
  rcases h with h | h
  · have hspan : (500000000 : ℚ) ≤ ((end_ - begin_ : Int) : ℚ) := by linarith
    have hint : (500000000 : Int) ≤ end_ - begin_ := by exact_mod_cast hspan
    show _ + (1000000000 : Int) ≤ _
    linarith
  · rw [kMinElapsed] at h
    norm_num at h

/-- The sampling thread is not in the middle of a snapshot. -/
theorem ticksTaken_of_ne (h : s.loop ≠ .sampling) : s.ticksTaken = s.tick := if_neg h

theorem inRange_zero : InRange 0 := ⟨by decide, by decide⟩

theorem inv_init (clock : Int64) :
    SamplingInv runtimeSeconds names (SamplingRun.init runtimeSeconds clock) where
  range := ⟨inRange_toInt clock, inRange_zero, inRange_zero⟩
  holds := holdsSamples_make runtimeSeconds
  capacity := List.length_replicate
  fresh := fun _ => ⟨rfl, rfl, rfl⟩
  joined := nofun
  regular := fun h => absurd rfl h
  ticks := fun _ => by
    rw [ticksTaken_of_ne (show LoopLoc.notStarted ≠ .sampling by decide)]
    show ([] : List MetricsSnapshot).length = 0 / 2
    rfl
  since := trivial
  tail := nofun

/-- Time may pass anywhere. -/
theorem SinceRecord.pass {now : TimePoint} (h : SinceRecord s) (hle : s.clock ≤ now) :
    SinceRecord { s with clock := now } := by
  rw [SinceRecord] at h ⊢
  cases hloop : s.loop with
  | notStarted => trivial
  | atLoop =>
      rw [hloop] at h
      exact Int.le_trans h hle
  | waiting since =>
      rw [hloop] at h
      exact ⟨h.1, Int.le_trans h.2 hle⟩
  | woken =>
      rw [hloop] at h
      exact h.imp id (fun hdue => Int.le_trans hdue hle)
  | sampling =>
      rw [hloop] at h
      exact ⟨h.1, Int.le_trans h.2 hle⟩
  | exited => trivial

/-- Who is asked to stop may wake at any time. -/
theorem SinceRecord.requestStop {main : MainLoc} (h : SinceRecord s) :
    SinceRecord { s with stopRequested := true, main := main } := by
  rw [SinceRecord] at h ⊢
  cases hloop : s.loop with
  | woken => exact Or.inl rfl
  | _ =>
      rw [hloop] at h
      exact h

/-- While the sampling thread runs, the main thread has started it and not yet joined
    it. -/
theorem SamplingInv.live (h : SamplingInv runtimeSeconds names s)
    (hstarted : s.loop ≠ .notStarted) (hexited : s.loop ≠ .exited) :
    s.main ≠ .constructed ∧ s.main.hasJoined ≠ true :=
  ⟨fun hc => hstarted (h.fresh hc).1, fun hj => hexited (h.joined hj)⟩

theorem MainLoc.ne_finished {main : MainLoc} (h : main.hasJoined ≠ true) :
    main ≠ .finished := by
  rintro rfl
  exact h rfl

/-- The main thread goes on, and nothing else changes. -/
theorem SamplingInv.moveMain (h : SamplingInv runtimeSeconds names s) {main : MainLoc}
    (hfrom : s.main ≠ .constructed ∧ s.main ≠ .finished) (hto : main ≠ .constructed)
    (hjoined : main.hasJoined = true → s.loop = .exited)
    (htail : main = .finalSampling true →
      s.prevSampleTime * 2 + kRecordInterval ≤ s.clock * 2) :
    SamplingInv runtimeSeconds names { s with main := main } :=
  { h with fresh := fun hc => absurd hc hto
           joined := hjoined
           regular := fun _ _ => h.regular hfrom.1 hfrom.2
           ticks := fun _ => h.ticks hfrom.2
           tail := htail }

/-- The sampling thread goes on without a snapshot, and nothing else changes. -/
theorem SamplingInv.moveLoop (h : SamplingInv runtimeSeconds names s) {here loop : LoopLoc}
    (hloop : s.loop = here)
    (hhere : here ≠ .notStarted ∧ here ≠ .exited ∧ here ≠ .sampling)
    (hto : loop ≠ .sampling) (hsince : SinceRecord { s with loop := loop }) :
    SamplingInv runtimeSeconds names { s with loop := loop } := by
  subst hloop
  obtain ⟨hmain, hjoined⟩ := h.live hhere.1 hhere.2.1
  have hticks := h.ticks
  rw [ticksTaken_of_ne hhere.2.2] at hticks
  refine { h with fresh := fun hc => absurd hc hmain
                  joined := fun hj => absurd hj hjoined
                  ticks := fun hlive => ?_
                  since := hsince }
  rw [ticksTaken_of_ne (s := { s with loop := loop }) hto]
  exact hticks hlive

/-- The sampling thread is started: nothing has been sampled. -/
theorem inv_start (h : SamplingInv runtimeSeconds names s)
    (hstep : samplingStep runtimeSeconds names s .start = some t) :
    SamplingInv runtimeSeconds names t := by
  obtain ⟨hmain, ht⟩ := Option.ite_none_right_eq_some.mp hstep
  obtain ⟨-, htick, hrecorded⟩ := h.fresh hmain
  rw [← Option.some.inj ht]
  refine { h with range := ⟨h.range.1, h.range.1, h.range.1⟩
                  fresh := nofun
                  joined := nofun
                  regular := fun _ _ => ?_
                  ticks := fun _ => ?_
                  since := ?_
                  tail := nofun }
  · show Regular names s.clock s.clock s.recorded
    rw [hrecorded]
    exact Regular.nil
  · show s.recorded.length = s.tick / 2
    rw [hrecorded, htick]
    rfl
  · show s.clock + owed s.tick ≤ s.clock
    rw [htick]
    exact Int.le_of_eq (Int.add_zero _)

/-- A snapshot of the sampling thread. -/
theorem inv_sample {rows : Rows} (h : SamplingInv runtimeSeconds names s)
    (hstep : samplingStep runtimeSeconds names s (.sample rows) = some t) :
    SamplingInv runtimeSeconds names t := by
  obtain ⟨⟨hloop, hnames⟩, hmap⟩ := Option.ite_none_right_eq_some.mp hstep
  obtain ⟨u, hu, rfl⟩ := Option.map_eq_some_iff.mp hmap
  have hsince := h.since
  rw [SinceRecord, hloop] at hsince
  obtain ⟨hpos, hdue⟩ := hsince
  obtain ⟨hmain, hjoined⟩ := h.live (by rw [hloop]; nofun) (by rw [hloop]; nofun)
  have hlive := MainLoc.ne_finished hjoined
  have hticks := h.ticks hlive
  rw [SamplingRun.ticksTaken, if_pos hloop] at hticks
  rcases take_cases hu with ⟨hrec, buffer, hbuffer, rfl⟩ | ⟨hrec, rfl⟩
  · obtain ⟨hholds, hcap⟩ := h.recorded hbuffer
    have heven : s.tick % kTicksPerRecord = 0 := of_decide_eq_true hrec
    have hinterval := owed_of_record hpos heven
    have howed : owed s.tick = 0 := if_pos heven
    refine ⟨⟨h.range.1, h.range.2.1, h.range.1⟩, hholds, hcap, fun hc => absurd hc hmain,
      fun hj => absurd hj hjoined, fun _ _ => ?_, fun _ => ?_, ?_, fun htail => ?_⟩
    · exact (h.regular hmain hlive).snoc (by linarith) hnames
    · rw [kTicksPerRecord] at heven
      show (s.recorded ++ [_]).length = s.tick / 2
      rw [List.length_append, List.length_singleton, hticks]
      omega
    · show s.clock + owed s.tick ≤ s.clock
      rw [howed]
      exact Int.le_of_eq (Int.add_zero _)
    · rw [show s.main = .finalSampling true from htail] at hjoined
      exact absurd rfl hjoined
  · have hodd : s.tick % kTicksPerRecord ≠ 0 := of_decide_eq_false hrec
    obtain ⟨hnone, howed⟩ := owed_of_skip hpos hodd
    refine { h with joined := fun hj => absurd hj hjoined
                    fresh := fun hc => absurd hc hmain
                    ticks := fun _ => ?_
                    since := ?_ }
    · rw [kTicksPerRecord] at hodd
      show s.recorded.length = s.tick / 2
      rw [hticks]
      omega
    · show s.prevSampleTime + owed s.tick ≤ s.clock
      rw [howed]
      linarith

/-- The final snapshot. -/
theorem inv_takeFinal {rows : Rows} (h : SamplingInv runtimeSeconds names s)
    (hstep : samplingStep runtimeSeconds names s (.takeFinal rows) = some t) :
    SamplingInv runtimeSeconds names t := by
  cases hmain : s.main with
  | finalSampling recordTs =>
      simp only [samplingStep, hmain] at hstep
      obtain ⟨hnames, hmap⟩ := Option.ite_none_right_eq_some.mp hstep
      obtain ⟨u, hu, rfl⟩ := Option.map_eq_some_iff.mp hmap
      have hexited : s.loop = .exited := h.joined (by rw [hmain]; rfl)
      rcases take_cases hu with ⟨hrec, buffer, hbuffer, rfl⟩ | ⟨hrec, rfl⟩
      · obtain ⟨hholds, hcap⟩ := h.recorded hbuffer
        refine ⟨⟨h.range.1, h.range.2.1, h.range.1⟩, hholds, hcap, nofun,
          fun _ => hexited, fun _ hf => absurd rfl hf, fun hf => absurd rfl hf, ?_, nofun⟩
        show SinceRecord _
        rw [SinceRecord, show SamplingRun.loop _ = s.loop from rfl, hexited]
        trivial
      · exact { h with fresh := nofun
                       joined := fun _ => hexited
                       regular := fun _ hf => absurd rfl hf
                       ticks := fun hf => absurd rfl hf
                       tail := nofun }
  | _ =>
      simp only [samplingStep, hmain] at hstep
      exact nomatch hstep

/-- **Every step keeps the invariant.** -/
theorem inv_step {a : SamplingAct} (h : SamplingInv runtimeSeconds names s)
    (hstep : samplingStep runtimeSeconds names s a = some t) :
    SamplingInv runtimeSeconds names t := by
  cases a with
  | pass now =>
      obtain ⟨hle, ht⟩ := Option.ite_none_right_eq_some.mp hstep
      rw [← Option.some.inj ht]
      refine { h with range := ⟨inRange_toInt now, h.range.2⟩
                      since := h.since.pass hle
                      tail := fun htail => ?_ }
      have := h.tail htail
      show s.prevSampleTime * 2 + kRecordInterval ≤ now.toInt * 2
      linarith
  | clearFlag =>
      rw [← Option.some.inj hstep]
      exact { h with }
  | start => exact inv_start h hstep
  | setDeadline =>
      obtain ⟨hmain, ht⟩ := Option.ite_none_right_eq_some.mp hstep
      rw [← Option.some.inj ht]
      exact h.moveMain (by rw [hmain]; exact ⟨nofun, nofun⟩) nofun nofun nofun
  | finishLoop stop =>
      cases hmain : s.main with
      | running deadline =>
          simp only [samplingStep, hmain] at hstep
          obtain ⟨-, ht⟩ := Option.ite_none_right_eq_some.mp hstep
          have hnext : SamplingInv runtimeSeconds names { s with main := .draining } :=
            h.moveMain (by rw [hmain]; exact ⟨nofun, nofun⟩) nofun nofun nofun
          rw [← Option.some.inj ht]
          exact { hnext with }
      | _ =>
          simp only [samplingStep, hmain] at hstep
          exact nomatch hstep
  | requestStop =>
      obtain ⟨hmain, ht⟩ := Option.ite_none_right_eq_some.mp hstep
      have hnext : SamplingInv runtimeSeconds names { s with main := .joining } :=
        h.moveMain (by rw [hmain]; exact ⟨nofun, nofun⟩) nofun nofun nofun
      rw [← Option.some.inj ht]
      exact { hnext with since := h.since.requestStop }
  | join =>
      obtain ⟨⟨hmain, hexited⟩, ht⟩ := Option.ite_none_right_eq_some.mp hstep
      rw [← Option.some.inj ht]
      exact h.moveMain (by rw [hmain]; exact ⟨nofun, nofun⟩) nofun (fun _ => hexited) nofun
  | measureTail =>
      obtain ⟨hmain, ht⟩ := Option.ite_none_right_eq_some.mp hstep
      have hexited : s.loop = .exited := h.joined (by rw [hmain]; rfl)
      rw [← Option.some.inj ht]
      exact h.moveMain (by rw [hmain]; exact ⟨nofun, nofun⟩) nofun (fun _ => hexited)
        (fun htail => tail_of_le (of_decide_eq_true (MainLoc.finalSampling.inj htail)))
  | takeFinal rows => exact inv_takeFinal h hstep
  | checkLoop =>
      obtain ⟨hloop, ht⟩ := Option.ite_none_right_eq_some.mp hstep
      have hsince := h.since
      rw [SinceRecord, hloop] at hsince
      rw [← Option.some.inj ht]
      by_cases hgo : s.gRunning = true ∧ s.stopRequested = false
      · rw [if_pos hgo]
        exact h.moveLoop hloop ⟨nofun, nofun, nofun⟩ nofun ⟨hsince, Int.le_refl _⟩
      · rw [if_neg hgo]
        exact h.moveLoop hloop ⟨nofun, nofun, nofun⟩ nofun trivial
  | wake =>
      cases hloop : s.loop with
      | waiting since =>
          simp only [samplingStep, hloop] at hstep
          obtain ⟨hwake, ht⟩ := Option.ite_none_right_eq_some.mp hstep
          have hsince := h.since
          rw [SinceRecord, hloop] at hsince
          rw [← Option.some.inj ht]
          refine h.moveLoop hloop ⟨nofun, nofun, nofun⟩ nofun (hwake.imp id (fun hdue => ?_))
          show s.prevSampleTime + owed s.tick + kTickInterval ≤ s.clock
          linarith [hsince.1]
      | _ =>
          simp only [samplingStep, hloop] at hstep
          exact nomatch hstep
  | checkWoken =>
      obtain ⟨hloop, ht⟩ := Option.ite_none_right_eq_some.mp hstep
      have hsince := h.since
      rw [SinceRecord, hloop] at hsince
      by_cases hend : s.stopRequested = true ∨ s.gRunning = false
      · rw [if_pos hend] at ht
        rw [← Option.some.inj ht]
        exact h.moveLoop hloop ⟨nofun, nofun, nofun⟩ nofun trivial
      · rw [if_neg hend] at ht
        rw [← Option.some.inj ht]
        rw [not_or] at hend
        obtain ⟨hmain, hjoined⟩ := h.live (by rw [hloop]; nofun) (by rw [hloop]; nofun)
        have hticks := h.ticks
        rw [ticksTaken_of_ne (by rw [hloop]; nofun)] at hticks
        exact { h with fresh := fun hc => absurd hc hmain
                       joined := fun hj => absurd hj hjoined
                       ticks := hticks
                       since := ⟨Nat.succ_pos _, hsince.resolve_left hend.1⟩ }
  | sample rows => exact inv_sample h hstep

/-- **What holds at every moment of every run.** -/
theorem inv_run {clock : Int64} {acts : List SamplingAct}
    (hrun : run (samplingStep runtimeSeconds names) (SamplingRun.init runtimeSeconds clock)
      acts = some t) : SamplingInv runtimeSeconds names t :=
  run_invariant (fun _ _ _ h hstep => inv_step h hstep) hrun (inv_init clock)

end Invariant

/-! ## Does the buffer hold every sample? -/

/-- The rows that this step records, if it records any. -/
def recordsNow (s : SamplingRun) : SamplingAct → Option Rows
  | .sample rows => if s.recordTs = true then some rows else none
  | .takeFinal rows => if s.main = .finalSampling true then some rows else none
  | _ => none

/-- A step that records comes while the ticks of the sampling thread, and the final
    snapshot, are no more than the buffer was made for: of its ticks one in two
    records, and the final snapshot records if its tail is long enough. -/
def WithinCapacity (runtimeSeconds : Int32) (s : SamplingRun) : SamplingAct → Prop
  | .sample _ =>
      s.recordTs = true → s.tick < kTicksPerRecord * (capacityOf runtimeSeconds + 1)
  | .takeFinal _ =>
      s.main = .finalSampling true → s.tick < kTicksPerRecord * capacityOf runtimeSeconds
  | _ => True

section Capacity

variable {runtimeSeconds : Int32} {names : List String} {s t : SamplingRun}
variable {a : SamplingAct}

theorem take_recorded {recordTs : Bool} {rows : Rows} (h : s.take recordTs rows = some t) :
    t.recorded = s.recorded
      ++ if recordTs = true then [rows.stamped s.startTime s.clock] else [] := by
  rcases take_cases h with ⟨rfl, buffer, -, rfl⟩ | ⟨rfl, rfl⟩
  · rfl
  · exact (List.append_nil _).symm

/-- **What a step records.** -/
theorem recorded_step (hstep : samplingStep runtimeSeconds names s a = some t) :
    t.recorded = s.recorded
      ++ ((recordsNow s a).map (fun rows => rows.stamped s.startTime s.clock)).toList := by
  cases a with
  | sample rows =>
      obtain ⟨-, hmap⟩ := Option.ite_none_right_eq_some.mp hstep
      obtain ⟨u, hu, rfl⟩ := Option.map_eq_some_iff.mp hmap
      show u.recorded = _
      rw [take_recorded hu, recordsNow]
      by_cases hrec : s.recordTs = true
      · rw [if_pos hrec, if_pos hrec]
        rfl
      · rw [if_neg hrec, if_neg hrec]
        rfl
  | takeFinal rows =>
      cases hmain : s.main with
      | finalSampling recordTs =>
          simp only [samplingStep, hmain] at hstep
          obtain ⟨-, hmap⟩ := Option.ite_none_right_eq_some.mp hstep
          obtain ⟨u, hu, rfl⟩ := Option.map_eq_some_iff.mp hmap
          show u.recorded = _
          rw [take_recorded hu, recordsNow, hmain]
          cases recordTs <;> rfl
      | _ =>
          simp only [samplingStep, hmain] at hstep
          exact nomatch hstep
  | wake =>
      cases hloop : s.loop with
      | waiting since =>
          simp only [samplingStep, hloop] at hstep
          obtain ⟨-, ht⟩ := Option.ite_none_right_eq_some.mp hstep
          rw [← Option.some.inj ht]
          exact (List.append_nil _).symm
      | _ =>
          simp only [samplingStep, hloop] at hstep
          exact nomatch hstep
  | finishLoop stop =>
      cases hmain : s.main with
      | running deadline =>
          simp only [samplingStep, hmain] at hstep
          obtain ⟨-, ht⟩ := Option.ite_none_right_eq_some.mp hstep
          rw [← Option.some.inj ht]
          exact (List.append_nil _).symm
      | _ =>
          simp only [samplingStep, hmain] at hstep
          exact nomatch hstep
  | checkWoken =>
      obtain ⟨-, ht⟩ := Option.ite_none_right_eq_some.mp hstep
      by_cases hend : s.stopRequested = true ∨ s.gRunning = false
      · rw [if_pos hend] at ht
        rw [← Option.some.inj ht]
        exact (List.append_nil _).symm
      · rw [if_neg hend] at ht
        rw [← Option.some.inj ht]
        exact (List.append_nil _).symm
  | clearFlag =>
      rw [← Option.some.inj hstep]
      exact (List.append_nil _).symm
  | _ =>
      obtain ⟨-, ht⟩ := Option.ite_none_right_eq_some.mp hstep
      rw [← Option.some.inj ht]
      exact (List.append_nil _).symm

/-- Every second tick has recorded. -/
theorem SamplingInv.length_of_sample (h : SamplingInv runtimeSeconds names s)
    (hloop : s.loop = .sampling) (hrec : s.recordTs = true) :
    s.tick = kTicksPerRecord * (s.recorded.length + 1) := by
  obtain ⟨-, hjoined⟩ := h.live (by rw [hloop]; nofun) (by rw [hloop]; nofun)
  have hlive := MainLoc.ne_finished hjoined
  have hticks := h.ticks hlive
  have hsince := h.since
  rw [SamplingRun.ticksTaken, if_pos hloop] at hticks
  rw [SinceRecord, hloop] at hsince
  have heven : s.tick % kTicksPerRecord = 0 := of_decide_eq_true hrec
  have hpos := hsince.1
  rw [kTicksPerRecord] at heven ⊢
  omega

/-- So it has when the final snapshot is due. -/
theorem SamplingInv.length_of_final (h : SamplingInv runtimeSeconds names s)
    {recordTs : Bool} (hmain : s.main = .finalSampling recordTs) :
    s.recorded.length = s.tick / kTicksPerRecord := by
  have hexited : s.loop = .exited := h.joined (by rw [hmain]; rfl)
  have hticks := h.ticks (by rw [hmain]; nofun)
  rwa [ticksTaken_of_ne (by rw [hexited]; nofun)] at hticks

/-- What a step does to the number of samples. -/
theorem length_step (h : SamplingInv runtimeSeconds names s)
    (hstep : samplingStep runtimeSeconds names s a = some t) :
    t.recorded.length ≤ capacityOf runtimeSeconds
      ↔ s.recorded.length ≤ capacityOf runtimeSeconds
        ∧ WithinCapacity runtimeSeconds s a := by
  have hrecorded := congrArg List.length (recorded_step hstep)
  rw [List.length_append] at hrecorded
  cases a with
  | sample rows =>
      obtain ⟨⟨hloop, -⟩, -⟩ := Option.ite_none_right_eq_some.mp hstep
      rw [WithinCapacity]
      by_cases hrec : s.recordTs = true
      · have htick := h.length_of_sample hloop hrec
        rw [recordsNow, if_pos hrec] at hrecorded
        change t.recorded.length = s.recorded.length + 1 at hrecorded
        rw [htick, kTicksPerRecord, imp_iff_right hrec]
        omega
      · rw [recordsNow, if_neg hrec] at hrecorded
        rw [hrecorded]
        exact (and_iff_left (fun hr => absurd hr hrec)).symm
  | takeFinal rows =>
      rw [WithinCapacity]
      by_cases hmain : s.main = .finalSampling true
      · have hlen := h.length_of_final hmain
        rw [recordsNow, if_pos hmain] at hrecorded
        change t.recorded.length = s.recorded.length + 1 at hrecorded
        rw [kTicksPerRecord] at hlen ⊢
        rw [imp_iff_right hmain]
        omega
      · rw [recordsNow, if_neg hmain] at hrecorded
        rw [hrecorded]
        exact (and_iff_left (fun hr => absurd hr hmain)).symm
  | _ =>
      rw [hrecorded]
      exact (and_iff_left trivial).symm

end Capacity

/-- **When no sample is lost**: at every moment of a run the time series is everything
    recorded so far, just when every recording step was within the capacity.  The
    buffer has no slot for the final sample of a run whose every second was
    recorded. -/
theorem all_recorded_iff {runtimeSeconds : Int32} {names : List String} {clock : Int64}
    {acts : List SamplingAct} {t : SamplingRun}
    (hrun : run (samplingStep runtimeSeconds names) (SamplingRun.init runtimeSeconds clock)
      acts = some t) :
    timeSeries t.buffer = some t.recorded ↔
      Meets (samplingStep runtimeSeconds names) (WithinCapacity runtimeSeconds)
        (SamplingRun.init runtimeSeconds clock) acts := by
  have hinv := inv_run hrun
  have hmeets := run_iff_meets
    (Q := fun s => s.recorded.length ≤ capacityOf runtimeSeconds)
    (fun _ _ _ h hstep => inv_step h hstep) (fun _ _ _ h hstep => length_step h hstep)
    hrun (inv_init clock)
  rw [hinv.holds.read_all_iff, hinv.capacity, hmeets]
  exact and_iff_right (Nat.zero_le _)

/-- Every recording step comes early enough: the last regular record in its own second
    of the capacity, and the final one less than half a second behind it. -/
def Timely (runtimeSeconds : Int32) (s : SamplingRun) : SamplingAct → Prop
  | .sample _ =>
      s.clock < s.startTime + (capacityOf runtimeSeconds + 1 : Nat) * kRecordInterval
  | .takeFinal _ =>
      s.clock * 2
        < s.startTime * 2 + (2 * capacityOf runtimeSeconds + 1 : Nat) * kRecordInterval
  | _ => True

theorem within_of_timely {runtimeSeconds : Int32} {names : List String}
    {s t : SamplingRun} {a : SamplingAct} (h : SamplingInv runtimeSeconds names s)
    (hstep : samplingStep runtimeSeconds names s a = some t)
    (htimely : Timely runtimeSeconds s a) : WithinCapacity runtimeSeconds s a := by
  have hinterval : kRecordInterval = 1000000000 := by decide
  cases a with
  | sample rows =>
      intro hrec
      obtain ⟨⟨hloop, -⟩, -⟩ := Option.ite_none_right_eq_some.mp hstep
      have htick := h.length_of_sample hloop hrec
      obtain ⟨hmain, hjoined⟩ := h.live (by rw [hloop]; nofun) (by rw [hloop]; nofun)
      have hlive := MainLoc.ne_finished hjoined
      have hcount := (h.regular hmain hlive).count_le
      have hsince := h.since
      rw [SinceRecord, hloop] at hsince
      have heven : s.tick % kTicksPerRecord = 0 := of_decide_eq_true hrec
      have howed := owed_of_record hsince.1 heven
      have hdue := hsince.2
      change s.clock < _ at htimely
      rw [hinterval] at htimely hcount howed
      have hlt : (s.recorded.length : Int) < capacityOf runtimeSeconds := by
        push_cast at htimely
        by_contra hnot
        rw [not_lt] at hnot
        linarith
      rw [htick, kTicksPerRecord]
      omega
  | takeFinal rows =>
      intro hmain
      have hlen := h.length_of_final hmain
      have hcount := (h.regular (by rw [hmain]; nofun) (by rw [hmain]; nofun)).count_le
      have htail := h.tail hmain
      change s.clock * 2 < _ at htimely
      rw [hinterval] at htimely hcount htail
      have hlt : (s.recorded.length : Int) < capacityOf runtimeSeconds := by
        push_cast at htimely
        by_contra hnot
        rw [not_lt] at hnot
        linarith
      rw [kTicksPerRecord] at hlen ⊢
      omega
  | _ => trivial

/-- **A run that is over in time keeps every sample**, whatever its ticks: with the
    final snapshot less than half a second behind the last second there is a slot for
    everything. -/
theorem all_recorded_of_timely {runtimeSeconds : Int32} {names : List String}
    {clock : Int64} {acts : List SamplingAct} {t : SamplingRun}
    (hrun : run (samplingStep runtimeSeconds names) (SamplingRun.init runtimeSeconds clock)
      acts = some t)
    (htimely : Meets (samplingStep runtimeSeconds names) (Timely runtimeSeconds)
      (SamplingRun.init runtimeSeconds clock) acts) :
    timeSeries t.buffer = some t.recorded := by
  have hinit : SamplingInv runtimeSeconds names (SamplingRun.init runtimeSeconds clock) :=
    inv_init clock
  have hfits : SamplingInv runtimeSeconds names t
      ∧ t.recorded.length ≤ capacityOf runtimeSeconds := by
    refine run_invariant_of_meets
      (I := fun s => SamplingInv runtimeSeconds names s
        ∧ s.recorded.length ≤ capacityOf runtimeSeconds) ?_ hrun htimely
      ⟨hinit, Nat.zero_le _⟩
    rintro s a u ⟨hinv, hle⟩ hP hstep
    exact ⟨inv_step hinv hstep, (length_step hinv hstep).mpr
      ⟨hle, within_of_timely hinv hstep hP⟩⟩
  rw [hfits.1.holds.read_all_iff, hfits.1.capacity]
  exact hfits.2

/-- The rows of one job, at rest. -/
def jobRows : Rows := { jobs := [{ jobName := "job" }], aggregate := { jobName := "TOTAL" } }

/-- The sampling thread wakes, finds the flag set and takes a snapshot. -/
def tickAt (now : Int64) : List SamplingAct :=
  [.checkLoop, .pass now, .wake, .checkWoken, .sample jobRows]

/-- The flag is cleared at `cleared`; the workers are joined at `drained`. -/
def endAt (cleared drained : Int64) : List SamplingAct :=
  [.checkLoop, .pass cleared, .finishLoop false, .pass drained, .requestStop, .wake,
    .checkWoken, .join, .measureTail, .takeFinal jobRows]

/-- A run of one second, sampled on time. -/
def oneSecond (drained : Int64) : List SamplingAct :=
  [.start, .setDeadline] ++ tickAt 500000000 ++ tickAt 1000000000
    ++ endAt 1000000000 drained

/-- The workers of a run of one second are joined within half a second: its one sample
    is kept. -/
theorem all_recorded_iff_oneSecond :
    ∃ t, run (samplingStep 1 ["job"]) (SamplingRun.init 1 0) (oneSecond 1400000000) = some t
      ∧ (timeSeries t.buffer = some t.recorded ↔
          Meets (samplingStep 1 ["job"]) (WithinCapacity 1) (SamplingRun.init 1 0)
            (oneSecond 1400000000)) := by
  have hrun : (run (samplingStep 1 ["job"]) (SamplingRun.init 1 0)
      (oneSecond 1400000000)).isSome = true := by decide +kernel
  obtain ⟨t, ht⟩ := Option.isSome_iff_exists.mp hrun
  exact ⟨t, ht, all_recorded_iff ht⟩

/-- They take half a second longer than the deadline: the sample of the first second is
    lost. -/
theorem first_second_lost :
    ∃ t, run (samplingStep 1 ["job"]) (SamplingRun.init 1 0) (oneSecond 1500000000) = some t
      ∧ t.recorded.length = 2 ∧ timeSeries t.buffer ≠ some t.recorded := by
  have hrun : (run (samplingStep 1 ["job"]) (SamplingRun.init 1 0)
      (oneSecond 1500000000)).map (fun t =>
        (t.recorded.length, decide (timeSeries t.buffer = some t.recorded)))
          = some (2, false) := by decide +kernel
  obtain ⟨t, ht, hx⟩ := Option.map_eq_some_iff.mp hrun
  obtain ⟨hlen, hlost⟩ := Prod.mk.inj hx
  exact ⟨t, ht, hlen, of_decide_eq_false hlost⟩

end CfioMetrics
