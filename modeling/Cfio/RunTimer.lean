import Cfio.RunTeardown

/-! # The timer of a run

    `RunBenchmark` tells by the clock when the run is over and when the display is due.  It
    waits in `SleepSliced`, a slice at a time, and looks at the run flag and at the display
    before each slice.

    `TimedRun` is `BenchmarkRun` with the clock: the main thread decides by what it reads,
    time passes between any two steps, and all others do what they do in `benchmarkStep`.
    `timed_refines` says that nothing new can happen to the run by that.

    * `run_on_schedule`: no update comes early, there are at most as many as the run has
      seconds, and what was not interrupted has run to its deadline.
    * `stop_noticed`: from a stop on the main thread falls asleep no more, and leaves the loop
      within three steps of its own. -/

namespace CfioOrchestrator

open CfioTypes CfioWorkerThread Transition

def nanosPerSecond : Int := 1000000000

/-- Longest uninterrupted sleep, bounds stop reaction time. -/
def kSleepSlice : Int := 100000000

/-- Where `SleepSliced` is: about to look at the clock, in `sleep_for`, returned. -/
inductive SleepLoc where
  | looking
  | asleep (wake : Int)
  | returned
  deriving DecidableEq, Repr

section Timed

variable {n : Nat} {σ κ : Fin n → Type}

/-- A run with the clock, and the main thread's variables.  Times are in nanoseconds. -/
structure TimedRun (σ : Fin n → Type) where
  run : BenchmarkRun σ
  now : Int
  /-- the display's, which stays once it is set -/
  stopRequested : Bool := false
  /-- the clock when the deadline was set, once it is -/
  launched : Option Int := none
  /-- the clock when the first tick was set -/
  armed : Int := 0
  nextTick : Int := 0
  sleep : SleepLoc := .looking
  /-- when the display was updated -/
  updates : List Int := []
  interrupted : Bool := false

def TimedRun.init (thread : Fin n → WorkerThread) (engine : ∀ i, σ i) (now : Int) :
    TimedRun σ :=
  { run := BenchmarkRun.init thread engine, now := now }

/-- What happens next: the main thread goes on; somebody else does something, or the main
    thread's call throws; the user asks the display to stop; time passes. -/
inductive TimedAct (κ : Fin n → Type) where
  | main
  | other (a : BenchmarkAct κ)
  | request
  | tick (elapsed : Nat)

def TimedAct.isMain : TimedAct κ → Bool
  | .main => true
  | _ => false

/-- Check whether the run must end now. -/
def TimedRun.shouldStop (s : TimedRun σ) : Bool := !s.run.gRunning || s.stopRequested

section Step

variable (runtimeSeconds : Int32)

/-- The end of the run. -/
def TimedRun.deadline (s : TimedRun σ) : Int :=
  s.launched.getD 0 + runtimeSeconds.toInt * nanosPerSecond

/-- What `SleepSliced` is given. -/
def TimedRun.wakeUp (s : TimedRun σ) : Int := min s.nextTick (s.deadline runtimeSeconds)

/-- The main thread goes on. -/
def TimedRun.proceed (s : TimedRun σ) : Option (TimedRun σ) :=
  match s.run.main with
  | .starting k =>
      if k < n then (s.run.proceed s.stopRequested false).map (fun r => { s with run := r })
      else
        -- the clock is read once for the deadline and once for the tick
        match s.launched with
        | none => some { s with launched := some s.now }
        | some _ =>
            (s.run.proceed s.stopRequested false).map (fun r =>
              { s with run := r, armed := s.now, nextTick := s.now + nanosPerSecond })
  | .atLoop =>
      (s.run.proceed s.stopRequested (s.deadline runtimeSeconds ≤ s.now)).map (fun r =>
        { s with run := r, sleep := .looking })
  | .sleeping =>
      match s.sleep with
      | .looking =>
          if s.now < s.wakeUp runtimeSeconds then
            if s.shouldStop then some { s with sleep := .returned }
            else
              let slice := min kSleepSlice (s.wakeUp runtimeSeconds - s.now)
              some { s with sleep := .asleep (s.now + slice) }
          else some { s with sleep := .returned }
      | .asleep wake => if wake ≤ s.now then some { s with sleep := .looking } else none
      | .returned => (s.run.proceed s.stopRequested false).map (fun r => { s with run := r })
  | .updating =>
      (s.run.proceed s.stopRequested false).map (fun r =>
        { s with
          run := r
          nextTick := s.nextTick + nanosPerSecond
          updates := s.updates ++ [s.now] })
  | .stopping =>
      (s.run.proceed s.stopRequested false).map (fun r =>
        { s with run := r, interrupted := s.shouldStop })
  | _ => (s.run.proceed s.stopRequested false).map (fun r => { s with run := r })

/-- One step. -/
def timedStep (E : ∀ i, Engine (σ i) (κ i)) (s : TimedRun σ) :
    TimedAct κ → Option (TimedRun σ)
  | .main => s.proceed runtimeSeconds
  | .other (.proceed _ _) => none
  | .other a => (benchmarkStep E s.run a).map (fun r => { s with run := r })
  | .request => some { s with stopRequested := true }
  | .tick elapsed => some { s with now := s.now + elapsed }

end Step

/-! ## What a step does -/

variable {runtimeSeconds : Int32} {E : ∀ i, Engine (σ i) (κ i)} {s t : TimedRun σ}

/-- All a step can do, and when. -/
inductive TimedMove (runtimeSeconds : Int32) (E : ∀ i, Engine (σ i) (κ i)) (s : TimedRun σ) :
    TimedAct κ → TimedRun σ → Prop where
  | start {k r} (hmain : s.run.main = .starting k)
      (hrun : s.run.proceed s.stopRequested false = some r) (hr : r.main = .starting (k + 1))
      (hflag : r.gRunning = s.run.gRunning) : TimedMove runtimeSeconds E s .main { s with run := r }
  | launch {k} (hmain : s.run.main = .starting k) (hnone : s.launched = none) :
      TimedMove runtimeSeconds E s .main { s with launched := some s.now }
  | arm {k r at_} (hmain : s.run.main = .starting k) (hsome : s.launched = some at_)
      (hrun : s.run.proceed s.stopRequested false = some r) (hr : r.main = .atLoop)
      (hflag : r.gRunning = s.run.gRunning) :
      TimedMove runtimeSeconds E s .main
        { s with run := r, armed := s.now, nextTick := s.now + nanosPerSecond }
  | enter {r} (hmain : s.run.main = .atLoop) (hgo : s.shouldStop = false)
      (hearly : s.now < s.deadline runtimeSeconds)
      (hrun : s.run.proceed s.stopRequested false = some r) (hr : r.main = .sleeping)
      (hflag : r.gRunning = s.run.gRunning) :
      TimedMove runtimeSeconds E s .main { s with run := r, sleep := .looking }
  | ended {r b sleep} (hmain : s.run.main = .atLoop ∨ s.run.main = .sleeping)
      (hsleep : sleep = .looking ∨ sleep = .returned)
      (hstop : s.shouldStop = true ∨ s.deadline runtimeSeconds ≤ s.now)
      (hrun : s.run.proceed s.stopRequested b = some r) (hr : r.main = .stopping)
      (hflag : r.gRunning = s.run.gRunning) :
      TimedMove runtimeSeconds E s .main { s with run := r, sleep := sleep }
  | doze (hmain : s.run.main = .sleeping) (hsleep : s.sleep = .looking)
      (hgo : s.shouldStop = false) :
      TimedMove runtimeSeconds E s .main
        { s with sleep := .asleep (s.now + min kSleepSlice (s.wakeUp runtimeSeconds - s.now)) }
  | wake {w} (hmain : s.run.main = .sleeping) (hsleep : s.sleep = .asleep w) (hw : w ≤ s.now) :
      TimedMove runtimeSeconds E s .main { s with sleep := .looking }
  | wakened (hmain : s.run.main = .sleeping) (hsleep : s.sleep = .looking)
      (hwhy : s.shouldStop = true ∨ s.wakeUp runtimeSeconds ≤ s.now) :
      TimedMove runtimeSeconds E s .main { s with sleep := .returned }
  | due {r} (hmain : s.run.main = .sleeping) (hsleep : s.sleep = .returned)
      (hgo : s.shouldStop = false) (hrun : s.run.proceed s.stopRequested false = some r)
      (hr : r.main = .updating) (hflag : r.gRunning = s.run.gRunning) :
      TimedMove runtimeSeconds E s .main { s with run := r }
  | update {r} (hmain : s.run.main = .updating)
      (hrun : s.run.proceed s.stopRequested false = some r) (hr : r.main = .atLoop)
      (hflag : r.gRunning = s.run.gRunning) :
      TimedMove runtimeSeconds E s .main
        { s with
          run := r
          nextTick := s.nextTick + nanosPerSecond
          updates := s.updates ++ [s.now] }
  | stop {r} (hmain : s.run.main = .stopping)
      (hrun : s.run.proceed s.stopRequested false = some r) (hr : r.main = .joining 0) :
      TimedMove runtimeSeconds E s .main { s with run := r, interrupted := s.shouldStop }
  | behind {r} (hmain : s.run.main.hasStopped)
      (hrun : s.run.proceed s.stopRequested false = some r)
      (hr : r.main.hasStopped ∨ r.main = .left) :
      TimedMove runtimeSeconds E s .main { s with run := r }
  | other {a r} (hrun : benchmarkStep E s.run a = some r)
      (hmain : r.main = s.run.main ∨ r.main = .left)
      (hstays : a ≠ .throwing → r.main = s.run.main)
      (hflag : s.run.gRunning = false → r.gRunning = false) :
      TimedMove runtimeSeconds E s (.other a) { s with run := r }
  | request : TimedMove runtimeSeconds E s .request { s with stopRequested := true }
  | tick {elapsed} :
      TimedMove runtimeSeconds E s (.tick elapsed) { s with now := s.now + elapsed }

/-! Where the main thread of `BenchmarkRun` goes from each place. -/

section Places

variable {r r' : BenchmarkRun σ} {b c : Bool} {k : Nat}

/-- While there is a worker to start, the main thread starts it. -/
theorem proceed_starting (hmain : r.main = .starting k) (hk : k < n)
    (h : r.proceed b c = some r') : r'.main = .starting (k + 1) ∧ r'.gRunning = r.gRunning := by
  rw [BenchmarkRun.proceed, hmain] at h
  cases (dif_pos hk).symm.trans h
  exact ⟨rfl, rfl⟩

/-- Behind the last start it goes on to the loop. -/
theorem proceed_started (hmain : r.main = .starting k) (hk : ¬ k < n)
    (h : r.proceed b c = some r') : r'.main = .atLoop ∧ r'.gRunning = r.gRunning := by
  rw [BenchmarkRun.proceed, hmain] at h
  cases (dif_neg hk).symm.trans h
  exact ⟨rfl, rfl⟩

/-- At the loop condition it stops, or goes to sleep. -/
theorem proceed_atLoop (hmain : r.main = .atLoop) (h : r.proceed b c = some r') :
    r'.gRunning = r.gRunning
      ∧ if (r.gRunning = false ∨ b = true) ∨ c = true then r'.main = .stopping
        else r'.main = .sleeping := by
  rw [BenchmarkRun.proceed, hmain] at h
  by_cases hstop : (r.gRunning = false ∨ b = true) ∨ c = true
  · cases (if_pos hstop).symm.trans h
    exact ⟨rfl, by rw [if_pos hstop]⟩
  · cases (if_neg hstop).symm.trans h
    exact ⟨rfl, by rw [if_neg hstop]⟩

/-- Behind its sleep it stops, or updates. -/
theorem proceed_sleeping (hmain : r.main = .sleeping) (h : r.proceed b c = some r') :
    r'.gRunning = r.gRunning
      ∧ if r.gRunning = false ∨ b = true then r'.main = .stopping
        else r'.main = .updating := by
  rw [BenchmarkRun.proceed, hmain] at h
  by_cases hstop : r.gRunning = false ∨ b = true
  · cases (if_pos hstop).symm.trans h
    exact ⟨rfl, by rw [if_pos hstop]⟩
  · cases (if_neg hstop).symm.trans h
    exact ⟨rfl, by rw [if_neg hstop]⟩

/-- Behind an update comes the loop condition. -/
theorem proceed_updating (hmain : r.main = .updating) (h : r.proceed b c = some r') :
    r'.main = .atLoop ∧ r'.gRunning = r.gRunning := by
  rw [BenchmarkRun.proceed, hmain] at h
  cases h
  exact ⟨rfl, rfl⟩

/-- Behind the loop come the joins. -/
theorem proceed_stopping (hmain : r.main = .stopping) (h : r.proceed b c = some r') :
    r'.main = .joining 0 := by
  rw [BenchmarkRun.proceed, hmain] at h
  cases h
  rfl

/-- Behind the loop the main thread joins and collects. -/
theorem proceed_behind (E : ∀ i, Engine (σ i) (κ i)) (hmain : r.main.hasStopped)
    (h : r.proceed b c = some r') :
    r'.main.hasStopped ∨ r'.main = .left := by
  have hmove : BenchmarkMove E r (.proceed b c) r' := proceed_move h
  cases hmove with
  | start hat | started hat | stop hat =>
      rw [hat] at hmain
      exact hmain.elim
  | loop hloop => exact absurd hmain (not_hasStopped_of_inLoop hloop)
  | join | joined => exact .inl trivial
  | collect _ hnext => exact hnext.imp_left hasStopped_of_collecting

end Places

/-- The flag is down, or the display was asked for a stop. -/
theorem shouldStop_iff : s.shouldStop = true ↔ s.run.gRunning = false ∨ s.stopRequested = true := by
  rw [TimedRun.shouldStop, Bool.or_eq_true, Bool.not_eq_true']

theorem shouldStop_eq_false (h : ¬ s.shouldStop = true) :
    ¬ (s.run.gRunning = false ∨ s.stopRequested = true) := fun hno => h (shouldStop_iff.mpr hno)

/-- All the main thread can do, by where it is. -/
theorem proceed_timedMove (h : s.proceed runtimeSeconds = some t) :
    TimedMove runtimeSeconds E s .main t := by
  rw [TimedRun.proceed] at h
  split at h
  case h_1 k hmain =>
      by_cases hk : k < n
      · rw [if_pos hk] at h
        obtain ⟨r, hrun, rfl⟩ := Option.map_eq_some_iff.mp h
        obtain ⟨hr, hflag⟩ := proceed_starting hmain hk hrun
        exact .start hmain hrun hr hflag
      · rw [if_neg hk] at h
        split at h
        case h_1 hnone =>
            cases h
            exact .launch hmain hnone
        case h_2 at_ hsome =>
            obtain ⟨r, hrun, rfl⟩ := Option.map_eq_some_iff.mp h
            obtain ⟨hr, hflag⟩ := proceed_started hmain hk hrun
            exact .arm hmain hsome hrun hr hflag
  case h_2 hmain =>
      obtain ⟨r, hrun, rfl⟩ := Option.map_eq_some_iff.mp h
      obtain ⟨hflag, hr⟩ := proceed_atLoop hmain hrun
      by_cases hstop : s.shouldStop = true
      · rw [if_pos (.inl (shouldStop_iff.mp hstop))] at hr
        exact .ended (.inl hmain) (.inl rfl) (.inl hstop) hrun hr hflag
      · by_cases hpast : s.deadline runtimeSeconds ≤ s.now
        · rw [if_pos (.inr (decide_eq_true hpast))] at hr
          exact .ended (.inl hmain) (.inl rfl) (.inr hpast) hrun hr hflag
        · have hgo : ¬ ((s.run.gRunning = false ∨ s.stopRequested = true)
              ∨ decide (s.deadline runtimeSeconds ≤ s.now) = true) := by
            rintro (hno | hno)
            · exact shouldStop_eq_false hstop hno
            · exact hpast (of_decide_eq_true hno)
          rw [if_neg hgo] at hr
          rw [decide_eq_false hpast] at hrun
          exact .enter hmain (Bool.eq_false_of_not_eq_true hstop) (not_le.mp hpast) hrun hr hflag
  case h_3 hmain =>
      split at h
      case h_1 hsleep =>
          by_cases hearly : s.now < s.wakeUp runtimeSeconds
          · rw [if_pos hearly] at h
            by_cases hstop : s.shouldStop = true
            · rw [if_pos hstop] at h
              cases h
              exact .wakened hmain hsleep (.inl hstop)
            · rw [if_neg hstop] at h
              cases h
              exact .doze hmain hsleep (Bool.eq_false_of_not_eq_true hstop)
          · rw [if_neg hearly] at h
            cases h
            exact .wakened hmain hsleep (.inr (not_lt.mp hearly))
      case h_2 w hsleep =>
          obtain ⟨hw, ht⟩ := Option.ite_none_right_eq_some.mp h
          cases ht
          exact .wake hmain hsleep hw
      case h_3 hsleep =>
          obtain ⟨r, hrun, rfl⟩ := Option.map_eq_some_iff.mp h
          obtain ⟨hflag, hr⟩ := proceed_sleeping hmain hrun
          by_cases hstop : s.shouldStop = true
          · rw [if_pos (shouldStop_iff.mp hstop)] at hr
            exact .ended (.inr hmain) (.inr hsleep) (.inl hstop) hrun hr hflag
          · rw [if_neg (shouldStop_eq_false hstop)] at hr
            exact .due hmain hsleep (Bool.eq_false_of_not_eq_true hstop) hrun hr hflag
  case h_4 hmain =>
      obtain ⟨r, hrun, rfl⟩ := Option.map_eq_some_iff.mp h
      obtain ⟨hr, hflag⟩ := proceed_updating hmain hrun
      exact .update hmain hrun hr hflag
  case h_5 hmain =>
      obtain ⟨r, hrun, rfl⟩ := Option.map_eq_some_iff.mp h
      exact .stop hmain hrun (proceed_stopping hmain hrun)
  case h_6 hstarting hloop hsleeping hupdating hstopping =>
      obtain ⟨r, hrun, rfl⟩ := Option.map_eq_some_iff.mp h
      have hbehind : s.run.main.hasStopped := by
        cases hmain : s.run.main with
        | starting k => exact absurd hmain (hstarting k)
        | atLoop => exact absurd hmain hloop
        | sleeping => exact absurd hmain hsleeping
        | updating => exact absurd hmain hupdating
        | stopping => exact absurd hmain hstopping
        | left =>
            rw [BenchmarkRun.proceed, hmain] at hrun
            cases hrun
        | joining | takingFinal | building | summing => trivial
      exact .behind hbehind hrun (proceed_behind E hbehind hrun)

/-- What the others do leaves the main thread where it is, or it throws. -/
theorem other_main {a : BenchmarkAct κ} {r : BenchmarkRun σ}
    (ha : ∀ b c, a ≠ .proceed b c) (h : benchmarkStep E s.run a = some r) :
    (r.main = s.run.main ∨ r.main = .left) ∧ (a ≠ .throwing → r.main = s.run.main)
      ∧ (s.run.gRunning = false → r.gRunning = false) := by
  cases benchmarkStep_move h with
  | start | started | loop | stop | join | joined | collect => exact absurd rfl (ha _ _)
  | throwing => exact ⟨.inr rfl, fun hno => absurd rfl hno, id⟩
  | arrive => exact ⟨.inl rfl, fun _ => rfl, id⟩
  | signal => exact ⟨.inl rfl, fun _ => rfl, fun _ => rfl⟩
  | @work _ _ running' _ _ _ hstep =>
      refine ⟨.inl rfl, fun _ => rfl, fun hflag => ?_⟩
      have hrely := CfioStopProtocol.step_flag hstep
      rw [hflag] at hrely
      show running' = false
      cases running' with
      | true => cases hrely
      | false => rfl

/-- **Every step is one of the moves.** -/
theorem timedStep_move {a : TimedAct κ} (h : timedStep runtimeSeconds E s a = some t) :
    TimedMove runtimeSeconds E s a t := by
  cases a with
  | main => exact proceed_timedMove h
  | request =>
      cases h
      exact .request
  | tick elapsed =>
      cases h
      exact .tick
  | other a =>
      cases a with
      | proceed => cases h
      | throwing | arrive | work | signal =>
          obtain ⟨r, hrun, rfl⟩ := Option.map_eq_some_iff.mp h
          obtain ⟨hmain, hstays, hflag⟩ := other_main (fun _ _ hno => by cases hno) hrun
          exact .other hrun hmain hstays hflag

/-- **The clock adds nothing**: what happens to the run with it can happen without. -/
theorem timed_refines {as : List (TimedAct κ)}
    (h : run (timedStep runtimeSeconds E) s as = some t) :
    ∃ bs, run (benchmarkStep E) s.run bs = some t.run := by
  refine run_simulates TimedRun.run (fun s a t hstep => ?_) h
  cases timedStep_move hstep with
  | start _ hrun | arm _ _ hrun | enter _ _ _ hrun | ended _ _ _ hrun | due _ _ _ hrun
  | update _ hrun | stop _ hrun | behind _ hrun =>
      exact ⟨[.proceed _ _], run_single hrun⟩
  | other hrun => exact ⟨[_], run_single hrun⟩
  | launch | doze | wake | wakened | request | tick => exact ⟨[], rfl⟩

/-! ## The invariant -/

/-- The time of the run is over. -/
def RanFull (runtimeSeconds : Int32) (s : TimedRun σ) : Prop :=
  ∃ at_, s.launched = some at_ ∧ at_ + runtimeSeconds.toInt * nanosPerSecond ≤ s.now

/-- What the timer was set to, and how far the clock is, in the loop. -/
structure TimerSet (runtimeSeconds : Int32) (s : TimedRun σ) : Prop where
  launched : ∃ at_, s.launched = some at_
  deadline : s.deadline runtimeSeconds ≤ s.armed + runtimeSeconds.toInt * nanosPerSecond
  nextTick : s.nextTick = s.armed + (s.updates.length + 1) * nanosPerSecond
  reached : min (s.armed + s.updates.length * nanosPerSecond) (s.deadline runtimeSeconds) ≤ s.now

/-- What is known of the clock where the main thread is. -/
def AtPlace (runtimeSeconds : Int32) (s : TimedRun σ) : BenchmarkLoc → Prop
  | .starting _ => s.updates = []
  | .atLoop => TimerSet runtimeSeconds s
  -- one more update is due in the time of the run
  | .sleeping =>
      TimerSet runtimeSeconds s ∧ (s.updates.length : Int) < runtimeSeconds.toInt
        ∧ (s.sleep = .returned → s.shouldStop = true ∨ s.wakeUp runtimeSeconds ≤ s.now)
  | .updating =>
      TimerSet runtimeSeconds s ∧ (s.updates.length : Int) < runtimeSeconds.toInt
        ∧ s.wakeUp runtimeSeconds ≤ s.now
  | .stopping => s.shouldStop = true ∨ RanFull runtimeSeconds s
  | .left => True
  | _ => s.interrupted = false → RanFull runtimeSeconds s

/-- The clock along a run. -/
structure TimerInv (runtimeSeconds : Int32) (s : TimedRun σ) : Prop where
  launched : ∀ at_, s.launched = some at_ → at_ ≤ s.now
  place : AtPlace runtimeSeconds s s.run.main
  count : s.updates.length ≤ runtimeSeconds.toInt.toNat
  spaced : ∀ k (hk : k < s.updates.length),
    min (s.armed + (k + 1) * nanosPerSecond) (s.deadline runtimeSeconds) ≤ s.updates[k]
  asleep : ∀ w, s.sleep = .asleep w → w ≤ s.now + kSleepSlice

theorem timerInv_init (thread : Fin n → WorkerThread) (engine : ∀ i, σ i) (now : Int) :
    TimerInv runtimeSeconds (TimedRun.init thread engine now) where
  launched := fun _ h => by cases h
  place := rfl
  count := Nat.zero_le _
  spaced := fun _ hk => absurd hk (Nat.not_lt_zero _)
  asleep := fun _ h => by cases h

/-- Behind the loop all places ask for the same. -/
theorem atPlace_behind {loc : BenchmarkLoc} (h : loc.hasStopped) :
    AtPlace runtimeSeconds s loc
      ↔ (s.interrupted = false → RanFull runtimeSeconds s) := by
  cases loc with
  | joining | takingFinal | building | summing => exact Iff.rfl
  | _ => exact h.elim

/-! ### What the others do, and the passing of time -/

section Env

variable {r : BenchmarkRun σ} {b : Bool} {now' : Int}

/-- What others do in the meantime does not disarm the timer. -/
theorem TimerSet.env (h : TimerSet runtimeSeconds s) {sleep : SleepLoc} (hnow : s.now ≤ now') :
    TimerSet runtimeSeconds
      { s with run := r, now := now', stopRequested := b, sleep := sleep } where
  launched := h.launched
  deadline := h.deadline
  nextTick := h.nextTick
  reached := h.reached.trans hnow

/-- A run that had its whole runtime has had it whatever others do. -/
theorem RanFull.env (h : RanFull runtimeSeconds s) (hnow : s.now ≤ now') :
    RanFull runtimeSeconds { s with run := r, now := now', stopRequested := b } := by
  obtain ⟨at_, hat, hle⟩ := h
  exact ⟨at_, hat, hle.trans hnow⟩

/-- What holds where the main thread is does not depend on what others do. -/
theorem AtPlace.env {loc : BenchmarkLoc} (h : AtPlace runtimeSeconds s loc)
    (hnow : s.now ≤ now') (hstop : s.shouldStop = true → r.gRunning = false ∨ b = true) :
    AtPlace runtimeSeconds { s with run := r, now := now', stopRequested := b } loc := by
  have hstop' (hs : s.shouldStop = true) :
      ({ s with run := r, now := now', stopRequested := b } : TimedRun σ).shouldStop = true :=
    shouldStop_iff.mpr (hstop hs)
  cases loc with
  | starting | left => exact h
  | atLoop => exact TimerSet.env h hnow
  | sleeping =>
      obtain ⟨htimer, hroom, hrested⟩ := h
      exact ⟨htimer.env hnow, hroom,
        fun hsleep => (hrested hsleep).imp hstop' (fun hle => hle.trans hnow)⟩
  | updating =>
      obtain ⟨htimer, hroom, hdue⟩ := h
      exact ⟨htimer.env hnow, hroom, hdue.trans hnow⟩
  | stopping => exact h.imp hstop' (fun hfull => hfull.env hnow)
  | joining | takingFinal | building | summing => exact fun hint => RanFull.env (h hint) hnow

/-- What others do in the meantime keeps the invariant. -/
theorem TimerInv.env (h : TimerInv runtimeSeconds s) (hnow : s.now ≤ now')
    (hmain : r.main = s.run.main ∨ r.main = .left)
    (hstop : s.shouldStop = true → r.gRunning = false ∨ b = true) :
    TimerInv runtimeSeconds { s with run := r, now := now', stopRequested := b } := by
  refine ⟨fun at_ hat => (h.launched at_ hat).trans hnow, ?_, h.count, h.spaced,
    fun w hw => (h.asleep w hw).trans (Int.add_le_add_right hnow _)⟩
  show AtPlace _ _ r.main
  rcases hmain with hmain | hmain
  · rw [hmain]
    exact h.place.env hnow hstop
  · rw [hmain]
    trivial

end Env

/-! ### What the main thread does -/

section Main

variable {r : BenchmarkRun σ}

/-- The main thread goes on to a place of which something is known. -/
theorem TimerInv.goto (h : TimerInv runtimeSeconds s)
    (hplace : AtPlace runtimeSeconds { s with run := r } r.main) :
    TimerInv runtimeSeconds { s with run := r } :=
  { h with place := hplace }

/-- The timer is armed behind the last launch. -/
theorem TimerInv.arm (h : TimerInv runtimeSeconds s) {k : Nat} {at_ : Int}
    (hmain : s.run.main = .starting k) (hsome : s.launched = some at_) (hr : r.main = .atLoop) :
    TimerInv runtimeSeconds
      { s with run := r, armed := s.now, nextTick := s.now + nanosPerSecond } := by
  have hnone : s.updates = [] := by
    have hplace := h.place
    rw [hmain] at hplace
    exact hplace
  refine { h with place := ?_, spaced := fun k hk => ?_ }
  · show AtPlace _ _ r.main
    rw [hr]
    refine ⟨⟨at_, hsome⟩, ?_, ?_, ?_⟩
    · show s.launched.getD 0 + _ ≤ _
      rw [hsome]
      exact Int.add_le_add_right (h.launched at_ hsome) _
    · show s.now + nanosPerSecond = s.now + ((s.updates.length : Int) + 1) * nanosPerSecond
      rw [hnone, List.length_nil, Int.natCast_zero, Int.zero_add, Int.one_mul]
    · show min (s.now + (s.updates.length : Int) * nanosPerSecond) _ ≤ s.now
      rw [hnone, List.length_nil, Int.natCast_zero, Int.zero_mul, Int.add_zero]
      exact min_le_left _ _
  · replace hk : k < s.updates.length := hk
    rw [hnone] at hk
    exact absurd hk (Nat.not_lt_zero k)

/-- Entering the wait there is room for one more update. -/
theorem TimerSet.room (h : TimerSet runtimeSeconds s)
    (hearly : s.now < s.deadline runtimeSeconds) :
    (s.updates.length : Int) < runtimeSeconds.toInt := by
  obtain ⟨-, hdeadline, -, hreached⟩ := h
  simp only [nanosPerSecond] at hdeadline hreached
  omega

/-- Past the deadline the whole runtime is over. -/
theorem TimerSet.ranFull (h : TimerSet runtimeSeconds s)
    (hpast : s.deadline runtimeSeconds ≤ s.now) : RanFull runtimeSeconds s := by
  obtain ⟨at_, hat⟩ := h.launched
  refine ⟨at_, hat, ?_⟩
  rw [TimedRun.deadline, hat] at hpast
  exact hpast

/-- An update that is due is the next one. -/
theorem TimerSet.update (h : TimerSet runtimeSeconds s)
    (hdue : s.wakeUp runtimeSeconds ≤ s.now) :
    TimerSet runtimeSeconds
      { s with
        run := r
        nextTick := s.nextTick + nanosPerSecond
        updates := s.updates ++ [s.now] } := by
  obtain ⟨hlaunched, hdeadline, htick, hreached⟩ := h
  have hlength : ((s.updates ++ [s.now]).length : Int) = s.updates.length + 1 := by
    rw [List.length_append, List.length_singleton, Int.natCast_add, Int.natCast_one]
  refine ⟨hlaunched, hdeadline, ?_, ?_⟩
  · show s.nextTick + nanosPerSecond
      = s.armed + (((s.updates ++ [s.now]).length : Int) + 1) * nanosPerSecond
    rw [hlength, htick]
    simp only [nanosPerSecond]
    omega
  · show min (s.armed + ((s.updates ++ [s.now]).length : Int) * nanosPerSecond)
      (s.deadline runtimeSeconds) ≤ s.now
    rw [hlength, ← htick]
    exact hdue

/-- An update is put on record, and the next one is a second on. -/
theorem TimerInv.update (h : TimerInv runtimeSeconds s)
    (hmain : s.run.main = .updating) (hr : r.main = .atLoop) :
    TimerInv runtimeSeconds
      { s with
        run := r
        nextTick := s.nextTick + nanosPerSecond
        updates := s.updates ++ [s.now] } := by
  have hplace := h.place
  rw [hmain] at hplace
  obtain ⟨htimer, hroom, hdue⟩ := hplace
  refine { h with place := ?_, count := ?_, spaced := fun k hk => ?_ }
  · show AtPlace _ _ r.main
    rw [hr]
    exact htimer.update hdue
  · show (s.updates ++ [s.now]).length ≤ _
    rw [List.length_append, List.length_singleton]
    omega
  · show min (s.armed + ((k : Int) + 1) * nanosPerSecond) (s.deadline runtimeSeconds)
      ≤ (s.updates ++ [s.now])[k]
    by_cases hold : k < s.updates.length
    · rw [List.getElem_append_left hold]
      exact h.spaced k hold
    · have hlast : k = s.updates.length := by
        replace hk : k < (s.updates ++ [s.now]).length := hk
        rw [List.length_append, List.length_singleton] at hk
        omega
      subst hlast
      rw [List.getElem_append_right (Nat.le_refl _), ← htimer.nextTick]
      simp only [Nat.sub_self, List.getElem_cons_zero]
      exact hdue

end Main

/-- Every step keeps the invariant. -/
theorem timerInv_step (s : TimedRun σ) (a : TimedAct κ) (t : TimedRun σ)
    (h : TimerInv runtimeSeconds s) (hstep : timedStep runtimeSeconds E s a = some t) :
    TimerInv runtimeSeconds t := by
  have hplace := h.place
  cases timedStep_move hstep with
  | start hmain _ hr _ =>
      rw [hmain] at hplace
      refine h.goto ?_
      rw [hr]
      exact hplace
  | launch hmain _ =>
      rw [hmain] at hplace
      replace hplace : s.updates = [] := hplace
      refine { h with launched := fun at_ hat => ?_, place := ?_, spaced := fun k hk => ?_ }
      · exact le_of_eq (Option.some.inj hat).symm
      · show AtPlace _ _ s.run.main
        rw [hmain]
        exact hplace
      · replace hk : k < s.updates.length := hk
        rw [hplace] at hk
        exact absurd hk (Nat.not_lt_zero k)
  | arm hmain hsome _ hr => exact h.arm hmain hsome hr
  | @enter r hmain _ hearly _ hr _ =>
      rw [hmain] at hplace
      have htimer : TimerSet runtimeSeconds s := hplace
      refine { h with place := ?_, asleep := fun w hw => by cases hw }
      show AtPlace _ _ r.main
      rw [hr]
      exact ⟨htimer.env (le_refl s.now), htimer.room hearly, fun hsleep => by cases hsleep⟩
  | @ended r b sleep hmain hsleep hstop _ hr hflag =>
      refine { h with place := ?_, asleep := fun w hw => ?_ }
      · have htimer : TimerSet runtimeSeconds s := by
          rcases hmain with hmain | hmain
          · rw [hmain] at hplace
            exact hplace
          · rw [hmain] at hplace
            exact hplace.1
        show AtPlace _ _ r.main
        rw [hr]
        refine hstop.imp (fun hs => shouldStop_iff.mpr ?_) htimer.ranFull
        exact (shouldStop_iff.mp hs).imp_left hflag.trans
      · replace hw : sleep = .asleep w := hw
        rcases hsleep with hsleep | hsleep <;> cases hsleep.symm.trans hw
  | doze hmain hsleep hgo =>
      rw [hmain] at hplace
      obtain ⟨htimer, hroom, -⟩ := hplace
      refine { h with place := ?_, asleep := fun w hw => ?_ }
      · show AtPlace _ _ s.run.main
        rw [hmain]
        exact ⟨htimer.env (le_refl s.now), hroom, fun hsleep => by cases hsleep⟩
      · rw [← SleepLoc.asleep.inj hw]
        exact Int.add_le_add_left (min_le_left _ _) _
  | wake hmain hsleep hw =>
      rw [hmain] at hplace
      obtain ⟨htimer, hroom, -⟩ := hplace
      refine { h with place := ?_, asleep := fun w hw => by cases hw }
      show AtPlace _ _ s.run.main
      rw [hmain]
      exact ⟨htimer.env (le_refl s.now), hroom, fun hsleep => by cases hsleep⟩
  | wakened hmain hsleep hwhy =>
      rw [hmain] at hplace
      obtain ⟨htimer, hroom, -⟩ := hplace
      refine { h with place := ?_, asleep := fun w hw => by cases hw }
      show AtPlace _ _ s.run.main
      rw [hmain]
      exact ⟨htimer.env (le_refl s.now), hroom, fun _ => hwhy⟩
  | due hmain hsleep hgo _ hr hflag =>
      rw [hmain] at hplace
      obtain ⟨htimer, hroom, hrested⟩ := hplace
      refine h.goto ?_
      rw [hr]
      -- nobody asked to stop, so the wait was over
      have hwoken := (hrested hsleep).resolve_left (by rw [hgo]; exact Bool.false_ne_true)
      exact ⟨htimer.env (le_refl s.now), hroom, hwoken⟩
  | update hmain _ hr => exact h.update hmain hr
  | @stop r hmain _ hr =>
      rw [hmain] at hplace
      refine { h with place := ?_ }
      show AtPlace _ _ r.main
      rw [hr]
      intro hint
      have hgo : s.shouldStop = false := hint
      exact hplace.resolve_left (by rw [hgo]; exact Bool.false_ne_true)
  | behind hmain _ hr =>
      rw [atPlace_behind hmain] at hplace
      refine h.goto ?_
      rcases hr with hr | hr
      · exact (atPlace_behind hr).mpr hplace
      · rw [hr]
        trivial
  | other _ hmain _ hflag =>
      refine h.env (le_refl s.now) hmain (fun hs => ?_)
      exact (shouldStop_iff.mp hs).imp_left hflag
  | request => exact h.env (le_refl s.now) (.inl rfl) (fun _ => .inr rfl)
  | @tick elapsed =>
      exact h.env (Int.le_add_of_nonneg_right (Int.natCast_nonneg elapsed)) (.inl rfl)
        shouldStop_iff.mp

/-! ## On schedule -/

/-- What the timer promises. -/
structure OnSchedule (runtimeSeconds : Int32) (s : TimedRun σ) : Prop where
  /-- no more updates than seconds -/
  count : s.updates.length ≤ runtimeSeconds.toInt.toNat
  /-- none before its second has passed, except one at the deadline -/
  spaced : ∀ k (hk : k < s.updates.length),
    min (s.armed + (k + 1) * nanosPerSecond) (s.deadline runtimeSeconds) ≤ s.updates[k]
  /-- results of a run that was not interrupted are those of all its time -/
  full : s.run.main.collecting = true → s.interrupted = false → RanFull runtimeSeconds s
  joined : s.run.main.collecting = true → ∀ i, isFinished (s.run.workers i).loc = true

/-- **Every run is on schedule**, whatever the workers do and however long it takes them, the
    display and the system. -/
theorem run_on_schedule {thread : Fin n → WorkerThread} {engine : ∀ i, σ i} {now : Int}
    {as : List (TimedAct κ)}
    (h : run (timedStep runtimeSeconds E) (TimedRun.init thread engine now) as = some s) :
    OnSchedule runtimeSeconds s := by
  have hinv := run_invariant timerInv_step h (timerInv_init thread engine now)
  obtain ⟨bs, hbs⟩ := timed_refines h
  have hworkers : BenchmarkInv s.run :=
    run_invariant benchmarkInv_step hbs (benchmarkInv_init thread engine)
  refine ⟨hinv.count, hinv.spaced, fun hmain => ?_, fun hmain i => ?_⟩
  · exact (atPlace_behind (hasStopped_of_collecting hmain)).mp hinv.place
  · exact hworkers.joined i (hasJoined_of_collecting hmain i)

/-! ## After a stop -/

/-- How many steps the main thread needs to leave the loop once it must. -/
def TimedRun.toStop (s : TimedRun σ) : Nat :=
  match s.run.main with
  | .atLoop => 1
  | .sleeping =>
      match s.sleep with
      | .asleep _ => 3
      | .looking => 2
      | .returned => 1
  | .updating => 2
  | _ => 0

/-- There are never more than three steps left in the loop. -/
theorem toStop_le (s : TimedRun σ) : s.toStop ≤ 3 := by
  rw [TimedRun.toStop]
  split
  case h_2 => split <;> omega
  all_goals omega

/-- Has an update been decided on that is still to be made? -/
def TimedRun.pending (s : TimedRun σ) : Nat := if s.run.main = .updating then 1 else 0

/-- No more than one update is decided on at a time. -/
theorem pending_le_one (s : TimedRun σ) : s.pending ≤ 1 := by
  rw [TimedRun.pending]
  split <;> omega

/-- The main thread is in `sleep_for`. -/
def TimedRun.DozesUntil (s : TimedRun σ) (w : Int) : Prop :=
  s.run.main = .sleeping ∧ s.sleep = .asleep w

/-- Behind the loop. -/
def TimedRun.Past (s : TimedRun σ) : Prop := s.run.main.hasStopped ∨ s.run.main = .left

/-- In the loop and bound to leave it, or behind it. -/
def TimedRun.Ending (s : TimedRun σ) : Prop :=
  (s.run.main.inLoop = true ∧ s.shouldStop = true) ∨ s.Past

/-- What has become of a run that must end, with so many steps of the main thread. -/
structure Noticed (s t : TimedRun σ) (mains : Nat) : Prop where
  back : t.run.main.inLoop = true → s.run.main.inLoop = true
  steps : t.run.main.inLoop = true → t.toStop + mains ≤ s.toStop
  updates : t.updates.length + t.pending ≤ s.updates.length + s.pending
  asleep : ∀ w, t.DozesUntil w → s.DozesUntil w

theorem Noticed.refl (s : TimedRun σ) : Noticed s s 0 :=
  ⟨id, fun _ => Nat.le_refl _, Nat.le_refl _, fun _ => id⟩

/-- What is noticed stays noticed, and the steps add up. -/
theorem Noticed.trans {u : TimedRun σ} {m k : Nat} (h : Noticed s u m) (h' : Noticed u t k) :
    Noticed s t (m + k) where
  back := fun ht => h.back (h'.back ht)
  steps := fun ht => by
    have hfirst := h.steps (h'.back ht)
    have hsecond := h'.steps ht
    omega
  updates := h'.updates.trans h.updates
  asleep := fun w hw => h.asleep w (h'.asleep w hw)

theorem not_inLoop_of_past (h : s.Past) : ¬ s.run.main.inLoop = true := by
  intro hloop
  rcases h with h | h
  · exact not_hasStopped_of_inLoop hloop h
  · exact ne_left_of_inLoop hloop h

/-- Getting behind the loop, or going on there. -/
theorem noticed_past (ht : t.Past) (hupdates : t.updates = s.updates) (m : Nat) :
    Noticed s t m := by
  have hno := not_inLoop_of_past ht
  have hplace {loc : BenchmarkLoc} (hloop : loc.inLoop = true) : t.run.main ≠ loc := by
    rintro rfl
    exact hno hloop
  refine ⟨fun h => absurd h hno, fun h => absurd h hno, ?_, fun w hw => absurd hw.1 (hplace rfl)⟩
  rw [hupdates, TimedRun.pending, if_neg (hplace rfl)]
  exact Nat.add_le_add_left (Nat.zero_le _) _

/-- The steps that are counted. -/
def mainSteps (as : List (TimedAct κ)) : Nat := as.countP TimedAct.isMain

/-- What the others do does not keep the main thread. -/
theorem noticed_env {r : BenchmarkRun σ} {b : Bool} {now' : Int} (h : s.Ending)
    (hmain : r.main = s.run.main ∨ r.main = .left)
    (hstop : s.shouldStop = true → r.gRunning = false ∨ b = true) :
    (({ s with run := r, now := now', stopRequested := b } : TimedRun σ).Ending)
      ∧ Noticed s { s with run := r, now := now', stopRequested := b } 0 := by
  rcases hmain with hmain | hmain
  · constructor
    · rcases h with ⟨hloop, hs⟩ | hpast
      · exact .inl ⟨by rw [← hmain] at hloop; exact hloop, shouldStop_iff.mpr (hstop hs)⟩
      · refine .inr ?_
        rw [TimedRun.Past, ← hmain] at hpast
        exact hpast
    · refine ⟨fun hloop => ?_, fun _ => ?_, ?_, fun w hw => ?_⟩
      · rw [← hmain]
        exact hloop
      · simp only [TimedRun.toStop, hmain, Nat.add_zero, Nat.le_refl]
      · simp only [TimedRun.pending, hmain, Nat.le_refl]
      · exact ⟨hmain.symm.trans hw.1, hw.2⟩
  · have hpast : ({ s with run := r, now := now', stopRequested := b } : TimedRun σ).Past :=
      .inr hmain
    exact ⟨.inr hpast, noticed_past (s := s) hpast rfl 0⟩

/-- One step of a run that has to end. -/
theorem ending_step {a : TimedAct κ} (h : s.Ending)
    (hstep : timedStep runtimeSeconds E s a = some t) :
    t.Ending ∧ Noticed s t (mainSteps [a]) := by
  -- a stop stays asked for
  have hloop {loc : BenchmarkLoc} (hmain : s.run.main = loc) (hin : loc.inLoop = true) :
      s.shouldStop = true := by
    rcases h with ⟨-, hs⟩ | hpast
    · exact hs
    · exact absurd (by rw [hmain]; exact hin) (not_inLoop_of_past hpast)
  cases timedStep_move hstep with
  | start hmain | launch hmain | arm hmain =>
      rcases h with ⟨hin, -⟩ | hpast | hpast
      · rw [hmain] at hin
        cases hin
      · rw [hmain] at hpast
        exact hpast.elim
      · rw [hmain] at hpast
        cases hpast
  | enter hmain hgo => rw [hloop hmain rfl] at hgo; cases hgo
  | doze hmain _ hgo => rw [hloop hmain rfl] at hgo; cases hgo
  | due hmain _ hgo => rw [hloop hmain rfl] at hgo; cases hgo
  | @ended r b sleep hmain _ _ _ hr hflag =>
      have hin : s.run.main.inLoop = true := by
        rcases hmain with hmain | hmain <;> rw [hmain] <;> rfl
      have hnone : ({ s with run := r, sleep := sleep } : TimedRun σ).pending = 0 := by
        rw [TimedRun.pending]
        exact if_neg (by rw [hr]; exact fun hno => by cases hno)
      refine ⟨.inl ⟨?_, ?_⟩, fun _ => hin, fun _ => ?_, ?_, fun w hw => ?_⟩
      · rw [hr]
        rfl
      · exact shouldStop_iff.mpr ((shouldStop_iff.mp (hloop rfl hin)).imp_left hflag.trans)
      · have hzero : ({ s with run := r, sleep := sleep } : TimedRun σ).toStop = 0 := by
          rw [TimedRun.toStop]
          simp only [hr]
        rw [hzero, TimedRun.toStop]
        rcases hmain with hmain | hmain
        · rw [hmain]
          exact Nat.le_refl 1
        · rw [hmain]
          cases s.sleep <;> simp [mainSteps, TimedAct.isMain]
      · rw [hnone]
        exact Nat.add_le_add_left (Nat.zero_le _) _
      · cases hr.symm.trans hw.1
  | wake hmain hsleep _ =>
      have hs := hloop hmain rfl
      refine ⟨.inl ⟨by rw [hmain]; rfl, hs⟩, fun _ => by rw [hmain]; rfl, fun _ => ?_,
        Nat.le_refl _, fun w hw => by cases hw.2⟩
      simp [TimedRun.toStop, hmain, hsleep, mainSteps, TimedAct.isMain]
  | wakened hmain hsleep _ =>
      have hs := hloop hmain rfl
      refine ⟨.inl ⟨by rw [hmain]; rfl, hs⟩, fun _ => by rw [hmain]; rfl, fun _ => ?_,
        Nat.le_refl _, fun w hw => by cases hw.2⟩
      simp [TimedRun.toStop, hmain, hsleep, mainSteps, TimedAct.isMain]
  | update hmain _ hr hflag =>
      have hs := hloop hmain rfl
      refine ⟨.inl ⟨by rw [hr]; rfl, ?_⟩, fun _ => by rw [hmain]; rfl, fun _ => ?_, ?_,
        fun w hw => by cases hr.symm.trans hw.1⟩
      · exact shouldStop_iff.mpr ((shouldStop_iff.mp hs).imp_left hflag.trans)
      · simp [TimedRun.toStop, hmain, hr, mainSteps, TimedAct.isMain]
      · simp [TimedRun.pending, hmain, hr]
  | @stop r hmain _ hr =>
      have hpast : ({ s with run := r, interrupted := s.shouldStop } : TimedRun σ).Past := by
        rw [TimedRun.Past, hr]
        exact .inl trivial
      exact ⟨.inr hpast, noticed_past (s := s) hpast rfl _⟩
  | @behind r hmain _ hr =>
      have hpast : ({ s with run := r } : TimedRun σ).Past := hr
      exact ⟨.inr hpast, noticed_past (s := s) hpast rfl _⟩
  | other _ hmain _ hflag =>
      exact noticed_env h hmain (fun hs => (shouldStop_iff.mp hs).imp_left hflag)
  | request => exact noticed_env h (.inl rfl) (fun _ => .inr rfl)
  | tick => exact noticed_env h (.inl rfl) shouldStop_iff.mp

/-- By induction on the run: all its steps. -/
theorem ending_run {as : List (TimedAct κ)} (h : s.Ending)
    (hrun : run (timedStep runtimeSeconds E) s as = some t) : Noticed s t (mainSteps as) := by
  induction as generalizing s with
  | nil =>
      rw [← Option.some.inj hrun]
      exact Noticed.refl s
  | cons a as ih =>
      obtain ⟨u, hu, hrest⟩ := run_cons_iff.mp hrun
      obtain ⟨hending, hnoticed⟩ := ending_step h hu
      have hcount : mainSteps (a :: as) = mainSteps [a] + mainSteps as :=
        @List.countP_append _ TimedAct.isMain [a] as
      rw [hcount]
      exact hnoticed.trans (ih hending hrest)

/-- **A stop is noticed**: from then on the display is updated once at the most, the main thread
    takes at most three steps in the loop, and if it sleeps it is the slice it was in, of which
    no more than a tenth of a second is left. -/
theorem stop_noticed {thread : Fin n → WorkerThread} {engine : ∀ i, σ i} {now : Int}
    {before after : List (TimedAct κ)}
    (h : run (timedStep runtimeSeconds E) (TimedRun.init thread engine now) before = some s)
    (hloop : s.run.main.inLoop = true) (hstop : s.shouldStop = true)
    (h' : run (timedStep runtimeSeconds E) s after = some t) :
    t.updates.length ≤ s.updates.length + 1
      ∧ (t.run.main.inLoop = true → mainSteps after ≤ 3)
      ∧ ∀ w, t.DozesUntil w → s.DozesUntil w ∧ w ≤ s.now + kSleepSlice := by
  have hinv := run_invariant timerInv_step h (timerInv_init thread engine now)
  have hnoticed := ending_run (.inl ⟨hloop, hstop⟩) h'
  refine ⟨?_, fun ht => ?_, fun w hw => ?_⟩
  · have hupdates := hnoticed.updates
    have hone := pending_le_one s
    omega
  · have hsteps := hnoticed.steps ht
    have hthree := toStop_le s
    omega
  · have hs := hnoticed.asleep w hw
    exact ⟨hs, hinv.asleep w hs.2⟩

end Timed

/-! ## One worker -/

/-- A worker of depth two, with the clock. -/
def oneTimed : TimedRun (fun _ : Fin 1 => CfioLibaio.Libaio) :=
  TimedRun.init (fun _ => CfioWorkerSlots.depthTwoThread)
    (fun _ => { engine := CfioLibaio.depthTwoEngine }) 0

/-- A step of it. -/
abbrev oneTimedStep (runtimeSeconds : Int32) :=
  timedStep runtimeSeconds (fun _ : Fin 1 => CfioLibaio.libaioEngine CfioWorkerSlots.waits)

/-- To the first slice of sleep. -/
def toSleep : List (TimedAct (fun _ : Fin 1 => CfioLibaio.AioKernel)) :=
  [.main, .other (.arrive ⟨0, Nat.one_pos⟩), .main, .main, .main, .main]

/-- The slice takes a second, and the update is made. -/
def toUpdate : List (TimedAct (fun _ : Fin 1 => CfioLibaio.AioKernel)) :=
  toSleep ++ [.tick 1000000000, .main, .main, .main, .main]

theorem run_on_schedule_update :
    ∃ s, run (oneTimedStep 1) oneTimed toUpdate = some s ∧ s.updates = [1000000000]
      ∧ OnSchedule 1 s := by
  have h : (run (oneTimedStep 1) oneTimed toUpdate).map (fun s => s.updates)
      = some [1000000000] := by
    decide +kernel
  obtain ⟨s, hs, hat⟩ := Option.map_eq_some_iff.mp h
  exact ⟨s, hs, hat, run_on_schedule hs⟩

theorem stop_noticed_asleep :
    ∃ s t, run (oneTimedStep 60) oneTimed (toSleep ++ [.request]) = some s
      ∧ run (oneTimedStep 60) s [.tick 100000000, .main] = some t
      ∧ t.updates.length ≤ s.updates.length + 1
      ∧ (t.run.main.inLoop = true →
        mainSteps ([.tick 100000000, .main] :
          List (TimedAct (fun _ : Fin 1 => CfioLibaio.AioKernel))) ≤ 3)
      ∧ ∀ w, t.DozesUntil w → s.DozesUntil w ∧ w ≤ s.now + kSleepSlice := by
  have h : (run (oneTimedStep 60) oneTimed (toSleep ++ [.request])).map
      (fun s => (s.run.main.inLoop, s.shouldStop,
        (run (oneTimedStep 60) s [.tick 100000000, .main]).isSome)) = some (true, true, true) := by
    decide +kernel
  obtain ⟨s, hs, hat⟩ := Option.map_eq_some_iff.mp h
  simp only [Prod.mk.injEq] at hat
  obtain ⟨hloop, hstop, hsome⟩ := hat
  obtain ⟨t, ht⟩ := Option.isSome_iff_exists.mp hsome
  exact ⟨s, t, hs, ht, stop_noticed hs hloop hstop ht⟩

end CfioOrchestrator
