import Cfio.RunTimer

/-! # Every run ends

    The main thread of a run takes a bounded number of steps, whatever the workers, the user and
    the clock do, and it is never stuck: where it cannot go on it sleeps a slice, or joins a
    worker that has not finished.

    `TimedRun.toLeave` counts the steps to the end of a run that must stop.  In the loop a
    second takes ten slices of sleep at the most (`TimedRun.toGo`). -/

namespace CfioOrchestrator

open CfioTypes CfioWorkerThread Transition

section Run

variable {n : Nat} {σ κ : Fin n → Type}
variable {runtimeSeconds : Int32} {E : ∀ i, Engine (σ i) (κ i)} {r u : TimedRun σ}

/-- The main thread takes the step, or its call throws. -/
def TimedAct.ofRun : TimedAct κ → Bool
  | .main => true
  | .other .throwing => true
  | _ => false

/-! ## A run that was asked to stop -/

/-- How many steps the main thread of a run that was asked to stop has to take at the most. -/
def TimedRun.toLeave (r : TimedRun σ) : Nat :=
  match r.run.main with
  -- behind the last launch it reads the clock once before the loop
  | .starting k => n + 7 + (n - k) + if r.launched = none then 1 else 0
  | .joining k => 4 + (n - k)
  | .takingFinal => 3
  | .building => 2
  | .summing => 1
  | .left => 0
  | _ => n + 5 + r.toStop

/-- There is never more to do than this. -/
theorem toLeave_le (r : TimedRun σ) : r.toLeave ≤ 2 * n + 8 := by
  have hstop := toStop_le r
  rw [TimedRun.toLeave]
  split
  case h_1 => split <;> omega
  all_goals omega

/-- Before the end there is something left to do. -/
theorem toLeave_pos (h : r.run.main ≠ .left) : 0 < r.toLeave := by
  rw [TimedRun.toLeave]
  split
  case h_6 hleft => exact absurd hleft h
  all_goals omega

/-- Behind the loop each step is one less to take. -/
theorem toLeave_behind {b c : Bool} {r' : BenchmarkRun σ} (hmain : r.run.main.hasStopped)
    (hrun : r.run.proceed b c = some r') :
    ({ r with run := r' } : TimedRun σ).toLeave + 1 ≤ r.toLeave := by
  rw [BenchmarkRun.proceed] at hrun
  split at hrun
  case h_6 k hk =>
      split at hrun
      case isTrue hlt =>
          obtain ⟨-, hr'⟩ := Option.ite_none_right_eq_some.mp hrun
          cases hr'
          simp only [TimedRun.toLeave, hk]
          omega
      case isFalse =>
          cases hrun
          simp only [TimedRun.toLeave, hk]
          omega
  case h_7 hk | h_8 hk | h_9 hk =>
      cases hrun
      simp [TimedRun.toLeave, hk]
  all_goals
    rename_i hk
    rw [hk] at hmain
    exact hmain.elim

/-- Every step of the run is one less to take, and others add none. -/
theorem toLeave_step {a : TimedAct κ} (hasked : r.stopRequested = true)
    (hstep : timedStep runtimeSeconds E r a = some u) :
    u.toLeave + (if a.ofRun then 1 else 0) ≤ r.toLeave := by
  have hstop : r.shouldStop = true := shouldStop_iff.mpr (.inr hasked)
  cases timedStep_move hstep with
  | @start k _ hmain hrun hr =>
      -- behind the last worker the next place is the loop
      have hk : k < n := by
        by_contra hno
        cases (proceed_started hmain hno hrun).1.symm.trans hr
      simp only [TimedRun.toLeave, hmain, hr, TimedAct.ofRun, if_true]
      omega
  | launch hmain hnone => simp [TimedRun.toLeave, hmain, hnone, TimedAct.ofRun]
  | arm hmain hsome _ hr =>
      simp only [TimedRun.toLeave, TimedRun.toStop, hmain, hr, TimedAct.ofRun, if_true]
      omega
  | ended hmain hsleep _ _ hr =>
      simp only [TimedRun.toLeave, TimedRun.toStop, hr, TimedAct.ofRun, if_true]
      rcases hmain with hmain | hmain
      · simp [hmain]
      · rw [hmain]
        cases r.sleep <;> simp
  | wake hmain hsleep => simp [TimedRun.toLeave, TimedRun.toStop, hmain, hsleep, TimedAct.ofRun]
  | wakened hmain hsleep => simp [TimedRun.toLeave, TimedRun.toStop, hmain, hsleep, TimedAct.ofRun]
  | update hmain _ hr => simp [TimedRun.toLeave, TimedRun.toStop, hmain, hr, TimedAct.ofRun]
  | stop hmain _ hr =>
      simp only [TimedRun.toLeave, TimedRun.toStop, hmain, hr, TimedAct.ofRun, if_true]
      omega
  | behind hmain hrun => exact toLeave_behind hmain hrun
  -- what is only done while nobody has asked for a stop
  | enter _ hgo => cases hgo.symm.trans hstop
  | doze _ _ hgo => cases hgo.symm.trans hstop
  | due _ _ hgo => cases hgo.symm.trans hstop
  | request | tick => exact Nat.le_refl _
  | @other b r' hrun hmain hstays =>
      cases b with
      | throwing =>
          obtain ⟨hmay, hr'⟩ := Option.ite_none_right_eq_some.mp hrun
          cases hr'
          -- no call throws where the run is left already
          exact toLeave_pos (ne_left_of_mayThrow hmay)
      | proceed | arrive | work | signal =>
          have hsame : r'.main = r.run.main := hstays (fun hno => by cases hno)
          simp only [TimedRun.toLeave, TimedRun.toStop, hsame, TimedAct.ofRun, Bool.false_eq_true,
            if_false, Nat.add_zero, Nat.le_refl]

/-! ## A run that goes on -/

/-- How many slices it takes from a time to the end of the sleep. -/
def TimedRun.slices (runtimeSeconds : Int32) (r : TimedRun σ) (at_ : Int) : Nat :=
  ((r.wakeUp runtimeSeconds - at_ + (kSleepSlice - 1)) / kSleepSlice).toNat

/-- How many seconds are still to be updated. -/
def TimedRun.rounds (runtimeSeconds : Int32) (r : TimedRun σ) : Nat :=
  runtimeSeconds.toInt.toNat - r.updates.length

/-- How many steps the main thread has to take at the most. -/
def TimedRun.toGo (runtimeSeconds : Int32) (r : TimedRun σ) : Nat :=
  match r.run.main with
  | .starting _ => 24 * runtimeSeconds.toInt.toNat + r.toLeave
  | .atLoop => 24 * r.rounds runtimeSeconds + r.toLeave
  | .sleeping =>
      24 * (r.rounds runtimeSeconds - 1) + (n + 6) +
        match r.sleep with
        | .asleep w => 2 * r.slices runtimeSeconds w + 4
        | .looking => 2 * r.slices runtimeSeconds r.now + 3
        | .returned => 2
  | .updating => 24 * (r.rounds runtimeSeconds - 1) + (n + 7)
  | _ => r.toLeave

/-- Ten slices are a second. -/
theorem slices_le (h : TimerSet runtimeSeconds r) : r.slices runtimeSeconds r.now ≤ 10 := by
  obtain ⟨-, -, htick, hreached⟩ := h
  simp only [TimedRun.slices, TimedRun.wakeUp, kSleepSlice, nanosPerSecond] at *
  omega

/-- Time only makes them fewer. -/
theorem slices_mono {at_ at' : Int} (h : at_ ≤ at') :
    r.slices runtimeSeconds at' ≤ r.slices runtimeSeconds at_ := by
  simp only [TimedRun.slices, kSleepSlice]
  omega

/-- After the slice there is one less, also if it was shorter than others. -/
theorem slices_doze (h : r.now < r.wakeUp runtimeSeconds) :
    r.slices runtimeSeconds (r.now + min kSleepSlice (r.wakeUp runtimeSeconds - r.now)) + 1
      ≤ r.slices runtimeSeconds r.now := by
  simp only [TimedRun.slices, kSleepSlice]
  omega

/-- The main thread sleeps only before its time to wake up. -/
theorem early_of_doze (hmain : r.run.main = .sleeping) (hsleep : r.sleep = .looking) {w : Int}
    (hw : u.sleep = .asleep w) (hstep : r.proceed runtimeSeconds = some u) :
    r.now < r.wakeUp runtimeSeconds := by
  rw [TimedRun.proceed, hmain] at hstep
  simp only [hsleep] at hstep
  by_contra hno
  rw [if_neg hno] at hstep
  cases hstep
  cases hw

/-- What the others do changes nothing, or time passes. -/
theorem toGo_env {r' : BenchmarkRun σ} {b : Bool} {now' : Int} (hmain : r'.main = r.run.main)
    (hnow : r.now ≤ now') :
    ({ r with run := r', now := now', stopRequested := b } : TimedRun σ).toGo runtimeSeconds
      ≤ r.toGo runtimeSeconds := by
  have hslices := @slices_mono _ _ runtimeSeconds r _ _ hnow
  have hleave : ({ r with run := r', now := now', stopRequested := b } : TimedRun σ).toLeave
      = r.toLeave := by
    simp only [TimedRun.toLeave, TimedRun.toStop, hmain]
  simp only [TimedRun.toGo, hmain, hleave]
  split
  case h_3 =>
      refine Nat.add_le_add_left ?_ _
      cases r.sleep with
      | looking =>
          exact Nat.add_le_add_right (Nat.mul_le_mul_left 2 hslices) 3
      | asleep | returned => exact Nat.le_refl _
  all_goals exact Nat.le_refl _

/-- Behind the loop it does not matter how long the run was meant to be. -/
theorem toGo_behind (h : r.run.main.hasStopped ∨ r.run.main = .left) :
    r.toGo runtimeSeconds = r.toLeave := by
  rw [TimedRun.toGo]
  split
  case h_5 => rfl
  all_goals
    rename_i hmain
    rw [hmain] at h
    rcases h with h | h
    · exact h.elim
    · cases h

/-- Before the end there is something left to do, asked to stop or not. -/
theorem toGo_pos (h : r.run.main ≠ .left) : 0 < r.toGo runtimeSeconds := by
  have hleave := toLeave_pos h
  rw [TimedRun.toGo]
  split <;> omega

/-- Every step of the run is one less to take, and others add none. -/
theorem toGo_step (hinv : TimerInv runtimeSeconds r) {a : TimedAct κ}
    (hstep : timedStep runtimeSeconds E r a = some u) :
    u.toGo runtimeSeconds + (if a.ofRun then 1 else 0) ≤ r.toGo runtimeSeconds := by
  have hplace := hinv.place
  cases timedStep_move hstep with
  | @start k _ hmain hrun hr =>
      -- behind the last worker the next place is the loop
      have hk : k < n := by
        by_contra hno
        cases (proceed_started hmain hno hrun).1.symm.trans hr
      simp only [TimedRun.toGo, TimedRun.toLeave, hmain, hr, TimedAct.ofRun, if_true]
      omega
  | launch hmain hnone =>
      simp only [TimedRun.toGo, TimedRun.toLeave, hmain, hnone, TimedAct.ofRun, if_true,
        reduceCtorEq, if_false]
      omega
  | arm hmain hsome _ hr =>
      simp only [TimedRun.toGo, TimedRun.toLeave, TimedRun.toStop, TimedRun.rounds, hmain, hr,
        TimedAct.ofRun, if_true]
      omega
  | @enter r' hmain _ hearly _ hr =>
      rw [hmain] at hplace
      have htimer : TimerSet runtimeSeconds r := hplace
      have hroom := htimer.room hearly
      have hslices := slices_le htimer
      have hgo : ({ r with run := r', sleep := .looking } : TimedRun σ).toGo runtimeSeconds
          = 24 * (r.rounds runtimeSeconds - 1) + (n + 6)
            + (2 * r.slices runtimeSeconds r.now + 3) := by
        simp only [TimedRun.toGo, hr]
        rfl
      rw [hgo]
      simp only [TimedRun.toGo, TimedRun.toLeave, TimedRun.toStop, hmain, TimedAct.ofRun, if_true,
        TimedRun.rounds]
      omega
  | ended hmain hsleep _ _ hr =>
      simp only [TimedRun.toGo, TimedRun.toLeave, TimedRun.toStop, hr, TimedAct.ofRun, if_true]
      rcases hmain with hmain | hmain
      · simp only [hmain]
        omega
      · simp only [hmain]
        omega
  | @doze hmain hsleep _ =>
      have hless := slices_doze (early_of_doze hmain hsleep rfl hstep)
      simp only [TimedRun.toGo, hmain, hsleep, TimedAct.ofRun, if_true]
      show 24 * (r.rounds runtimeSeconds - 1) + (n + 6) + (2 * r.slices runtimeSeconds _ + 4) + 1
        ≤ _
      omega
  | wake hmain hsleep hw =>
      have hless := @slices_mono _ _ runtimeSeconds r _ _ hw
      simp only [TimedRun.toGo, hmain, hsleep, TimedAct.ofRun, if_true]
      show 24 * (r.rounds runtimeSeconds - 1) + (n + 6)
        + (2 * r.slices runtimeSeconds r.now + 3) + 1 ≤ _
      omega
  | wakened hmain hsleep =>
      simp only [TimedRun.toGo, hmain, hsleep, TimedAct.ofRun, if_true]
      show 24 * (r.rounds runtimeSeconds - 1) + (n + 6) + 2 + 1 ≤ _
      omega
  | due hmain hsleep _ _ hr =>
      simp only [TimedRun.toGo, hmain, hr, hsleep, TimedAct.ofRun, if_true]
      show 24 * (r.rounds runtimeSeconds - 1) + (n + 7) + 1 ≤ _
      omega
  | update hmain _ hr =>
      simp only [TimedRun.toGo, TimedRun.toLeave, TimedRun.toStop, TimedRun.rounds,
        List.length_append, List.length_cons, List.length_nil, hmain, hr, TimedAct.ofRun, if_true]
      omega
  | stop hmain _ hr =>
      simp only [TimedRun.toGo, TimedRun.toLeave, TimedRun.toStop, hmain, hr, TimedAct.ofRun,
        if_true]
      omega
  | behind hmain hrun hr =>
      rw [toGo_behind hr, toGo_behind (.inl hmain)]
      exact toLeave_behind hmain hrun
  | request => exact toGo_env rfl (le_refl r.now)
  | tick => exact toGo_env rfl (Int.le_add_of_nonneg_right (Int.natCast_nonneg _))
  | @other b r' hrun hmain hstays =>
      cases b with
      | throwing =>
          obtain ⟨hmay, hr'⟩ := Option.ite_none_right_eq_some.mp hrun
          cases hr'
          exact toGo_pos (ne_left_of_mayThrow hmay)
      | proceed | arrive | work | signal =>
          exact toGo_env (hstays (fun hno => by cases hno)) (le_refl r.now)

/-! ## Where it waits -/

/-- The main thread goes on, unless it has left the run or joins a worker that has not finished. -/
theorem benchmark_proceeds {r : BenchmarkRun σ} {b c : Bool} (hleft : r.main ≠ .left)
    (hjoin : ∀ i : Fin n, r.main = .joining i → isFinished (r.workers i).loc = true) :
    ∃ r', r.proceed b c = some r' := by
  rw [BenchmarkRun.proceed]
  split
  case h_6 k hk =>
      split
      case isTrue hlt =>
          rw [if_pos (hjoin ⟨k, hlt⟩ hk)]
          exact ⟨_, rfl⟩
      case isFalse => exact ⟨_, rfl⟩
  case h_10 hk => exact absurd hk hleft
  case h_1 | h_2 | h_3 => split <;> exact ⟨_, rfl⟩
  all_goals exact ⟨_, rfl⟩

/-- So with the clock, unless it is asleep. -/
theorem timed_proceeds (hleft : r.run.main ≠ .left)
    (hjoin : ∀ i : Fin n, r.run.main = .joining i → isFinished (r.run.workers i).loc = true)
    (hawake : ∀ w, r.DozesUntil w → w ≤ r.now) : ∃ u, r.proceed runtimeSeconds = some u := by
  have hgoes {b c : Bool} {f : BenchmarkRun σ → TimedRun σ} :
      ∃ u, (r.run.proceed b c).map f = some u := by
    obtain ⟨r', hr'⟩ := @benchmark_proceeds _ _ r.run b c hleft hjoin
    exact ⟨f r', by rw [hr', Option.map_some]⟩
  rw [TimedRun.proceed]
  split
  case h_1 =>
      split
      · exact hgoes
      · split
        · exact ⟨_, rfl⟩
        · exact hgoes
  case h_3 hmain =>
      split
      case h_1 =>
          split
          · split <;> exact ⟨_, rfl⟩
          · exact ⟨_, rfl⟩
      case h_2 w hsleep =>
          rw [if_pos (hawake w ⟨hmain, hsleep⟩)]
          exact ⟨_, rfl⟩
      case h_3 => exact hgoes
  all_goals exact hgoes

/-- **Every run ends**: whatever else happens, and however late the system wakes it, the main
    thread takes no more than so many steps; and at any time it has left the run, or can go on,
    or sleeps for a slice at the most, or joins a worker that has not finished. -/
theorem run_ends {thread : Fin n → WorkerThread} {engine : ∀ i, σ i} {now : Int}
    {as : List (TimedAct κ)}
    (h : run (timedStep runtimeSeconds E) (TimedRun.init thread engine now) as = some r) :
    as.countP TimedAct.ofRun ≤ 24 * runtimeSeconds.toInt.toNat + 2 * n + 8
      ∧ (r.run.main = .left
        ∨ (timedStep runtimeSeconds E r .main).isSome = true
        ∨ (∃ w, r.DozesUntil w ∧ r.now < w ∧ w ≤ r.now + kSleepSlice)
        ∨ ∃ i : Fin n, r.run.main = .joining i ∧ isFinished (r.run.workers i).loc = false) := by
  have hinit : TimerInv runtimeSeconds (TimedRun.init thread engine now) :=
    timerInv_init thread engine now
  constructor
  · have hstart : (TimedRun.init thread engine now).toGo runtimeSeconds
        ≤ 24 * runtimeSeconds.toInt.toNat + 2 * n + 8 := by
      have hleave := toLeave_le (TimedRun.init thread engine now)
      simp only [TimedRun.toGo, TimedRun.init, BenchmarkRun.init] at hleave ⊢
      omega
    have hcounted : r.toGo runtimeSeconds + as.countP TimedAct.ofRun
        ≤ (TimedRun.init thread engine now).toGo runtimeSeconds :=
      run_counted (fun s a t hs hst => ⟨timerInv_step s a t hs hst, toGo_step hs hst⟩) h hinit
    omega
  · have hinv := run_invariant timerInv_step h hinit
    by_cases hleft : r.run.main = .left
    · exact .inl hleft
    by_cases hjoin : ∃ i : Fin n, r.run.main = .joining i
        ∧ isFinished (r.run.workers i).loc = false
    · exact .inr (.inr (.inr hjoin))
    by_cases hdoze : ∃ w, r.DozesUntil w ∧ r.now < w
    · obtain ⟨w, hw, hlater⟩ := hdoze
      exact .inr (.inr (.inl ⟨w, hw, hlater, hinv.asleep w hw.2⟩))
    · obtain ⟨t, ht⟩ : ∃ t, r.proceed runtimeSeconds = some t := by
        refine timed_proceeds hleft (fun i hi => ?_) (fun w hw => ?_)
        · exact Bool.eq_true_of_not_eq_false (fun hno => hjoin ⟨i, hi, hno⟩)
        · exact not_lt.mp (fun hlater => hdoze ⟨w, hw, hlater⟩)
      exact .inr (.inl (Option.isSome_iff_exists.mpr ⟨t, ht⟩))

end Run

theorem run_ends_update :
    ∃ r, run (oneTimedStep 1) oneTimed toUpdate = some r
      ∧ toUpdate.countP TimedAct.ofRun ≤ 24 * (1 : Int32).toInt.toNat + 2 * 1 + 8
      ∧ (r.run.main = .left
        ∨ (oneTimedStep 1 r .main).isSome = true
        ∨ (∃ w, r.DozesUntil w ∧ r.now < w ∧ w ≤ r.now + kSleepSlice)
        ∨ ∃ i : Fin 1, r.run.main = .joining i
          ∧ isFinished (r.run.workers i).loc = false) := by
  have h : (run (oneTimedStep 1) oneTimed toUpdate).isSome = true := by decide +kernel
  obtain ⟨r, hr⟩ := Option.isSome_iff_exists.mp h
  exact ⟨r, hr, run_ends hr⟩

end CfioOrchestrator
