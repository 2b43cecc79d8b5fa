import Cfio.GuiOutcome

/-! # What the user asks for

    A request to stop is never lost, and it is heeded: the run updates its display once more at
    the most, and not at all if it has not begun; and if the loop had not ended by then, what
    the window shows at the end says that the run was interrupted.

    `Heeds` is what one step does to a run that was asked to stop; `Heeded` is what it is worth
    to a run in a session. -/

namespace CfioQtApp

open CfioTypes CfioConfig CfioWorkerThread CfioMetrics CfioHistogram CfioDisplay
open CfioDisplayContext CfioOrchestrator CfioProgram Transition

section Session

variable {n : Nat} {σ κ : Fin n → Type} {app : QtApp σ κ} {s t : Session σ}

/-! ## A step of a run that was asked to stop -/

section Run

variable {runtimeSeconds : Int32} {E : ∀ i, Engine (σ i) (κ i)} {r u : TimedRun σ}

/-- What a step does to a run that was asked to stop. -/
structure Heeds (r u : TimedRun σ) : Prop where
  /-- no further update is decided on -/
  updates : u.updates.length + u.pending ≤ r.updates.length + r.pending
  /-- the loop is left as interrupted -/
  marked : u.run.main.hasStopped → r.run.main.hasStopped ∨ u.interrupted = true
  interrupted : r.interrupted = true → u.interrupted = true

/-- Where no update is decided on. -/
theorem pending_le (hmain : u.run.main ≠ .updating) (hupdates : u.updates = r.updates) :
    u.updates.length + u.pending ≤ r.updates.length + r.pending := by
  rw [hupdates, TimedRun.pending, if_neg hmain]
  exact Nat.add_le_add_left (Nat.zero_le _) _

/-- To a place where no update is decided on, and the loop is not left but by an exception. -/
theorem Heeds.goto (hupdates : u.updates = r.updates) (hinterrupted : u.interrupted = r.interrupted)
    (hmain : u.run.main ≠ .updating) (hbefore : ¬ u.run.main.hasStopped) : Heeds r u where
  updates := pending_le hmain hupdates
  marked := fun hstopped => absurd hstopped hbefore
  interrupted := hinterrupted.trans

/-- To no other place. -/
theorem Heeds.stay (hupdates : u.updates = r.updates) (hinterrupted : u.interrupted = r.interrupted)
    (hmain : u.run.main = r.run.main) : Heeds r u where
  updates := by rw [hupdates, TimedRun.pending, TimedRun.pending, hmain]
  marked := fun hstopped => .inl (hmain ▸ hstopped)
  interrupted := hinterrupted.trans

theorem heeds_step {a : TimedAct κ} (hasked : r.stopRequested = true)
    (hstep : timedStep runtimeSeconds E r a = some u) : Heeds r u := by
  have hstop : r.shouldStop = true := shouldStop_iff.mpr (.inr hasked)
  cases timedStep_move hstep with
  | start _ _ hr => exact .goto rfl rfl (by simp [hr]) (by simp [hr, BenchmarkLoc.hasStopped])
  | arm _ _ _ hr => exact .goto rfl rfl (by simp [hr]) (by simp [hr, BenchmarkLoc.hasStopped])
  | ended _ _ _ _ hr => exact .goto rfl rfl (by simp [hr]) (by simp [hr, BenchmarkLoc.hasStopped])
  | launch | wake | wakened | request | tick => exact .stay rfl rfl rfl
  -- what is only done while nobody has asked for a stop
  | enter _ hgo => cases hgo.symm.trans hstop
  | doze _ _ hgo => cases hgo.symm.trans hstop
  | due _ _ hgo => cases hgo.symm.trans hstop
  -- the update that was decided on before
  | update hmain _ hr =>
      refine ⟨?_, fun hstopped => ?_, id⟩
      · simp [TimedRun.pending, hmain, hr]
      · rw [hr] at hstopped
        exact hstopped.elim
  -- here it is found out whether the run was interrupted
  | stop _ _ hr => exact ⟨pending_le (by simp [hr]) rfl, fun _ => .inr hstop, fun _ => hstop⟩
  | behind hmain _ hr =>
      refine ⟨pending_le (fun hno => ?_) rfl, fun _ => .inl hmain, id⟩
      rcases hr with hr | hr
      · rw [hno] at hr
        exact hr
      · cases hno.symm.trans hr
  | other _ hmain =>
      rcases hmain with hmain | hmain
      · exact .stay rfl rfl hmain
      · exact .goto rfl rfl (by simp [hmain]) (by simp [hmain, BenchmarkLoc.hasStopped])

end Run

/-! ## The run in a session -/

/-- Of the run of a session whose user has asked for a stop: how often it updates its display,
    and, if the request was in time, that its results will say so. -/
structure Heeded (limit : Nat) (inTime : Prop) (d : DisplayRun σ) : Prop where
  updates : d.timed.updates.length + d.timed.pending ≤ limit
  stopped : inTime → d.timed.run.main.hasStopped → d.timed.interrupted = true
  shown : inTime → ∀ results, .showSummary results ∈ d.calls → d.timed.interrupted = true

variable {limit : Nat} {inTime : Prop}

theorem heeded_step {runtimeSeconds : Int32} {E : ∀ i, Engine (σ i) (κ i)} {d d' : DisplayRun σ}
    {a : DisplayAct κ} (h : Heeded limit inTime d) (hasked : d.timed.stopRequested = true)
    (hstep : displayRunStep runtimeSeconds E d a = some d') : Heeded limit inTime d' := by
  obtain ⟨u, hu, hd'⟩ := Option.map_eq_some_iff.mp hstep
  have hheeds : Heeds d.timed d'.timed := by
    rw [← hd']
    exact heeds_step hasked hu
  refine ⟨hheeds.updates.trans h.updates, fun hin hstopped => ?_, fun hin results hcall => ?_⟩
  -- once the loop is left the mark stays
  · rcases hheeds.marked hstopped with hbefore | hmarked
    · exact hheeds.interrupted (h.stopped hin hbefore)
    · exact hmarked
  · rcases showSummary_of_step hstep hcall with hbefore | ⟨hmain, -, -⟩
    · exact hheeds.interrupted (h.shown hin results hbefore)
    · refine hheeds.interrupted (h.stopped hin ?_)
      rw [hmain]
      trivial

/-- A run that is entered with the request. -/
theorem heeded_entered (app : QtApp σ κ) (now : TimePoint) (stopRequested : Bool) :
    Heeded limit inTime (app.entered now stopRequested) where
  updates := by simp [QtApp.entered, DisplayRun.init, TimedRun.init, BenchmarkRun.init,
    TimedRun.pending]
  stopped := fun _ hno => hno.elim
  shown := fun _ results hcall => by simp [QtApp.entered, DisplayRun.init] at hcall

/-- A session whose user has asked for a stop. -/
structure UserStopped (app : QtApp σ κ) (limit : Nat) (inTime : Prop) (s : Session σ) :
    Prop where
  inv : SessionInv app s
  asked : s.gui.mailbox.stopRequested = true
  run : ∀ d, s.bench = some d → Heeded limit inTime d

/-- A request, or the clock: what is heeded stays heeded. -/
theorem UserStopped.env (h : UserStopped app limit inTime s) (hinv : SessionInv app t)
    (hasked : t.gui.mailbox.stopRequested = true)
    (hbench : ∀ e, t.bench = some e → ∃ d stopRequested now, s.bench = some d
      ∧ e = { d with timed := { d.timed with stopRequested := stopRequested, now := now } }) :
    UserStopped app limit inTime t where
  inv := hinv
  asked := hasked
  run := by
    intro e he
    obtain ⟨d, stopRequested, now, hd, rfl⟩ := hbench e he
    exact ⟨(h.run d hd).updates, (h.run d hd).stopped, (h.run d hd).shown⟩

theorem userStopped_step (s : Session σ) (a : SessionAct κ) (t : Session σ)
    (h : UserStopped app limit inTime s) (hstep : sessionStep app s a = some t) :
    UserStopped app limit inTime t := by
  have hinv := sessionInv_step s a t h.inv hstep
  have hrequest {loop : EventLoop} {stopEnabled : Bool}
      (ht : SessionInv app { s.requestStop with loop := loop, stopEnabled := stopEnabled }) :
      UserStopped app limit inTime
        { s.requestStop with loop := loop, stopEnabled := stopEnabled } := by
    refine h.env ht rfl (fun e he => ?_)
    obtain ⟨d, hd, rfl⟩ := Option.map_eq_some_iff.mp he
    exact ⟨d, true, d.timed.now, hd, rfl⟩
  have hrun {d d' : DisplayRun σ} {b : DisplayAct κ} (hd : s.bench = some d)
      (hd' : displayRunStep app.runtimeSeconds app.engines d b = some d')
      (ht : SessionInv app (s.ranTo app d d' b)) :
      UserStopped app limit inTime (s.ranTo app d d' b) := by
    refine ⟨ht, h.asked, fun e he => ?_⟩
    obtain rfl := Option.some.inj he
    -- the display of the run sees the flag of the mailbox
    exact heeded_step (h.run d hd) ((h.inv.asked d hd).trans h.asked) hd'
  cases sessionStep_move hstep with
  | enter =>
      refine ⟨hinv, h.asked, fun d hd => ?_⟩
      obtain rfl := Option.some.inj hd
      exact heeded_entered app s.now s.gui.mailbox.stopRequested
  | main hbench _ _ hd' => exact hrun hbench hd' hinv
  | other hbench _ _ hd' => exact hrun hbench hd' hinv
  | write hwrite =>
      exact ⟨hinv, (stopRequested_step hwrite (fun hno => by cases hno)).trans h.asked, h.run⟩
  | poll _ hpoll =>
      exact ⟨hinv, (stopRequested_step hpoll (fun hno => by cases hno)).trans h.asked, h.run⟩
  | finish | quit | join | outlive | destroy | destroyed => exact ⟨hinv, h.asked, h.run⟩
  | clickClose | clickStop | close | leave => exact hrequest hinv
  | tick =>
      refine h.env hinv h.asked (fun e he => ?_)
      obtain ⟨d, hd, rfl⟩ := Option.map_eq_some_iff.mp he
      exact ⟨d, d.timed.stopRequested, _, hd, rfl⟩

/-! ## What becomes of a request -/

/-- When the display was updated. -/
def Session.updates (s : Session σ) : List Int := s.bench.elim [] (fun d => d.timed.updates)

/-- The run is about to update its display. -/
def Session.updating (s : Session σ) : Prop :=
  ∃ d, s.bench = some d ∧ d.timed.run.main = .updating

/-- The run is over, or has left its loop. -/
def Session.past (s : Session σ) : Prop := ∃ d, s.bench = some d ∧ d.timed.Past

/-- **The user stops the run**: a request stays asked for.  From then on the display is updated
    once more at the most, and only if that was about to happen; and if it came before the end
    of the loop, the window shows in the end the results of an interrupted run, or that there
    are none. -/
theorem user_stop {now : TimePoint} {before after : List (SessionAct κ)}
    (h : run (sessionStep app) (Session.init app now) before = some s)
    (hasked : s.gui.mailbox.stopRequested = true)
    (h' : run (sessionStep app) s after = some t) :
    t.gui.mailbox.stopRequested = true
      ∧ t.updates.length ≤ s.updates.length + 1
      ∧ (¬ s.updating → t.updates.length ≤ s.updates.length)
      ∧ (¬ s.past → t.gui.window.finished = true →
        (∃ d collected, t.bench = some d ∧ (app.results d.timed collected).interrupted = true
          ∧ t.gui.window.status = buildRunSummary (app.results d.timed collected))
        ∨ t.gui.window.status = "run ended without results, see log") := by
  have hinv := sessionInv_run h
  have hstart : UserStopped app (s.updates.length + s.bench.elim 0 (fun d => d.timed.pending))
      (¬ s.past) s := by
    refine ⟨hinv, hasked, fun d hd => ⟨?_, fun hin hstopped => ?_, fun hin results hcall => ?_⟩⟩
    · rw [Session.updates, hd]
      exact Nat.le_refl _
    · exact absurd ⟨d, hd, .inl hstopped⟩ hin
    · exact absurd ⟨d, hd, .inr ((hinv.run d hd).shown results hcall).1⟩ hin
  have hend := run_invariant userStopped_step h' hstart
  have hupdates : t.updates.length
      ≤ s.updates.length + s.bench.elim 0 (fun d => d.timed.pending) := by
    cases hbench : t.bench with
    | none =>
        rw [Session.updates, hbench]
        exact Nat.zero_le _
    | some d =>
        have hd := (hend.run d hbench).updates
        rw [Session.updates, hbench]
        exact (Nat.le_add_right _ _).trans hd
  refine ⟨hend.asked, ?_, fun hno => ?_, fun hin hfin => ?_⟩
  · refine hupdates.trans (Nat.add_le_add_left ?_ _)
    cases s.bench with
    | none => exact Nat.zero_le 1
    | some d => exact pending_le_one d.timed
  · have hnone : s.bench.elim 0 (fun d => d.timed.pending) = 0 := by
      cases hbench : s.bench with
      | none => rfl
      | some d => exact if_neg (fun hmain => hno ⟨d, hbench, hmain⟩)
    rw [hnone] at hupdates
    exact hupdates
  · obtain ⟨outcome, houtcome, htaken⟩ := taken_of_finished (run_append h h') hfin
    cases outcome with
    | none => exact .inr htaken.status
    | some results =>
        obtain ⟨d, hd, -, hcall⟩ := houtcome
        obtain ⟨-, -, collected, rfl⟩ := (hend.inv.run d hd).shown results hcall
        exact .inl ⟨d, collected, hd, (hend.run d hd).shown hin _ hcall, htaken.status⟩

end Session

/-- The request in the session that the user stops, and what follows it. -/
theorem user_stop_once :
    ∃ s t, run (sessionStep oneApp) (Session.init oneApp 0) (stoppedSession.take 8) = some s
      ∧ run (sessionStep oneApp) s (stoppedSession.drop 8) = some t
      ∧ t.gui.mailbox.stopRequested = true
      ∧ t.updates.length ≤ s.updates.length + 1
      ∧ (¬ s.updating → t.updates.length ≤ s.updates.length)
      ∧ (¬ s.past → t.gui.window.finished = true →
        (∃ d collected, t.bench = some d ∧ (oneApp.results d.timed collected).interrupted = true
          ∧ t.gui.window.status = buildRunSummary (oneApp.results d.timed collected))
        ∨ t.gui.window.status = "run ended without results, see log") := by
  have h : (run (sessionStep oneApp) (Session.init oneApp 0) (stoppedSession.take 8)).map
      (fun s => (s.gui.mailbox.stopRequested,
        (run (sessionStep oneApp) s (stoppedSession.drop 8)).isSome)) = some (true, true) := by
    decide +kernel
  obtain ⟨s, hs, hat⟩ := Option.map_eq_some_iff.mp h
  obtain ⟨hasked, hsome⟩ := Prod.mk.inj hat
  obtain ⟨t, ht⟩ := Option.isSome_iff_exists.mp hsome
  exact ⟨s, t, hs, ht, user_stop hs hasked ht⟩

end CfioQtApp
