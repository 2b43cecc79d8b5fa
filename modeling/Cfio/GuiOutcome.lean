import Cfio.GuiSession

/-! # What the user of the window sees

    In every session, however its threads take turns, a window that says the run is over shows
    the totals of this very run, and says that there are none only when `Run` has failed; and
    once `Run` has returned the next few polls end the window's run. -/

namespace CfioQtApp

open CfioTypes CfioConfig CfioWorkerThread CfioMetrics CfioHistogram CfioDisplay
open CfioDisplayContext CfioOrchestrator CfioProgram Transition

section Session

variable {n : Nat} {σ κ : Fin n → Type} {app : QtApp σ κ} {s t : Session σ}

/-! ## Steps of the run -/

section Run

variable {runtimeSeconds : Int32} {E : ∀ i, Engine (σ i) (κ i)} {d d' : DisplayRun σ}

/-- Once it is left, nothing happens in a run. -/
theorem displayRunStep_left (hmain : d.timed.run.main = .left) {a : DisplayAct κ}
    (ha : a.act = .main ∨ ∃ b, a.act = .other b) :
    displayRunStep runtimeSeconds E d a = none := by
  obtain ⟨act, snapshot, results⟩ := a
  rcases ha with rfl | ⟨b, rfl⟩
  · simp [displayRunStep, timedStep, TimedRun.proceed, BenchmarkRun.proceed, hmain]
  · cases b with
    | proceed => rfl
    | throwing | arrive | work | signal =>
        simp [displayRunStep, timedStep, benchmarkStep, hmain, BenchmarkLoc.mayThrow]

/-- The step that shows the summary leaves the run, and changes nothing else in it. -/
theorem displayRunStep_summing (hmain : d.timed.run.main = .summing) (snapshot : MetricsSnapshot)
    (results : BenchmarkResults) :
    displayRunStep runtimeSeconds E d ⟨.main, snapshot, results⟩
      = some
        { d with
          timed := { d.timed with run := { d.timed.run with main := .left } }
          calls := d.calls ++ [.showSummary results, .shutdown] } := by
  simp [displayRunStep, timedStep, TimedRun.proceed, BenchmarkRun.proceed, hmain,
    callsOf_summing hmain, DisplayAct.throws]

/-- No other step shows a summary. -/
theorem showSummary_of_step {a : DisplayAct κ} {results : BenchmarkResults}
    (hstep : displayRunStep runtimeSeconds E d a = some d')
    (hcall : .showSummary results ∈ d'.calls) :
    .showSummary results ∈ d.calls
      ∨ d.timed.run.main = .summing ∧ a.act = .main ∧ results = a.results := by
  obtain ⟨u, hu, rfl⟩ := Option.map_eq_some_iff.mp hstep
  rcases List.mem_append.mp hcall with hcall | hcall
  · exact .inl hcall
  · rw [callsOf] at hcall
    split at hcall
    case h_1 => simp at hcall
    case h_2 hmain hact =>
        simp only [List.mem_cons, DisplayCall.showSummary.injEq, reduceCtorEq, List.not_mem_nil,
          or_false] at hcall
        exact .inr ⟨hmain, hact, hcall⟩
    case h_3 => simp at hcall
    case h_4 => simp at hcall

/-- The workers know nothing of the display. -/
theorem benchmarkInv_display {a : DisplayAct κ} (h : BenchmarkInv d.timed.run)
    (hstep : displayRunStep runtimeSeconds E d a = some d') : BenchmarkInv d'.timed.run := by
  obtain ⟨u, hu, rfl⟩ := Option.map_eq_some_iff.mp hstep
  obtain ⟨bs, hbs⟩ := timed_refines (run_single hu)
  exact run_invariant benchmarkInv_step hbs h

end Run

/-! ## The invariant -/

/-- Of the workers and the summary of a run in a session. -/
structure RunInv (app : QtApp σ κ) (d : DisplayRun σ) : Prop where
  workers : BenchmarkInv d.timed.run
  /-- a summary is that of this run, and the last thing that happens in it -/
  shown : ∀ results, .showSummary results ∈ d.calls →
    d.timed.run.main = .left ∧ (∀ i, isFinished (d.timed.run.workers i).loc = true)
      ∧ ∃ collected, results = app.results d.timed collected

/-- What holds of a session. -/
structure SessionInv (app : QtApp σ κ) (s : Session σ) : Prop where
  run : ∀ d, s.bench = some d → RunInv app d
  asked : ∀ d, s.bench = some d → d.timed.stopRequested = s.gui.mailbox.stopRequested
  returned : s.returned ≠ none → ∀ d, s.bench = some d → d.timed.run.main = .left
  code : s.returned = some EXIT_SUCCESS → ∃ d, s.bench = some d ∧ d.threw = false
    ∧ ∀ i, (d.timed.run.workers i).thread.failed = false
  joining : s.loop = .joining → s.gui.mailbox.stopRequested = true
  joined : ∀ rc, s.loop.code = some rc → s.returned = some rc ∧ s.idle = true
    ∧ s.gui.mailbox.stopRequested = true
  /-- the workers go on from where the run was left -/
  outlived : ∀ r, s.outlived = some r →
    ∃ d, s.bench = some d ∧ d.timed.run.main = .left ∧ Outlives d.timed.run r
  ended : ∀ i : Fin n, s.loop.hasJoined i → s.ended i = true

/-- A run that is entered has shown nothing. -/
theorem runInv_entered (app : QtApp σ κ) (now : TimePoint) (stopRequested : Bool) :
    RunInv app (app.entered now stopRequested) where
  workers := benchmarkInv_init app.thread app.engine
  shown := fun results hcall => by simp [QtApp.entered, DisplayRun.init] at hcall

/-- A step in the run, with the results of the run where results are shown. -/
theorem RunInv.step {d d' : DisplayRun σ} (h : RunInv app d) {a : DisplayAct κ}
    (ha : a.act = .main ∨ ∃ b, a.act = .other b)
    (hresults : ∃ collected, a.results = app.results d.timed collected ∨ a.act ≠ .main)
    (hstep : displayRunStep app.runtimeSeconds app.engines d a = some d') : RunInv app d' where
  workers := benchmarkInv_display h.workers hstep
  shown := by
    intro results hcall
    rcases showSummary_of_step hstep hcall with hbefore | ⟨hmain, hact, rfl⟩
    -- a run that has shown its summary is left, and takes no step
    · rw [displayRunStep_left (h.shown results hbefore).1 ha] at hstep
      cases hstep
    · obtain ⟨act, snapshot, results⟩ := a
      obtain rfl : act = .main := hact
      obtain ⟨collected, hcollected | hno⟩ := hresults
      -- this is the step that shows it: the workers were joined before
      · rw [displayRunStep_summing hmain] at hstep
        cases hstep
        refine ⟨rfl, fun i => h.workers.joined i ?_, collected, hcollected⟩
        rw [hmain]
        trivial
      · exact absurd rfl hno

/-- What the user and the clock do to a run. -/
theorem RunInv.env {d : DisplayRun σ} (h : RunInv app d) (stopRequested : Bool) (now : TimePoint) :
    RunInv app { d with timed := { d.timed with stopRequested := stopRequested, now := now } } where
  workers := h.workers
  shown := h.shown

theorem sessionInv_init (app : QtApp σ κ) (now : TimePoint) :
    SessionInv app (Session.init app now) where
  run := fun d hd => by cases hd
  asked := fun d hd => by cases hd
  returned := fun hno => absurd rfl hno
  code := fun hno => by cases hno
  joining := fun hno => by cases hno
  joined := fun rc hno => by cases hno
  outlived := fun r hno => by cases hno
  ended := fun i hno => hno.elim

/-- A request to stop, and where it leaves the main thread. -/
theorem SessionInv.requestStop (h : SessionInv app s) {loop : EventLoop} {stopEnabled : Bool}
    (hloop : loop.code = none) :
    SessionInv app { s.requestStop with loop := loop, stopEnabled := stopEnabled } where
  run := by
    intro e he
    obtain ⟨d, hd, rfl⟩ := Option.map_eq_some_iff.mp he
    exact (h.run d hd).env true d.timed.now
  asked := by
    intro e he
    obtain ⟨d, -, rfl⟩ := Option.map_eq_some_iff.mp he
    rfl
  returned := by
    intro hreturned e he
    obtain ⟨d, hd, rfl⟩ := Option.map_eq_some_iff.mp he
    exact h.returned hreturned d hd
  code := by
    intro hcode
    obtain ⟨d, hd, hd'⟩ := h.code hcode
    exact ⟨_, congrArg (Option.map _) hd, hd'⟩
  joining := fun _ => rfl
  joined := fun rc hno => by cases hloop.symm.trans hno
  outlived := by
    intro r hr
    obtain ⟨d, hd, hleft, houtlives⟩ := h.outlived r hr
    exact ⟨_, congrArg (Option.map _) hd, hleft, houtlives⟩
  ended := fun i hno => absurd hno (not_hasJoined hloop i)

/-- A step of the mailbox or the window. -/
theorem SessionInv.gui (h : SessionInv app s) {a : GuiAct} {gui : GuiRun _ _} {stopEnabled : Bool}
    (hstep : mailboxStep resultsView s.gui a = some gui) (ha : a ≠ .requestStop)
    (hbusy : s.loop.code = none) :
    SessionInv app { s with gui := gui, stopEnabled := stopEnabled } where
  run := h.run
  asked := fun d hd => (h.asked d hd).trans (stopRequested_step hstep ha).symm
  returned := h.returned
  code := h.code
  joining := fun hloop => (stopRequested_step hstep ha).trans (h.joining hloop)
  joined := fun rc hno => by cases hbusy.symm.trans hno
  outlived := h.outlived
  ended := fun i hno => absurd hno (not_hasJoined hbusy i)

/-- Before `Run` has returned nobody has joined. -/
theorem SessionInv.code_eq_none (h : SessionInv app s) (hreturned : s.returned = none) :
    s.loop.code = none := by
  cases hcode : s.loop.code with
  | none => rfl
  | some rc => cases hreturned.symm.trans (h.joined rc hcode).1

/-- A step in the run. -/
theorem SessionInv.ranTo (h : SessionInv app s) {d d' : DisplayRun σ} {a : DisplayAct κ}
    (hbench : s.bench = some d) (hreturned : s.returned = none)
    (ha : a.act = .main ∨ ∃ b, a.act = .other b)
    (hresults : ∃ collected, a.results = app.results d.timed collected ∨ a.act ≠ .main)
    (hstep : displayRunStep app.runtimeSeconds app.engines d a = some d') :
    SessionInv app (s.ranTo app d d' a) where
  run := by
    intro e he
    obtain rfl := Option.some.inj he
    exact (h.run d hbench).step ha hresults hstep
  asked := by
    intro e he
    obtain rfl := Option.some.inj he
    refine Eq.trans ?_ (h.asked d hbench)
    obtain ⟨u, hu, rfl⟩ := Option.map_eq_some_iff.mp hstep
    obtain ⟨act, snapshot, results⟩ := a
    -- only a request changes it
    cases timedStep_move hu with
    | request =>
        rcases ha with ha | ⟨b, ha⟩
        · cases ha
        · cases ha
    | _ => rfl
  returned := fun hno => absurd hreturned hno
  code := by
    intro hcode
    have hno : s.returned = some EXIT_SUCCESS := hcode
    rw [hreturned] at hno
    cases hno
  joining := h.joining
  joined := fun rc hno => by cases (h.code_eq_none hreturned).symm.trans hno
  outlived := by
    intro r hr
    obtain ⟨e, he, hleft, -⟩ := h.outlived r hr
    obtain rfl := Option.some.inj (hbench.symm.trans he)
    -- workers go on by themselves only where the run takes no step
    rw [displayRunStep_left hleft ha] at hstep
    cases hstep
  ended := fun i hno => absurd hno (not_hasJoined (h.code_eq_none hreturned) i)

/-- `Run` has succeeded only if nothing was thrown and no worker failed. -/
theorem exitCode_success {exported : Bool} (h : s.exitCode exported = EXIT_SUCCESS) :
    ∃ d, s.bench = some d ∧ d.threw = false
      ∧ ∀ i, (d.timed.run.workers i).thread.failed = false := by
  rw [Session.exitCode] at h
  split at h
  case h_1 => cases h
  case h_2 d hbench =>
      split at h
      case isTrue => cases h
      case isFalse hall =>
          simp only [not_or, not_exists, Bool.not_eq_true] at hall
          exact ⟨d, hbench, hall.1, hall.2.2⟩

/-- A worker goes on behind the run. -/
theorem SessionInv.outlive (h : SessionInv app s) {i : Fin n} {env : Env (κ i)}
    {r r' : BenchmarkRun σ} (hworkers : s.workers = some r)
    (hstep : outliveStep app.engines r i env = some r') :
    SessionInv app { s with outlived := some r' } := by
  obtain ⟨hleft, houtlives⟩ := outlives_step hstep
  refine { h with outlived := fun u hu => ?_, ended := fun j hj => ?_ }
  · obtain rfl := Option.some.inj hu
    rcases Option.or_eq_some_iff.mp hworkers with hr | ⟨-, hr⟩
    · obtain ⟨d, hd, hmain, hbefore⟩ := h.outlived r hr
      exact ⟨d, hd, hmain, hbefore.trans houtlives⟩
    · obtain ⟨d, hd, rfl⟩ := Option.map_eq_some_iff.mp hr
      exact ⟨d, hd, hleft, houtlives⟩
  · have hended := h.ended j hj
    rw [Session.ended, hworkers] at hended
    exact houtlives.ended hended

/-- The main thread goes on with what is behind its join. -/
theorem SessionInv.goto (h : SessionInv app s) {rc : Int32} {loop : EventLoop}
    (hcode : loop.code = some rc)
    (hjoined : s.returned = some rc ∧ s.idle = true ∧ s.gui.mailbox.stopRequested = true)
    (hended : ∀ i : Fin n, loop.hasJoined i → s.ended i = true) :
    SessionInv app { s with loop := loop } where
  run := h.run
  asked := h.asked
  returned := h.returned
  code := h.code
  joining := by
    rintro rfl
    cases hcode
  joined := by
    intro rc' hrc'
    obtain rfl := Option.some.inj (hcode.symm.trans hrc')
    exact hjoined
  outlived := h.outlived
  ended := hended

/-- `RunBenchmark` is entered: no worker has run before. -/
theorem SessionInv.enter (h : SessionInv app s) (hbench : s.bench = none)
    (hreturned : s.returned = none) : SessionInv app (s.enter app) where
  run := by
    intro d hd
    obtain rfl := Option.some.inj hd
    exact runInv_entered app s.now s.gui.mailbox.stopRequested
  asked := by
    intro d hd
    obtain rfl := Option.some.inj hd
    rfl
  returned := fun hno => absurd hreturned hno
  code := fun hno => by cases hreturned.symm.trans hno
  joining := h.joining
  joined := fun rc hno => by cases (h.code_eq_none hreturned).symm.trans hno
  outlived := by
    intro r hr
    obtain ⟨d, hd, -⟩ := h.outlived r hr
    cases hbench.symm.trans hd
  ended := fun i hno => absurd hno (not_hasJoined (h.code_eq_none hreturned) i)

/-- Time passes, in the run as elsewhere. -/
theorem SessionInv.tick (h : SessionInv app s) (elapsed : Nat) :
    SessionInv app
      { s with
        now := s.now + elapsed
        bench := s.bench.map fun d =>
          { d with timed := { d.timed with now := d.timed.now + elapsed } } } := by
  refine { h with
    run := ?_, asked := ?_, returned := ?_, code := ?_, outlived := ?_, ended := ?_ }
  · intro e he
    obtain ⟨d, hd, rfl⟩ := Option.map_eq_some_iff.mp he
    exact (h.run d hd).env d.timed.stopRequested _
  · intro e he
    obtain ⟨d, hd, rfl⟩ := Option.map_eq_some_iff.mp he
    exact h.asked d hd
  · intro hreturned e he
    obtain ⟨d, hd, rfl⟩ := Option.map_eq_some_iff.mp he
    exact h.returned hreturned d hd
  · intro hcode
    obtain ⟨d, hd, hd'⟩ := h.code hcode
    exact ⟨_, congrArg (Option.map _) hd, hd'⟩
  · intro r hr
    obtain ⟨d, hd, hd'⟩ := h.outlived r hr
    exact ⟨_, congrArg (Option.map _) hd, hd'⟩
  · intro i hi
    have hended := h.ended i hi
    rw [Session.ended, Session.workers] at hended ⊢
    rw [Option.map_map]
    exact hended

/-- Every step keeps the invariant. -/
theorem sessionInv_step (s : Session σ) (a : SessionAct κ) (t : Session σ)
    (h : SessionInv app s) (hstep : sessionStep app s a = some t) : SessionInv app t := by
  cases sessionStep_move hstep with
  | enter hbench hreturned => exact h.enter hbench hreturned
  | @main _ collected _ _ hbench hreturned _ hrun =>
      exact h.ranTo hbench hreturned (.inl rfl) ⟨collected, .inl rfl⟩ hrun
  | other hbench hreturned _ hrun =>
      exact h.ranTo hbench hreturned (.inr ⟨_, rfl⟩) ⟨{}, .inr (fun hno => by cases hno)⟩ hrun
  | write hwrite =>
      refine h.gui hwrite (fun hno => by cases hno) ?_
      cases hcode : s.loop.code with
      | none => rfl
      | some rc =>
          -- nothing is left to be written
          have hidle := (h.joined rc hcode).2.1
          rw [Session.idle, Bool.and_eq_true, List.isEmpty_iff, Option.isNone_iff_eq_none] at hidle
          have hnone : writerStep s.gui = none := by rw [writerStep, hidle.1, hidle.2]
          cases hnone.symm.trans hwrite
  | finish hreturned hidle hout =>
      have hcode := h.code_eq_none hreturned
      refine { h with returned := fun _ => hout, code := fun hsuccess => ?_, joined := ?_ }
      · exact exitCode_success (Option.some.inj hsuccess)
      · intro rc hno
        cases hcode.symm.trans hno
  | poll hloop hpoll => exact h.gui hpoll (fun hno => by cases hno) (hloop ▸ rfl)
  | clickClose | close | leave => exact h.requestStop rfl
  | clickStop hloop => exact h.requestStop (hloop ▸ rfl)
  | quit =>
      refine { h with
        joining := fun hno => ?_
        joined := fun rc hno => ?_
        ended := fun i hno => ?_ }
      · cases hno
      · cases hno
      · exact hno.elim
  | join hloop hidle hreturned =>
      exact h.goto rfl ⟨hreturned, hidle, h.joining hloop⟩
        (fun i hno => absurd hno (Nat.not_lt_zero i))
  | outlive hworkers hwork => exact h.outlive hworkers hwork
  | @destroy rc k hloop hk hended =>
      refine h.goto rfl (h.joined rc (hloop ▸ rfl)) (fun i hi => ?_)
      rcases Nat.lt_succ_iff_lt_or_eq.mp hi with hlt | heq
      · exact h.ended i (hloop ▸ hlt)
      · obtain rfl : i = ⟨k, hk⟩ := Fin.ext heq
        exact hended
  | @destroyed rc k hloop hk =>
      refine h.goto rfl (h.joined rc (hloop ▸ rfl)) (fun i _ => h.ended i ?_)
      rw [hloop]
      exact lt_of_lt_of_le i.isLt (Nat.not_lt.mp hk)
  | tick => exact h.tick _

theorem sessionInv_run {now : TimePoint} {as : List (SessionAct κ)}
    (h : run (sessionStep app) (Session.init app now) as = some s) : SessionInv app s :=
  run_invariant sessionInv_step h (sessionInv_init app now)

/-- The workers are where the run has left them, or have gone on from there. -/
theorem SessionInv.workers (h : SessionInv app s) {d : DisplayRun σ} (hbench : s.bench = some d) :
    ∃ r, s.workers = some r ∧ Outlives d.timed.run r := by
  rw [Session.workers]
  cases houtlived : s.outlived with
  | none =>
      rw [hbench]
      exact ⟨d.timed.run, rfl, .refl _⟩
  | some r =>
      obtain ⟨e, he, -, hr⟩ := h.outlived r houtlived
      obtain rfl := Option.some.inj (hbench.symm.trans he)
      exact ⟨r, rfl, hr⟩

/-! ## What the window is told -/

/-- What the live calls of the run tell the mailbox. -/
theorem flatMap_liveCalls (context : DisplayContext) (runtimeSeconds : Int32) (now : TimePoint)
    (views : List (MetricsSnapshot × TimePoint)) :
    (liveCalls runtimeSeconds now views).flatMap (qtDisplayCalls context)
      = displayCalls context runtimeSeconds (views.map Prod.fst) := by
  have hviews : (views.map fun view => DisplayCall.update view.1 view.2).flatMap
      (qtDisplayCalls context) = views.map fun view => .publishSnapshot view.1 := by
    induction views with
    | nil => rfl
    | cons view views ih =>
        rw [List.map_cons, List.flatMap_cons, ih]
        rfl
  rw [liveCalls, List.flatMap_cons, hviews]
  simp [qtDisplayCalls, displayCalls]

/-- What a run that is over has handed over: the results it has shown, or nothing. -/
def RunOutcome (s : Session σ) : Option BenchmarkResults → Prop
  | some results => ∃ d, s.bench = some d ∧ d.threw = false ∧ .showSummary results ∈ d.calls
  | none => ∀ d, s.bench = some d → d.timed.run.main = .left ∧ d.threw = true

/-- **The calls of a session are those of a run**: of one that is over, completed or cut short,
    or of one that goes on. -/
theorem session_script {now : TimePoint} {as : List (SessionAct κ)}
    (h : run (sessionStep app) (Session.init app now) as = some s) :
    (∃ outcome, RunScript outcome (s.made app) ∧ RunOutcome s outcome)
      ∨ s.returned = none ∧ ∀ call ∈ s.made app, call.isEarly = true := by
  have hinv := sessionInv_run h
  cases hbench : s.bench with
  | none =>
      cases hreturned : s.returned with
      | none =>
          refine .inr ⟨rfl, fun call hcall => ?_⟩
          rw [Session.made, hbench, hreturned] at hcall
          cases hcall
      | some rc =>
          -- `Run` has failed before `RunBenchmark`
          refine .inl ⟨none, ?_, fun d hd => by cases hbench.symm.trans hd⟩
          rw [Session.made, hbench, hreturned]
          exact .aborted 0
  | some d =>
      obtain ⟨start, bs, hrun⟩ := bench_reached h hbench
      obtain ⟨views, -, hcalls⟩ :=
        run_invariant callsInv_step hrun (callsInv_init app.thread app.engine start)
      have hlive := flatMap_liveCalls app.context app.runtimeSeconds start views
      by_cases hleft : d.timed.run.main = .left
      · rw [if_pos hleft] at hcalls
        -- once `Run` has returned there is a second `MarkShutdown`
        obtain ⟨k, hmade⟩ : ∃ k, s.made app
            = d.calls.flatMap (qtDisplayCalls app.context) ++ List.replicate k .markShutdown := by
          rw [Session.made, hbench]
          cases s.returned with
          | none => exact ⟨0, rfl⟩
          | some rc => exact ⟨1, rfl⟩
        by_cases hthrew : d.threw = true
        · rw [if_pos hthrew] at hcalls
          refine .inl ⟨none, ?_, fun e he => ?_⟩
          · rw [hmade, hcalls, List.flatMap_append, hlive, List.append_assoc]
            exact runScript_aborted (List.prefix_refl _) k
          · rw [← Option.some.inj (hbench.symm.trans he)]
            exact ⟨hleft, hthrew⟩
        · rw [if_neg hthrew] at hcalls
          obtain ⟨results, hcalls⟩ := hcalls
          refine .inl ⟨some results, ?_, d, hbench, Bool.not_eq_true _ ▸ hthrew, ?_⟩
          · rw [hmade, hcalls, List.flatMap_append, hlive, List.append_assoc]
            exact runScript_completed _ _ _ results k
          · rw [hcalls]
            simp
      · have hreturned : s.returned = none := by
          by_contra hno
          exact hleft (hinv.returned hno d hbench)
        rw [if_neg hleft] at hcalls
        refine .inr ⟨hreturned, ?_⟩
        have hmade : s.made app = d.calls.flatMap (qtDisplayCalls app.context) := by
          rw [Session.made, hbench, hreturned]
          exact List.append_nil _
        rw [hmade, hcalls.2, hlive]
        exact displayCalls_early _ _ _

/-- A run that was not left by an exception has joined its workers. -/
theorem ended_of_left {now : TimePoint} {as : List (SessionAct κ)}
    (h : run (sessionStep app) (Session.init app now) as = some s) {d : DisplayRun σ}
    (hbench : s.bench = some d) (hleft : d.timed.run.main = .left) (hthrew : d.threw = false)
    (i : Fin n) : s.ended i = true := by
  have hinv := sessionInv_run h
  obtain ⟨start, bs, hrun⟩ := bench_reached h hbench
  obtain ⟨views, -, hcalls⟩ :=
    run_invariant callsInv_step hrun (callsInv_init app.thread app.engine start)
  rw [if_pos hleft, if_neg (by rw [hthrew]; exact Bool.false_ne_true)] at hcalls
  obtain ⟨results, hcalls⟩ := hcalls
  have hshown : .showSummary results ∈ d.calls := by
    rw [hcalls]
    simp
  have hfin := ((hinv.run d hbench).shown results hshown).2.1 i
  obtain ⟨r, hr, houtlives⟩ := hinv.workers hbench
  rw [Session.ended, hr]
  refine houtlives.ended ?_
  rw [BenchmarkRun.ended, hfin, Bool.or_true]

/-- While the run goes on, the window does not say that it is over. -/
theorem not_finished_of_early {now : TimePoint} {as : List (SessionAct κ)}
    (h : run (sessionStep app) (Session.init app now) as = some s)
    (hearly : ∀ call ∈ s.made app, call.isEarly = true) : s.gui.window.finished = false := by
  -- the run could still tell the window its context
  obtain ⟨bs, hbs⟩ := session_polls h [.publishContext app.context, .markShutdown]
  have hscript : RunScript none (s.made app ++ [.publishContext app.context, .markShutdown]) :=
    RunScript.append_early hearly (.early rfl (.aborted 0))
  cases handover_run hscript hbs with
  | running hrunning => exact hrunning.finished
  | waiting _ hwaiting => exact hwaiting.finished
  | taken hover _ =>
      have hcall := hover.script (.publishContext app.context)
        (List.mem_append_right _ (List.mem_cons_self ..))
      cases hcall

/-- Polling, in a session. -/
theorem polls_run {gui : GuiRun DisplayContext BenchmarkResults} {k : Nat}
    (hloop : s.loop = .polling)
    (h : run (mailboxStep resultsView) s.gui (List.replicate k .gui) = some gui) :
    ∃ stopEnabled, run (sessionStep app) s (List.replicate k .poll)
      = some { s with gui := gui, stopEnabled := stopEnabled } := by
  induction k generalizing s with
  | zero =>
      obtain rfl := Option.some.inj h
      exact ⟨s.stopEnabled, rfl⟩
  | succ k ih =>
      obtain ⟨g, hg, hrest⟩ := run_cons_iff.mp h
      have hstep : sessionStep app s .poll
          = some { s with gui := g, stopEnabled := s.stopEnabled || g.window.finished } := by
        have hgui : guiStep resultsView s.gui = some g := hg
        rw [sessionStep, if_pos hloop, hgui]
        rfl
      obtain ⟨stopEnabled, hrun⟩ :=
        @ih { s with gui := g, stopEnabled := s.stopEnabled || g.window.finished } hloop hrest
      exact ⟨stopEnabled, run_cons_iff.mpr ⟨_, hstep, hrun⟩⟩

/-- Where a session is with the results of its run. -/
theorem session_handover {now : TimePoint} {as : List (SessionAct κ)}
    {outcome : Option BenchmarkResults}
    (h : run (sessionStep app) (Session.init app now) as = some s)
    (hscript : RunScript outcome (s.made app)) : Handover resultsView outcome s.gui := by
  have hpolls := session_polls h []
  rw [List.append_nil, push_nil] at hpolls
  obtain ⟨bs, hbs⟩ := hpolls
  exact handover_run hscript hbs

/-- A window that says the run is over has taken what the run handed over. -/
theorem taken_of_finished {now : TimePoint} {as : List (SessionAct κ)}
    (h : run (sessionStep app) (Session.init app now) as = some s)
    (hfin : s.gui.window.finished = true) :
    ∃ outcome, RunOutcome s outcome ∧ Taken resultsView outcome s.gui := by
  rcases session_script h with ⟨outcome, hscript, houtcome⟩ | ⟨-, hearly⟩
  · refine ⟨outcome, houtcome, ?_⟩
    cases session_handover h hscript with
    | running hrunning => cases hfin.symm.trans hrunning.finished
    | waiting _ hwaiting => cases hfin.symm.trans hwaiting.finished
    | taken _ htaken => exact htaken
  · cases hfin.symm.trans (not_finished_of_early h hearly)

end Session

/-! ## One worker -/

/-- A program with one worker of depth two. -/
def oneApp :
    QtApp (fun _ : Fin 1 => CfioLibaio.Libaio) (fun _ : Fin 1 => CfioLibaio.AioKernel) where
  runtimeSeconds := 60
  thread := fun _ => CfioWorkerSlots.depthTwoThread
  engine := fun _ => { engine := CfioLibaio.depthTwoEngine }
  engines := fun _ => CfioLibaio.libaioEngine CfioWorkerSlots.waits

/-- The user stops the run at once; the run ends, and the window polls. -/
def stoppedSession : List (SessionAct (fun _ : Fin 1 => CfioLibaio.AioKernel)) :=
  [.enter, .write, .write, .main {} {}, .other (.arrive ⟨0, Nat.one_pos⟩), .main {} {}, .main {} {},
    .clickStop, .main {} {}, .main {} {}]
    ++ List.replicate 3 (.other (.work ⟨0, Nat.one_pos⟩ { kernel := {} }))
    ++ List.replicate 5 (.main {} {})
    ++ [.write, .write, .write, .finish true, .write]
    ++ List.replicate 5 .poll

end CfioQtApp
