import Cfio.RunTimer
import Cfio.TerminalDisplay

/-! # A run at the terminal

    `RunBenchmark` owns the display for as long as it runs: `Init` before the workers are
    started, `Update` in the timer loop, `ShowSummary` with the results, and `Shutdown` out of
    the destructor of `DisplayScope`, however it is left.

    `terminal_restored` is what the user is left with: the screen as it was before, with the
    summary on it just when nothing was thrown. -/

namespace CfioOrchestrator

open CfioTypes CfioWorkerThread CfioMetrics CfioDisplay AnsiTerminal Transition

section DisplayRun

variable {n : Nat} {σ κ : Fin n → Type}

/-- A run with the calls of its display. -/
structure DisplayRun (σ : Fin n → Type) where
  timed : TimedRun σ
  calls : List DisplayCall
  threw : Bool := false

def DisplayRun.init (runtimeSeconds : Int32) (thread : Fin n → WorkerThread)
    (engine : ∀ i, σ i) (now : TimePoint) : DisplayRun σ :=
  { timed := TimedRun.init thread engine now, calls := [.init runtimeSeconds now] }

/-- What happens next, and what the display is given if it is called. -/
structure DisplayAct (κ : Fin n → Type) where
  act : TimedAct κ
  snapshot : MetricsSnapshot := {}
  results : BenchmarkResults := {}

/-- The calls a step makes.  A call that throws has written nothing of its own. -/
def callsOf (s : TimedRun σ) (a : DisplayAct κ) : List DisplayCall :=
  match s.run.main, a.act with
  | .updating, .main => [.update a.snapshot s.now]
  | .summing, .main => [.showSummary a.results, .shutdown]
  | _, .other .throwing => [.shutdown]
  | _, _ => []

def DisplayAct.throws (a : DisplayAct κ) : Bool :=
  match a.act with
  | .other .throwing => true
  | _ => false

/-- One step. -/
def displayRunStep (runtimeSeconds : Int32) (E : ∀ i, Engine (σ i) (κ i)) (s : DisplayRun σ)
    (a : DisplayAct κ) : Option (DisplayRun σ) :=
  (timedStep runtimeSeconds E s.timed a.act).map (fun t =>
    { timed := t, calls := s.calls ++ callsOf s.timed a, threw := s.threw || a.throws })

/-! ## The calls of a run -/

variable {runtimeSeconds : Int32} {E : ∀ i, Engine (σ i) (κ i)} {s t : DisplayRun σ}

/-- The calls of a run, by where the main thread is: `Init` and the updates, each at its time,
    and once the run is left, the summary if nothing was thrown, and `Shutdown`. -/
def CallsInv (runtimeSeconds : Int32) (now : TimePoint) (s : DisplayRun σ) : Prop :=
  ∃ views, views.map Prod.snd = s.timed.updates ∧
    if s.timed.run.main = .left then
      if s.threw then s.calls = liveCalls runtimeSeconds now views ++ [.shutdown]
      else ∃ results,
        s.calls = liveCalls runtimeSeconds now views ++ [.showSummary results, .shutdown]
    else s.threw = false ∧ s.calls = liveCalls runtimeSeconds now views

theorem callsInv_init (thread : Fin n → WorkerThread) (engine : ∀ i, σ i) (now : TimePoint) :
    CallsInv runtimeSeconds now (DisplayRun.init runtimeSeconds thread engine now) :=
  ⟨[], rfl, rfl, rfl⟩

/-- Only `ShowSummary` is followed by leaving. -/
theorem proceed_left_iff {r r' : BenchmarkRun σ} {b c : Bool} (h : r.proceed b c = some r') :
    r'.main = .left ↔ r.main = .summing := by
  rw [BenchmarkRun.proceed] at h
  split at h
  case h_1 hmain =>
      split at h <;> cases h <;> simp [hmain]
  case h_2 hmain =>
      split at h <;> cases h <;> simp [hmain]
  case h_3 hmain =>
      split at h <;> cases h <;> simp [hmain]
  case h_6 hmain =>
      split at h
      · obtain ⟨-, hr⟩ := Option.ite_none_right_eq_some.mp h
        cases hr
        simp [hmain]
      · cases h
        simp [hmain]
  case h_10 => cases h
  all_goals
    cases h
    simp_all

/-- The main thread is inside: what the calls are so far. -/
theorem CallsInv.inside {now : TimePoint} (h : CallsInv runtimeSeconds now s)
    (hmain : s.timed.run.main ≠ .left) :
    ∃ views, views.map Prod.snd = s.timed.updates ∧ s.threw = false
      ∧ s.calls = liveCalls runtimeSeconds now views := by
  obtain ⟨views, hviews, hcalls⟩ := h
  rw [if_neg hmain] at hcalls
  exact ⟨views, hviews, hcalls⟩

/-- Steps that make no call, inside. -/
theorem CallsInv.silent {now : TimePoint} {u : TimedRun σ} {threw : Bool}
    (h : CallsInv runtimeSeconds now s) (hthrew : threw = s.threw)
    (hmain : u.run.main = .left ↔ s.timed.run.main = .left)
    (hupdates : u.updates = s.timed.updates) :
    CallsInv runtimeSeconds now { timed := u, calls := s.calls ++ [], threw := threw } := by
  subst hthrew
  obtain ⟨views, hviews, hcalls⟩ := h
  refine ⟨views, hviews.trans hupdates.symm, ?_⟩
  simp only [List.append_nil, hmain]
  exact hcalls

/-! What a step calls, by what it is. -/

section CallsOf

variable {u : TimedRun σ} {snapshot : MetricsSnapshot} {results : BenchmarkResults}

/-- Where it neither updates nor shows the summary, the main thread calls nothing. -/
theorem callsOf_main (h : u.run.main ≠ .updating) (h' : u.run.main ≠ .summing) :
    callsOf u (⟨.main, snapshot, results⟩ : DisplayAct κ) = [] := by
  rw [callsOf]
  split
  case h_1 hmain _ => exact absurd hmain h
  case h_2 hmain _ => exact absurd hmain h'
  case h_3 hact => cases hact
  case h_4 => rfl

/-- It updates with the sample it was given. -/
theorem callsOf_updating (h : u.run.main = .updating) :
    callsOf u (⟨.main, snapshot, results⟩ : DisplayAct κ) = [.update snapshot u.now] := by
  rw [callsOf, h]

/-- Behind the summary the display is shut down. -/
theorem callsOf_summing (h : u.run.main = .summing) :
    callsOf u (⟨.main, snapshot, results⟩ : DisplayAct κ)
      = [.showSummary results, .shutdown] := by
  rw [callsOf, h]

/-- Nobody else calls the display. -/
theorem callsOf_other {act : TimedAct κ} (h : act.isMain = false) (h' : act ≠ .other .throwing) :
    callsOf u (⟨act, snapshot, results⟩ : DisplayAct κ) = [] := by
  rw [callsOf]
  split
  case h_1 hact =>
      cases hact
      cases h
  case h_2 hact =>
      cases hact
      cases h
  case h_3 hact => exact absurd hact h'
  case h_4 => rfl

/-- An exception shuts the display down. -/
theorem callsOf_throwing :
    callsOf u (⟨.other .throwing, snapshot, results⟩ : DisplayAct κ) = [.shutdown] := by
  rw [callsOf]
  split
  case h_1 hact => cases hact
  case h_2 hact => cases hact
  case h_3 => rfl
  case h_4 hno _ _ => exact absurd rfl hno

end CallsOf

/-- A step of the main thread, by where it is. -/
theorem callsInv_main {now : TimePoint} {u : TimedRun σ} {snapshot : MetricsSnapshot}
    {results : BenchmarkResults} (h : CallsInv runtimeSeconds now s)
    (hmove : TimedMove runtimeSeconds E s.timed .main u) :
    CallsInv runtimeSeconds now
      { timed := u
        calls := s.calls ++ callsOf s.timed (⟨.main, snapshot, results⟩ : DisplayAct κ)
        threw := s.threw } := by
  -- most steps stay inside and call nothing
  have hsilent {loc : BenchmarkLoc} (hmain : s.timed.run.main = loc) (hu : u.run.main ≠ .left)
      (hupdates : u.updates = s.timed.updates)
      (hloc : loc ≠ .updating ∧ loc ≠ .summing ∧ loc ≠ .left) :
      CallsInv runtimeSeconds now
        { timed := u
          calls := s.calls ++ callsOf s.timed (⟨.main, snapshot, results⟩ : DisplayAct κ)
          threw := s.threw } := by
    subst hmain
    rw [callsOf_main hloc.1 hloc.2.1]
    exact h.silent rfl ⟨fun hno => absurd hno hu, fun hno => absurd hno hloc.2.2⟩ hupdates
  cases hmove with
  | start hmain _ hr | arm hmain _ _ hr | enter hmain _ _ _ hr | due hmain _ _ _ hr
  | stop hmain _ hr =>
      refine hsilent hmain ?_ rfl (by simp)
      rw [hr]
      simp
  | launch hmain _ | doze hmain _ _ | wake hmain _ _ | wakened hmain _ _ =>
      refine hsilent hmain ?_ rfl (by simp)
      rw [hmain]
      simp
  | ended hmain _ _ _ hr =>
      have hu : ∀ {loc : BenchmarkLoc}, loc = .stopping → loc ≠ .left := by
        rintro loc rfl
        simp
      rcases hmain with hmain | hmain
      · exact hsilent hmain (hu hr) rfl (by simp)
      · exact hsilent hmain (hu hr) rfl (by simp)
  | @update r hmain _ hr =>
      obtain ⟨views, hviews, hthrew, hcalls⟩ := h.inside (by rw [hmain]; simp)
      refine ⟨views ++ [(snapshot, s.timed.now)], ?_, ?_⟩
      · show _ = s.timed.updates ++ [s.timed.now]
        rw [List.map_append, hviews]
        rfl
      · rw [if_neg (show r.main ≠ .left by rw [hr]; simp)]
        refine ⟨hthrew, ?_⟩
        show s.calls ++ callsOf s.timed _ = _
        rw [callsOf_updating hmain, hcalls, liveCalls, liveCalls, List.map_append]
        rfl
  | @behind r hmain hrun hr =>
      by_cases hsumming : s.timed.run.main = .summing
      · obtain ⟨views, hviews, hthrew, hcalls⟩ := h.inside (by rw [hsumming]; simp)
        refine ⟨views, hviews, ?_⟩
        rw [if_pos (show r.main = .left from (proceed_left_iff hrun).mpr hsumming),
          if_neg (by rw [hthrew]; exact Bool.false_ne_true)]
        refine ⟨results, ?_⟩
        show s.calls ++ callsOf s.timed _ = _
        rw [callsOf_summing hsumming, hcalls]
      · refine hsilent rfl (fun hleft => hsumming ((proceed_left_iff hrun).mp hleft)) rfl
          ⟨fun hno => ?_, hsumming, fun hno => ?_⟩
        · rw [hno] at hmain
          exact hmain
        · rw [hno] at hmain
          exact hmain

theorem callsInv_step {now : TimePoint} (s : DisplayRun σ) (a : DisplayAct κ) (t : DisplayRun σ)
    (h : CallsInv runtimeSeconds now s) (hstep : displayRunStep runtimeSeconds E s a = some t) :
    CallsInv runtimeSeconds now t := by
  obtain ⟨u, hu, rfl⟩ := Option.map_eq_some_iff.mp hstep
  obtain ⟨act, snapshot, results⟩ := a
  have hmove := timedStep_move hu
  cases act with
  | request =>
      cases hmove
      rw [callsOf_other rfl (fun hno => by cases hno)]
      exact h.silent (Bool.or_false _) Iff.rfl rfl
  | tick elapsed =>
      cases hmove
      rw [callsOf_other rfl (fun hno => by cases hno)]
      exact h.silent (Bool.or_false _) Iff.rfl rfl
  | other act =>
      cases hmove with
      | @other _ r hrun _ hstays _ =>
          by_cases hthrow : act = .throwing
          · subst hthrow
            obtain ⟨hmay, hr⟩ := Option.ite_none_right_eq_some.mp hrun
            cases hr
            obtain ⟨views, hviews, -, hcalls⟩ := h.inside (ne_left_of_mayThrow hmay)
            refine ⟨views, hviews, ?_⟩
            simp only [if_true, callsOf_throwing, hcalls, DisplayAct.throws, Bool.or_true]
          · have hact : TimedAct.other act ≠ .other .throwing :=
              fun hno => hthrow (TimedAct.other.inj hno)
            have hquiet : DisplayAct.throws (⟨.other act, snapshot, results⟩ : DisplayAct κ)
                = false := by
              rw [DisplayAct.throws]
              split
              case h_1 hno => exact absurd hno hact
              case h_2 => rfl
            rw [callsOf_other rfl hact, hquiet]
            exact h.silent (Bool.or_false _) (by rw [hstays hthrow]) rfl
  | main =>
      rw [show (s.threw || DisplayAct.throws (⟨.main, snapshot, results⟩ : DisplayAct κ)) = s.threw
        from Bool.or_false _]
      exact callsInv_main h hmove

/-! ## What is left on the terminal -/

section Terminal

variable {width : String → Nat} {size : Size} {d : TerminalDisplay} {terminal : Terminal}
variable {views : List (MetricsSnapshot × TimePoint)} {now : TimePoint}

/-- A terminal that is back on its primary screen. -/
def backOnPrimary (t : Terminal) (primary alternate : Screen) : Terminal :=
  { t with
    primary := primary
    alternate := alternate
    onAlternate := false
    cursorVisible := true }

theorem session_append {s : TerminalDisplay × Terminal} (calls more : List DisplayCall) :
    displaySession width size s (calls ++ more)
      = displaySession width size (displaySession width size s calls) more :=
  List.foldl_append ..

/-- The end of a run at which something was thrown. -/
theorem shutdown_session (h : InStep (d, terminal)) {calls : List DisplayCall}
    (hcalls : calls = liveCalls runtimeSeconds now views ++ [.shutdown])
    (hclean : ∀ call ∈ calls, call.CleanTexts) :
    ∃ alternate, (displaySession width size (d, terminal) calls).2
      = backOnPrimary terminal terminal.primary alternate := by
  subst hcalls
  obtain ⟨hlive, -⟩ := List.forall_mem_append.mp hclean
  obtain ⟨d', t', hsession, hstep, -, hprimary, hmode⟩ := live_session h hlive
  have hshut : displaySession width size (d', t') [.shutdown] = _ := shutdown_step hstep
  refine ⟨t'.alternate, ?_⟩
  rw [session_append, hsession, hshut, backOnPrimary, ← hprimary, ← hmode]

/-- The end of a run that went through. -/
theorem summary_session (h : InStep (d, terminal)) {calls : List DisplayCall}
    {results : BenchmarkResults}
    (hcalls : calls = liveCalls runtimeSeconds now views ++ [.showSummary results, .shutdown])
    (hclean : ∀ call ∈ calls, call.CleanTexts) :
    ∃ alternate, (displaySession width size (d, terminal) calls).2
      = backOnPrimary terminal (writeSummary size d results terminal.primary) alternate := by
  subst hcalls
  obtain ⟨hlive, hend⟩ := List.forall_mem_append.mp hclean
  have hjobs : (DisplayCall.showSummary results).CleanTexts := hend _ (List.mem_cons_self ..)
  obtain ⟨d', t', hsession, hstep, hcontext, hprimary, hmode⟩ := live_session h hlive
  have hsummary : displayStep width size (d', t') (.showSummary results) = _ :=
    showSummary_step hstep hjobs
  have hstep' : InStep (displayStep width size (d', t') _) := inStep_call hstep hjobs
  rw [hsummary] at hstep'
  have hend : displaySession width size (d', t') [.showSummary results, .shutdown]
      = displayStep width size (displayStep width size (d', t') (.showSummary results)) .shutdown :=
    rfl
  refine ⟨t'.alternate, ?_⟩
  rw [session_append, hsession, hend, hsummary, shutdown_step hstep', backOnPrimary, ← hprimary,
    ← hmode, writeSummary, writeSummary, hcontext]

end Terminal

end DisplayRun

/-! ## One worker -/

/-- A run of one worker that is stopped from the display. -/
def stoppedAtDisplay : List (DisplayAct (fun _ : Fin 1 => CfioLibaio.AioKernel)) :=
  ([.main, .other (.arrive ⟨0, Nat.one_pos⟩), .main, .main, .request, .main, .main,
    .other (.work ⟨0, Nat.one_pos⟩ { kernel := {} }),
    .other (.work ⟨0, Nat.one_pos⟩ { kernel := {} }),
    .other (.work ⟨0, Nat.one_pos⟩ { kernel := {} }), .main, .main, .main, .main, .main] :
    List (TimedAct _)).map (fun act => { act := act })

/-- A step of it. -/
abbrev oneDisplayStep (runtimeSeconds : Int32) :=
  displayRunStep runtimeSeconds
    (fun _ : Fin 1 => CfioLibaio.libaioEngine CfioWorkerSlots.waits)

/-- Before the worker is started. -/
def oneDisplay (runtimeSeconds : Int32) : DisplayRun (fun _ : Fin 1 => CfioLibaio.Libaio) :=
  DisplayRun.init runtimeSeconds (fun _ => CfioWorkerSlots.depthTwoThread)
    (fun _ => { engine := CfioLibaio.depthTwoEngine }) 0

end CfioOrchestrator
