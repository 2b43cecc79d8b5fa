import Cfio.GuiOutcome
import Cfio.RunEnds

/-! # Closing the window ends the program

    `RunQtGui` asks the run to stop, joins the benchmark thread and destroys the orchestrator.
    From then on its two threads do not go on for ever: `Session.work` bounds the steps they
    still take, whatever the workers and the clock do in between.  Nor are they stuck, except
    that they may wait for a worker: `RunBenchmark` joins those it has stopped, and after an
    exception in it the destruction joins those that may be still at work, or held in the
    barrier (`hangs_of_stranded`). -/

namespace CfioQtApp

open CfioTypes CfioConfig CfioWorkerThread CfioMetrics CfioHistogram CfioDisplay
open CfioDisplayContext CfioOrchestrator CfioProgram Transition

section Session

variable {n : Nat} {σ κ : Fin n → Type} {app : QtApp σ κ} {s t : Session σ}

/-! ## The steps of the run -/

theorem ofRun_other (a : BenchmarkAct κ) : (TimedAct.other a).ofRun = isThrowing a := by
  cases a <;> rfl

/-- The calls that come with a step. -/
theorem length_callsOf (d : TimedRun σ) (context : DisplayContext) (a : DisplayAct κ) :
    ((callsOf d a).flatMap (qtDisplayCalls context)).length
      ≤ 2 * if a.act.ofRun then 1 else 0 := by
  obtain ⟨act, snapshot, results⟩ := a
  rw [callsOf]
  split
  case h_1 hact =>
      obtain rfl : act = .main := hact
      simp [qtDisplayCalls, TimedAct.ofRun]
  case h_2 hact =>
      obtain rfl : act = .main := hact
      simp [qtDisplayCalls, TimedAct.ofRun]
  case h_3 hact =>
      obtain rfl : act = .other .throwing := hact
      simp [qtDisplayCalls, TimedAct.ofRun]
  case h_4 => exact Nat.zero_le _

/-! ## The steps of the program -/

/-- A step of the benchmark thread or the main thread, once that waits for it. -/
def ofProgram : SessionAct κ → Bool
  | .enter => true
  | .main _ _ => true
  | .write => true
  | .finish _ => true
  | .other a => isThrowing a
  | .join => true
  | .destroy => true
  | _ => false

/-- `RunQtGui` is in `join`, or behind it. -/
def Session.closing (s : Session σ) : Prop := s.loop = .joining ∨ ∃ rc, s.loop.code = some rc

/-- How many steps it is from the join to the end of `RunQtGui`, with `n` workers. -/
def EventLoop.toExit (n : Nat) : EventLoop → Nat
  | .joining => n + 2
  | .destroying _ k => n - k + 1
  | _ => 0

/-- How many steps it is to the end of the program at the most, in a session that is closing. -/
def Session.work (s : Session σ) : Nat :=
  -- a step of the run comes with two calls at the most, and a call is two steps
  s.bench.elim (5 * (2 * n + 9)) (fun d => 5 * d.timed.toLeave)
    + s.returned.elim 3 (fun _ => 0)
    + (2 * s.gui.script.length + s.gui.advancing.elim 0 (fun _ => 1))
    + s.loop.toExit n

theorem toLeave_entered (app : QtApp σ κ) (now : TimePoint) (stopRequested : Bool) :
    (app.entered now stopRequested).timed.toLeave = 2 * n + 8 := by
  simp only [TimedRun.toLeave, QtApp.entered, DisplayRun.init, TimedRun.init, BenchmarkRun.init,
    if_true]
  omega

/-- A call of the mailbox is one step, or two. -/
theorem writes_step {gui : GuiRun DisplayContext BenchmarkResults}
    (h : mailboxStep resultsView s.gui .writer = some gui) :
    2 * gui.script.length + gui.advancing.elim 0 (fun _ => 1) + 1
      ≤ 2 * s.gui.script.length + s.gui.advancing.elim 0 (fun _ => 1) := by
  cases mailboxStep_move h with
  | advance hadv => simp [GuiRun.advance, hadv]
  | @store call rest hadv hscript =>
      simp only [GuiRun.store, hadv, hscript, List.length_cons, Option.elim_none]
      cases call.advances with
      | false =>
          simp only [Bool.false_eq_true, if_false, Option.elim_none]
          omega
      | true =>
          simp only [if_true, Option.elim_some]
          omega

/-- A step in the run, with its calls. -/
theorem work_ranTo {d d' : DisplayRun σ} {b : DisplayAct κ} (hbench : s.bench = some d)
    (hasked : d.timed.stopRequested = true)
    (hstep : displayRunStep app.runtimeSeconds app.engines d b = some d') :
    (s.ranTo app d d' b).work + (if b.act.ofRun then 1 else 0) ≤ s.work := by
  obtain ⟨u, hu, rfl⟩ := Option.map_eq_some_iff.mp hstep
  have hleave := toLeave_step hasked hu
  have hcalls := length_callsOf d.timed app.context b
  simp only [Session.work, Session.ranTo, GuiRun.push, List.length_append, hbench,
    Option.elim_some]
  omega

theorem work_step {a : SessionAct κ} (hinv : SessionInv app s) (hclosing : s.closing)
    (hstep : sessionStep app s a = some t) :
    t.closing ∧ t.work + (if ofProgram a then 1 else 0) ≤ s.work := by
  have hasked : s.gui.mailbox.stopRequested = true := by
    rcases hclosing with hjoin | ⟨rc, hcode⟩
    · exact hinv.joining hjoin
    · exact (hinv.joined rc hcode).2.2
  have hnot {loop : EventLoop} (hloop : s.loop = loop) (hjoin : loop ≠ .joining)
      (hcode : loop.code = none) : False := by
    rcases hclosing with hno | ⟨rc, hno⟩
    · exact hjoin (hloop.symm.trans hno)
    · rw [hloop, hcode] at hno
      cases hno
  cases sessionStep_move hstep with
  | enter hbench hreturned =>
      refine ⟨hclosing, ?_⟩
      simp only [Session.work, Session.enter, GuiRun.push, List.length_append, hbench,
        Option.elim_some, Option.elim_none, toLeave_entered, qtDisplayCalls, List.length_cons,
        List.length_nil, ofProgram, if_true]
      omega
  | main hbench _ _ hrun =>
      exact ⟨hclosing, work_ranTo hbench ((hinv.asked _ hbench).trans hasked) hrun⟩
  | @other b _ _ hbench _ _ hrun =>
      have hwork := work_ranTo hbench ((hinv.asked _ hbench).trans hasked) hrun
      rw [ofRun_other] at hwork
      exact ⟨hclosing, hwork⟩
  | write hwrite =>
      have hless := writes_step hwrite
      refine ⟨hclosing, ?_⟩
      simp only [Session.work, ofProgram, if_true]
      omega
  | finish hreturned =>
      refine ⟨hclosing, ?_⟩
      simp only [Session.work, GuiRun.push, List.length_append, List.length_cons, List.length_nil,
        hreturned, ofProgram, if_true, Option.elim_some, Option.elim_none]
      omega
  | join hloop | destroy hloop | destroyed hloop =>
      refine ⟨.inr ⟨_, rfl⟩, ?_⟩
      simp only [Session.work, hloop, ofProgram, if_true, EventLoop.toExit]
      omega
  | outlive => exact ⟨hclosing, Nat.le_refl _⟩
  | tick =>
      refine ⟨hclosing, ?_⟩
      cases hbench : s.bench <;>
        simp [Session.work, hbench, ofProgram, TimedRun.toLeave, TimedRun.toStop]
  -- nobody polls or clicks in a window that is closed
  | poll hloop | clickClose hloop | clickStop hloop | close hloop | quit hloop | leave hloop =>
      exact (hnot hloop (fun hno => by cases hno) rfl).elim

/-! ## The calls under way -/

/-- A call that was made is behind, and no other comes with a step of the mailbox. -/
theorem script_step {gui : GuiRun DisplayContext BenchmarkResults} {a : GuiAct}
    (h : mailboxStep resultsView s.gui a = some gui) : gui.script <:+ s.gui.script := by
  cases mailboxStep_move h with
  | store _ hscript =>
      rw [hscript]
      exact List.suffix_cons ..
  | advance | readPhase | takeContext | noteSequence | keepSequence | readLatest | takeResults
  | requestStop => exact List.suffix_refl _

/-- The benchmark thread has two calls to make at the most, and none before its run. -/
structure FewCalls (s : Session σ) : Prop where
  two : s.gui.script.length ≤ 2
  before : s.bench = none → s.returned = none → s.gui.script = []

theorem FewCalls.keep (h : FewCalls s) (hscript : t.gui.script <:+ s.gui.script)
    (hbench : t.bench = none → s.bench = none) (hreturned : t.returned = s.returned) :
    FewCalls t where
  two := hscript.length_le.trans h.two
  before := by
    intro hb hr
    have hnone := h.before (hbench hb) (hreturned.symm.trans hr)
    rw [hnone] at hscript
    exact List.suffix_nil.mp hscript

/-- What the run calls it calls when nothing else is to be called. -/
theorem FewCalls.ranTo (h : FewCalls s) {d d' : DisplayRun σ} {b : DisplayAct κ}
    (hidle : b.act.ofRun = true → s.idle = true) : FewCalls (s.ranTo app d d' b) where
  two := by
    have hcalls := length_callsOf d.timed app.context b
    simp only [Session.ranTo, GuiRun.push, List.length_append]
    cases hrun : b.act.ofRun with
    | false =>
        rw [hrun] at hcalls
        have htwo := h.two
        simp only [Bool.false_eq_true, if_false] at hcalls
        omega
    | true =>
        have hscript := hidle hrun
        rw [Session.idle, Bool.and_eq_true, List.isEmpty_iff] at hscript
        rw [hrun] at hcalls
        rw [hscript.1, List.length_nil]
        simp only [if_true] at hcalls
        omega
  before := fun hno => by cases hno

theorem fewCalls_step (s : Session σ) (a : SessionAct κ) (t : Session σ) (h : FewCalls s)
    (hstep : sessionStep app s a = some t) : FewCalls t := by
  have hrequest {loop : EventLoop} {stopEnabled : Bool} :
      FewCalls { s.requestStop with loop := loop, stopEnabled := stopEnabled } :=
    h.keep (List.suffix_refl _) Option.map_eq_none_iff.mp rfl
  cases sessionStep_move hstep with
  | enter hbench hreturned =>
      refine ⟨?_, fun hno => by cases hno⟩
      rw [Session.enter, GuiRun.push, h.before hbench hreturned]
      exact Nat.le_refl 2
  | main _ _ hidle => exact h.ranTo (fun _ => hidle)
  | other _ _ hidle => exact h.ranTo (fun hrun => hidle (ofRun_other _ ▸ hrun))
  | write hwrite => exact h.keep (script_step hwrite) id rfl
  | finish _ hidle =>
      refine ⟨?_, fun _ hno => by cases hno⟩
      rw [Session.idle, Bool.and_eq_true, List.isEmpty_iff] at hidle
      rw [GuiRun.push, hidle.1]
      exact Nat.le_succ 1
  | poll _ hpoll => exact h.keep (script_step hpoll) id rfl
  | clickClose | clickStop | close | leave => exact hrequest
  | quit | join | outlive | destroy | destroyed => exact ⟨h.two, h.before⟩
  | tick => exact h.keep (List.suffix_refl _) Option.map_eq_none_iff.mp rfl

/-- So there is never more to do than this. -/
theorem work_le (h : FewCalls s) : s.work ≤ 11 * n + 55 := by
  have hbench : s.bench.elim (5 * (2 * n + 9)) (fun d => 5 * d.timed.toLeave)
      ≤ 5 * (2 * n + 9) := by
    cases s.bench with
    | none => exact Nat.le_refl _
    | some d =>
        have hleave := toLeave_le d.timed
        rw [Option.elim_some]
        omega
  have hreturned : s.returned.elim 3 (fun _ => 0) ≤ 3 := by
    cases s.returned with
    | none => exact Nat.le_refl 3
    | some rc => exact Nat.zero_le 3
  have hadvancing : s.gui.advancing.elim 0 (fun _ => 1) ≤ 1 := by
    cases s.gui.advancing with
    | none => exact Nat.zero_le 1
    | some call => exact Nat.le_refl 1
  have hloop : s.loop.toExit n ≤ n + 2 := by
    cases s.loop with
    | joining => exact Nat.le_refl (n + 2)
    | destroying rc k => exact Nat.add_le_add (Nat.sub_le n k) (Nat.le_succ 1)
    | polling | closed | exited => exact Nat.zero_le (n + 2)
  have htwo := h.two
  rw [Session.work]
  omega

/-! ## The end of the program -/

/-- The benchmark thread sleeps, for a slice at the most, or joins a worker that has not
    finished; or the main thread does so, where an exception has kept the other from it. -/
def Session.waits (s : Session σ) : Prop :=
  ∃ d, s.bench = some d
    ∧ ((∃ w, d.timed.DozesUntil w ∧ d.timed.now < w ∧ w ≤ d.timed.now + kSleepSlice)
      ∨ (∃ i : Fin n, d.timed.run.main = .joining i
        ∧ isFinished (d.timed.run.workers i).loc = false)
      ∨ ∃ (rc : Int32) (i : Fin n), s.loop = .destroying rc i ∧ s.ended i = false
        ∧ d.threw = true)

/-- No slice is longer than that. -/
theorem asleep_reached {d : DisplayRun σ} {now : TimePoint} {as : List (SessionAct κ)}
    (h : run (sessionStep app) (Session.init app now) as = some s) (hbench : s.bench = some d)
    {w : Int} (hw : d.timed.sleep = .asleep w) : w ≤ d.timed.now + kSleepSlice := by
  obtain ⟨start, bs, hrun⟩ := bench_reached h hbench
  have htimer : TimerInv app.runtimeSeconds d.timed := by
    refine @run_invariant _ _ _ (fun d => TimerInv app.runtimeSeconds d.timed) ?_ _ _ _ hrun
      (timerInv_init app.thread app.engine start)
    intro e a e' he hstep
    obtain ⟨u, hu, rfl⟩ := Option.map_eq_some_iff.mp hstep
    exact timerInv_step e.timed a.act u he hu
  exact htimer.asleep w hw

/-- The benchmark thread or the main thread can go on, and not by an exception. -/
def Session.goes (app : QtApp σ κ) (s : Session σ) : Prop :=
  ∃ a, ofProgram a = true ∧ (∀ b, a ≠ .other b) ∧ (sessionStep app s a).isSome = true

/-- In a call of the mailbox the benchmark thread goes on. -/
theorem goes_of_busy (hidle : ¬ s.idle = true) : s.goes app := by
  refine ⟨.write, rfl, fun b hno => (by cases hno), ?_⟩
  rw [sessionStep, Option.isSome_map, writerStep]
  split
  case h_1 => rfl
  case h_2 hadv hscript =>
      refine absurd ?_ hidle
      rw [Session.idle, hadv, hscript]
      rfl
  case h_3 => rfl

/-- In its run it goes on where the run does. -/
theorem goes_of_proceed {d : DisplayRun σ} (hreturned : s.returned = none) (hidle : s.idle = true)
    (hbench : s.bench = some d) (h : ∃ u, d.timed.proceed app.runtimeSeconds = some u) :
    s.goes app := by
  obtain ⟨u, hu⟩ := h
  have hstep : displayRunStep app.runtimeSeconds app.engines d
      ⟨.main, {}, app.results d.timed {}⟩ = some _ := congrArg (Option.map _) hu
  -- which sample and which results it takes does not keep it
  refine ⟨.main {} {}, rfl, fun b hno => (by cases hno), ?_⟩
  rw [sessionStep, if_pos ⟨hreturned, hidle⟩, hbench, Option.bind_some, Session.inRun, hbench,
    Option.bind_some, hstep]
  rfl

/-- One of the two goes on, unless the run is waiting. -/
theorem goes_or_waits {now : TimePoint} {as : List (SessionAct κ)}
    (h : run (sessionStep app) (Session.init app now) as = some s) (hjoin : s.loop = .joining) :
    s.goes app ∨ s.waits := by
  by_cases hidle : s.idle = true
  case neg => exact .inl (goes_of_busy hidle)
  case pos =>
    cases hreturned : s.returned with
    | some rc =>
        refine .inl ⟨.join, rfl, fun b hno => (by cases hno), ?_⟩
        rw [sessionStep, if_pos ⟨hjoin, hidle⟩, hreturned]
        rfl
    | none =>
        cases hbench : s.bench with
        | none =>
            refine .inl ⟨.enter, rfl, fun b hno => (by cases hno), ?_⟩
            rw [sessionStep, if_pos ⟨by rw [hbench]; rfl, hreturned⟩]
            rfl
        | some d =>
            by_cases hleft : d.timed.run.main = .left
            · have hout : s.outsideRun = true := by
                rw [Session.outsideRun, hbench]
                exact decide_eq_true hleft
              refine .inl ⟨.finish true, rfl, fun b hno => (by cases hno), ?_⟩
              rw [sessionStep, if_pos ⟨hreturned, hidle, hout⟩]
              rfl
            · by_cases hwaits : s.waits
              · exact .inr hwaits
              · refine .inl (goes_of_proceed hreturned hidle hbench ?_)
                refine timed_proceeds hleft (fun i hi => ?_) (fun w hw => ?_)
                · by_contra hno
                  exact hwaits
                    ⟨d, hbench, .inr (.inl ⟨i, hi, Bool.eq_false_of_not_eq_true hno⟩)⟩
                · by_contra hno
                  have hslice := asleep_reached h hbench hw.2
                  exact hwaits ⟨d, hbench, .inl ⟨w, hw, not_le.mp hno, hslice⟩⟩

/-- The destruction goes on, unless it joins a worker that has outlived an exception. -/
theorem goes_or_waits_destroying {now : TimePoint} {as : List (SessionAct κ)} {rc : Int32} {k : Nat}
    (h : run (sessionStep app) (Session.init app now) as = some s)
    (hloop : s.loop = .destroying rc k) : s.goes app ∨ s.waits := by
  have hinv := sessionInv_run h
  have hgoes (hstep : (sessionStep app s .destroy).isSome = true) : s.goes app :=
    ⟨.destroy, rfl, fun b hno => (by cases hno), hstep⟩
  by_cases hk : k < n
  case neg =>
    refine .inl (hgoes ?_)
    rw [sessionStep, hloop]
    simp only [hk, dite_false, Option.isSome_some]
  case pos =>
    cases hended : s.ended ⟨k, hk⟩ with
    | true =>
        refine .inl (hgoes ?_)
        rw [sessionStep, hloop]
        simp only [hk, dite_true, hended, if_true, Option.isSome_some]
    | false =>
        refine .inr ?_
        -- there is such a worker only where `RunBenchmark` was entered
        cases hbench : s.bench with
        | none =>
            have hnone : s.outlived = none := by
              by_contra hno
              obtain ⟨r, hr⟩ := Option.ne_none_iff_exists'.mp hno
              obtain ⟨d, hd, -⟩ := hinv.outlived r hr
              cases hbench.symm.trans hd
            rw [Session.ended, Session.workers, hnone, hbench] at hended
            cases hended
        | some d =>
            have hreturned := (hinv.joined rc (hloop ▸ rfl)).1
            have hleft := hinv.returned (by rw [hreturned]; simp) d hbench
            have hthrew : d.threw = true := by
              by_contra hno
              rw [ended_of_left h hbench hleft (Bool.eq_false_of_not_eq_true hno)] at hended
              cases hended
            exact ⟨d, hbench, .inr (.inr ⟨rc, ⟨k, hk⟩, hloop, hended, hthrew⟩)⟩

/-- **Closing the window ends the program**: once `RunQtGui` waits for the benchmark thread, the
    two threads take no more than a fixed number of steps for each worker, whatever else happens.
    At any time one of them can go on, or the run sleeps a slice or joins a worker, or an
    exception has left a worker to the main thread.  When `RunQtGui` has returned, then what
    `Run` has returned, and no worker runs any more. -/
theorem program_ends {now : TimePoint} {before after : List (SessionAct κ)}
    (h : run (sessionStep app) (Session.init app now) before = some s) (hjoin : s.loop = .joining)
    (h' : run (sessionStep app) s after = some t) :
    after.countP ofProgram ≤ 11 * n + 55
      ∧ ((∃ rc, t.loop = .exited rc ∧ t.returned = some rc
          ∧ (∀ d, t.bench = some d → d.timed.run.main = .left) ∧ ∀ i, t.ended i = true)
        ∨ t.goes app ∨ t.waits) := by
  have hstep (u : Session σ) (a : SessionAct κ) (v : Session σ)
      (hu : SessionInv app u ∧ u.closing) (huv : sessionStep app u a = some v) :
      (SessionInv app v ∧ v.closing) ∧ v.work + (if ofProgram a then 1 else 0) ≤ u.work := by
    obtain ⟨hclosing, hwork⟩ := work_step hu.1 hu.2 huv
    exact ⟨⟨sessionInv_step u a v hu.1 huv, hclosing⟩, hwork⟩
  have hstart : SessionInv app s ∧ s.closing := ⟨sessionInv_run h, .inl hjoin⟩
  constructor
  -- the rank falls with each step of the program, and was not above the limit
  · have hfew : FewCalls s := run_invariant fewCalls_step h ⟨Nat.zero_le 2, fun _ _ => rfl⟩
    have hlimit := work_le hfew
    have hcounted := run_counted hstep h' hstart
    omega
  · obtain ⟨hinv, hclosing⟩ :=
      run_invariant (fun u a v hu huv => (hstep u a v hu huv).1) h' hstart
    have hreached := run_append h h'
    cases hloop : t.loop with
    | joining => exact .inr (goes_or_waits hreached hloop)
    | destroying rc k => exact .inr (goes_or_waits_destroying hreached hloop)
    | exited rc =>
        have hreturned := (hinv.joined rc (hloop ▸ rfl)).1
        refine .inl ⟨rc, rfl, hreturned, hinv.returned (by rw [hreturned]; simp), fun i => ?_⟩
        refine hinv.ended i ?_
        rw [hloop]
        trivial
    | polling | closed =>
        rcases hclosing with hno | ⟨rc, hno⟩
        · cases hloop.symm.trans hno
        · rw [hloop] at hno
          cases hno

/-! ## A program that hangs -/

/-- A run that was left stays as it was left. -/
theorem benchGoes_left {b : Option (DisplayRun σ)} {d : DisplayRun σ}
    (h : BenchGoes app (some d) b) (hleft : d.timed.run.main = .left) :
    ∃ e, b = some e ∧ e.timed.run = d.timed.run := by
  have hstep (e : DisplayRun σ) (a : DisplayAct κ) (e' : DisplayRun σ)
      (he : e.timed.run = d.timed.run)
      (hee : displayRunStep app.runtimeSeconds app.engines e a = some e') :
      e'.timed.run = d.timed.run := by
    have hmain : e.timed.run.main = .left := by rw [he, hleft]
    obtain ⟨act, snapshot, results⟩ := a
    cases act with
    | main =>
        rw [displayRunStep_left hmain (.inl rfl)] at hee
        cases hee
    | other b =>
        rw [displayRunStep_left hmain (.inr ⟨b, rfl⟩)] at hee
        cases hee
    | request | tick =>
        obtain ⟨u, hu, rfl⟩ := Option.map_eq_some_iff.mp hee
        cases hu
        exact he
  cases h with
  | goes as hrun => exact ⟨_, rfl, run_invariant hstep hrun rfl⟩

/-- **A worker in the barrier holds the program**: if an exception has left one there,
    `RunQtGui` never returns. -/
theorem hangs_of_stranded {now : TimePoint} {before after : List (SessionAct κ)}
    (h : run (sessionStep app) (Session.init app now) before = some s) {d : DisplayRun σ}
    (hbench : s.bench = some d) (hleft : d.timed.run.main = .left) {i : Fin n}
    (hi : Stranded d.timed.run i) (h' : run (sessionStep app) s after = some t) (rc : Int32) :
    t.loop ≠ .exited rc := by
  intro hloop
  have hgoes := session_runs h'
  rw [hbench] at hgoes
  obtain ⟨e, he, hrun⟩ := benchGoes_left hgoes hleft
  have hinv := sessionInv_run (run_append h h')
  obtain ⟨r, hr, houtlives⟩ := hinv.workers he
  rw [hrun] at houtlives
  have hworkers : BenchmarkInv d.timed.run := ((sessionInv_run h).run d hbench).workers
  have hended : t.ended i = true := hinv.ended i (by rw [hloop]; trivial)
  rw [Session.ended, hr, Option.all_some, houtlives.not_ended hworkers hi] at hended
  cases hended

end Session

/-- The user closes the window one second into the run, which is about to update. -/
def closeWindow : List (SessionAct (fun _ : Fin 1 => CfioLibaio.AioKernel)) :=
  [.enter, .write, .write, .main {} {}, .other (.arrive ⟨0, Nat.one_pos⟩)]
    ++ List.replicate 4 (.main {} {})
    ++ [.tick 1000000000]
    ++ List.replicate 3 (.main {} {})
    ++ [.close, .leave]

/-- The update throws.  The worker outlives the run, until its engine fails, and only then
    `RunQtGui` returns. -/
def closeDown : List (SessionAct (fun _ : Fin 1 => CfioLibaio.AioKernel)) :=
  [.other .throwing, .write, .finish true, .write, .join]
    ++ List.replicate 4 (.outlive ⟨0, Nat.one_pos⟩ { kernel := { submitRet := -5 } })
    ++ [.destroy, .destroy]

theorem program_ends_closed :
    ∃ s t, run (sessionStep oneApp) (Session.init oneApp 0) closeWindow = some s
      ∧ run (sessionStep oneApp) s closeDown = some t
      ∧ t.loop = .exited EXIT_FAILURE
      ∧ closeDown.countP ofProgram ≤ 11 * 1 + 55
      ∧ ((∃ rc, t.loop = .exited rc ∧ t.returned = some rc
          ∧ (∀ d, t.bench = some d → d.timed.run.main = .left) ∧ ∀ i, t.ended i = true)
        ∨ t.goes oneApp ∨ t.waits) := by
  have h : (run (sessionStep oneApp) (Session.init oneApp 0) closeWindow).map
      (fun s => (s.loop, (run (sessionStep oneApp) s closeDown).map (fun t => t.loop)))
      = some (.joining, some (.exited EXIT_FAILURE)) := by
    decide +kernel
  obtain ⟨s, hs, hat⟩ := Option.map_eq_some_iff.mp h
  obtain ⟨hjoin, hsome⟩ := Prod.mk.inj hat
  obtain ⟨t, ht, hexit⟩ := Option.map_eq_some_iff.mp hsome
  exact ⟨s, t, hs, ht, hexit, program_ends hs hjoin ht⟩

end CfioQtApp
