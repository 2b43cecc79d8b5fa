import Cfio.DisplayRun
import Cfio.JobTable
import Cfio.MailboxResults
import Cfio.ProgramRun
import Cfio.RunOutlived

/-! # The program with a window

    `RunQtGui` gives the benchmark a thread of its own and keeps the main thread for the
    window.  The two share nothing but the mailbox: the display of the run is `QtDisplay`,
    whose calls are calls of the mailbox, and its `StopRequested` is what the window has
    asked for.

    A `Session` is both threads with the workers and the clock.  Seen from the run it is a run
    of `displayRunStep` (`session_runs`), and seen from the mailbox it is a run of
    `mailboxStep` with the calls the run makes (`session_polls`). -/

namespace CfioDisplay

variable {Context Results : Type} {view : ResultsView Results}

/-- The benchmark thread has further calls to make. -/
def GuiRun.push (s : GuiRun Context Results) (calls : List (WriterCall Context Results)) :
    GuiRun Context Results :=
  { s with script := s.script ++ calls }

@[simp] theorem push_nil (s : GuiRun Context Results) : s.push [] = s := by
  rw [GuiRun.push, List.append_nil]

@[simp] theorem push_push (s : GuiRun Context Results)
    (calls more : List (WriterCall Context Results)) :
    (s.push calls).push more = s.push (calls ++ more) := by
  simp only [GuiRun.push, List.append_assoc]

/-- What can happen now can happen with calls to come. -/
theorem mailboxStep_push {s t : GuiRun Context Results} {a : GuiAct}
    (h : mailboxStep view s a = some t) (calls : List (WriterCall Context Results)) :
    mailboxStep view (s.push calls) a = some (t.push calls) := by
  refine mailboxStep_of_move ?_
  cases mailboxStep_move h with
  | advance hadv => exact .advance hadv
  | @store call rest hadv hscript =>
      have hpushed : (s.push calls).script = call :: (rest ++ calls) := by
        rw [GuiRun.push, hscript]
        rfl
      exact .store hadv hpushed
  | readPhase hadv htick hfin => exact .readPhase hadv htick hfin
  | takeContext hadv htick => exact .takeContext hadv htick
  | noteSequence htick hseq => exact .noteSequence htick hseq
  | keepSequence htick hseq => exact .keepSequence htick hseq
  | readLatest hadv htick => exact .readLatest hadv htick
  | takeResults hadv htick => exact .takeResults hadv htick
  | requestStop => exact .requestStop

/-- Only `RequestStop` asks for a stop. -/
theorem stopRequested_step {s t : GuiRun Context Results} {a : GuiAct}
    (h : mailboxStep view s a = some t) (ha : a ≠ .requestStop) :
    t.mailbox.stopRequested = s.mailbox.stopRequested := by
  cases mailboxStep_move h with
  | @store call => cases call <;> rfl
  | requestStop => exact absurd rfl ha
  | advance | readPhase | takeContext | noteSequence | keepSequence | readLatest
  | takeResults => rfl

end CfioDisplay

namespace CfioQtApp

open CfioTypes CfioConfig CfioWorkerThread CfioMetrics CfioHistogram CfioDisplay
open CfioDisplayContext CfioOrchestrator CfioProgram Transition

/-! ## QtDisplay -/

/-- What the mailbox is told by a call of the display. -/
def qtDisplayCalls (context : DisplayContext) :
    DisplayCall → List (WriterCall DisplayContext BenchmarkResults)
  | .init runtimeSeconds _ => [.publishContext context, .setRuntime runtimeSeconds]
  | .update snapshot _ => [.publishSnapshot snapshot]
  | .showSummary results => [.publishResults results]
  | .shutdown => [.markShutdown]

-- the display that `RunQtGui` has registered is the one that is made
example : createDisplay ["qt"] "qt" = .ok (.registered "qt") := by decide

/-- What the window makes of results. -/
def resultsView : ResultsView BenchmarkResults :=
  { timeSeries := BenchmarkResults.timeSeries, summary := buildRunSummary }

/-! ## The system -/

section Session

variable {n : Nat} {σ κ : Fin n → Type}

/-- What `RunQtGui` is given, and the workers that `Run` creates. -/
structure QtApp (σ κ : Fin n → Type) where
  runtimeSeconds : Int32
  overrides : CliOptions := {}
  jobs : List JobConfig := []
  logPath : String := ""
  thread : Fin n → WorkerThread
  engine : ∀ i, σ i
  engines : ∀ i, Engine (σ i) (κ i)

/-- What the window shows before the run. -/
def QtApp.firstContext (app : QtApp σ κ) : DisplayContext :=
  makeDisplayContext app.overrides app.jobs ""

/-- `BuildDisplayContext`. -/
def QtApp.context (app : QtApp σ κ) : DisplayContext :=
  makeDisplayContext app.overrides app.jobs app.logPath

/-- What the aggregator has for the results, besides the workers. -/
structure Collected where
  timestamp : String := ""
  startTime : TimePoint := 0
  endTime : TimePoint := 0
  now : TimePoint := 0
  timeSeries : List MetricsSnapshot := []

/-- The results of a run: nothing changes in its workers once they were joined. -/
def QtApp.results (app : QtApp σ κ) (s : TimedRun σ) (c : Collected) : BenchmarkResults :=
  { buildResults exactRank app.overrides c.timestamp app.runtimeSeconds c.startTime c.endTime
      c.now (List.ofFn fun i => (s.run.workers i).thread) c.timeSeries with
    interrupted := s.interrupted }

/-- Where the main thread is: in `exec`, about to ask for a stop behind it, in `join`, at the
    end of `RunQtGui`, where the destruction of the orchestrator is about to join worker `k`,
    returned. -/
inductive EventLoop where
  | polling
  | closed
  | joining
  | destroying (rc : Int32) (k : Nat)
  | exited (rc : Int32)
  deriving DecidableEq, Repr

/-- What `RunQtGui` returns, once it has joined the benchmark thread. -/
def EventLoop.code : EventLoop → Option Int32
  | .destroying rc _ => some rc
  | .exited rc => some rc
  | _ => none

/-- Which workers the destruction has joined. -/
def EventLoop.hasJoined (i : Nat) : EventLoop → Prop
  | .destroying _ k => i < k
  | .exited _ => True
  | _ => False

theorem not_hasJoined {loop : EventLoop} (h : loop.code = none) (i : Nat) :
    ¬ loop.hasJoined i := by
  cases loop with
  | polling | closed | joining => exact id
  | destroying | exited => cases h

/-- Both threads.  `gui.script` are the calls the benchmark thread is about to make: it does
    nothing else before it has made them. -/
structure Session (σ : Fin n → Type) where
  now : TimePoint
  /-- `RunBenchmark`, once it was entered -/
  bench : Option (DisplayRun σ) := none
  /-- the workers, once one of them has gone on behind `RunBenchmark` -/
  outlived : Option (BenchmarkRun σ) := none
  /-- what `Run` has returned -/
  returned : Option Int32 := none
  gui : GuiRun DisplayContext BenchmarkResults
  loop : EventLoop := .polling
  stopEnabled : Bool := true

def Session.init (app : QtApp σ κ) (now : TimePoint) : Session σ :=
  { now := now, gui := GuiRun.init app.firstContext [] }

/-- What happens next.  Of the benchmark thread: it enters `RunBenchmark`, goes on there, goes
    on with a call of the mailbox, returns from `Run`, with all files written or not.  Of
    others in the run: what `benchmarkStep` has, and behind it a worker goes on.  Of the main
    thread: it goes on with a tick, the user stops the run, or closes the window, the event loop
    is left for another reason, it asks for a stop, it joins, it goes on with the destruction.
    Or time passes. -/
inductive SessionAct (κ : Fin n → Type) where
  | enter
  | main (snapshot : MetricsSnapshot) (collected : Collected)
  | write
  | finish (exported : Bool)
  | other (a : BenchmarkAct κ)
  | outlive (i : Fin n) (env : Env (κ i))
  | poll
  | clickStop
  | close
  | quit
  | leave
  | join
  | destroy
  | tick (elapsed : Nat)

/-- The benchmark thread is in no call of the mailbox. -/
def Session.idle (s : Session σ) : Bool := s.gui.script.isEmpty && s.gui.advancing.isNone

/-- `RequestStop`: the display of the run sees it. -/
def Session.requestStop (s : Session σ) : Session σ :=
  { s with
    gui := { s.gui with mailbox := { s.gui.mailbox with stopRequested := true } }
    bench := s.bench.map (fun d => { d with timed := { d.timed with stopRequested := true } }) }

/-- `RunBenchmark` when it is entered. -/
def QtApp.entered (app : QtApp σ κ) (now : TimePoint) (stopRequested : Bool) : DisplayRun σ :=
  let d := DisplayRun.init app.runtimeSeconds app.thread app.engine now
  { d with timed := { d.timed with stopRequested := stopRequested } }

/-- `RunBenchmark` begins with `Init`. -/
def Session.enter (app : QtApp σ κ) (s : Session σ) : Session σ :=
  { s with
    bench := some (app.entered s.now s.gui.mailbox.stopRequested)
    gui := s.gui.push (qtDisplayCalls app.context (.init app.runtimeSeconds s.now)) }

/-- A step in `RunBenchmark`, with the calls it makes. -/
def Session.inRun (app : QtApp σ κ) (s : Session σ) (a : DisplayAct κ) : Option (Session σ) :=
  s.bench.bind fun d =>
    (displayRunStep app.runtimeSeconds app.engines d a).map fun d' =>
      { s with
        bench := some d'
        gui := s.gui.push ((callsOf d.timed a).flatMap (qtDisplayCalls app.context)) }

/-- What `Run` returns. -/
def Session.exitCode (s : Session σ) (exported : Bool) : Int32 :=
  match s.bench with
  | none => EXIT_FAILURE
  | some d =>
      if d.threw = true ∨ exported = false
          ∨ ∃ i, (d.timed.run.workers i).thread.failed = true then EXIT_FAILURE
      else EXIT_SUCCESS

/-- `RunBenchmark` was not entered, or was left. -/
def Session.outsideRun (s : Session σ) : Bool :=
  s.bench.all (fun d => decide (d.timed.run.main = .left))

/-- The workers as they are, once `RunBenchmark` was entered. -/
def Session.workers (s : Session σ) : Option (BenchmarkRun σ) :=
  s.outlived.or (s.bench.map fun d => d.timed.run)

/-- The thread of a worker is gone, or never was. -/
def Session.ended (s : Session σ) (i : Fin n) : Bool := s.workers.all fun r => r.ended i

/-- Does the benchmark thread take the step, or somebody else? -/
def isThrowing : BenchmarkAct κ → Bool
  | .throwing => true
  | _ => false

/-- One step. -/
def sessionStep (app : QtApp σ κ) (s : Session σ) : SessionAct κ → Option (Session σ)
  | .enter => if s.bench.isNone ∧ s.returned = none then some (s.enter app) else none
  | .main snapshot collected =>
      if s.returned = none ∧ s.idle then
        s.bench.bind fun d =>
          s.inRun app ⟨.main, snapshot, app.results d.timed collected⟩
      else none
  | .write => (writerStep s.gui).map fun gui => { s with gui := gui }
  | .finish exported =>
      -- behind `Run` the thread marks the shutdown, whatever was thrown in it
      if s.returned = none ∧ s.idle ∧ s.outsideRun then
        some
          { s with
            returned := some (s.exitCode exported)
            gui := s.gui.push [.markShutdown] }
      else none
  | .other a =>
      -- a throw is the benchmark thread's own step
      if s.returned = none ∧ (isThrowing a → s.idle) then s.inRun app { act := .other a }
      else none
  | .outlive i env =>
      s.workers.bind fun r =>
        (outliveStep app.engines r i env).map fun r' => { s with outlived := some r' }
  | .poll =>
      if s.loop = .polling then
        (guiStep resultsView s.gui).map fun gui =>
          { s with gui := gui, stopEnabled := s.stopEnabled || gui.window.finished }
      else none
  | .clickStop =>
      -- once the run is over the button closes the window
      if s.loop = .polling ∧ s.gui.tick = .idle ∧ s.stopEnabled then
        if s.gui.window.finished then some { s.requestStop with loop := .closed }
        else some { s.requestStop with stopEnabled := false }
      else none
  | .close =>
      if s.loop = .polling ∧ s.gui.tick = .idle then
        some { s.requestStop with loop := .closed }
      else none
  | .quit =>
      if s.loop = .polling ∧ s.gui.tick = .idle then some { s with loop := .closed } else none
  | .leave =>
      if s.loop = .closed then some { s.requestStop with loop := .joining } else none
  | .join =>
      if s.loop = .joining ∧ s.idle then
        s.returned.map fun rc => { s with loop := .destroying rc 0 }
      else none
  | .destroy =>
      match s.loop with
      | .destroying rc k =>
          if h : k < n then
            if s.ended ⟨k, h⟩ then some { s with loop := .destroying rc (k + 1) } else none
          else some { s with loop := .exited rc }
      | _ => none
  | .tick elapsed =>
      some
        { s with
          now := s.now + elapsed
          bench := s.bench.map fun d =>
            { d with timed := { d.timed with now := d.timed.now + elapsed } } }

/-! ## What a step does -/

variable {app : QtApp σ κ} {s t : Session σ}

/-- The state behind a step in `RunBenchmark`. -/
def Session.ranTo (app : QtApp σ κ) (s : Session σ) (d d' : DisplayRun σ) (a : DisplayAct κ) :
    Session σ :=
  { s with
    bench := some d'
    gui := s.gui.push ((callsOf d.timed a).flatMap (qtDisplayCalls app.context)) }

/-- All a step can do, and when. -/
inductive SessionMove (app : QtApp σ κ) (s : Session σ) : SessionAct κ → Session σ → Prop where
  | enter (hbench : s.bench = none) (hreturned : s.returned = none) :
      SessionMove app s .enter (s.enter app)
  | main {snapshot collected d d'} (hbench : s.bench = some d) (hreturned : s.returned = none)
      (hidle : s.idle = true)
      (hstep : displayRunStep app.runtimeSeconds app.engines d
        ⟨.main, snapshot, app.results d.timed collected⟩ = some d') :
      SessionMove app s (.main snapshot collected)
        (s.ranTo app d d' ⟨.main, snapshot, app.results d.timed collected⟩)
  | write {gui} (hstep : mailboxStep resultsView s.gui .writer = some gui) :
      SessionMove app s .write { s with gui := gui }
  | finish {exported} (hreturned : s.returned = none) (hidle : s.idle = true)
      (hout : ∀ d, s.bench = some d → d.timed.run.main = .left) :
      SessionMove app s (.finish exported)
        { s with returned := some (s.exitCode exported), gui := s.gui.push [.markShutdown] }
  | other {a d d'} (hbench : s.bench = some d) (hreturned : s.returned = none)
      (hidle : isThrowing a = true → s.idle = true)
      (hstep : displayRunStep app.runtimeSeconds app.engines d { act := .other a } = some d') :
      SessionMove app s (.other a) (s.ranTo app d d' { act := .other a })
  | poll {gui} (hloop : s.loop = .polling)
      (hstep : mailboxStep resultsView s.gui .gui = some gui) :
      SessionMove app s .poll
        { s with gui := gui, stopEnabled := s.stopEnabled || gui.window.finished }
  | clickClose (hloop : s.loop = .polling) (htick : s.gui.tick = .idle) :
      SessionMove app s .clickStop { s.requestStop with loop := .closed }
  | clickStop (hloop : s.loop = .polling) (htick : s.gui.tick = .idle) :
      SessionMove app s .clickStop { s.requestStop with stopEnabled := false }
  | close (hloop : s.loop = .polling) (htick : s.gui.tick = .idle) :
      SessionMove app s .close { s.requestStop with loop := .closed }
  | quit (hloop : s.loop = .polling) (htick : s.gui.tick = .idle) :
      SessionMove app s .quit { s with loop := .closed }
  | leave (hloop : s.loop = .closed) :
      SessionMove app s .leave { s.requestStop with loop := .joining }
  | join {rc} (hloop : s.loop = .joining) (hidle : s.idle = true)
      (hreturned : s.returned = some rc) :
      SessionMove app s .join { s with loop := .destroying rc 0 }
  | outlive {i env r r'} (hworkers : s.workers = some r)
      (hstep : outliveStep app.engines r i env = some r') :
      SessionMove app s (.outlive i env) { s with outlived := some r' }
  | destroy {rc k} (hloop : s.loop = .destroying rc k) (hk : k < n)
      (hended : s.ended ⟨k, hk⟩ = true) :
      SessionMove app s .destroy { s with loop := .destroying rc (k + 1) }
  | destroyed {rc k} (hloop : s.loop = .destroying rc k) (hk : ¬ k < n) :
      SessionMove app s .destroy { s with loop := .exited rc }
  | tick {elapsed : Nat} :
      SessionMove app s (.tick elapsed)
        { s with
          now := s.now + elapsed
          bench := s.bench.map fun d =>
            { d with timed := { d.timed with now := d.timed.now + elapsed } } }

/-- **Every step is one of the moves.** -/
theorem sessionStep_move {a : SessionAct κ} (h : sessionStep app s a = some t) :
    SessionMove app s a t := by
  cases a with
  | enter =>
      obtain ⟨⟨hbench, hreturned⟩, ht⟩ := Option.ite_none_right_eq_some.mp h
      cases ht
      exact .enter (Option.isNone_iff_eq_none.mp hbench) hreturned
  | main snapshot collected =>
      obtain ⟨⟨hreturned, hidle⟩, h⟩ := Option.ite_none_right_eq_some.mp h
      obtain ⟨d, hbench, h⟩ := Option.bind_eq_some_iff.mp h
      rw [Session.inRun, hbench, Option.bind_some] at h
      obtain ⟨d', hstep, rfl⟩ := Option.map_eq_some_iff.mp h
      exact .main hbench hreturned hidle hstep
  | write =>
      obtain ⟨gui, hstep, rfl⟩ := Option.map_eq_some_iff.mp h
      exact .write hstep
  | finish exported =>
      obtain ⟨⟨hreturned, hidle, hout⟩, ht⟩ := Option.ite_none_right_eq_some.mp h
      cases ht
      refine .finish hreturned hidle (fun d hd => ?_)
      rw [Session.outsideRun, hd] at hout
      exact of_decide_eq_true hout
  | other a =>
      obtain ⟨⟨hreturned, hidle⟩, h⟩ := Option.ite_none_right_eq_some.mp h
      obtain ⟨d, hbench, h⟩ := Option.bind_eq_some_iff.mp h
      obtain ⟨d', hstep, rfl⟩ := Option.map_eq_some_iff.mp h
      exact .other hbench hreturned hidle hstep
  | poll =>
      obtain ⟨hloop, h⟩ := Option.ite_none_right_eq_some.mp h
      obtain ⟨gui, hstep, rfl⟩ := Option.map_eq_some_iff.mp h
      exact .poll hloop hstep
  | clickStop =>
      obtain ⟨⟨hloop, htick, -⟩, h⟩ := Option.ite_none_right_eq_some.mp h
      split at h
      · cases h
        exact .clickClose hloop htick
      · cases h
        exact .clickStop hloop htick
  | close =>
      obtain ⟨⟨hloop, htick⟩, ht⟩ := Option.ite_none_right_eq_some.mp h
      cases ht
      exact .close hloop htick
  | quit =>
      obtain ⟨⟨hloop, htick⟩, ht⟩ := Option.ite_none_right_eq_some.mp h
      cases ht
      exact .quit hloop htick
  | leave =>
      obtain ⟨hloop, ht⟩ := Option.ite_none_right_eq_some.mp h
      cases ht
      exact .leave hloop
  | join =>
      obtain ⟨⟨hloop, hidle⟩, h⟩ := Option.ite_none_right_eq_some.mp h
      obtain ⟨rc, hreturned, rfl⟩ := Option.map_eq_some_iff.mp h
      exact .join hloop hidle hreturned
  | outlive i env =>
      obtain ⟨r, hworkers, h⟩ := Option.bind_eq_some_iff.mp h
      obtain ⟨r', hstep, rfl⟩ := Option.map_eq_some_iff.mp h
      exact .outlive hworkers hstep
  | destroy =>
      rw [sessionStep] at h
      split at h
      case h_1 rc k hloop =>
          split at h
          case isTrue hk =>
              obtain ⟨hended, ht⟩ := Option.ite_none_right_eq_some.mp h
              cases ht
              exact .destroy hloop hk hended
          case isFalse hk =>
              cases h
              exact .destroyed hloop hk
      case h_2 => cases h
  | tick elapsed =>
      cases h
      exact .tick

/-! ## The run in a session -/

section Bench

/-- What a session does to its run: nothing, to go on with it, or to enter it. -/
inductive BenchGoes (app : QtApp σ κ) :
    Option (DisplayRun σ) → Option (DisplayRun σ) → Prop where
  | outside : BenchGoes app none none
  | goes {d d' : DisplayRun σ} (as : List (DisplayAct κ))
      (h : run (displayRunStep app.runtimeSeconds app.engines) d as = some d') :
      BenchGoes app (some d) (some d')
  | enters {d' : DisplayRun σ} (now : TimePoint) (stopRequested : Bool) (as : List (DisplayAct κ))
      (h : run (displayRunStep app.runtimeSeconds app.engines) (app.entered now stopRequested) as
        = some d') :
      BenchGoes app none (some d')

theorem BenchGoes.refl (app : QtApp σ κ) (b : Option (DisplayRun σ)) : BenchGoes app b b := by
  cases b with
  | none => exact .outside
  | some d => exact .goes [] rfl

theorem BenchGoes.trans {b c e : Option (DisplayRun σ)} (h : BenchGoes app b c)
    (h' : BenchGoes app c e) : BenchGoes app b e := by
  cases h with
  | outside => exact h'
  | goes as hrun =>
      cases h' with
      | goes bs hrun' => exact .goes (as ++ bs) (run_append hrun hrun')
  | enters now stopRequested as hrun =>
      cases h' with
      | goes bs hrun' => exact .enters now stopRequested (as ++ bs) (run_append hrun hrun')

/-- A request of the user, as a step of the run. -/
theorem displayRunStep_request (runtimeSeconds : Int32) (E : ∀ i, Engine (σ i) (κ i))
    (d : DisplayRun σ) :
    displayRunStep runtimeSeconds E d { act := .request }
      = some { d with timed := { d.timed with stopRequested := true } } := by
  have hcalls : callsOf d.timed ({ act := .request } : DisplayAct κ) = [] :=
    callsOf_other rfl (fun hno => by cases hno)
  simp [displayRunStep, timedStep, hcalls, DisplayAct.throws]

/-- The passing of time, as a step of the run. -/
theorem displayRunStep_tick (runtimeSeconds : Int32) (E : ∀ i, Engine (σ i) (κ i))
    (d : DisplayRun σ) (elapsed : Nat) :
    displayRunStep runtimeSeconds E d { act := .tick elapsed }
      = some { d with timed := { d.timed with now := d.timed.now + elapsed } } := by
  have hcalls : callsOf d.timed ({ act := .tick elapsed } : DisplayAct κ) = [] :=
    callsOf_other rfl (fun hno => by cases hno)
  simp [displayRunStep, timedStep, hcalls, DisplayAct.throws]

theorem benchGoes_requestStop (app : QtApp σ κ) (s : Session σ) :
    BenchGoes app s.bench s.requestStop.bench := by
  rw [Session.requestStop]
  cases s.bench with
  | none => exact .outside
  | some d => exact .goes [_] (run_single (displayRunStep_request _ _ d))

/-- What a step of the session does to its run. -/
theorem benchGoes_step {a : SessionAct κ} (h : SessionMove app s a t) :
    BenchGoes app s.bench t.bench := by
  cases h with
  | enter hbench =>
      rw [hbench]
      exact .enters s.now _ [] rfl
  | main hbench _ _ hstep =>
      rw [hbench]
      exact .goes [_] (run_single hstep)
  | other hbench _ _ hstep =>
      rw [hbench]
      exact .goes [_] (run_single hstep)
  | write | finish | poll | quit | join | outlive | destroy | destroyed =>
      exact .refl app s.bench
  | clickClose | clickStop | close | leave => exact benchGoes_requestStop app s
  | @tick elapsed =>
      cases hbench : s.bench with
      | none =>
          simp only [Option.map_none]
          exact .outside
      | some d => exact .goes [_] (run_single (displayRunStep_tick _ _ d elapsed))

/-- **A session runs the benchmark**: what its run goes through, a run without a window goes
    through too. -/
theorem session_runs {as : List (SessionAct κ)} (h : run (sessionStep app) s as = some t) :
    BenchGoes app s.bench t.bench := by
  induction as generalizing s with
  | nil =>
      rw [Option.some.inj h]
      exact .refl app t.bench
  | cons a as ih =>
      obtain ⟨u, hu, hrest⟩ := run_cons_iff.mp h
      exact (benchGoes_step (sessionStep_move hu)).trans (ih hrest)

/-- The flag the window has set may be set when the run is entered. -/
theorem entered_reached (app : QtApp σ κ) (now : TimePoint) (stopRequested : Bool) :
    ∃ as, run (displayRunStep app.runtimeSeconds app.engines)
      (DisplayRun.init app.runtimeSeconds app.thread app.engine now) as
        = some (app.entered now stopRequested) := by
  cases stopRequested with
  | false => exact ⟨[], rfl⟩
  | true => exact ⟨[_], run_single (displayRunStep_request ..)⟩

/-- A run in a session is one that a run without a window can come to. -/
theorem bench_reached {d : DisplayRun σ} {now : TimePoint} {as : List (SessionAct κ)}
    (h : run (sessionStep app) (Session.init app now) as = some s) (hbench : s.bench = some d) :
    ∃ start bs, run (displayRunStep app.runtimeSeconds app.engines)
      (DisplayRun.init app.runtimeSeconds app.thread app.engine start) bs = some d := by
  have hgoes := session_runs h
  rw [hbench] at hgoes
  cases hgoes with
  | enters start stopRequested bs hrun =>
      obtain ⟨cs, hcs⟩ := entered_reached app start stopRequested
      exact ⟨start, cs ++ bs, run_append hcs hrun⟩

end Bench

/-! ## The mailbox in a session -/

/-- The calls of the mailbox so far, with those that are being made. -/
def Session.made (app : QtApp σ κ) (s : Session σ) :
    List (WriterCall DisplayContext BenchmarkResults) :=
  s.bench.elim [] (fun d => d.calls.flatMap (qtDisplayCalls app.context))
    ++ if s.returned.isSome then [.markShutdown] else []

theorem made_requestStop (app : QtApp σ κ) (s : Session σ) :
    s.requestStop.made app = s.made app := by
  rw [Session.made, Session.made, Session.requestStop]
  cases s.bench with
  | none => rfl
  | some d => rfl

/-- What the mailbox and the window have gone through, with the calls made and any to come. -/
def Polls (app : QtApp σ κ) (s : Session σ) : Prop :=
  ∀ more, ∃ as, run (mailboxStep resultsView)
    (GuiRun.init app.firstContext (s.made app ++ more)) as = some (s.gui.push more)

/-- Nothing was called, and nobody has polled. -/
theorem polls_init (app : QtApp σ κ) (now : TimePoint) : Polls app (Session.init app now) :=
  fun _ => ⟨[], rfl⟩

/-- A step of the mailbox or the window. -/
theorem Polls.step (h : Polls app s) {a : GuiAct} (hmade : t.made app = s.made app)
    (hstep : mailboxStep resultsView s.gui a = some t.gui) : Polls app t := by
  intro more
  obtain ⟨as, has⟩ := h more
  rw [hmade]
  exact ⟨as ++ [a], run_append has (run_single (mailboxStep_push hstep more))⟩

/-- New calls are calls that were to come. -/
theorem Polls.push (h : Polls app s) {calls : List (WriterCall DisplayContext BenchmarkResults)}
    (hmade : t.made app = s.made app ++ calls) (hgui : t.gui = s.gui.push calls) :
    Polls app t := by
  intro more
  obtain ⟨as, has⟩ := h (calls ++ more)
  refine ⟨as, ?_⟩
  rw [hmade, hgui, push_push, List.append_assoc]
  exact has

/-- A request is a step of the mailbox. -/
theorem Polls.requestStop (h : Polls app s) : Polls app s.requestStop :=
  have hstep : mailboxStep resultsView s.gui .requestStop = some s.requestStop.gui := rfl
  h.step (made_requestStop app s) hstep

/-- A step in `RunBenchmark` makes its calls. -/
theorem Polls.ranTo (h : Polls app s) {d d' : DisplayRun σ} {a : DisplayAct κ}
    (hbench : s.bench = some d) (hreturned : s.returned = none)
    (hstep : displayRunStep app.runtimeSeconds app.engines d a = some d') :
    Polls app (s.ranTo app d d' a) := by
  obtain ⟨u, -, rfl⟩ := Option.map_eq_some_iff.mp hstep
  refine h.push ?_ rfl
  simp [Session.made, Session.ranTo, hbench, hreturned]

/-- A step of the session is a step of the mailbox, or brings calls to come. -/
theorem polls_step (s : Session σ) (a : SessionAct κ) (t : Session σ) (h : Polls app s)
    (hstep : sessionStep app s a = some t) : Polls app t := by
  cases sessionStep_move hstep with
  | enter hbench hreturned =>
      refine h.push ?_ rfl
      simp [Session.made, Session.enter, hbench, hreturned, QtApp.entered, DisplayRun.init]
  | main hbench hreturned _ hrun => exact h.ranTo hbench hreturned hrun
  | other hbench hreturned _ hrun => exact h.ranTo hbench hreturned hrun
  | write hwrite => exact h.step rfl hwrite
  | finish hreturned =>
      refine h.push ?_ rfl
      simp [Session.made, hreturned]
  | poll _ hpoll => exact h.step rfl hpoll
  | clickClose | clickStop | close | leave => exact h.requestStop
  | quit | join | outlive | destroy | destroyed => exact h
  | tick =>
      refine h.push ?_ (push_nil s.gui).symm
      simp only [Session.made, List.append_nil]
      cases s.bench with
      | none => rfl
      | some d => rfl

/-- **A session polls the mailbox**: what its window goes through, a window goes through that
    polls a mailbox with the calls of this run. -/
theorem session_polls {now : TimePoint} {as : List (SessionAct κ)}
    (h : run (sessionStep app) (Session.init app now) as = some s) : Polls app s :=
  run_invariant polls_step h (polls_init app now)

end Session

end CfioQtApp
