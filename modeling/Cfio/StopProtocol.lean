import Cfio.WorkerSlots

/-! # The stop protocol

    Any number of workers share the run flag; the main thread and a worker that
    fails clear it, and nobody sets it (`step_flag`).  A worker reads the flag, and
    acts on what it read in a later step.

    `LateInv` is the invariant of one worker: before the flag is cleared none of
    its submits is late, and where it is about to submit none is yet.  The family
    of workers is the product of their steps; each of them runs alone under
    interference (`Transition.product_projects`), so what holds of one worker in
    every environment holds of each worker in every interleaving. -/

namespace CfioStopProtocol

open CfioTypes CfioConfig CfioBufferPool CfioWorkerThread CfioWorkerSlots
open RequestServer Transition

section Worker

variable {σ κ : Type*} {E : Engine σ κ}
variable {running running' : Bool} {w w' : Worker σ} {env : Env κ}

/-- A step of a worker leaves the flag or clears it. -/
theorem step_flag (h : step E running w env = some (running', w')) :
    flagRely running running' = true := by
  cases step_effect h with
  | failed e lost hloc => exact Bool.or_true running
  | _ => exact Bool.or_not_self running

/-- A submit begun after the flag was cleared. -/
def isLate : EngineCall → Bool
  | .submitIo running _ _ _ => !running
  | .pollCompletions _ _ _ _ _ => false

/-- How many submits a worker began after the flag was cleared. -/
def lateSubmits (calls : List EngineCall) : Nat := calls.countP isLate

theorem lateSubmits_append (calls : List EngineCall) (call : EngineCall) :
    lateSubmits (calls ++ [call]) = lateSubmits calls + if isLate call then 1 else 0 := by
  simp only [lateSubmits, List.countP_append, List.countP_singleton]

/-- At most one late submit, and none while the flag is up or one is about to be
    made. -/
structure LateInv (running : Bool) (w : Worker σ) : Prop where
  le_one : lateSubmits w.calls ≤ 1
  up : running = true → lateSubmits w.calls = 0
  site : ∀ next, SubmitSite w.loc next → lateSubmits w.calls = 0

/-- A location that is not about to submit asks for nothing. -/
theorem lateInv_of_not_site {loc : Loc} (hno : ∀ next, ¬ SubmitSite loc next)
    {calls : List EngineCall} (thread : WorkerThread) (engine : σ)
    (hle : lateSubmits calls ≤ 1) (hup : running = true → lateSubmits calls = 0) :
    LateInv running
      { thread := thread, engine := engine, loc := loc, calls := calls } :=
  ⟨hle, hup, fun next hs => absurd hs (hno next)⟩

/-- Only a location that read the flag as up goes on to submit. -/
theorem jump_to_site {depth : Int32} {loc next after : Loc}
    (hj : Jump running depth loc next) (hs : SubmitSite next after) : running = true := by
  cases hj with
  | syncGo ht => exact ht
  | prefillGo i n hi ht => exact ht
  | refillGo n now todo ht => exact ht
  | _ => exact nomatch hs

/-- A worker that has left the loops submits no more. -/
theorem not_site_of_dead {loc next : Loc} (hdead : ¬ Live loc) :
    ¬ SubmitSite loc next :=
  fun hs => hdead (SubmitSite.live hs)

/-- After a submit, a poll or a record the worker is not about to submit. -/
theorem submit_next_not_site {loc next after : Loc} (h : SubmitSite loc next) :
    ¬ SubmitSite next after := by
  intro hs
  cases h <;> exact nomatch hs

theorem poll_next_not_site {depth hi : Int} {loc after : Loc}
    {go : TimePoint → List IOCompletion → Loc} (h : PollSite depth loc hi go)
    (now : TimePoint) (out : List IOCompletion) : ¬ SubmitSite (go now out) after := by
  intro hs
  cases h <;> exact nomatch hs

theorem record_next_not_site {loc next after : Loc} {now : TimePoint} {c : IOCompletion}
    (h : RecordSite loc now c next) : ¬ SubmitSite next after := by
  intro hs
  cases h <;> exact nomatch hs

/-- **Every step keeps the late submits at one.** -/
theorem effect_late (hi : LateInv running w) (h : Effect E running w env running' w') :
    LateInv running' w' := by
  -- a submit made here is late only if the flag is down, and then the first one
  have hsubmit : ∀ {next : Loc} {unrecorded : Nat} {request : IORequest}
      {thrown : Option Exn}, SubmitSite w.loc next →
      lateSubmits (w.calls ++ [.submitIo running unrecorded request thrown]) ≤ 1 ∧
        (running = true →
          lateSubmits (w.calls ++ [.submitIo running unrecorded request thrown]) = 0) := by
    intro next unrecorded request thrown hs
    rw [lateSubmits_append, hi.site next hs]
    cases running with
    | true => exact ⟨Nat.zero_le 1, fun _ => rfl⟩
    | false => exact ⟨Nat.le_refl 1, fun hno => nomatch hno⟩
  have hpoll : ∀ {lo hi' : Int} {out : List IOCompletion} {thrown : Option Exn},
      lateSubmits (w.calls ++ [.pollCompletions running lo hi' out thrown])
        = lateSubmits w.calls := by
    intro lo hi' out thrown
    rw [lateSubmits_append]
    rfl
  cases h with
  | jump next hj =>
      refine ⟨hi.le_one, hi.up, ?_⟩
      intro after hs
      exact hi.up (jump_to_site hj hs)
  | accepted next request thread engine hs hgen hsub =>
      obtain ⟨hle, hup⟩ := hsubmit hs
      exact lateInv_of_not_site (fun _ => submit_next_not_site hs) _ _ hle hup
  | rejected next request thread engine e hs hgen hsub =>
      obtain ⟨hle, hup⟩ := hsubmit hs
      exact lateInv_of_not_site (fun _ => not_site_of_dead id) _ _ hle hup
  | polled hiEvents go out engine hp hpoll' =>
      refine lateInv_of_not_site (fun _ => poll_next_not_site hp env.now out) _ _ ?_ ?_
      · rw [hpoll]
        exact hi.le_one
      · rw [hpoll]
        exact hi.up
  | pollThrew hiEvents go out engine e hp hpoll' =>
      refine lateInv_of_not_site (fun _ => not_site_of_dead id) _ _ ?_ ?_
      · rw [hpoll]
        exact hi.le_one
      · rw [hpoll]
        exact hi.up
  | recorded now c next hr =>
      exact lateInv_of_not_site (fun _ => record_next_not_site hr) _ _ hi.le_one hi.up
  | failed e lost hloc =>
      exact lateInv_of_not_site (fun _ => not_site_of_dead id) _ _ hi.le_one
        (fun hup => absurd hup (by decide))

/-- Over a run of one worker from its start. -/
theorem run_late {thread : WorkerThread} {s : σ} {running₀ : Bool}
    {as : List (ThreadAct Bool (Env κ))}
    (hrun : run (threadStep flagRely (step E))
      (running₀, { thread := thread, engine := s }) as = some (running, w)) :
    LateInv running w := by
  refine worker_invariant (I := LateInv) ?_ ?_ hrun
    ⟨Nat.zero_le 1, fun _ => rfl, fun _ _ => rfl⟩
  · intro g g' v hrely hv
    refine { hv with up := ?_ }
    intro ht
    subst ht
    cases g with
    | true => exact hv.up rfl
    | false => exact nomatch hrely
  · intro g v env g' v' hv he
    exact effect_late hv he

/-- At the condition of `RunAsyncLoop` with the flag up the queue is full; and a
    worker that polls has a request outstanding. -/
theorem SlotInv.stop {answers : IORequest → IOCompletion → Prop} {d : Nat}
    {C : Contract E answers d} {config : JobConfig} (hi : SlotInv C config running w)
    (hd : config.effectiveIODepth.toInt = d) (hpos : 1 ≤ d) :
    (∀ n, w.loc = .drainTest n → running = true → n = w.thread.depth) ∧
      (∀ hiEvents go, PollSite w.thread.depth w.loc hiEvents go →
        C.outstanding w.engine ≠ []) := by
  have hdepth := hi.depth_eq hd
  have hcount := hi.counted
  constructor
  · intro n hloc ht
    rw [hloc] at hcount
    obtain ⟨hn, hfull⟩ := hcount
    have hk := hfull ht
    omega
  · -- so a poll never waits for a completion that cannot come
    intro hiEvents go hp
    exact List.ne_nil_of_length_pos (counted_poll hp hdepth hpos hcount).1

end Worker

/-! ## N workers -/

section Workers

variable {ι : Type*} [DecidableEq ι] {σ κ : ι → Type*} {E : ∀ i, Engine (σ i) (κ i)}

/-- The main thread and the workers, in any order. -/
def workersStep (E : ∀ i, Engine (σ i) (κ i)) :
    Bool × (∀ i, Worker (σ i)) → ProductAct Bool (fun i => Env (κ i)) →
      Option (Bool × (∀ i, Worker (σ i))) :=
  productStep flagRely (fun i => step (E i))

/-- Each worker runs alone under interference. -/
theorem workers_project (i : ι) {s t : Bool × (∀ i, Worker (σ i))}
    {as : List (ProductAct Bool (fun i => Env (κ i)))}
    (h : run (workersStep E) s as = some t) :
    ∃ bs, run (threadStep flagRely (step (E i))) (s.1, s.2 i) bs
      = some (t.1, t.2 i) := by
  have hguar : ∀ i g l a g' l', step (E i) g l a = some (g', l') →
      flagRely g g' = true := fun _ _ _ _ _ _ hs => step_flag hs
  exact product_projects hguar i h

/-- The flag never returns to true. -/
theorem workers_flag {s t : Bool × (∀ i, Worker (σ i))}
    {as : List (ProductAct Bool (fun i => Env (κ i)))}
    (h : run (workersStep E) s as = some t) (hs : s.1 = false) : t.1 = false := by
  refine run_invariant (I := fun u => u.1 = false) ?_ h hs
  rintro ⟨g, ws⟩ a ⟨g', ws'⟩ hg hstep
  have hdown : g = false := hg
  subst hdown
  have hrely : flagRely false g' = true := by
    cases a with
    | env f =>
        obtain ⟨hrely, hs'⟩ := Option.ite_none_right_eq_some.mp hstep
        have hf : f = g' := congrArg Prod.fst (Option.some.inj hs')
        exact hf ▸ hrely
    | thread i env =>
        obtain ⟨⟨f, v⟩, hv, heq⟩ := Option.map_eq_some_iff.mp hstep
        have hf : f = g' := congrArg Prod.fst heq
        exact hf ▸ step_flag hv
  cases g' with
  | true => exact nomatch hrely
  | false => rfl

variable {answers : ι → IORequest → IOCompletion → Prop} {d : ι → Nat}
variable {C : ∀ i, Contract (E i) (answers i) (d i)}
variable {config : ι → JobConfig} {alloc : ι → Allocator}
variable {opened : ι → Except Exn Bool} {thread : ι → WorkerThread} {s : ∀ i, σ i}

/-- What holds whenever the main thread and the workers have taken any steps. -/
structure StopSafe (C : ∀ i, Contract (E i) (answers i) (d i))
    (running : Bool) (ws : ∀ i, Worker (σ i)) : Prop where
  flag : ∀ bs running' ws', run (workersStep E) (running, ws) bs = some (running', ws') →
    running = false → running' = false
  late : ∀ i, lateSubmits (ws i).calls ≤ 1
  full : ∀ i n, (ws i).loc = .drainTest n → running = true → n = (ws i).thread.depth
  no_idle_poll : ∀ i hi go, PollSite (ws i).thread.depth (ws i).loc hi go →
    (C i).outstanding (ws i).engine ≠ []

/-- **The stop protocol**, for any number of workers and in any interleaving. -/
theorem workers_stop (hans : ∀ i r c, answers i r c → c.id = r.id)
    (hstart : ∀ i, Started (C i) (config i) (alloc i) (opened i) (thread i) (s i))
    {as : List (ProductAct Bool (fun i => Env (κ i)))} {running : Bool}
    {ws : ∀ i, Worker (σ i)}
    (hrun : run (workersStep E)
      (true, fun i => { thread := thread i, engine := s i }) as = some (running, ws)) :
    StopSafe C running ws := by
  have hslots : ∀ i, SlotInv (C i) (config i) running (ws i) := by
    intro i
    obtain ⟨bs, hbs⟩ := workers_project i hrun
    exact run_slotInv (hans i) (hstart i) hbs
  refine ⟨fun bs running' ws' h hdown => workers_flag h hdown, ?_, ?_, ?_⟩
  · intro i
    obtain ⟨bs, hbs⟩ := workers_project i hrun
    exact (run_late hbs).le_one
  · intro i
    obtain ⟨hd, hpos⟩ := (hstart i).depth_eq
    exact (SlotInv.stop (hslots i) hd hpos).1
  · intro i
    obtain ⟨hd, hpos⟩ := (hstart i).depth_eq
    exact (SlotInv.stop (hslots i) hd hpos).2

end Workers

/-! ## Two workers -/

/-- A quiet step of one of two workers. -/
def turn (i : Bool) : ProductAct Bool (fun _ : Bool => Env CfioLibaio.AioKernel) :=
  .thread i { kernel := {} }

/-- The flag is cleared between a worker's second test of it and the submit that
    follows; the other worker has not begun. -/
def lateRun : List (ProductAct Bool (fun _ : Bool => Env CfioLibaio.AioKernel)) :=
  [turn false, turn false, turn false, turn false, .env false, turn false, turn false,
    turn false, turn true, turn true, turn true]

/-- The theorem on that run: one late submit, and both its requests are drained. -/
theorem workers_stop_two :
    ∃ ws, run (workersStep (fun _ : Bool => CfioLibaio.libaioEngine waits))
        (true, fun _ => { thread := depthTwoThread
                          engine := { engine := CfioLibaio.depthTwoEngine } })
        lateRun = some (false, ws) ∧
      (lateSubmits (ws false).calls, (ws false).loc, (ws true).loc)
        = (1, .poll 2, .finished []) ∧
      StopSafe (fun _ : Bool => waitsContract) false ws := by
  have hends : (run (workersStep (fun _ : Bool => CfioLibaio.libaioEngine waits))
      (true, fun _ => { thread := depthTwoThread
                        engine := { engine := CfioLibaio.depthTwoEngine } })
      lateRun).map (fun s => (s.1, lateSubmits (s.2 false).calls, (s.2 false).loc,
        (s.2 true).loc)) = some (false, 1, .poll 2, .finished []) := rfl
  obtain ⟨⟨running, ws⟩, hrun, hw⟩ := Option.map_eq_some_iff.mp hends
  obtain ⟨rfl, hlocs⟩ := Prod.mk.inj hw
  exact ⟨ws, hrun, hlocs,
    workers_stop (fun _ r c h => h.id) (fun _ => depthTwo_started) hrun⟩

end CfioStopProtocol
