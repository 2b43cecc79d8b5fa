import Mathlib.Data.Fintype.Basic
import Mathlib.Data.Fin.Basic
import Cfio.StopProtocol

/-! # How a run is left

    `RunBenchmark` starts the workers one by one, polls a timer until the run is over,
    clears the run flag, joins the workers and collects the results.  The workers meet
    in `start_barrier`, which lives on the stack of `RunBenchmark` and lets nobody
    through before all have come; what they do behind it is `CfioWorkerThread.step`.
    Several steps of the main thread can throw.

    A run can be torn down if the flag is down and nobody is held in the barrier.  That
    is so when the workers were joined, and not by unwinding: an exception before the
    flag is cleared leaves it up, and one between two starts leaves a barrier that will
    never be complete. -/

namespace CfioOrchestrator

open CfioTypes CfioWorkerThread Transition

/-! ## The system -/

/-- How far a worker has come: its thread exists, it waits in `start_barrier`, it is
    through. -/
inductive BarrierLoc where
  | notStarted
  | launched
  | waiting
  | released
  deriving DecidableEq, Repr

/-- Where the main thread is: about to start worker `k`, at the loop condition, in
    `SleepSliced`, about to call `Update`, behind the loop, about to join worker `k`,
    about to call `TakeFinalSnapshot`, `BuildResults`, `ShowSummary`. -/
inductive BenchmarkLoc where
  | starting (k : Nat)
  | atLoop
  | sleeping
  | updating
  | stopping
  | joining (k : Nat)
  | takingFinal
  | building
  | summing
  | left
  deriving DecidableEq, Repr

/-- Has the thread of the worker come to its end? -/
def isFinished : Loc → Bool
  | .finished _ => true
  | _ => false

/-- A worker at its end takes no step. -/
theorem step_finished {σ κ : Type} (E : Engine σ κ) {w : Worker σ}
    (hfin : isFinished w.loc = true) (running : Bool) (env : Env κ) :
    step E running w env = none := by
  unfold isFinished at hfin
  split at hfin
  case h_1 lost hloc => rw [step, hloc]
  case h_2 => cases hfin

section Run

variable {n : Nat} {σ κ : Fin n → Type}

/-- The main thread and the workers. -/
structure BenchmarkRun (σ : Fin n → Type) where
  gRunning : Bool := true
  main : BenchmarkLoc := .starting 0
  barrier : Fin n → BarrierLoc := fun _ => .notStarted
  workers : ∀ i, Worker (σ i)

def BenchmarkRun.init (thread : Fin n → WorkerThread) (engine : ∀ i, σ i) :
    BenchmarkRun σ :=
  { workers := fun i => { thread := thread i, engine := engine i } }

/-- What happens next: the main thread goes on, or its call throws; a worker comes to
    the barrier, or works; a signal arrives. -/
inductive BenchmarkAct (κ : Fin n → Type) where
  | proceed (stopRequested deadlinePassed : Bool)
  | throwing
  | arrive (i : Fin n)
  | work (i : Fin n) (env : Env (κ i))
  | signal

/-- The main thread goes on. -/
def BenchmarkRun.proceed (stopRequested deadlinePassed : Bool) (s : BenchmarkRun σ) :
    Option (BenchmarkRun σ) :=
  match s.main with
  | .starting k =>
      if h : k < n then
        some
          { s with
            barrier := Function.update s.barrier ⟨k, h⟩ .launched
            main := .starting (k + 1) }
      else some { s with main := .atLoop }
  | .atLoop =>
      if (s.gRunning = false ∨ stopRequested = true) ∨ deadlinePassed = true then
        some { s with main := .stopping }
      else some { s with main := .sleeping }
  | .sleeping =>
      if s.gRunning = false ∨ stopRequested = true then some { s with main := .stopping }
      else some { s with main := .updating }
  | .updating => some { s with main := .atLoop }
  | .stopping => some { s with gRunning := false, main := .joining 0 }
  | .joining k =>
      if h : k < n then
        if isFinished (s.workers ⟨k, h⟩).loc then some { s with main := .joining (k + 1) }
        else none
      else some { s with main := .takingFinal }
  | .takingFinal => some { s with main := .building }
  | .building => some { s with main := .summing }
  | .summing => some { s with main := .left }
  | .left => none

/-- Can the call the main thread is about to make throw? -/
def BenchmarkLoc.mayThrow (n : Nat) : BenchmarkLoc → Bool
  | .starting k => k < n
  | .updating => true
  | .takingFinal => true
  | .building => true
  | .summing => true
  | _ => false

/-- The barrier when one more has come: all go through once all are there. -/
def BenchmarkRun.arrived (s : BenchmarkRun σ) (i : Fin n) : Fin n → BarrierLoc :=
  if ∀ j, Function.update s.barrier i .waiting j = .waiting then fun _ => .released
  else Function.update s.barrier i .waiting

/-- One step.  The run is looked at where `RunBenchmark` is left. -/
def benchmarkStep (E : ∀ i, Engine (σ i) (κ i)) (s : BenchmarkRun σ) :
    BenchmarkAct κ → Option (BenchmarkRun σ)
  | .proceed stopRequested deadlinePassed => s.proceed stopRequested deadlinePassed
  | .throwing => if s.main.mayThrow n then some { s with main := .left } else none
  | .arrive i =>
      if s.main ≠ .left ∧ s.barrier i = .launched then
        some { s with barrier := s.arrived i }
      else none
  | .work i env =>
      if s.main ≠ .left ∧ s.barrier i = .released then
        (step (E i) s.gRunning (s.workers i) env).map (fun r =>
          { s with gRunning := r.1, workers := Function.update s.workers i r.2 })
      else none
  | .signal => if s.main ≠ .left then some { s with gRunning := false } else none

/-! ## What a step does -/

/-- The timer loop, and the line behind it. -/
def BenchmarkLoc.inLoop : BenchmarkLoc → Bool
  | .atLoop => true
  | .sleeping => true
  | .updating => true
  | .stopping => true
  | _ => false

/-- Behind the joins. -/
def BenchmarkLoc.collecting : BenchmarkLoc → Bool
  | .takingFinal => true
  | .building => true
  | .summing => true
  | _ => false

/-- All a step can do, and when. -/
inductive BenchmarkMove (E : ∀ i, Engine (σ i) (κ i)) (s : BenchmarkRun σ) :
    BenchmarkAct κ → BenchmarkRun σ → Prop where
  | start {b c k} (hmain : s.main = .starting k) (hk : k < n) :
      BenchmarkMove E s (.proceed b c)
        { s with
          barrier := Function.update s.barrier ⟨k, hk⟩ .launched
          main := .starting (k + 1) }
  | started {b c k} (hmain : s.main = .starting k) (hk : ¬ k < n) :
      BenchmarkMove E s (.proceed b c) { s with main := .atLoop }
  | loop {b c next} (hmain : s.main.inLoop = true) (hnext : next.inLoop = true) :
      BenchmarkMove E s (.proceed b c) { s with main := next }
  | stop {b c} (hmain : s.main = .stopping) :
      BenchmarkMove E s (.proceed b c) { s with gRunning := false, main := .joining 0 }
  | join {b c k} (hmain : s.main = .joining k) (hk : k < n)
      (hfin : isFinished (s.workers ⟨k, hk⟩).loc = true) :
      BenchmarkMove E s (.proceed b c) { s with main := .joining (k + 1) }
  | joined {b c k} (hmain : s.main = .joining k) (hk : ¬ k < n) :
      BenchmarkMove E s (.proceed b c) { s with main := .takingFinal }
  | collect {b c next} (hmain : s.main.collecting = true)
      (hnext : next.collecting = true ∨ next = .left) :
      BenchmarkMove E s (.proceed b c) { s with main := next }
  | throwing (hmain : s.main.mayThrow n = true) :
      BenchmarkMove E s .throwing { s with main := .left }
  | arrive {i} (hmain : s.main ≠ .left) (hbarrier : s.barrier i = .launched) :
      BenchmarkMove E s (.arrive i) { s with barrier := s.arrived i }
  | work {i env running' w'} (hmain : s.main ≠ .left) (hbarrier : s.barrier i = .released)
      (hstep : step (E i) s.gRunning (s.workers i) env = some (running', w')) :
      BenchmarkMove E s (.work i env)
        { s with gRunning := running', workers := Function.update s.workers i w' }
  | signal (hmain : s.main ≠ .left) :
      BenchmarkMove E s .signal { s with gRunning := false }

variable {E : ∀ i, Engine (σ i) (κ i)} {s t : BenchmarkRun σ}

/-- What the main thread does is one of its moves. -/
theorem proceed_move {b c : Bool} (h : s.proceed b c = some t) :
    BenchmarkMove E s (.proceed b c) t := by
  rw [BenchmarkRun.proceed] at h
  split at h
  case h_1 k hmain =>
      by_cases hk : k < n
      · rw [dif_pos hk] at h
        cases h
        exact .start hmain hk
      · rw [dif_neg hk] at h
        cases h
        exact .started hmain hk
  case h_2 hmain =>
      have hloop : s.main.inLoop = true := by rw [hmain]; rfl
      split at h
      · cases h
        exact .loop hloop rfl
      · cases h
        exact .loop hloop rfl
  case h_3 hmain =>
      have hloop : s.main.inLoop = true := by rw [hmain]; rfl
      split at h
      · cases h
        exact .loop hloop rfl
      · cases h
        exact .loop hloop rfl
  case h_4 hmain =>
      cases h
      exact .loop (by rw [hmain]; rfl) rfl
  case h_5 hmain =>
      cases h
      exact .stop hmain
  case h_6 k hmain =>
      by_cases hk : k < n
      · rw [dif_pos hk] at h
        obtain ⟨hfin, ht⟩ := Option.ite_none_right_eq_some.mp h
        cases ht
        exact .join hmain hk hfin
      · rw [dif_neg hk] at h
        cases h
        exact .joined hmain hk
  case h_7 hmain =>
      cases h
      exact .collect (by rw [hmain]; rfl) (.inl rfl)
  case h_8 hmain =>
      cases h
      exact .collect (by rw [hmain]; rfl) (.inl rfl)
  case h_9 hmain =>
      cases h
      exact .collect (by rw [hmain]; rfl) (.inr rfl)
  case h_10 => cases h

/-- **Every step is one of the moves.** -/
theorem benchmarkStep_move {a : BenchmarkAct κ} (h : benchmarkStep E s a = some t) :
    BenchmarkMove E s a t := by
  cases a with
  | proceed b c => exact proceed_move h
  | throwing =>
      obtain ⟨hmain, ht⟩ := Option.ite_none_right_eq_some.mp h
      cases ht
      exact .throwing hmain
  | arrive i =>
      obtain ⟨⟨hmain, hbarrier⟩, ht⟩ := Option.ite_none_right_eq_some.mp h
      cases ht
      exact .arrive hmain hbarrier
  | work i env =>
      obtain ⟨⟨hmain, hbarrier⟩, h⟩ := Option.ite_none_right_eq_some.mp h
      obtain ⟨⟨running', w'⟩, hstep, ht⟩ := Option.map_eq_some_iff.mp h
      cases ht
      exact .work hmain hbarrier hstep
  | signal =>
      obtain ⟨hmain, ht⟩ := Option.ite_none_right_eq_some.mp h
      cases ht
      exact .signal hmain

/-! ## The invariant -/

/-- Which workers the main thread has started. -/
def BenchmarkLoc.hasStarted (i : Nat) : BenchmarkLoc → Prop
  | .starting k => i < k
  | _ => True

/-- Which workers it has joined. -/
def BenchmarkLoc.hasJoined (i : Nat) : BenchmarkLoc → Prop
  | .joining k => i < k
  | .takingFinal => True
  | .building => True
  | .summing => True
  | _ => False

/-- Has it cleared the flag? -/
def BenchmarkLoc.hasStopped : BenchmarkLoc → Prop
  | .joining _ => True
  | .takingFinal => True
  | .building => True
  | .summing => True
  | _ => False

/-! What holds of the places in the loop, and of those behind the joins. -/

section Places

variable {loc : BenchmarkLoc}

theorem ne_left_of_inLoop (h : loc.inLoop = true) : loc ≠ .left := by
  rintro rfl
  cases h

theorem hasStarted_of_inLoop (h : loc.inLoop = true) (i : Nat) : loc.hasStarted i := by
  cases loc with
  | starting => cases h
  | _ => trivial

theorem not_hasJoined_of_inLoop (h : loc.inLoop = true) (i : Nat) : ¬ loc.hasJoined i := by
  cases loc with
  | atLoop | sleeping | updating | stopping => exact id
  | _ => cases h

theorem not_hasStopped_of_inLoop (h : loc.inLoop = true) : ¬ loc.hasStopped := by
  cases loc with
  | atLoop | sleeping | updating | stopping => exact id
  | _ => cases h

theorem ne_left_of_collecting (h : loc.collecting = true) : loc ≠ .left := by
  rintro rfl
  cases h

theorem hasStarted_of_collecting (h : loc.collecting = true) (i : Nat) :
    loc.hasStarted i := by
  cases loc with
  | starting => cases h
  | _ => trivial

theorem hasJoined_of_collecting (h : loc.collecting = true) (i : Nat) :
    loc.hasJoined i := by
  cases loc with
  | takingFinal | building | summing => trivial
  | _ => cases h

theorem hasStopped_of_collecting (h : loc.collecting = true) : loc.hasStopped := by
  cases loc with
  | takingFinal | building | summing => trivial
  | _ => cases h

theorem ne_left_of_mayThrow (h : loc.mayThrow n = true) : loc ≠ .left := by
  rintro rfl
  cases h

end Places

/-- Where the workers are, by where the main thread is. -/
structure BenchmarkInv (s : BenchmarkRun σ) : Prop where
  /-- nobody works before the barrier -/
  entered : ∀ i, s.barrier i ≠ .released → (s.workers i).loc = .enter
  /-- the barrier lets all through or nobody -/
  together : ∀ i j, s.barrier i = .released → s.barrier j = .released
  started : s.main ≠ .left → ∀ i, s.barrier i ≠ .notStarted ↔ s.main.hasStarted i
  joined : ∀ i : Fin n, s.main.hasJoined i → isFinished (s.workers i).loc = true
  stopped : s.main.hasStopped → s.gRunning = false

theorem benchmarkInv_init (thread : Fin n → WorkerThread) (engine : ∀ i, σ i) :
    BenchmarkInv (BenchmarkRun.init thread engine) where
  entered := fun _ _ => rfl
  together := nofun
  started := fun _ i => ⟨fun h => absurd rfl h, fun h => absurd h (Nat.not_lt_zero i)⟩
  joined := nofun
  stopped := nofun

/-- While a worker is still to be started nobody is through the barrier. -/
theorem BenchmarkInv.not_released (h : BenchmarkInv s) {i : Fin n}
    (hi : s.barrier i = .notStarted) (j : Fin n) : s.barrier j ≠ .released := by
  intro hj
  have hreleased := h.together j i hj
  rw [hi] at hreleased
  cases hreleased

/-- The next worker is started, and all before it were. -/
theorem BenchmarkInv.start (h : BenchmarkInv s) {k : Nat} (hmain : s.main = .starting k)
    (hk : k < n) :
    BenchmarkInv
      { s with
        barrier := Function.update s.barrier ⟨k, hk⟩ .launched
        main := .starting (k + 1) } := by
  have hstarted := h.started (by rw [hmain]; exact nofun)
  rw [hmain] at hstarted
  have hnew : s.barrier ⟨k, hk⟩ = .notStarted :=
    not_not.mp (fun hne => Nat.lt_irrefl k ((hstarted _).mp hne))
  refine ⟨fun i _ => h.entered i (h.not_released hnew i), ?_, ?_, nofun, nofun⟩
  · intro i j hi
    replace hi : Function.update s.barrier ⟨k, hk⟩ .launched i = .released := hi
    by_cases hik : i = ⟨k, hk⟩
    · rw [hik, Function.update_self] at hi
      cases hi
    · rw [Function.update_of_ne hik] at hi
      exact absurd hi (h.not_released hnew i)
  · intro _ i
    show Function.update s.barrier ⟨k, hk⟩ .launched i ≠ .notStarted ↔ i.val < k + 1
    by_cases hik : i = ⟨k, hk⟩
    · rw [hik, Function.update_self]
      exact ⟨fun _ => Nat.lt_succ_self k, fun _ => nofun⟩
    · have hval : i.val ≠ k := fun heq => hik (Fin.ext heq)
      rw [Function.update_of_ne hik, hstarted i]
      show i.val < k ↔ i.val < k + 1
      omega

/-- The last one to come opens the barrier for all. -/
theorem BenchmarkInv.arrive (h : BenchmarkInv s) {i : Fin n} (hmain : s.main ≠ .left)
    (hbarrier : s.barrier i = .launched) :
    BenchmarkInv { s with barrier := s.arrived i } := by
  have hnobody : ∀ j, s.barrier j ≠ .released := by
    intro j hj
    have hreleased := h.together j i hj
    rw [hbarrier] at hreleased
    cases hreleased
  rw [BenchmarkRun.arrived]
  by_cases hall : ∀ j, Function.update s.barrier i .waiting j = .waiting
  · rw [if_pos hall]
    refine { h with
      entered := fun j _ => h.entered j (hnobody j)
      together := fun _ _ _ => rfl
      started := fun _ j => ⟨fun _ => ?_, fun _ => nofun⟩ }
    -- whoever waits was started
    refine (h.started hmain j).mp ?_
    have hj := hall j
    by_cases hji : j = i
    · rw [hji, hbarrier]
      exact nofun
    · rw [Function.update_of_ne hji] at hj
      rw [hj]
      exact nofun
  · rw [if_neg hall]
    refine { h with
      entered := fun j _ => h.entered j (hnobody j)
      together := ?_
      started := fun _ j => ?_ }
    · intro j j' hj
      replace hj : Function.update s.barrier i .waiting j = .released := hj
      by_cases hji : j = i
      · rw [hji, Function.update_self] at hj
        cases hj
      · rw [Function.update_of_ne hji] at hj
        exact absurd hj (hnobody j)
    · show Function.update s.barrier i .waiting j ≠ .notStarted ↔ s.main.hasStarted j
      rw [← h.started hmain j]
      by_cases hji : j = i
      · rw [hji, Function.update_self, hbarrier]
        exact ⟨fun _ => nofun, fun _ => nofun⟩
      · rw [Function.update_of_ne hji]

/-- A worker behind the barrier changes itself, and can only clear the flag. -/
theorem BenchmarkInv.work (h : BenchmarkInv s) {i : Fin n} {env : Env (κ i)}
    {running' : Bool} {w' : Worker (σ i)} (hbarrier : s.barrier i = .released)
    (hstep : step (E i) s.gRunning (s.workers i) env = some (running', w')) :
    BenchmarkInv
      { s with gRunning := running', workers := Function.update s.workers i w' } := by
  refine { h with entered := ?_, joined := ?_, stopped := ?_ }
  · intro j hj
    have hji : j ≠ i := by
      rintro rfl
      exact hj hbarrier
    show (Function.update s.workers i w' j).loc = .enter
    rw [Function.update_of_ne hji]
    exact h.entered j hj
  · intro j hj
    have hfin := h.joined j hj
    show isFinished (Function.update s.workers i w' j).loc = true
    by_cases hji : j = i
    · subst hji
      cases (step_finished (E j) hfin s.gRunning env).symm.trans hstep
    · rw [Function.update_of_ne hji]
      exact hfin
  · intro hstopped
    have hrely := CfioStopProtocol.step_flag hstep
    rw [h.stopped hstopped] at hrely
    show running' = false
    cases running' with
    | true => cases hrely
    | false => rfl

/-- The main thread goes to a place behind the starts. -/
theorem BenchmarkInv.move (h : BenchmarkInv s) {next : BenchmarkLoc}
    (hstarted : ∀ i, s.main.hasStarted i) (hmain : s.main ≠ .left)
    (hjoined : ∀ i : Fin n, next.hasJoined i → isFinished (s.workers i).loc = true)
    (hstopped : next.hasStopped → s.gRunning = false) (hnext : ∀ i, next.hasStarted i) :
    BenchmarkInv { s with main := next } := by
  refine { h with started := fun _ i => ?_, joined := hjoined, stopped := hstopped }
  exact (h.started hmain i).trans ⟨fun _ => hnext i, fun _ => hstarted i⟩

/-- Once `RunBenchmark` is left, less is asked for. -/
theorem BenchmarkInv.leave (h : BenchmarkInv s) :
    BenchmarkInv ({ s with main := .left } : BenchmarkRun σ) :=
  { h with started := fun hno => absurd rfl hno, joined := nofun, stopped := nofun }

/-- All have been started. -/
theorem BenchmarkInv.allStarted (h : BenchmarkInv s) {k : Nat}
    (hmain : s.main = .starting k) (hk : ¬ k < n) :
    BenchmarkInv { s with main := .atLoop } := by
  refine { h with started := fun _ i => ?_, joined := nofun, stopped := nofun }
  have hi := h.started (by rw [hmain]; exact nofun) i
  rw [hmain] at hi
  exact hi.trans ⟨fun _ => trivial, fun _ => lt_of_lt_of_le i.isLt (Nat.not_lt.mp hk)⟩

/-- The main thread joins, or has joined all: `next` is a place where no more workers
    are joined than those. -/
theorem BenchmarkInv.join (h : BenchmarkInv s) {k : Nat} (hmain : s.main = .joining k)
    {next : BenchmarkLoc}
    (hjoined : ∀ i : Fin n, next.hasJoined i → i.val < k ∨
      isFinished (s.workers i).loc = true)
    (hnext : ∀ i, next.hasStarted i) : BenchmarkInv { s with main := next } := by
  refine h.move ?_ ?_ ?_ ?_ hnext
  · rw [hmain]
    exact fun _ => trivial
  · rw [hmain]
    exact nofun
  · intro i hi
    rcases hjoined i hi with hlt | hfin
    · refine h.joined i ?_
      rw [hmain]
      exact hlt
    · exact hfin
  · intro _
    refine h.stopped ?_
    rw [hmain]
    trivial

/-- Every step keeps the invariant. -/
theorem benchmarkInv_step (s : BenchmarkRun σ) (a : BenchmarkAct κ) (t : BenchmarkRun σ)
    (h : BenchmarkInv s) (hstep : benchmarkStep E s a = some t) : BenchmarkInv t := by
  cases benchmarkStep_move hstep with
  | start hmain hk => exact h.start hmain hk
  | started hmain hk => exact h.allStarted hmain hk
  | loop hmain hnext =>
      exact h.move (hasStarted_of_inLoop hmain) (ne_left_of_inLoop hmain)
        (fun i hi => absurd hi (not_hasJoined_of_inLoop hnext i))
        (fun hstopped => absurd hstopped (not_hasStopped_of_inLoop hnext))
        (hasStarted_of_inLoop hnext)
  | stop hmain =>
      refine { h with
        started := fun _ i => ?_
        joined := fun i hi => absurd hi (Nat.not_lt_zero i)
        stopped := fun _ => rfl }
      have hi := h.started (by rw [hmain]; exact nofun) i
      rw [hmain] at hi
      exact hi
  | @join b c k hmain hk hfin =>
      refine h.join hmain (fun i hi => ?_) (fun _ => trivial)
      by_cases hik : i.val = k
      · have heq : i = ⟨k, hk⟩ := Fin.ext hik
        rw [heq]
        exact .inr hfin
      · exact .inl (Nat.lt_of_le_of_ne (Nat.le_of_lt_succ hi) hik)
  | joined hmain hk =>
      exact h.join hmain (fun i _ => .inl (lt_of_lt_of_le i.isLt (Nat.not_lt.mp hk)))
        (fun _ => trivial)
  | collect hmain hnext =>
      rcases hnext with hnext | rfl
      · exact h.move (hasStarted_of_collecting hmain) (ne_left_of_collecting hmain)
          (fun i _ => h.joined i (hasJoined_of_collecting hmain i))
          (fun _ => h.stopped (hasStopped_of_collecting hmain))
          (hasStarted_of_collecting hnext)
      · exact h.leave
  | throwing => exact h.leave
  | arrive hmain hbarrier => exact h.arrive hmain hbarrier
  | work hmain hbarrier hwork => exact h.work hbarrier hwork
  | signal => exact { h with stopped := fun _ => rfl }

/-! ## Leaving -/

/-- A started worker that is not through the barrier never gets there: what is missing
    are workers that were not started, and the barrier is gone with `RunBenchmark`. -/
def Stranded (s : BenchmarkRun σ) (i : Fin n) : Prop :=
  s.barrier i = .launched ∨ s.barrier i = .waiting

/-- The workers can be joined. -/
structure CanTearDown (s : BenchmarkRun σ) : Prop where
  flag : s.gRunning = false
  free : ∀ i, ¬ Stranded s i

/-- Once a worker was started, `RunBenchmark` is left only so. -/
def LeftClean (s : BenchmarkRun σ) : Prop :=
  s.main = .left → (∃ i, s.barrier i ≠ .notStarted) → CanTearDown s

/-- What throws is neither the start of a later worker, nor `Update` before the flag is
    down and all workers are through the barrier. -/
def UnwindsClean (s : BenchmarkRun σ) : BenchmarkAct κ → Prop
  | .throwing =>
      (∀ k, s.main = .starting k → k = 0) ∧
        (s.main = .updating → s.gRunning = false ∧ ∀ i, s.barrier i = .released)
  | _ => True

/-- A worker that came to its end is through the barrier. -/
theorem BenchmarkInv.released (h : BenchmarkInv s) {i : Fin n}
    (hfin : isFinished (s.workers i).loc = true) : s.barrier i = .released := by
  by_contra hno
  rw [h.entered i hno] at hfin
  cases hfin

/-- Leaving behind the joins. -/
theorem BenchmarkInv.canTearDown (h : BenchmarkInv s) (hmain : s.main.collecting = true) :
    CanTearDown ({ s with main := .left } : BenchmarkRun σ) where
  flag := h.stopped (hasStopped_of_collecting hmain)
  free := by
    intro i
    have hreleased := h.released (h.joined i (hasJoined_of_collecting hmain i))
    rintro (hi | hi)
    · cases hi.symm.trans hreleased
    · cases hi.symm.trans hreleased

/-- Leaving out of a start that throws: the first worker waits for ever. -/
theorem BenchmarkInv.not_canTearDown (h : BenchmarkInv s) {k : Nat}
    (hmain : s.main = .starting (k + 1)) (hk : k + 1 < n) :
    (∃ i, s.barrier i ≠ .notStarted) ∧
      ¬ CanTearDown ({ s with main := .left } : BenchmarkRun σ) := by
  have hstarted := h.started (by rw [hmain]; exact nofun)
  rw [hmain] at hstarted
  have hfirst : s.barrier ⟨0, by omega⟩ ≠ .notStarted := (hstarted _).mpr (Nat.succ_pos k)
  have hmissing : s.barrier ⟨k + 1, hk⟩ = .notStarted :=
    not_not.mp (fun hne => Nat.lt_irrefl _ ((hstarted _).mp hne))
  refine ⟨⟨_, hfirst⟩, fun hclean => hclean.free ⟨0, by omega⟩ ?_⟩
  show s.barrier _ = .launched ∨ s.barrier _ = .waiting
  cases hloc : s.barrier ⟨0, by omega⟩ with
  | notStarted => exact absurd hloc hfirst
  | launched => exact .inl rfl
  | waiting => exact .inr rfl
  | released => exact absurd hloc (h.not_released hmissing _)

/-- Leaving out of `Update`. -/
theorem BenchmarkInv.canTearDown_update (h : BenchmarkInv s) (hmain : s.main = .updating) :
    CanTearDown ({ s with main := .left } : BenchmarkRun σ) ↔
      s.gRunning = false ∧ ∀ i, s.barrier i = .released := by
  have hstarted : ∀ i, s.barrier i ≠ .notStarted := by
    intro i
    refine (h.started (by rw [hmain]; exact nofun) i).mpr ?_
    rw [hmain]
    trivial
  constructor
  · rintro ⟨hflag, hfree⟩
    refine ⟨hflag, fun i => ?_⟩
    cases hloc : s.barrier i with
    | notStarted => exact absurd hloc (hstarted i)
    | launched => exact absurd (.inl hloc) (hfree i)
    | waiting => exact absurd (.inr hloc) (hfree i)
    | released => rfl
  · rintro ⟨hflag, hreleased⟩
    refine ⟨hflag, fun i => ?_⟩
    rintro (hi | hi)
    · cases hi.symm.trans (hreleased i)
    · cases hi.symm.trans (hreleased i)

/-- A step that throws. -/
theorem throwing_leftClean (hn : 0 < n) (h : BenchmarkInv s)
    (hmain : s.main.mayThrow n = true) :
    LeftClean ({ s with main := .left } : BenchmarkRun σ) ↔
      UnwindsClean s (.throwing : BenchmarkAct κ) := by
  cases hloc : s.main with
  | starting k =>
      rw [hloc] at hmain
      have hk : k < n := of_decide_eq_true hmain
      cases k with
      | zero =>
          -- nobody was started
          refine ⟨fun _ => ⟨fun k hk => ?_, fun hk => nomatch hloc.symm.trans hk⟩,
            fun _ _ hsome => ?_⟩
          · exact (BenchmarkLoc.starting.inj (hloc.symm.trans hk)).symm
          · obtain ⟨i, hi⟩ := hsome
            have hlt := (h.started (by rw [hloc]; exact nofun) i).mp hi
            rw [hloc] at hlt
            exact absurd hlt (Nat.not_lt_zero i)
      | succ k =>
          obtain ⟨hsome, hno⟩ := h.not_canTearDown hloc hk
          refine ⟨fun hclean => absurd (hclean rfl hsome) hno, fun hunwinds => ?_⟩
          exact absurd (hunwinds.1 (k + 1) hloc) (Nat.succ_ne_zero k)
  | updating =>
      have hsome : ∃ i, s.barrier i ≠ .notStarted := by
        refine ⟨⟨0, hn⟩, (h.started (by rw [hloc]; exact nofun) _).mpr ?_⟩
        rw [hloc]
        trivial
      have hiff := h.canTearDown_update hloc
      constructor
      · intro hclean
        exact ⟨fun k hk => (nomatch hloc.symm.trans hk), fun _ => hiff.mp (hclean rfl hsome)⟩
      · intro hunwinds _ _
        exact hiff.mpr (hunwinds.2 hloc)
  | takingFinal | building | summing =>
      have hcollecting : s.main.collecting = true := by
        rw [hloc]
        rfl
      refine ⟨fun _ => ⟨fun k hk => ?_, fun hk => ?_⟩, fun _ _ _ => h.canTearDown hcollecting⟩
      · exact nomatch hloc.symm.trans hk
      · exact nomatch hloc.symm.trans hk
  | atLoop | sleeping | stopping | joining | left =>
      rw [hloc] at hmain
      cases hmain

/-- A step leaves cleanly just when it unwinds cleanly, if at all. -/
theorem leftClean_step (hn : 0 < n) (s : BenchmarkRun σ) (a : BenchmarkAct κ)
    (t : BenchmarkRun σ) (h : BenchmarkInv s) (hstep : benchmarkStep E s a = some t) :
    LeftClean t ↔ LeftClean s ∧ UnwindsClean s a := by
  -- while the main thread is inside there is nothing to show
  have hinside : s.main ≠ .left → LeftClean s := fun hno hleft => absurd hleft hno
  have hstays : ∀ {t : BenchmarkRun σ}, s.main ≠ .left → t.main ≠ .left →
      (LeftClean t ↔ LeftClean s ∧ True) := by
    intro t hs ht
    exact ⟨fun _ => ⟨hinside hs, trivial⟩, fun _ hleft => absurd hleft ht⟩
  cases benchmarkStep_move hstep with
  | start hmain | started hmain | stop hmain | join hmain | joined hmain =>
      exact hstays (by rw [hmain]; exact nofun) nofun
  | loop hmain hnext =>
      exact hstays (ne_left_of_inLoop hmain) (ne_left_of_inLoop hnext)
  | collect hmain hnext =>
      have hs := ne_left_of_collecting hmain
      rcases hnext with hnext | rfl
      · exact hstays hs (ne_left_of_collecting hnext)
      · exact ⟨fun _ => ⟨hinside hs, trivial⟩, fun _ _ _ => h.canTearDown hmain⟩
  | throwing hmain =>
      rw [throwing_leftClean hn h hmain]
      exact (and_iff_right (hinside (ne_left_of_mayThrow hmain))).symm
  | arrive hmain | work hmain | signal hmain => exact hstays hmain hmain

/-- **A run is left so that it can be torn down** just when nothing throws between two
    starts, nor out of the timer loop before the flag is down. -/
theorem left_clean_iff (hn : 0 < n) {thread : Fin n → WorkerThread} {engine : ∀ i, σ i}
    {as : List (BenchmarkAct κ)}
    (h : run (benchmarkStep E) (BenchmarkRun.init thread engine) as = some s) :
    LeftClean s ↔ Meets (benchmarkStep E) UnwindsClean (BenchmarkRun.init thread engine) as := by
  rw [run_iff_meets benchmarkInv_step (leftClean_step hn) h
    (benchmarkInv_init thread engine)]
  exact and_iff_right (fun hno => nomatch hno)

end Run

/-- Workers of depth two, as many as one likes. -/
def someWorkers (n : Nat) : BenchmarkRun (fun _ : Fin n => CfioLibaio.Libaio) :=
  BenchmarkRun.init (fun _ => CfioWorkerSlots.depthTwoThread)
    (fun _ => { engine := CfioLibaio.depthTwoEngine })

/-- A step of them. -/
abbrev someStep (n : Nat) :=
  benchmarkStep (fun _ : Fin n => CfioLibaio.libaioEngine CfioWorkerSlots.waits)

/-- A run of one worker that is stopped from the display before it submits anything. -/
def stoppedRun : List (BenchmarkAct (fun _ : Fin 1 => CfioLibaio.AioKernel)) :=
  [.proceed false false, .arrive ⟨0, Nat.one_pos⟩, .proceed false false,
    .proceed true false, .proceed true false, .work ⟨0, Nat.one_pos⟩ { kernel := {} },
    .work ⟨0, Nat.one_pos⟩ { kernel := {} }, .work ⟨0, Nat.one_pos⟩ { kernel := {} },
    .proceed true false, .proceed true false, .proceed true false, .proceed true false,
    .proceed true false]

theorem left_clean_iff_stopped :
    ∃ s, run (someStep 1) (someWorkers 1) stoppedRun = some s ∧ s.main = .left ∧
      CanTearDown s ∧ Meets (someStep 1) UnwindsClean (someWorkers 1) stoppedRun := by
  have h : (run (someStep 1) (someWorkers 1) stoppedRun).map
      (fun s => (s.main, s.gRunning, s.barrier 0)) = some (.left, false, .released) := by
    decide +kernel
  obtain ⟨s, hs, hat⟩ := Option.map_eq_some_iff.mp h
  simp only [Prod.mk.injEq] at hat
  obtain ⟨hmain, hflag, hbarrier⟩ := hat
  have hclean : CanTearDown s := by
    refine ⟨hflag, fun i => ?_⟩
    rw [Stranded, Fin.fin_one_eq_zero i, hbarrier]
    exact nofun
  exact ⟨s, hs, hmain, hclean,
    (left_clean_iff (by decide) hs).mp (fun _ _ => hclean)⟩

/-- The second of two workers cannot be started: `RunBenchmark` is left with the flag up
    and the first worker in a barrier for two. -/
theorem left_with_worker_waiting :
    ∃ s, run (someStep 2) (someWorkers 2) [.proceed false false, .arrive 0, .throwing]
        = some s ∧
      s.main = .left ∧ s.gRunning = true ∧ s.barrier 0 = .waiting ∧
      s.barrier 1 = .notStarted ∧ ¬ LeftClean s := by
  have h : (run (someStep 2) (someWorkers 2)
      [.proceed false false, .arrive 0, .throwing]).map
      (fun s => (s.main, s.gRunning, s.barrier 0, s.barrier 1))
        = some (.left, true, .waiting, .notStarted) := by
    decide +kernel
  obtain ⟨s, hs, hat⟩ := Option.map_eq_some_iff.mp h
  simp only [Prod.mk.injEq] at hat
  obtain ⟨hmain, hflag, hfirst, hsecond⟩ := hat
  refine ⟨s, hs, hmain, hflag, hfirst, hsecond, fun hclean => ?_⟩
  have hdown := (hclean hmain ⟨0, by rw [hfirst]; exact nofun⟩).flag
  rw [hflag] at hdown
  cases hdown

end CfioOrchestrator
