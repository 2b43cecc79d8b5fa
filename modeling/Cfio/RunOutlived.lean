import Cfio.RunTeardown

/-! # What outlives a run

    An exception leaves `RunBenchmark` while workers may still be at work.  They go on with the
    flag of the orchestrator, which is as it was, and nobody waits for them before the
    orchestrator is destroyed: there each `WorkerThread` joins its thread.  Who was in
    `start_barrier` when it went away stays there.

    The run is kept as it was left, and `outliveStep` is what its workers do from there. -/

namespace CfioOrchestrator

open CfioTypes CfioWorkerThread Transition

section Run

variable {n : Nat} {σ κ : Fin n → Type}

/-- The thread of the worker was never started, or has come to its end. -/
def BenchmarkRun.ended (s : BenchmarkRun σ) (i : Fin n) : Bool :=
  decide (s.barrier i = .notStarted) || isFinished (s.workers i).loc

/-- A worker goes on behind `RunBenchmark`. -/
def outliveStep (E : ∀ i, Engine (σ i) (κ i)) (s : BenchmarkRun σ) (i : Fin n) (env : Env (κ i)) :
    Option (BenchmarkRun σ) :=
  if s.main = .left ∧ s.barrier i = .released then
    (step (E i) s.gRunning (s.workers i) env).map (fun r =>
      { s with gRunning := r.1, workers := Function.update s.workers i r.2 })
  else none

variable {E : ∀ i, Engine (σ i) (κ i)} {s t u : BenchmarkRun σ}

/-- What the workers can make of a run that was left. -/
structure Outlives (s t : BenchmarkRun σ) : Prop where
  main : t.main = s.main
  barrier : t.barrier = s.barrier
  /-- nobody raises the flag again -/
  flag : s.gRunning = false → t.gRunning = false
  /-- who is not through the barrier, or at the end, stays where it is -/
  stays : ∀ i, s.barrier i ≠ .released ∨ isFinished (s.workers i).loc = true →
    t.workers i = s.workers i

theorem Outlives.refl (s : BenchmarkRun σ) : Outlives s s where
  main := rfl
  barrier := rfl
  flag := id
  stays := fun _ _ => rfl

theorem Outlives.trans (h : Outlives s t) (h' : Outlives t u) : Outlives s u where
  main := h'.main.trans h.main
  barrier := h'.barrier.trans h.barrier
  flag := h'.flag ∘ h.flag
  stays := by
    intro i hi
    have ht := h.stays i hi
    rw [← ht]
    refine h'.stays i ?_
    rw [ht, h.barrier]
    exact hi

theorem outlives_step {i : Fin n} {env : Env (κ i)} (hstep : outliveStep E s i env = some t) :
    s.main = .left ∧ Outlives s t := by
  obtain ⟨⟨hmain, hbarrier⟩, h⟩ := Option.ite_none_right_eq_some.mp hstep
  obtain ⟨⟨running', w'⟩, hwork, rfl⟩ := Option.map_eq_some_iff.mp h
  refine ⟨hmain, rfl, rfl, fun hdown => ?_, fun j hj => ?_⟩
  · have hrely := CfioStopProtocol.step_flag hwork
    rw [hdown] at hrely
    show running' = false
    cases running' with
    | true => cases hrely
    | false => rfl
  · refine Function.update_of_ne (fun hji => ?_) ..
    subst hji
    rcases hj with hheld | hfin
    · exact hheld hbarrier
    · cases (step_finished (E j) hfin s.gRunning env).symm.trans hwork

/-- A thread that is gone does not come back. -/
theorem Outlives.ended (h : Outlives s t) {i : Fin n} (hi : s.ended i = true) :
    t.ended i = true := by
  rw [BenchmarkRun.ended, Bool.or_eq_true, decide_eq_true_eq] at hi ⊢
  rw [h.barrier]
  rcases hi with hnone | hfin
  · exact .inl hnone
  · rw [h.stays i (.inr hfin)]
    exact .inr hfin

/-- Nor does one end that was in the barrier. -/
theorem Outlives.not_ended (h : Outlives s t) (hinv : BenchmarkInv s) {i : Fin n}
    (hi : Stranded s i) : t.ended i = false := by
  have hheld : s.barrier i ≠ .released := by
    rintro hreleased
    rcases hi with hi | hi
    · cases hi.symm.trans hreleased
    · cases hi.symm.trans hreleased
  rw [BenchmarkRun.ended, h.barrier, h.stays i (.inl hheld), hinv.entered i hheld]
  rcases hi with hi | hi
  · rw [hi]
    rfl
  · rw [hi]
    rfl

end Run

end CfioOrchestrator
