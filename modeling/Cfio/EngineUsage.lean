import Cfio.WorkerSlots
import Cfio.SyncEngines
import Cfio.IoUringEngine

/-! # How a worker uses its engine

    Each engine throws a `std::logic_error` from `SubmitIO` when its client breaks
    a precondition: an id in use, no control block or ring entry left, a completion
    not polled.  In each engine these come down to two facts about the requests
    outstanding (`Guarded`).  A worker's slots rule both out (`effect_usage`), so
    none of the four is ever thrown (`engines_usage`). -/

namespace CfioEngineUsage

open CfioTypes CfioConfig CfioBufferPool CfioEngine CfioWorkerThread CfioWorkerSlots
open RequestServer Transition

section Usage

variable {σ κ : Type*} {E : Engine σ κ} {answers : IORequest → IOCompletion → Prop}
variable {d : Nat} (C : Contract E answers d)

/-- A `SubmitIO` throws a `std::logic_error` only for the id of a request
    outstanding, or with `d` requests outstanding. -/
def Guarded : Prop :=
  ∀ {k : κ} {request : IORequest} {s s' : σ} {e : Exn}, C.Valid s →
    E.submit k request s = some ⟨some e, s'⟩ → e.isLogicError = true →
    request.id ∈ (C.outstanding s).map IORequest.id ∨ d ≤ (C.outstanding s).length

/-- A `SubmitIO` that threw a `std::logic_error`. -/
def Misuse : EngineCall → Prop
  | .submitIo _ _ _ thrown => ∃ e, thrown = some e ∧ e.isLogicError = true
  | .pollCompletions _ _ _ _ _ => False

/-- No call so far misused the engine. -/
def UsedWell (w : Worker σ) : Prop := ∀ call ∈ w.calls, ¬ Misuse call

variable {C}
variable {config : JobConfig} {alloc : Allocator} {opened : Except Exn Bool}
variable {thread : WorkerThread} {s : σ} {running₀ running running' : Bool}
variable {w w' : Worker σ} {env : Env κ} {as : List (ThreadAct Bool (Env κ))}

/-- The slot taken for a request is not the id of one outstanding. -/
theorem generate_fresh (hi : SlotInv C config running w) {raw : UInt64} {coin : Bool}
    {request : IORequest} {thread' : WorkerThread}
    (h : w.thread.generateNextIo raw coin = some (request, thread')) :
    request.id ∉ (C.outstanding w.engine).map IORequest.id := by
  obtain ⟨slot, rest, hfree, rfl, rfl⟩ := generate_cases h
  intro hmem
  obtain ⟨r, hr, hid⟩ := List.mem_map.mp hmem
  have hslot : slot.toNat ∈ freeIds w :=
    List.mem_map_of_mem (hfree ▸ List.mem_cons_self ..)
  have hout : slot.toNat ∈ outstandingIds C w.engine := by
    refine List.mem_map.mpr ⟨r, hr, ?_⟩
    rw [hid, UInt32.toNat_toUInt64]
  exact (List.nodup_append.mp hi.nodup).2.2 _ hslot _ (List.mem_append_left _ hout) rfl

/-- **No step misuses the engine.** -/
theorem effect_usage (hguard : Guarded C) (hslots : SlotInv C config running w)
    (hi : UsedWell w) (h : Effect E running w env running' w') : UsedWell w' := by
  cases h with
  | accepted next request thread engine hs hgen hsub =>
      refine List.forall_mem_append.mpr ⟨hi, List.forall_mem_singleton.mpr ?_⟩
      rintro ⟨e, hno, -⟩
      exact nomatch hno
  | rejected next request thread engine e hs hgen hsub =>
      refine List.forall_mem_append.mpr ⟨hi, List.forall_mem_singleton.mpr ?_⟩
      rintro ⟨e', heq, hlogic⟩
      rw [← Option.some.inj heq] at hlogic
      rcases hguard (hslots.valid (SubmitSite.live hs)) hsub hlogic with hdup | hfull
      · exact generate_fresh hslots hgen hdup
      · -- where a request is submitted there is room for it
        have hroom := (counted_submit hs hslots.counted).1
        omega
  | polled hiEvents go out engine hp hpoll =>
      exact List.forall_mem_append.mpr ⟨hi, List.forall_mem_singleton.mpr id⟩
  | pollThrew hiEvents go out engine e hp hpoll =>
      exact List.forall_mem_append.mpr ⟨hi, List.forall_mem_singleton.mpr id⟩
  | jump next hj => exact hi
  | recorded now c next hr => exact hi
  | failed e lost hloc => exact hi

/-- Over a run. -/
theorem run_usage (hguard : Guarded C) (hans : ∀ r c, answers r c → c.id = r.id)
    (hstart : Started C config alloc opened thread s)
    (hrun : run (threadStep flagRely (step E))
      (running₀, { thread := thread, engine := s }) as = some (running, w)) :
    UsedWell w :=
  (run_slotInv_and hans hstart
    (fun _ _ _ _ _ hslots hi he => effect_usage hguard hslots hi he) hrun
    (fun _ hc => nomatch hc)).2

end Usage

/-! ## The four engines -/

/-- A synchronous engine holds at most one request, and refuses only while it holds
    it. -/
theorem blocking_guard {className : String} {request : IORequest}
    {engine engine' : CfioSyncEngines.BlockingEngine} {e : Exn}
    (hs : CfioSyncEngines.Stored engine)
    (h : CfioSyncEngines.Submitted className request engine ⟨some e, engine'⟩)
    (he : e.isLogicError = true) : 1 ≤ engine.pending.toList.length := by
  have hpending := h.logicError hs he
  cases hp : engine.pending with
  | none => exact absurd hp hpending
  | some r => exact Nat.le_refl 1

theorem psync_guarded : Guarded (CfioSyncEngines.psyncContract 1) :=
  fun hs h he => .inr (blocking_guard hs (CfioSyncEngines.psync_submitted h) he)

theorem sync_guarded : Guarded (CfioSyncEngines.syncContract 1) :=
  fun hs h he => .inr (blocking_guard hs (CfioSyncEngines.sync_submitted h) he)

theorem libaio_guarded {admits : Int → Nat → Bool}
    (hadm : ∀ m n, admits m n = true → m ≤ (n : Int)) (d : Nat) :
    Guarded (CfioLibaio.libaioContract admits hadm d) := by
  intro kernel request s s' e hv h he
  have hsub := CfioLibaio.submitIo_submitted kernel.submitRet request s
  rw [Option.some.inj h] at hsub
  exact hsub.logicError hv.1 he

theorem uring_guarded (d : Nat) : Guarded (CfioIoUring.ioUringContract d) :=
  fun hv h he => (CfioIoUring.submitIo_submitted h).logicError hv he

/-- The depth of a job on a synchronous engine. -/
theorem sync_depth {config : JobConfig} (h : isSynchronousEngine config.engine = true) :
    1 = config.effectiveIODepth.toInt.toNat := by
  rw [JobConfig.effectiveIODepth, if_pos h]
  rfl

/-- The depth of a job on an asynchronous engine. -/
theorem async_depth {config : JobConfig} (h : isSynchronousEngine config.engine = false) :
    config.iodepth.toInt.toNat = config.effectiveIODepth.toInt.toNat := by
  rw [JobConfig.effectiveIODepth, if_neg (by rw [h]; decide)]

/-- No run of the worker on the engine misuses it, whatever the engine's kernel
    answers and whenever the run flag is cleared. -/
def NeverMisused {σ κ : Type*} (E : Engine σ κ) (thread : WorkerThread) (s : σ) : Prop :=
  ∀ (running₀ : Bool) (as : List (ThreadAct Bool (Env κ))) (running : Bool)
    (w : Worker σ), run (threadStep flagRely (step E))
      (running₀, { thread := thread, engine := s }) as = some (running, w) → UsedWell w

/-- **The preconditions of every engine hold in every run** of a worker on an engine
    that was opened with the worker's job. -/
theorem engines_usage {config : JobConfig} {alloc : Allocator}
    {opened : Except Exn Bool} {thread : WorkerThread} (hv : validate config = .ok ())
    (halloc : AllocatorSpec alloc)
    (hnew : WorkerThread.new alloc config opened = .ok thread)
    (first second : OpenOutcome) :
    (config.engine = "psync" → ∀ engine,
      ({} : CfioSyncEngines.BlockingEngine).openEngine "PsyncEngine" config first second
        = .ok engine → NeverMisused CfioSyncEngines.psyncEngine thread engine) ∧
    (config.engine = "sync" → ∀ engine,
      ({} : CfioSyncEngines.BlockingEngine).openEngine "SyncEngine" config first second
        = .ok engine → NeverMisused CfioSyncEngines.syncEngine thread engine) ∧
    (config.engine = "libaio" → ∀ (setupRet : Int32) engine (admits : Int → Nat → Bool),
      ({} : CfioLibaio.LibaioEngine).openEngine config first second setupRet
        = .ok engine → (∀ m n, admits m n = true → m ≤ (n : Int)) →
      NeverMisused (CfioLibaio.libaioEngine admits) thread { engine := engine }) ∧
    (config.engine = "io_uring" → ∀ (initRet : Int32) engine (sqEntries : Nat),
      ({} : CfioIoUring.IoUringEngine).openEngine config first second initRet
        = .ok engine → config.iodepth.toInt.toNat ≤ sqEntries →
      NeverMisused CfioIoUring.ioUringEngine thread
        { engine := engine, sqEntries := sqEntries }) := by
  have hans : ∀ r c, CfioEngine.Echoes r c → c.id = r.id := fun r c h => h.id
  refine ⟨?_, ?_, ?_, ?_⟩
  · intro hname engine hopen running₀ as running w hrun
    obtain ⟨hstored, hidle, -⟩ := CfioSyncEngines.openEngine_stored hopen
    refine run_usage psync_guarded hans ⟨hv, halloc, hnew, ?_, hstored, ?_⟩ hrun
    · exact sync_depth (by rw [hname]; decide)
    · exact congrArg Option.toList hidle
  · intro hname engine hopen running₀ as running w hrun
    obtain ⟨hstored, hidle, -⟩ := CfioSyncEngines.openEngine_stored hopen
    refine run_usage sync_guarded hans ⟨hv, halloc, hnew, ?_, hstored, ?_⟩ hrun
    · exact sync_depth (by rw [hname]; decide)
    · exact congrArg Option.toList hidle
  · intro hname setupRet engine admits hopen hadm running₀ as running w hrun
    obtain ⟨hinv, -, hctx⟩ := CfioLibaio.openEngine_inv hopen
    exact run_usage (libaio_guarded hadm _) hans
      ⟨hv, halloc, hnew, async_depth (by rw [hname]; decide), ⟨hinv, hctx⟩, rfl⟩ hrun
  · intro hname initRet engine sqEntries hopen hentries running₀ as running w hrun
    obtain ⟨hinv, hring, hbatch, -⟩ := CfioIoUring.openEngine_inv hopen sqEntries
    exact run_usage (uring_guarded _) hans ⟨hv, halloc, hnew,
      async_depth (by rw [hname]; decide), ⟨hinv, hring, hbatch, hentries⟩, rfl⟩ hrun

/-- The theorem on a run that uses a slot, and its control block, a second time while
    the other completion of the batch is in hand. -/
theorem engines_usage_depthTwo :
    ∃ w, run (threadStep flagRely (step (CfioLibaio.libaioEngine waits)))
        (true, { thread := depthTwoThread, engine := { engine := CfioLibaio.depthTwoEngine } })
        (prefillRun ++ [quiet, quiet, quiet]) = some (true, w) ∧
      (submitted w.calls).map IORequest.id = [0, 1, 0] ∧ UsedWell w := by
  have hids : (run (threadStep flagRely (step (CfioLibaio.libaioEngine waits)))
      (true, { thread := depthTwoThread, engine := { engine := CfioLibaio.depthTwoEngine } })
      (prefillRun ++ [quiet, quiet, quiet])).map (fun s =>
        (s.1, (submitted s.2.calls).map IORequest.id))
      = some (true, [0, 1, 0]) := rfl
  obtain ⟨⟨running, w⟩, hrun, hw⟩ := Option.map_eq_some_iff.mp hids
  obtain ⟨rfl, hsub⟩ := Prod.mk.inj hw
  exact ⟨w, hrun, hsub, (engines_usage rfl arenaAlloc_spec depthTwo_started.built
    ⟨3, 0⟩ ⟨-1, 0⟩).2.2.1 rfl 0 _ waits rfl (fun _ _ h => of_decide_eq_true h)
    true _ true w hrun⟩

end CfioEngineUsage
