import Cfio.WorkerSlots

/-! # The requests a worker issues

    `RequestOk` is what a well-formed request is: its block lies inside the file
    at an aligned offset, its buffer is a slot of the pool, and its direction is
    that of the workload.

    Nothing here depends on the engine: whatever it accepts, refuses or hands
    back, and whatever ids its completions carry, the pool only ever gives out
    slots of its own (`GenInv`). -/

namespace CfioWorkerRequests

open CfioTypes CfioConfig CfioBufferPool CfioGenerators CfioWorkerThread
open Transition Words

/-- A request inside the file, with a buffer inside the pool's storage. -/
structure RequestOk (config : JobConfig) (storage : AlignedBuffer)
    (request : IORequest) : Prop where
  offset : OffsetOk config request.offset
  length : request.length = config.blockSize
  buffer_ne : request.buffer ≠ 0
  buffer_aligned : config.alignment.toNat ∣ request.buffer.toNat
  buffer_ge : storage.data.toNat ≤ request.buffer.toNat
  buffer_le : request.buffer.toNat + request.length.toNat
    ≤ storage.data.toNat + storage.size.toNat
  read : ReadOnly config.rwMode → request.direction = .kRead
  write : WriteOnly config.rwMode → request.direction = .kWrite

/-- The parts of a worker that requests are made of. -/
structure GenOk (config : JobConfig) (storage : AlignedBuffer) (thread : WorkerThread) :
    Prop where
  config_eq : thread.config = config
  geometry : Geometry config.alignment thread.bufferPool
  storage_eq : thread.bufferPool.storage = storage
  blockSize : thread.bufferPool.blockSize = config.blockSize
  free_lt : ∀ s ∈ thread.bufferPool.freeSlots,
    s.toNat < thread.bufferPool.capacity.toNat
  offsets : InRange config thread.offsetGen
  mode : thread.directionDecider.mode = config.rwMode

section Generate

variable {config : JobConfig} {storage : AlignedBuffer} {thread thread' : WorkerThread}
variable {raw : UInt64} {coin : Bool} {request : IORequest}

/-- **One request**: it is well formed, and the next one will be. -/
theorem generate_ok (hv : Validated config) (hsize : config.fileSize.toNat < 2 ^ 63)
    (hg : GenOk config storage thread) (hraw : raw ≤ thread.offsetGen.distMax)
    (h : thread.generateNextIo raw coin = some (request, thread')) :
    RequestOk config storage request ∧ GenOk config storage thread' := by
  obtain ⟨slot, rest, hfree, rfl, rfl⟩ := generate_cases h
  obtain ⟨hoff, hnext⟩ := next_inRange hv hsize hg.offsets hraw
  obtain ⟨hread, hwrite⟩ := next_pure thread.directionDecider coin
  rw [hg.mode] at hread hwrite
  have hslot := hg.free_lt slot (hfree ▸ List.mem_cons_self ..)
  have hdata := hg.geometry.data_toNat hslot
  have hend := hg.geometry.slot_end_le hslot
  have hpos := hg.geometry.data_pos
  have hstorage := hg.storage_eq
  constructor
  · refine ⟨hoff, congrArg JobConfig.blockSize hg.config_eq, ?_, ?_, ?_, ?_, hread, hwrite⟩
    · refine ne_zero_of_toNat_pos ?_
      show 0 < (thread.bufferPool.data slot).toNat
      omega
    · show config.alignment.toNat ∣ (thread.bufferPool.data slot).toNat
      rw [hdata, hg.blockSize]
      exact Nat.dvd_add hg.geometry.data_aligned
        (Nat.dvd_mul_left_of_dvd hv.block_aligned _)
    · show storage.data.toNat ≤ (thread.bufferPool.data slot).toNat
      rw [← hstorage]
      omega
    · show (thread.bufferPool.data slot).toNat + thread.config.blockSize.toNat ≤ _
      rw [hg.config_eq, ← hg.blockSize, ← hstorage]
      omega
  · refine ⟨hg.config_eq, hg.geometry.transfer ⟨rfl, rfl, rfl⟩, hg.storage_eq,
      hg.blockSize, ?_, hnext, hg.mode⟩
    intro s hs
    exact hg.free_lt s (hfree ▸ List.mem_cons_of_mem _ hs)

/-- Whatever id is released, only slots of the pool become free. -/
theorem release_ok (hg : GenOk config storage thread) (id : UInt64) :
    GenOk config storage (thread.release id) := by
  have hsame := release_sameBlocks thread.bufferPool id.toUInt32
  refine ⟨hg.config_eq, hg.geometry.transfer hsame, hsame.storage.trans hg.storage_eq,
    hsame.blockSize.trans hg.blockSize, ?_, hg.offsets, hg.mode⟩
  intro s hs
  show s.toNat < (thread.bufferPool.release id.toUInt32).capacity.toNat
  rw [hsame.capacity]
  by_cases hin : id.toUInt32.toUInt64 ≥ thread.bufferPool.capacity
  · refine hg.free_lt s ?_
    have hkeep : thread.bufferPool.release id.toUInt32 = thread.bufferPool := if_pos hin
    simp only [WorkerThread.release, hkeep] at hs
    exact hs
  · rw [ge_iff_le, UInt64.le_iff_toNat_le, UInt32.toNat_toUInt64] at hin
    have hlt : id.toUInt32.toNat < thread.bufferPool.capacity.toNat := by omega
    simp only [WorkerThread.release, release_freeSlots hlt] at hs
    rcases List.mem_cons.mp hs with rfl | hold
    · exact hlt
    · exact hg.free_lt s hold

/-- Recording a completion touches the counters and releases a slot. -/
theorem record_ok (hg : GenOk config storage thread) (c : IOCompletion)
    (now : TimePoint) : GenOk config storage (thread.recordCompletion c now) := by
  have hrel := release_ok hg c.id
  exact ⟨hrel.config_eq, hrel.geometry, hrel.storage_eq, hrel.blockSize, hrel.free_lt,
    hrel.offsets, hrel.mode⟩

/-- The sums and products on the way to the next request do not wrap. -/
structure NoWrap (thread : WorkerThread) : Prop where
  pool : NoWrapMul thread.bufferPool.blockSize thread.bufferPool.capacity
  cursor : NoWrapAdd thread.offsetGen.sequentialOffset thread.offsetGen.blockSize ∧
    NoWrapAdd (thread.offsetGen.sequentialOffset + thread.offsetGen.blockSize)
      thread.offsetGen.blockSize
  round : ∀ raw, NoWrapMul (raw / thread.offsetGen.alignment) thread.offsetGen.alignment
  slot : ∀ s ∈ thread.bufferPool.freeSlots,
    NoWrapMul s.toUInt64 thread.bufferPool.blockSize ∧
      NoWrapAdd thread.bufferPool.storage.data
        (s.toUInt64 * thread.bufferPool.blockSize)

theorem GenOk.noWrap (hsize : config.fileSize.toNat < 2 ^ 63)
    (hg : GenOk config storage thread) : NoWrap thread := by
  refine ⟨hg.geometry.noWrap, hg.offsets.noWrap hsize, fun raw => noWrapMul_div raw _, ?_⟩
  intro s hs
  have hslot := hg.geometry.slotFits (hg.free_lt s hs)
  exact ⟨hslot.noWrap_slot, hslot.noWrap_data⟩

end Generate

/-! ## Runs -/

section Run

variable {σ κ : Type*} {E : Engine σ κ} {config : JobConfig} {storage : AlignedBuffer}
variable {running running' : Bool} {w w' : Worker σ} {env : Env κ}

/-- Requests will be well formed, and those issued so far are. -/
structure GenInv (config : JobConfig) (storage : AlignedBuffer) (w : Worker σ) : Prop where
  gen : GenOk config storage w.thread
  issued : ∀ r ∈ submitted w.calls, RequestOk config storage r

/-- The submit time is stamped last and is free. -/
theorem RequestOk.stamped {request : IORequest} (h : RequestOk config storage request)
    (now : TimePoint) : RequestOk config storage { request with submitTime := now } :=
  ⟨h.offset, h.length, h.buffer_ne, h.buffer_aligned, h.buffer_ge, h.buffer_le, h.read,
    h.write⟩

/-- **Every step issues well-formed requests only.** -/
theorem effect_requests (hv : Validated config) (hsize : config.fileSize.toNat < 2 ^ 63)
    (hi : GenInv config storage w) (hraw : env.raw ≤ config.fileSize - config.blockSize)
    (h : Effect E running w env running' w') : GenInv config storage w' := by
  have hdraw : env.raw ≤ w.thread.offsetGen.distMax := by
    rw [UInt64.le_iff_toNat_le] at hraw ⊢
    rw [hi.gen.offsets.distMax, ← toNat_sub_of_le hv.block_le_file]
    exact hraw
  cases h with
  | jump next hj => exact ⟨hi.gen, hi.issued⟩
  | accepted next request thread engine hs hgen hsub =>
      obtain ⟨hreq, hok⟩ := generate_ok hv hsize hi.gen hdraw hgen
      exact ⟨hok, forall_submitted_submitIo hi.issued (hreq.stamped env.now)⟩
  | rejected next request thread engine e hs hgen hsub =>
      obtain ⟨hreq, hok⟩ := generate_ok hv hsize hi.gen hdraw hgen
      exact ⟨release_ok hok request.id,
        forall_submitted_submitIo hi.issued (hreq.stamped env.now)⟩
  | polled hiEvents go out engine hp hpoll =>
      refine ⟨hi.gen, ?_⟩
      rw [submitted_pollCompletions]
      exact hi.issued
  | pollThrew hiEvents go out engine e hp hpoll =>
      refine ⟨hi.gen, ?_⟩
      rw [submitted_pollCompletions]
      exact hi.issued
  | recorded now c next hr => exact ⟨record_ok hi.gen c now, hi.issued⟩
  | failed e lost hloc =>
      have hg := hi.gen
      exact ⟨⟨hg.config_eq, hg.geometry, hg.storage_eq, hg.blockSize, hg.free_lt,
        hg.offsets, hg.mode⟩, hi.issued⟩

/-- A worker that was built makes well-formed requests. -/
theorem new_genOk {alloc : Allocator} (halloc : AllocatorSpec alloc)
    {opened : Except Exn Bool} {thread : WorkerThread} (hv : Validated config)
    (h : WorkerThread.new alloc config opened = .ok thread) :
    GenOk config thread.bufferPool.storage thread := by
  obtain ⟨pool, direct, -, rfl, hgeo, hblock, hcap, hfree⟩ := new_worker halloc h
  refine ⟨rfl, hgeo, rfl, hblock, ?_, ofConfig_inRange hv, rfl⟩
  intro s hs
  have hmem : s.toNat ∈ pool.freeSlots.map UInt32.toNat := List.mem_map_of_mem hs
  rw [hfree] at hmem
  show s.toNat < pool.capacity.toNat
  rw [hcap]
  exact List.mem_range.mp hmem

/-- **Every request a worker issues is well formed**, on any engine, for any random
    draws the distributions can return and however long it runs; and no sum or
    product on the way wraps. -/
theorem worker_requests {alloc : Allocator} (halloc : AllocatorSpec alloc)
    {opened : Except Exn Bool} {thread : WorkerThread} {s : σ} {running₀ : Bool}
    (hv : validate config = .ok ()) (hsize : config.fileSize.toNat ≤ 2 ^ 63 - 1)
    (hnew : WorkerThread.new alloc config opened = .ok thread)
    {as : List (ThreadAct Bool (Env κ))}
    (hraw : ∀ env, ThreadAct.own env ∈ as →
      env.raw ≤ config.fileSize - config.blockSize)
    (hrun : run (threadStep flagRely (step E))
      (running₀, { thread := thread, engine := s }) as = some (running, w)) :
    (∀ r ∈ submitted w.calls, RequestOk config thread.bufferPool.storage r) ∧
      NoWrap w.thread := by
  have hval := validate_ok hv
  have hfile : config.fileSize.toNat < 2 ^ 63 := by omega
  have hinv : GenInv config thread.bufferPool.storage w :=
    worker_invariant_of_ok (I := fun _ v => GenInv config thread.bufferPool.storage v)
      (fun _ _ _ _ hv => hv)
      (fun _ _ _ _ _ hi hdraw he => effect_requests hval hfile hi hdraw he) hraw hrun
      ⟨new_genOk halloc hval hnew, fun r hr => nomatch hr⟩
  exact ⟨hinv.issued, hinv.gen.noWrap hfile⟩

end Run

/-- The theorem on a run that pre-fills a queue of two: the first two blocks of the
    file, into the first two slots. -/
theorem worker_requests_depthTwo :
    ∃ w, run (threadStep flagRely (step (CfioLibaio.libaioEngine CfioWorkerSlots.waits)))
        (true, { thread := CfioWorkerSlots.depthTwoThread
                 engine := { engine := CfioLibaio.depthTwoEngine } })
        CfioWorkerSlots.prefillRun = some (true, w) ∧
      (submitted w.calls).map (fun r => (r.offset, r.buffer))
        = [(0, 0x10000000000), (512, 0x10000000200)] ∧
      (∀ r ∈ submitted w.calls, RequestOk CfioLibaio.depthTwoJob
        CfioWorkerSlots.depthTwoThread.bufferPool.storage r) ∧ NoWrap w.thread := by
  have hissued : (run (threadStep flagRely
      (step (CfioLibaio.libaioEngine CfioWorkerSlots.waits)))
      (true, { thread := CfioWorkerSlots.depthTwoThread
               engine := { engine := CfioLibaio.depthTwoEngine } })
      CfioWorkerSlots.prefillRun).map (fun s =>
        (s.1, (submitted s.2.calls).map (fun r => (r.offset, r.buffer))))
      = some (true, [(0, 0x10000000000), (512, 0x10000000200)]) := rfl
  obtain ⟨⟨running, w⟩, hrun, hw⟩ := Option.map_eq_some_iff.mp hissued
  obtain ⟨rfl, hreqs⟩ := Prod.mk.inj hw
  refine ⟨w, hrun, hreqs, worker_requests arenaAlloc_spec rfl (by decide)
    CfioWorkerSlots.depthTwo_started.built ?_ hrun⟩
  intro env henv
  have hzero : env.raw = 0 := by
    simp only [CfioWorkerSlots.prefillRun, CfioWorkerSlots.quiet, List.mem_cons,
      ThreadAct.own.injEq, List.not_mem_nil, or_false] at henv
    rcases henv with rfl | rfl | rfl | rfl | rfl | rfl | rfl | rfl <;> rfl
  rw [hzero]
  decide

end CfioWorkerRequests
