import Cfio.BufferPool
import Cfio.Generators
import Cfio.Log2Histogram
import Cfio.RequestServer

/-! # The worker thread

    `WorkerThread` and its two IO loops.  A worker is at a location (`Loc`), with
    the loop's local variables, and `step` is what it does there; the run flag is
    shared and every read of it is a location of its own.  `SubmitOne` is one
    step.  The engine is any server of requests; `Env` is what the step gets from
    outside: random draws, the clock, the engine's environment.

    `calls` records the engine calls the worker has made.  No transition reads
    it.

    `step_effect` says once what a step can do.  Every invariant of a worker
    goes by cases on `Effect` and never unfolds `step`. -/

namespace CfioWorkerThread

open CfioTypes CfioConfig CfioBufferPool CfioGenerators CfioHistogram Checks
open RequestServer

/-- `IEngineIO`. -/
abbrev Engine (σ κ : Type*) := Server σ κ IORequest IOCompletion Exn

/-- The members of `WorkerThread`, less its engine and its thread. -/
structure WorkerThread where
  config : JobConfig
  bufferPool : BufferPool
  histogram : Log2Histogram 64 := .empty 64
  iopsCount : UInt64 := 0
  bytesTransferred : UInt64 := 0
  readErrorCount : UInt64 := 0
  writeErrorCount : UInt64 := 0
  offsetGen : OffsetGenerator
  directionDecider : IODirectionDecider
  failed : Bool := false
  errorMessage : String := ""
  directEffective : Bool := false

/-- The capacity of the pool: the effective depth as a `size_t`. -/
def poolCapacity (config : JobConfig) : UInt64 :=
  config.effectiveIODepth.toInt64.toUInt64

/-- The constructor of `WorkerThread`; `opened` is what the engine's `Open` does:
    throw, or succeed with O_DIRECT in effect or not. -/
def WorkerThread.new (alloc : Allocator) (config : JobConfig)
    (opened : Except Exn Bool) : Except Exn WorkerThread := do
  let bufferPool ← BufferPool.new alloc config.alignment config.blockSize
    (poolCapacity config)
  let directEffective ← opened
  return {
    config := config, bufferPool := bufferPool, offsetGen := .ofConfig config
    directionDecider := { mode := config.rwMode, rwmixread := config.rwmixread }
    directEffective := directEffective }

/-- `GenerateNextIO`; no result when `Acquire` is called on an empty pool. -/
def WorkerThread.generateNextIo (raw : UInt64) (coin : Bool) (thread : WorkerThread) :
    Option (IORequest × WorkerThread) :=
  thread.bufferPool.acquire.map (fun acquired =>
    let slot := acquired.1
    let drawn := thread.offsetGen.next raw
    ({ offset := drawn.1, buffer := acquired.2.data slot
       length := thread.config.blockSize
       direction := thread.directionDecider.next coin, id := slot.toUInt64 },
      { thread with bufferPool := acquired.2, offsetGen := drawn.2 }))

/-- `BufferPool::Release` on the worker's pool. -/
def WorkerThread.release (id : UInt64) (thread : WorkerThread) : WorkerThread :=
  { thread with bufferPool := thread.bufferPool.release id.toUInt32 }

/-- `RecordCompletion`. -/
def WorkerThread.recordCompletion (completion : IOCompletion) (now : TimePoint)
    (thread : WorkerThread) : WorkerThread :=
  let elapsed := now - completion.submitTime
  let counted := { thread with
    -- a clock that did not advance counts as zero
    histogram := thread.histogram.record (if elapsed > 0 then UInt64.ofInt elapsed else 0)
    iopsCount := thread.iopsCount + 1
    bytesTransferred := thread.bytesTransferred + completion.bytesTransferred.toUInt64
    readErrorCount :=
      if completion.success = false ∧ completion.direction = IODirection.kRead then
        thread.readErrorCount + 1 else thread.readErrorCount
    writeErrorCount :=
      if completion.success = false ∧ completion.direction ≠ IODirection.kRead then
        thread.writeErrorCount + 1 else thread.writeErrorCount }
  counted.release completion.id

/-- `RecordFailure` on the worker's own members, from either handler of `Run`. -/
def WorkerThread.recordFailure (e : Exn) (thread : WorkerThread) : WorkerThread :=
  { thread with errorMessage := e.what.getD "unknown exception", failed := true }

/-- `ErrorMessage`. -/
def WorkerThread.getErrorMessage (thread : WorkerThread) : String :=
  if thread.failed then thread.errorMessage else ""

/-- `effective_iodepth`. -/
def WorkerThread.depth (thread : WorkerThread) : Int :=
  thread.config.effectiveIODepth.toInt

/-! ### What the operations do -/

/-- A validated job's pool is as large as its effective depth. -/
theorem poolCapacity_toNat {config : JobConfig} (hv : Validated config) :
    (poolCapacity config).toNat = config.effectiveIODepth.toInt.toNat ∧
      1 ≤ config.effectiveIODepth.toInt := by
  have hpos : 1 ≤ config.effectiveIODepth.toInt :=
    Int32.le_iff_toInt_le.mp hv.effectiveIODepth_pos
  have hwide : (config.effectiveIODepth.toInt64).toInt = config.effectiveIODepth.toInt :=
    Int32.toInt_toInt64 _
  have hword : ((poolCapacity config).toNat : Int) = config.effectiveIODepth.toInt64.toInt :=
    Words.toNat_toUInt64_of_nonneg (by omega)
  exact ⟨by omega, hpos⟩

/-- A worker that could be built has its job's configuration and generators, and a
    pool with all slots free. -/
theorem new_worker {alloc : Allocator} (halloc : AllocatorSpec alloc)
    {config : JobConfig} {opened : Except Exn Bool} {thread : WorkerThread}
    (h : WorkerThread.new alloc config opened = .ok thread) :
    ∃ pool directEffective,
      BufferPool.new alloc config.alignment config.blockSize (poolCapacity config)
        = .ok pool ∧
      thread = {
        config := config, bufferPool := pool, offsetGen := .ofConfig config
        directionDecider := { mode := config.rwMode, rwmixread := config.rwmixread }
        directEffective := directEffective } ∧
      Geometry config.alignment pool ∧ pool.blockSize = config.blockSize ∧
      pool.capacity = poolCapacity config ∧
      pool.freeSlots.map UInt32.toNat = List.range (poolCapacity config).toNat := by
  obtain ⟨pool, hpool, h⟩ := bind_ok_iff.mp h
  obtain ⟨directEffective, -, h⟩ := bind_ok_iff.mp h
  exact ⟨pool, directEffective, hpool, (Except.ok.inj h).symm, new_ok halloc hpool⟩

/-- What a request is made of, and what is left when it has been made. -/
theorem generate_cases {raw : UInt64} {coin : Bool} {thread thread' : WorkerThread}
    {request : IORequest}
    (h : thread.generateNextIo raw coin = some (request, thread')) :
    ∃ slot rest, thread.bufferPool.freeSlots = slot :: rest ∧
      request = {
        offset := (thread.offsetGen.next raw).1, buffer := thread.bufferPool.data slot
        length := thread.config.blockSize
        direction := thread.directionDecider.next coin, id := slot.toUInt64 } ∧
      thread' = { thread with
        bufferPool := { thread.bufferPool with freeSlots := rest }
        offsetGen := (thread.offsetGen.next raw).2 } := by
  obtain ⟨⟨slot, pool⟩, hacq, heq⟩ := Option.map_eq_some_iff.mp h
  obtain ⟨rest, hfree, rfl⟩ := acquire_cases hacq
  obtain ⟨rfl, rfl⟩ := Prod.mk.inj heq
  exact ⟨slot, rest, hfree, rfl, rfl⟩

/-- Giving back the slot of a request that was just made restores the pool. -/
theorem release_generated {raw : UInt64} {coin : Bool} {thread thread' : WorkerThread}
    {request : IORequest}
    (h : thread.generateNextIo raw coin = some (request, thread'))
    (hin : ∀ s ∈ thread.bufferPool.freeSlots,
      s.toNat < thread.bufferPool.capacity.toNat) :
    (thread'.release request.id).bufferPool = thread.bufferPool := by
  obtain ⟨slot, rest, hfree, rfl, rfl⟩ := generate_cases h
  obtain ⟨config, ⟨storage, blockSize, capacity, freeSlots⟩⟩ := thread
  have hslot : slot.toNat < capacity.toNat := hin slot (hfree ▸ List.mem_cons_self ..)
  -- the slot came out of the free list, so `Release` does not ignore it
  have hge : ¬ slot.toUInt64 ≥ capacity := by
    rw [ge_iff_le, UInt64.le_iff_toNat_le, UInt32.toNat_toUInt64]
    omega
  simp only [WorkerThread.release, UInt32.toUInt32_toUInt64, BufferPool.release, if_neg hge]
  rw [show freeSlots = slot :: rest from hfree]

/-! ## Locations and steps -/

/-- Where a worker is in `Run`, with the local variables of the loop: the count
    `i` of the pre-fill loop, `in_flight` as `n`, and the rest of a polled batch as
    `todo`.  `lost` is what was left of the batch when an exception left the
    loop. -/
inductive Loc where
  | enter
  | syncTest
  | syncSubmit
  | syncPoll
  | syncRecord (now : TimePoint) (todo : List IOCompletion)
  | prefillTest (i n : Int)
  | prefillSubmit (i n : Int)
  | drainTest (n : Int)
  | poll (n : Int)
  | record (n : Int) (now : TimePoint) (todo : List IOCompletion)
  | refillTest (n : Int) (now : TimePoint) (todo : List IOCompletion)
  | refillSubmit (n : Int) (now : TimePoint) (todo : List IOCompletion)
  | unwinding (e : Exn) (lost : List IOCompletion)
  | finished (lost : List IOCompletion)
  deriving DecidableEq, Repr

/-- The completions polled and not recorded. -/
def Loc.batch : Loc → List IOCompletion
  | .syncRecord _ todo => todo
  | .record _ _ todo => todo
  | .refillTest _ _ todo => todo
  | .refillSubmit _ _ todo => todo
  | .unwinding _ lost => lost
  | .finished lost => lost
  | _ => []

/-- A call of the engine, with the run flag at that time. -/
inductive EngineCall where
  | submitIo (running : Bool) (unrecorded : Nat) (request : IORequest)
      (thrown : Option Exn)
  | pollCompletions (running : Bool) (lo hi : Int) (appended : List IOCompletion)
      (thrown : Option Exn)
  deriving DecidableEq, Repr

/-- A worker with its engine. -/
structure Worker (σ : Type*) where
  thread : WorkerThread
  engine : σ
  loc : Loc := .enter
  calls : List EngineCall := []

/-- What one step gets from outside. -/
structure Env (κ : Type*) where
  raw : UInt64 := 0
  coin : Bool := false
  now : TimePoint := 0
  kernel : κ

section Step

variable {σ κ : Type*}

/-- Go on somewhere else. -/
def Worker.goto (running : Bool) (loc : Loc) (w : Worker σ) :
    Option (Bool × Worker σ) :=
  some (running, { w with loc := loc })

/-- `SubmitOne`, with where to go on and what is left of the batch. -/
def Worker.submitOne (E : Engine σ κ) (running : Bool) (env : Env κ) (next : Loc)
    (todo : List IOCompletion) (w : Worker σ) : Option (Bool × Worker σ) :=
  (w.thread.generateNextIo env.raw env.coin).bind (fun generated =>
    let request := { generated.1 with submitTime := env.now }
    (E.submit env.kernel request w.engine).map (fun res =>
      let calls := w.calls ++ [.submitIo running todo.length request res.thrown]
      match res.thrown with
      | none =>
          (running, { thread := generated.2, engine := res.state, loc := next
                      calls := calls })
      -- the handler gives the slot back and throws on
      | some e =>
          (running, { thread := generated.2.release request.id, engine := res.state
                      loc := .unwinding e todo, calls := calls })))

/-- `PollCompletions` into the cleared vector, and the time after it. -/
def Worker.pollCompletions (E : Engine σ κ) (running : Bool) (env : Env κ) (hi : Int)
    (next : TimePoint → List IOCompletion → Loc) (w : Worker σ) :
    Option (Bool × Worker σ) :=
  (E.poll env.kernel 1 hi [] w.engine).map (fun res =>
    let calls := w.calls ++ [.pollCompletions running 1 hi res.out res.thrown]
    match res.thrown with
    | none =>
        (running, { w with
          engine := res.state, loc := next env.now res.out, calls := calls })
    -- what was appended before the exception stays in the vector
    | some e =>
        (running, { w with
          engine := res.state, loc := .unwinding e res.out, calls := calls }))

/-- One step of `Run`. -/
def step (E : Engine σ κ) (running : Bool) (w : Worker σ) (env : Env κ) :
    Option (Bool × Worker σ) :=
  match w.loc with
  | .enter =>
      if w.thread.config.effectiveIODepth = 1 then w.goto running .syncTest
      else w.goto running (.prefillTest 0 0)
  -- RunSyncLoop
  | .syncTest =>
      if running then w.goto running .syncSubmit else w.goto running (.finished [])
  | .syncSubmit => w.submitOne E running env .syncPoll []
  | .syncPoll => w.pollCompletions E running env 1 .syncRecord
  | .syncRecord _ [] => w.goto running .syncTest
  | .syncRecord now (c :: todo) =>
      some (running, { w with
        thread := w.thread.recordCompletion c now, loc := .syncRecord now todo })
  -- RunAsyncLoop: pre-fill the queue to iodepth
  | .prefillTest i n =>
      if i < w.thread.depth ∧ running = true then w.goto running (.prefillSubmit i n)
      else w.goto running (.drainTest n)
  | .prefillSubmit i n => w.submitOne E running env (.prefillTest (i + 1) (n + 1)) []
  -- drain completions, refill immediately to keep the queue full
  | .drainTest n =>
      if running = true ∨ n > 0 then w.goto running (.poll n)
      else w.goto running (.finished [])
  | .poll n => w.pollCompletions E running env w.thread.depth (.record n)
  | .record n _ [] => w.goto running (.drainTest n)
  | .record n now (c :: todo) =>
      some (running, { w with
        thread := w.thread.recordCompletion c now
        loc := .refillTest (n - 1) now todo })
  | .refillTest n now todo =>
      if running then w.goto running (.refillSubmit n now todo)
      else w.goto running (.record n now todo)
  | .refillSubmit n now todo =>
      w.submitOne E running env (.record (n + 1) now todo) todo
  -- the handlers of Run
  | .unwinding e lost =>
      some (false, { w with
        thread := w.thread.recordFailure e, loc := .finished lost })
  | .finished _ => none

end Step

/-- Another thread may clear the run flag; nobody sets it. -/
def flagRely (running running' : Bool) : Bool := running || !running'

/-! ## What a step can do -/

/-- The steps that only move on. -/
inductive Jump (running : Bool) (depth : Int32) : Loc → Loc → Prop where
  | sync : depth = 1 → Jump running depth .enter .syncTest
  | async : depth ≠ 1 → Jump running depth .enter (.prefillTest 0 0)
  | syncGo : running = true → Jump running depth .syncTest .syncSubmit
  | syncStop : running = false → Jump running depth .syncTest (.finished [])
  | syncDone (now : TimePoint) : Jump running depth (.syncRecord now []) .syncTest
  | prefillGo (i n : Int) : i < depth.toInt → running = true →
      Jump running depth (.prefillTest i n) (.prefillSubmit i n)
  | prefillStop (i n : Int) : ¬ (i < depth.toInt ∧ running = true) →
      Jump running depth (.prefillTest i n) (.drainTest n)
  | drainGo (n : Int) : running = true ∨ n > 0 →
      Jump running depth (.drainTest n) (.poll n)
  | drainStop (n : Int) : ¬ n > 0 → running = false →
      Jump running depth (.drainTest n) (.finished [])
  | batchDone (n : Int) (now : TimePoint) :
      Jump running depth (.record n now []) (.drainTest n)
  | refillGo (n : Int) (now : TimePoint) (todo : List IOCompletion) :
      running = true → Jump running depth (.refillTest n now todo)
        (.refillSubmit n now todo)
  | refillStop (n : Int) (now : TimePoint) (todo : List IOCompletion) :
      running = false → Jump running depth (.refillTest n now todo) (.record n now todo)

/-- The calls of `SubmitOne`, with where they go on. -/
inductive SubmitSite : Loc → Loc → Prop where
  | sync : SubmitSite .syncSubmit .syncPoll
  | prefill (i n : Int) : SubmitSite (.prefillSubmit i n) (.prefillTest (i + 1) (n + 1))
  | refill (n : Int) (now : TimePoint) (todo : List IOCompletion) :
      SubmitSite (.refillSubmit n now todo) (.record (n + 1) now todo)

/-- The calls of `PollCompletions`, with their maximum and where they go on. -/
inductive PollSite (depth : Int) :
    Loc → Int → (TimePoint → List IOCompletion → Loc) → Prop where
  | sync : PollSite depth .syncPoll 1 .syncRecord
  | async (n : Int) : PollSite depth (.poll n) depth (.record n)

/-- The calls of `RecordCompletion`, with where they go on. -/
inductive RecordSite : Loc → TimePoint → IOCompletion → Loc → Prop where
  | sync (now : TimePoint) (c : IOCompletion) (todo : List IOCompletion) :
      RecordSite (.syncRecord now (c :: todo)) now c (.syncRecord now todo)
  | async (n : Int) (now : TimePoint) (c : IOCompletion) (todo : List IOCompletion) :
      RecordSite (.record n now (c :: todo)) now c (.refillTest (n - 1) now todo)

section Sites

variable {running : Bool} {depth : Int32} {loc next : Loc}

/-- Moving on leaves the batch as it is. -/
theorem Jump.batch (h : Jump running depth loc next) : next.batch = loc.batch := by
  cases h <;> rfl

/-- So does submitting. -/
theorem SubmitSite.batch (h : SubmitSite loc next) : next.batch = loc.batch := by
  cases h <;> rfl

/-- Polling starts with no batch and ends with what was appended. -/
theorem PollSite.batch {d hi : Int} {go : TimePoint → List IOCompletion → Loc}
    (h : PollSite d loc hi go) (now : TimePoint) (cs : List IOCompletion) :
    loc.batch = [] ∧ (go now cs).batch = cs := by
  cases h with
  | sync => exact ⟨rfl, rfl⟩
  | async n => exact ⟨rfl, rfl⟩

/-- Recording takes the first of the batch. -/
theorem RecordSite.batch {now : TimePoint} {c : IOCompletion}
    (h : RecordSite loc now c next) : loc.batch = c :: next.batch := by
  cases h <;> rfl

end Sites

section Effect

variable {σ κ : Type*}

/-- What a step of a worker does to the flag and to the worker. -/
inductive Effect (E : Engine σ κ) (running : Bool) (w : Worker σ) (env : Env κ) :
    Bool → Worker σ → Prop where
  | jump (next : Loc) :
      Jump running w.thread.config.effectiveIODepth w.loc next →
      Effect E running w env running { w with loc := next }
  | accepted (next : Loc) (request : IORequest) (thread : WorkerThread) (engine : σ) :
      SubmitSite w.loc next →
      w.thread.generateNextIo env.raw env.coin = some (request, thread) →
      E.submit env.kernel { request with submitTime := env.now } w.engine
        = some ⟨none, engine⟩ →
      Effect E running w env running
        { thread := thread, engine := engine, loc := next
          calls := w.calls ++ [.submitIo running w.loc.batch.length
            { request with submitTime := env.now } none] }
  | rejected (next : Loc) (request : IORequest) (thread : WorkerThread) (engine : σ)
      (e : Exn) : SubmitSite w.loc next →
      w.thread.generateNextIo env.raw env.coin = some (request, thread) →
      E.submit env.kernel { request with submitTime := env.now } w.engine
        = some ⟨some e, engine⟩ →
      Effect E running w env running
        { thread := thread.release request.id, engine := engine
          loc := .unwinding e w.loc.batch
          calls := w.calls ++ [.submitIo running w.loc.batch.length
            { request with submitTime := env.now } (some e)] }
  | polled (hi : Int) (go : TimePoint → List IOCompletion → Loc)
      (out : List IOCompletion) (engine : σ) :
      PollSite w.thread.depth w.loc hi go →
      E.poll env.kernel 1 hi [] w.engine = some ⟨none, out, engine⟩ →
      Effect E running w env running
        { w with
          engine := engine, loc := go env.now out
          calls := w.calls ++ [.pollCompletions running 1 hi out none] }
  | pollThrew (hi : Int) (go : TimePoint → List IOCompletion → Loc)
      (out : List IOCompletion) (engine : σ) (e : Exn) :
      PollSite w.thread.depth w.loc hi go →
      E.poll env.kernel 1 hi [] w.engine = some ⟨some e, out, engine⟩ →
      Effect E running w env running
        { w with
          engine := engine, loc := .unwinding e out
          calls := w.calls ++ [.pollCompletions running 1 hi out (some e)] }
  | recorded (now : TimePoint) (c : IOCompletion) (next : Loc) :
      RecordSite w.loc now c next →
      Effect E running w env running
        { w with thread := w.thread.recordCompletion c now, loc := next }
  | failed (e : Exn) (lost : List IOCompletion) : w.loc = .unwinding e lost →
      Effect E running w env false
        { w with thread := w.thread.recordFailure e, loc := .finished lost }

variable {E : Engine σ κ} {running running' : Bool} {w w' : Worker σ} {env : Env κ}

/-- A step that only goes on is a jump. -/
theorem goto_effect {next : Loc}
    (h : w.goto running next = some (running', w'))
    (hj : Jump running w.thread.config.effectiveIODepth w.loc next) :
    Effect E running w env running' w' := by
  obtain ⟨rfl, rfl⟩ := Prod.mk.inj (Option.some.inj h)
  exact .jump next hj

/-- A step that submits, by what the engine answers. -/
theorem submitOne_effect {next : Loc} {todo : List IOCompletion}
    (h : w.submitOne E running env next todo = some (running', w'))
    (hs : SubmitSite w.loc next) (hb : w.loc.batch = todo) :
    Effect E running w env running' w' := by
  obtain ⟨⟨request, thread⟩, hgen, h⟩ := Option.bind_eq_some_iff.mp h
  obtain ⟨⟨thrown, engine⟩, hsub, h⟩ := Option.map_eq_some_iff.mp h
  subst hb
  cases thrown with
  | none =>
      obtain ⟨rfl, rfl⟩ := Prod.mk.inj h
      exact .accepted next request thread engine hs hgen hsub
  | some e =>
      obtain ⟨rfl, rfl⟩ := Prod.mk.inj h
      exact .rejected next request thread engine e hs hgen hsub

/-- A step that polls, by what the engine answers. -/
theorem pollCompletions_effect {hi : Int} {go : TimePoint → List IOCompletion → Loc}
    (h : w.pollCompletions E running env hi go = some (running', w'))
    (hp : PollSite w.thread.depth w.loc hi go) :
    Effect E running w env running' w' := by
  obtain ⟨⟨thrown, out, engine⟩, hpoll, h⟩ := Option.map_eq_some_iff.mp h
  cases thrown with
  | none =>
      obtain ⟨rfl, rfl⟩ := Prod.mk.inj h
      exact .polled hi go out engine hp hpoll
  | some e =>
      obtain ⟨rfl, rfl⟩ := Prod.mk.inj h
      exact .pollThrew hi go out engine e hp hpoll

/-- **What a step can do**, location by location. -/
theorem step_effect (h : step E running w env = some (running', w')) :
    Effect E running w env running' w' := by
  obtain ⟨thread, engine, loc, calls⟩ := w
  cases loc with
  | enter =>
      by_cases hd : thread.config.effectiveIODepth = 1
      · simp only [step, if_pos hd] at h
        exact goto_effect h (.sync hd)
      · simp only [step, if_neg hd] at h
        exact goto_effect h (.async hd)
  | syncTest =>
      cases running with
      | true => exact goto_effect h (.syncGo rfl)
      | false => exact goto_effect h (.syncStop rfl)
  | syncSubmit => exact submitOne_effect h .sync rfl
  | syncPoll => exact pollCompletions_effect h .sync
  | syncRecord now todo =>
      cases todo with
      | nil => exact goto_effect h (.syncDone now)
      | cons c todo =>
          obtain ⟨rfl, rfl⟩ := Prod.mk.inj (Option.some.inj h)
          exact .recorded now c _ (.sync now c todo)
  | prefillTest i n =>
      by_cases hgo : i < thread.depth ∧ running = true
      · simp only [step, if_pos hgo] at h
        exact goto_effect h (.prefillGo i n hgo.1 hgo.2)
      · simp only [step, if_neg hgo] at h
        exact goto_effect h (.prefillStop i n hgo)
  | prefillSubmit i n => exact submitOne_effect h (.prefill i n) rfl
  | drainTest n =>
      by_cases hgo : running = true ∨ n > 0
      · simp only [step, if_pos hgo] at h
        exact goto_effect h (.drainGo n hgo)
      · simp only [step, if_neg hgo] at h
        rw [not_or, Bool.not_eq_true] at hgo
        exact goto_effect h (.drainStop n hgo.2 hgo.1)
  | poll n => exact pollCompletions_effect h (.async n)
  | record n now todo =>
      cases todo with
      | nil => exact goto_effect h (.batchDone n now)
      | cons c todo =>
          obtain ⟨rfl, rfl⟩ := Prod.mk.inj (Option.some.inj h)
          exact .recorded now c _ (.async n now c todo)
  | refillTest n now todo =>
      cases running with
      | true => exact goto_effect h (.refillGo n now todo rfl)
      | false => exact goto_effect h (.refillStop n now todo rfl)
  | refillSubmit n now todo => exact submitOne_effect h (.refill n now todo) rfl
  | unwinding e lost =>
      obtain ⟨rfl, rfl⟩ := Prod.mk.inj (Option.some.inj h)
      exact .failed e lost rfl
  | finished lost => exact nomatch h

/-- **The invariant rule of a worker** under interference with the flag, for runs
    in which what comes from outside meets `P`. -/
theorem worker_invariant_of_ok {I : Bool → Worker σ → Prop} {P : Env κ → Prop}
    (hclear : ∀ running running' w, flagRely running running' = true →
      I running w → I running' w)
    (heffect : ∀ running w env running' w', I running w → P env →
      Effect E running w env running' w' → I running' w')
    {as : List (Transition.ThreadAct Bool (Env κ))}
    (hok : ∀ env, Transition.ThreadAct.own env ∈ as → P env)
    (h : Transition.run (Transition.threadStep flagRely (step E)) (running, w) as
      = some (running', w')) (hi : I running w) : I running' w' := by
  have hmeets : Transition.Meets (Transition.threadStep flagRely (step E))
      (fun _ a => ∀ env, a = Transition.ThreadAct.own env → P env) (running, w) as := by
    refine Transition.meets_of_mem ?_ _
    intro a ha env heq
    exact hok env (heq ▸ ha)
  -- a step of the run is interference with the flag or a step of the worker
  refine Transition.run_invariant_of_meets (I := fun s : Bool × Worker σ => I s.1 s.2)
    ?_ h hmeets hi
  rintro ⟨g, v⟩ a ⟨g', v'⟩ hv ha hs
  cases a with
  | interfere f =>
      obtain ⟨hrely, hs⟩ := Option.ite_none_right_eq_some.mp hs
      obtain ⟨rfl, rfl⟩ := Prod.mk.inj (Option.some.inj hs)
      exact hclear g f v hrely hv
  | own env => exact heffect g v env g' v' hv (ha env rfl) (step_effect hs)

/-- The rule for any run. -/
theorem worker_invariant {I : Bool → Worker σ → Prop}
    (hclear : ∀ running running' w, flagRely running running' = true →
      I running w → I running' w)
    (heffect : ∀ running w env running' w', I running w →
      Effect E running w env running' w' → I running' w')
    {as : List (Transition.ThreadAct Bool (Env κ))}
    (h : Transition.run (Transition.threadStep flagRely (step E)) (running, w) as
      = some (running', w')) (hi : I running w) : I running' w' :=
  worker_invariant_of_ok (P := fun _ => True) hclear
    (fun g v env g' v' hv _ he => heffect g v env g' v' hv he) (fun _ _ => trivial) h hi

/-! ## The calls made so far -/

/-- The request of a submit. -/
def submittedRequest : EngineCall → Option IORequest
  | .submitIo _ _ request _ => some request
  | .pollCompletions _ _ _ _ _ => none

/-- The requests submitted, accepted or not. -/
def submitted (calls : List EngineCall) : List IORequest :=
  calls.filterMap submittedRequest

/-- The completions a call appended. -/
def appendedBy : EngineCall → List IOCompletion
  | .submitIo _ _ _ _ => []
  | .pollCompletions _ _ _ appended _ => appended

/-- The completions the engine delivered. -/
def delivered (calls : List EngineCall) : List IOCompletion :=
  calls.flatMap appendedBy

section Calls

variable {running : Bool} {unrecorded : Nat} {request : IORequest} {lo hi : Int}
variable {out : List IOCompletion} {thrown : Option Exn} (calls : List EngineCall)

/-- A submission is one more request. -/
@[simp] theorem submitted_submitIo :
    submitted (calls ++ [.submitIo running unrecorded request thrown])
      = submitted calls ++ [request] := by
  rw [submitted, List.filterMap_append]
  rfl

/-- What holds of the requests so far and of one more. -/
theorem forall_submitted_submitIo {P : IORequest → Prop} {calls : List EngineCall}
    (hold : ∀ r ∈ submitted calls, P r) (hnew : P request) :
    ∀ r ∈ submitted (calls ++ [.submitIo running unrecorded request thrown]), P r := by
  rw [submitted_submitIo]
  exact List.forall_mem_append.mpr ⟨hold, List.forall_mem_singleton.mpr hnew⟩

/-- A poll submits nothing. -/
@[simp] theorem submitted_pollCompletions :
    submitted (calls ++ [.pollCompletions running lo hi out thrown])
      = submitted calls := by
  rw [submitted, List.filterMap_append]
  exact List.append_nil _

@[simp] theorem delivered_submitIo :
    delivered (calls ++ [.submitIo running unrecorded request thrown])
      = delivered calls := by
  rw [delivered, List.flatMap_append]
  exact List.append_nil _

/-- A poll delivers what it appends. -/
@[simp] theorem delivered_pollCompletions :
    delivered (calls ++ [.pollCompletions running lo hi out thrown])
      = delivered calls ++ out := by
  rw [delivered, List.flatMap_append]
  exact congrArg (delivered calls ++ ·) (List.append_nil out)

end Calls

end Effect

end CfioWorkerThread
