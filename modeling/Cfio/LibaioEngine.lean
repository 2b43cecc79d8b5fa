import Cfio.EngineUtils
import Cfio.RequestServer

/-! # The Linux AIO engine

    `LibaioEngine` together with the kernel's side of its context.  A pointer
    into `iocb_pool_` is an index; the vector of free ones is a list whose head is
    `back()`.  The kernel keeps what it was given (`held`) and reports it in any
    order; `admits` says which numbers of events it may return for a minimum
    asked of it.

    `AioInv d batch s` is the invariant: free control blocks, those the kernel
    holds and those of a `batch` of events being processed make up the pool of
    `d`, and the map of requests in flight has the requests of the latter two.
    One event moves one control block (`reap_inv`), from which follow a whole
    batch, a call and, for any client, a run. -/

namespace CfioLibaio

open CfioTypes CfioConfig CfioEngine Checks RequestServer

/-! ## The engine -/

/-- A control block as `io_prep_pread` and `io_prep_pwrite` fill it in. -/
structure Iocb where
  data : UInt64 := 0
  lioOpcode : IODirection := .kRead
  fildes : Int32 := 0
  buf : UInt64 := 0
  nbytes : UInt64 := 0
  offset : Int64 := 0
  deriving DecidableEq, Repr

/-- What `io_getevents` writes for one completed control block. -/
structure IoEvent where
  data : UInt64
  obj : Nat
  res : UInt64
  res2 : UInt64
  deriving DecidableEq, Repr

/-- The members of `LibaioEngine`.  `ctx` is whether the context is not null,
    `events` the size of the event vector. -/
structure LibaioEngine where
  ctx : Bool := false
  fd : Int32 := -1
  directEffective : Bool := false
  iodepth : Int32 := 0
  iocbPool : List Iocb := []
  freeIocbs : List Nat := []
  events : Nat := 0
  inFlight : InFlight := ∅

/-- A control block the kernel holds, with the request it was made from. -/
structure Held where
  obj : Nat
  iocb : Iocb
  request : IORequest
  deriving DecidableEq, Repr

/-- The engine and the kernel, and the ids the log calls unexpected. -/
structure Libaio where
  engine : LibaioEngine
  held : List Held := []
  unexpected : List UInt64 := []

/-- `LibaioEngine::Open`, with what `open` and `io_setup` return. -/
def LibaioEngine.openEngine (config : JobConfig) (first second : OpenOutcome)
    (setupRet : Int32) (engine : LibaioEngine) : Except Exn LibaioEngine :=
  if 0 ≤ engine.fd ∨ engine.ctx = true then
    .error (.runtimeError "LibaioEngine::Open -- engine is already open")
  else if config.iodepth < 1 then
    .error (.runtimeError ("LibaioEngine::Open -- iodepth must be >= 1, got "
      ++ toString config.iodepth))
  else do
    let result ← openFileWithDirectFallback config.filename config.direct first second
    if setupRet < 0 then
      if setupRet = -EAGAIN then
        throw (.runtimeError ("LibaioEngine::Open -- io_setup EAGAIN: iodepth may exceed "
          ++ "/proc/sys/fs/aio-max-nr"))
      else
        throw (.systemError (-setupRet) "LibaioEngine::Open -- io_setup failed")
    else
      let depth := config.iodepth.toInt.toNat
      return { engine with
        ctx := true, fd := result.fd, directEffective := result.directEffective
        iodepth := config.iodepth, iocbPool := List.replicate depth {}
        freeIocbs := (List.range depth).reverse, events := depth }

/-- The control block of a request. -/
def prepared (fd : Int32) (request : IORequest) : Iocb :=
  { data := request.id, lioOpcode := request.direction, fildes := fd
    buf := request.buffer, nbytes := request.length, offset := request.offset }

/-- `LibaioEngine::SubmitIO`; `ret` is what `io_submit` returns. -/
def submitIo (ret : Int32) (request : IORequest) (s : Libaio) :
    SubmitResult Exn Libaio :=
  if s.engine.fd < 0 ∨ s.engine.ctx = false then
    ⟨some (.runtimeError "LibaioEngine::SubmitIO -- engine is not open"), s⟩
  else if request.id ∈ s.engine.inFlight then
    ⟨some (.logicError ("LibaioEngine::SubmitIO -- duplicate request id "
      ++ toString request.id)), s⟩
  else
    match s.engine.freeIocbs with
    | [] =>
        ⟨some (.logicError
          "LibaioEngine::SubmitIO -- iocb pool empty, iodepth contract violated"), s⟩
    | obj :: rest =>
        let iocb := prepared s.engine.fd request
        let engine :=
          { s.engine with
            freeIocbs := rest, iocbPool := s.engine.iocbPool.set obj iocb
            inFlight := s.engine.inFlight.insert request.id (SubmitInfo.of request) }
        if ret = 1 then
          ⟨none, { s with engine := engine, held := ⟨obj, iocb, request⟩ :: s.held }⟩
        else
          -- roll back
          let engine :=
            { engine with
              inFlight := engine.inFlight.erase request.id
              freeIocbs := obj :: engine.freeIocbs }
          if ret = -EAGAIN then
            ⟨some (.systemError EAGAIN
              "LibaioEngine::SubmitIO -- io_submit EAGAIN, AIO limit reached"),
              { s with engine := engine }⟩
          else
            ⟨some (.systemError (if ret < 0 then -ret else EIO)
              ("LibaioEngine::SubmitIO -- io_submit failed, ret=" ++ toString ret)),
              { s with engine := engine }⟩

/-- The results of one control block. -/
structure AioResult where
  res : UInt64
  res2 : UInt64 := 0
  deriving DecidableEq, Repr

/-- What one call of `io_getevents` returns: a negative errno, or events for
    some of the control blocks held. -/
inductive GetEvents where
  | failed (ret : Int32)
  | events (choices : List (Nat × AioResult))
  deriving DecidableEq, Repr

/-- The event of a control block: its own data and address. -/
def eventOf (done : Held × AioResult) : IoEvent :=
  { data := done.1.iocb.data, obj := done.1.obj, res := done.2.res
    res2 := done.2.res2 }

/-- The loop around `io_getevents`: the events of the first call that is not
    interrupted, with the control blocks they are about, and what the kernel
    still holds. -/
def getEvents (admits : Int → Nat → Bool) (minEvents maxEvents : Int)
    (held : List Held) :
    List GetEvents → Option (Except Int32 (List (Held × AioResult)) × List Held)
  | [] => none
  | .failed ret :: replies =>
      if ret = -EINTR then getEvents admits minEvents maxEvents held replies
      else if ret < 0 then some (.error ret, held)
      else none
  | .events choices :: _ =>
      if choices.length ≤ maxEvents ∧ admits minEvents choices.length = true then
        (pickMany choices held).map (fun p => (.ok p.1, p.2))
      else none

/-- The completion of an event, from the record of its request. -/
def completionOf (reqId : UInt64) (info : SubmitInfo) (event : IoEvent) :
    IOCompletion :=
  let result := event.res.toInt64
  let completion : IOCompletion :=
    if result < 0 then
      { id := reqId, direction := info.direction, submitTime := info.submitTime
        bytesTransferred := 0, success := false, errorCode := (-result).toInt32 }
    else
      { id := reqId, direction := info.direction, submitTime := info.submitTime
        bytesTransferred := result, success := result.toUInt64 = info.length
        errorCode := if result.toUInt64 = info.length then 0 else EIO }
  -- a second result is an error too, unless the first one already was
  let res2 := event.res2.toInt64
  if res2 ≠ 0 then
    { completion with
      success := false
      errorCode :=
        if completion.errorCode = 0 then res2.toInt32 else completion.errorCode }
  else completion

/-- The loop over the events. -/
def reap : List IoEvent → Libaio → List IOCompletion → Libaio × List IOCompletion
  | [], s, out => (s, out)
  | event :: events, s, out =>
      let freed := { s.engine with freeIocbs := event.obj :: s.engine.freeIocbs }
      match s.engine.inFlight.lookup event.data with
      -- an unexpected event is logged, and its control block freed all the same
      | none =>
          reap events
            { s with engine := freed, unexpected := event.data :: s.unexpected } out
      | some info =>
          reap events
            { s with
              engine := { freed with inFlight := s.engine.inFlight.erase event.data } }
            (out ++ [completionOf event.data info event])

/-- `LibaioEngine::PollCompletions`. -/
def pollCompletions (admits : Int → Nat → Bool) (replies : List GetEvents)
    (minEvents maxEvents : Int) (out : List IOCompletion) (s : Libaio) :
    Option (PollResult Exn IOCompletion Libaio) :=
  if s.engine.ctx = false ∨ maxEvents < 1 then some ⟨none, out, s⟩
  else
    let minEvents := if minEvents < 0 then 0 else minEvents
    -- no more than can come, and no more than the event vector holds
    let minEvents := min minEvents (s.engine.inFlight.keys.length : Int)
    let maxEvents := min maxEvents (s.engine.events : Int)
    if minEvents < 1 ∧ s.engine.inFlight.keys = [] then some ⟨none, out, s⟩
    else
      (getEvents admits minEvents maxEvents s.held replies).map (fun reply =>
        match reply with
        | (.error ret, _) =>
            ⟨some (.systemError (-ret)
              "LibaioEngine::PollCompletions -- io_getevents failed"), out, s⟩
        | (.ok done, held) =>
            let reaped := reap (done.map eventOf) { s with held := held } out
            ⟨none, reaped.2, reaped.1⟩)

/-- What the kernel decides: the return value of `io_submit`, or those of the
    `io_getevents` calls. -/
structure AioKernel where
  submitRet : Int32 := 1
  getevents : List GetEvents := []
  deriving DecidableEq, Repr

/-- `LibaioEngine` as an engine. -/
def libaioEngine (admits : Int → Nat → Bool) :
    Server Libaio AioKernel IORequest IOCompletion Exn where
  submit := fun kernel request s => some (submitIo kernel.submitRet request s)
  poll := fun kernel minEvents maxEvents out s =>
    pollCompletions admits kernel.getevents minEvents maxEvents out s

/-! ## The invariant -/

/-- Free control blocks, those of the events being processed and those the kernel
    holds make up the pool, and the requests of the latter two are in flight. -/
structure AioInv (d : Nat) (batch : List Held) (s : Libaio) : Prop where
  size : s.engine.iocbPool.length = d
  events : s.engine.events = d
  pool : (s.engine.freeIocbs ++ (batch ++ s.held).map Held.obj).Perm (List.range d)
  tracks : Tracks s.engine.inFlight ((batch ++ s.held).map Held.request)
  labels : ∀ h ∈ batch ++ s.held, h.iocb.data = h.request.id
  unexpected : s.unexpected = []

/-- An engine that was opened satisfies the invariant. -/
theorem openEngine_inv {config : JobConfig} {first second : OpenOutcome}
    {setupRet : Int32} {engine : LibaioEngine}
    (h : ({} : LibaioEngine).openEngine config first second setupRet = .ok engine) :
    AioInv config.iodepth.toInt.toNat [] { engine := engine } ∧
      0 ≤ engine.fd ∧ engine.ctx = true := by
  obtain ⟨-, h⟩ := guard_ok_iff.mp h
  obtain ⟨-, h⟩ := guard_ok_iff.mp h
  obtain ⟨result, hfile, h⟩ := bind_ok_iff.mp h
  rcases ite_eq_iff.mp h with ⟨-, hfailed⟩ | ⟨-, hopen⟩
  · exact nomatch (guard_ok_iff.mp hfailed).2
  · rw [← Except.ok.inj hopen]
    refine ⟨⟨List.length_replicate, rfl, ?_, Tracks.empty,
      (fun _ hmem => nomatch hmem), rfl⟩, openFile_ok hfile, rfl⟩
    show ((List.range config.iodepth.toInt.toNat).reverse ++ []).Perm _
    rw [List.append_nil]
    exact List.reverse_perm _

/-! ## Submitting -/

/-- What a submit does: it hands a free control block to the kernel, or throws
    and leaves the pool, the map and the kernel as they were. -/
inductive Submitted (request : IORequest) (s : Libaio) :
    SubmitResult Exn Libaio → Prop where
  | accepted (obj : Nat) (rest : List Nat) : request.id ∉ s.engine.inFlight →
      s.engine.freeIocbs = obj :: rest →
      Submitted request s ⟨none, { s with
        engine := { s.engine with
          freeIocbs := rest
          iocbPool := s.engine.iocbPool.set obj (prepared s.engine.fd request)
          inFlight := s.engine.inFlight.insert request.id (SubmitInfo.of request) }
        held := ⟨obj, prepared s.engine.fd request, request⟩ :: s.held }⟩
  | rejected (e : Exn) (pool : List Iocb) : pool.length = s.engine.iocbPool.length →
      (e.isLogicError = true →
        request.id ∈ s.engine.inFlight ∨ s.engine.freeIocbs = []) →
      Submitted request s ⟨some e, { s with engine := { s.engine with iocbPool := pool } }⟩

theorem submitIo_submitted (ret : Int32) (request : IORequest) (s : Libaio) :
    Submitted request s (submitIo ret request s) := by
  simp only [submitIo]
  by_cases hopen : s.engine.fd < 0 ∨ s.engine.ctx = false
  · rw [if_pos hopen]
    exact .rejected _ s.engine.iocbPool rfl (fun h => nomatch h)
  · rw [if_neg hopen]
    by_cases hdup : request.id ∈ s.engine.inFlight
    · rw [if_pos hdup]
      exact .rejected _ s.engine.iocbPool rfl (fun _ => .inl hdup)
    · rw [if_neg hdup]
      cases hfree : s.engine.freeIocbs with
      | nil => exact .rejected _ s.engine.iocbPool rfl (fun _ => .inr hfree)
      | cons obj rest =>
          by_cases hret : ret = 1
          · simp only [if_pos hret]
            exact .accepted obj rest hdup hfree
          · simp only [if_neg hret, erase_insert hdup, ← hfree]
            -- the roll-back restores the map and the free list
            by_cases hagain : ret = -EAGAIN
            · rw [if_pos hagain]
              exact .rejected _ _ (List.length_set ..) (fun h => nomatch h)
            · rw [if_neg hagain]
              exact .rejected _ _ (List.length_set ..) (fun h => nomatch h)

/-- A submit keeps the invariant, and the kernel holds one request more or the
    same ones. -/
theorem Submitted.inv {d : Nat} {request : IORequest} {s : Libaio}
    {res : SubmitResult Exn Libaio} (hi : AioInv d [] s)
    (h : Submitted request s res) :
    AioInv d [] res.state ∧ res.state.held.map Held.request =
      (if res.thrown.isNone then request :: s.held.map Held.request
        else s.held.map Held.request) := by
  cases h with
  | accepted obj rest hnew hfree =>
      refine ⟨⟨?_, hi.events, ?_, hi.tracks.insert hnew, ?_, hi.unexpected⟩, rfl⟩
      · exact (List.length_set ..).trans hi.size
      · have hpool := hi.pool
        rw [hfree] at hpool
        exact List.perm_middle.trans hpool
      · intro h hmem
        rcases List.mem_cons.mp hmem with rfl | hold
        · rfl
        · exact hi.labels h hold
  | rejected e pool hlen _ =>
      exact ⟨⟨hlen.trans hi.size, hi.events, hi.pool, hi.tracks, hi.labels,
        hi.unexpected⟩, rfl⟩

/-! ## Polling -/

theorem completionOf_echoes (request : IORequest) (event : IoEvent) :
    Echoes request (completionOf request.id (SubmitInfo.of request) event) := by
  simp only [completionOf]
  by_cases hneg : event.res.toInt64 < 0
  · simp only [if_pos hneg]
    split
    · exact ⟨rfl, rfl, rfl, Int.le_refl 0⟩
    · exact ⟨rfl, rfl, rfl, Int.le_refl 0⟩
  · have hbytes : 0 ≤ event.res.toInt64.toInt :=
      Int64.le_iff_toInt_le.mp (Int64.not_lt.mp hneg)
    simp only [if_neg hneg]
    split
    · exact ⟨rfl, rfl, rfl, hbytes⟩
    · exact ⟨rfl, rfl, rfl, hbytes⟩

/-- One event moves its control block to the free ones and takes its request out
    of the map. -/
theorem reap_event_inv {d : Nat} {h : Held} {batch : List Held} {s : Libaio}
    (hi : AioInv d (h :: batch) s) :
    s.engine.inFlight.lookup h.iocb.data = some (SubmitInfo.of h.request) ∧
      AioInv d batch { s with
        engine := { s.engine with
          freeIocbs := h.obj :: s.engine.freeIocbs
          inFlight := s.engine.inFlight.erase h.iocb.data } } := by
  have hlabel : h.iocb.data = h.request.id := hi.labels h (List.mem_cons_self ..)
  rw [hlabel]
  refine ⟨hi.tracks.info h.request (List.mem_cons_self ..), ?_⟩
  refine ⟨hi.size, hi.events, List.perm_middle.symm.trans hi.pool, ?_, ?_, hi.unexpected⟩
  · exact Tracks.erase hi.tracks
  · intro h' hmem
    exact hi.labels h' (List.mem_cons_of_mem _ hmem)

/-- **A batch**: every event is expected, and its completion belongs to its
    request. -/
theorem reap_inv {d : Nat} {done : List (Held × AioResult)} {s : Libaio}
    (hi : AioInv d (done.map Prod.fst) s) (out : List IOCompletion) :
    AioInv d [] (reap (done.map eventOf) s out).1 ∧
      (reap (done.map eventOf) s out).1.held = s.held ∧
      (reap (done.map eventOf) s out).1.engine.ctx = s.engine.ctx ∧
      (reap (done.map eventOf) s out).2 = out ++ done.map (fun p =>
        completionOf p.1.request.id (SubmitInfo.of p.1.request) (eventOf p)) := by
  induction done generalizing s out with
  | nil => exact ⟨hi, rfl, rfl, (List.append_nil out).symm⟩
  | cons p done ih =>
      obtain ⟨hlook, hnext⟩ := reap_event_inv hi
      have hlabel : p.1.iocb.data = p.1.request.id :=
        hi.labels p.1 (List.mem_cons_self ..)
      have hstep : reap ((p :: done).map eventOf) s out =
          reap (done.map eventOf) { s with
            engine := { s.engine with
              freeIocbs := p.1.obj :: s.engine.freeIocbs
              inFlight := s.engine.inFlight.erase p.1.iocb.data } }
            (out ++ [completionOf p.1.iocb.data (SubmitInfo.of p.1.request)
              (eventOf p)]) := by
        show reap (eventOf p :: done.map eventOf) s out = _
        have hev : s.engine.inFlight.lookup (eventOf p).data
            = some (SubmitInfo.of p.1.request) := hlook
        simp only [reap, hev]
        rfl
      rw [hstep]
      obtain ⟨h1, h2, h3, h4⟩ := ih hnext (out ++ [completionOf p.1.iocb.data
        (SubmitInfo.of p.1.request) (eventOf p)])
      refine ⟨h1, h2, h3, ?_⟩
      rw [h4, List.append_assoc, hlabel]
      rfl

/-- What the loop around `io_getevents` gives. -/
theorem getEvents_ok {admits : Int → Nat → Bool} {minEvents maxEvents : Int}
    {held held' : List Held} {replies : List GetEvents}
    {done : List (Held × AioResult)}
    (h : getEvents admits minEvents maxEvents held replies = some (.ok done, held')) :
    (done.map Prod.fst ++ held').Perm held ∧ (done.length : Int) ≤ maxEvents ∧
      admits minEvents done.length = true ∧
      ∃ choices, GetEvents.events choices ∈ replies ∧
        done.map Prod.snd = choices.map Prod.snd := by
  induction replies with
  | nil => exact nomatch h
  | cons reply replies ih =>
      cases reply with
      | failed ret =>
          simp only [getEvents] at h
          by_cases hintr : ret = -EINTR
          · rw [if_pos hintr] at h
            obtain ⟨hperm, hlen, hadm, choices, hmem, hresults⟩ := ih h
            exact ⟨hperm, hlen, hadm, choices, List.mem_cons_of_mem _ hmem, hresults⟩
          · rw [if_neg hintr] at h
            exact nomatch (Option.ite_none_right_eq_some.mp h).2
      | events choices =>
          simp only [getEvents] at h
          obtain ⟨hadm, h⟩ := Option.ite_none_right_eq_some.mp h
          obtain ⟨⟨done', rest⟩, hpick, heq⟩ := Option.map_eq_some_iff.mp h
          obtain ⟨hdone, rfl⟩ := Prod.mk.inj heq
          rw [← Except.ok.inj hdone, pickMany_length hpick]
          exact ⟨pickMany_perm hpick, hadm.1, hadm.2, choices, List.mem_cons_self ..,
            pickMany_results hpick⟩

/-- What a poll does: nothing, or an exception, or a batch of events. -/
theorem pollCompletions_cases {admits : Int → Nat → Bool} {replies : List GetEvents}
    {lo hi : Int} {out : List IOCompletion} {s : Libaio}
    {res : PollResult Exn IOCompletion Libaio}
    (h : pollCompletions admits replies lo hi out s = some res) :
    (res = ⟨none, out, s⟩ ∧ (s.engine.ctx = false ∨ hi < 1 ∨
      s.engine.inFlight.keys = [])) ∨
    (∃ e, res = ⟨some e, out, s⟩) ∨
    (∃ (done : List (Held × AioResult)) (held' : List Held),
      (done.map Prod.fst ++ held').Perm s.held ∧
      (done.length : Int) ≤ min hi (s.engine.events : Int) ∧
      admits (min (max lo 0) (s.engine.inFlight.keys.length : Int)) done.length
        = true ∧
      (∃ choices, GetEvents.events choices ∈ replies ∧
        done.map Prod.snd = choices.map Prod.snd) ∧
      res = ⟨none, (reap (done.map eventOf) { s with held := held' } out).2,
        (reap (done.map eventOf) { s with held := held' } out).1⟩) := by
  simp only [pollCompletions] at h
  rw [← max_def_lt] at h
  by_cases hidle : s.engine.ctx = false ∨ hi < 1
  · rw [if_pos hidle] at h
    refine .inl ⟨(Option.some.inj h).symm, ?_⟩
    rcases hidle with hctx | hhi
    · exact .inl hctx
    · exact .inr (.inl hhi)
  · rw [if_neg hidle] at h
    by_cases hnone : min (max lo 0) (s.engine.inFlight.keys.length : Int) < 1 ∧
        s.engine.inFlight.keys = []
    · rw [if_pos hnone] at h
      exact .inl ⟨(Option.some.inj h).symm, .inr (.inr hnone.2)⟩
    · rw [if_neg hnone] at h
      obtain ⟨⟨reply, held'⟩, hget, heq⟩ := Option.map_eq_some_iff.mp h
      cases reply with
      | error ret => exact .inr (.inl ⟨_, heq.symm⟩)
      | ok done =>
          obtain ⟨hperm, hlen, hadm, hresults⟩ := getEvents_ok hget
          exact .inr (.inr ⟨done, held', hperm, hlen, hadm, hresults, heq.symm⟩)

/-- The invariant when a batch has been taken out of the kernel. -/
theorem AioInv.taken {d : Nat} {s : Libaio} {batch held' : List Held}
    (hi : AioInv d [] s) (hp : (batch ++ held').Perm s.held) :
    AioInv d batch { s with held := held' } := by
  refine ⟨hi.size, hi.events, ?_, hi.tracks.perm (hp.map _).symm, ?_, hi.unexpected⟩
  · exact ((hp.map _).append_left _).trans hi.pool
  · intro h hmem
    exact hi.labels h (hp.mem_iff.mp hmem)

/-- **A poll** keeps the invariant; what it appends answers requests the kernel
    held. -/
theorem pollCompletions_inv {admits : Int → Nat → Bool} {replies : List GetEvents}
    {lo hi : Int} {out : List IOCompletion} {s : Libaio}
    {res : PollResult Exn IOCompletion Libaio} {d : Nat} (hinv : AioInv d [] s)
    (h : pollCompletions admits replies lo hi out s = some res) :
    AioInv d [] res.state ∧ res.state.engine.ctx = s.engine.ctx ∧
      ∃ cs, res.out = out ++ cs ∧
        Answered Echoes (s.held.map Held.request) cs
          (res.state.held.map Held.request) ∧
        (s.engine.ctx = true → 1 ≤ lo → lo ≤ hi → s.held ≠ [] →
          (cs.length : Int) ≤ hi ∧ (res.thrown = none →
            admits (min lo (s.held.length : Int)) cs.length = true)) := by
  have hsize : s.engine.inFlight.keys.length = s.held.length := by
    rw [hinv.tracks.size, List.nil_append, List.length_map]
  have hempty : Answered Echoes (s.held.map Held.request) []
      (s.held.map Held.request) := Answered.refl (List.Perm.refl _)
  rcases pollCompletions_cases h with ⟨rfl, hidle⟩ | ⟨e, rfl⟩ | hbatch
  · refine ⟨hinv, rfl, [], (List.append_nil out).symm, hempty, ?_⟩
    intro hctx hlo hhi hne
    -- with a request held none of the early returns is taken
    exfalso
    rcases hidle with hno | hlow | hkeys
    · rw [hctx] at hno
      exact nomatch hno
    · omega
    · rw [hkeys] at hsize
      exact hne (List.length_eq_zero_iff.mp hsize.symm)
  · refine ⟨hinv, rfl, [], (List.append_nil out).symm, hempty, ?_⟩
    intro _ hlo hhi _
    refine ⟨?_, fun hno => nomatch hno⟩
    show (0 : Int) ≤ hi
    omega
  · obtain ⟨done, held', hperm, hlen, hadm, -, rfl⟩ := hbatch
    obtain ⟨hinv', hheld, hctx', hout⟩ := reap_inv (hinv.taken hperm) out
    refine ⟨hinv', hctx', _, hout, ⟨done.map (fun p => (p.1.request,
      completionOf p.1.request.id (SubmitInfo.of p.1.request) (eventOf p))),
      ?_, ?_, ?_⟩, ?_⟩
    · rw [List.map_map]
      rfl
    · rw [hheld, List.map_map]
      have hmap := hperm.map Held.request
      rw [List.map_append, List.map_map] at hmap
      exact hmap
    · intro p hp
      obtain ⟨q, -, rfl⟩ := List.mem_map.mp hp
      exact completionOf_echoes q.1.request (eventOf q)
    · intro _ hlo hhi _
      rw [List.length_map]
      refine ⟨by omega, fun _ => ?_⟩
      rw [hsize, Int.max_eq_left (by omega)] at hadm
      exact hadm

/-! ## An open engine -/

/-- The file is open and so is the context. -/
def Libaio.IsOpen (s : Libaio) : Prop := 0 ≤ s.engine.fd ∧ s.engine.ctx = true

theorem reap_isOpen {s : Libaio} (h : s.IsOpen) (events : List IoEvent)
    (out : List IOCompletion) : (reap events s out).1.IsOpen := by
  induction events generalizing s out with
  | nil => exact h
  | cons event events ih =>
      rw [reap]
      cases s.engine.inFlight.lookup event.data with
      | none =>
          refine ih ?_ out
          exact h
      | some info =>
          refine ih ?_ _
          exact h

/-- An open engine stays open, and a submit finds it so. -/
theorem submitIo_isOpen {s : Libaio} (h : s.IsOpen) (ret : Int32) (request : IORequest) :
    (submitIo ret request s).state.IsOpen ∧
      ∀ what, (submitIo ret request s).thrown ≠ some (.runtimeError what) := by
  have hopen : ¬ (s.engine.fd < 0 ∨ s.engine.ctx = false) := by
    rintro (hfd | hctx)
    · exact absurd hfd (Int32.not_lt.mpr h.1)
    · rw [h.2] at hctx
      exact nomatch hctx
  rw [submitIo, if_neg hopen]
  by_cases hdup : request.id ∈ s.engine.inFlight
  · rw [if_pos hdup]
    exact ⟨h, nofun⟩
  · rw [if_neg hdup]
    cases s.engine.freeIocbs with
    | nil => exact ⟨h, nofun⟩
    | cons obj rest =>
        dsimp only
        by_cases hone : ret = 1
        · rw [if_pos hone]
          exact ⟨h, nofun⟩
        · rw [if_neg hone]
          by_cases hagain : ret = -EAGAIN
          · rw [if_pos hagain]
            exact ⟨h, nofun⟩
          · rw [if_neg hagain]
            exact ⟨h, nofun⟩

theorem pollCompletions_isOpen {admits : Int → Nat → Bool} {replies : List GetEvents}
    {lo hi : Int} {out : List IOCompletion} {s : Libaio}
    {res : PollResult Exn IOCompletion Libaio} (h : s.IsOpen)
    (hpoll : pollCompletions admits replies lo hi out s = some res) :
    res.state.IsOpen := by
  obtain ⟨rfl, -⟩ | ⟨e, rfl⟩ | ⟨done, held', -, -, -, -, rfl⟩ :=
    pollCompletions_cases hpoll
  · exact h
  · exact h
  · refine reap_isOpen ?_ _ _
    exact h

/-! ## The contract -/

/-- The requests the kernel holds. -/
def Libaio.outstanding (s : Libaio) : List IORequest := s.held.map Held.request

theorem Submitted.ctx {request : IORequest} {s : Libaio}
    {res : SubmitResult Exn Libaio} (h : Submitted request s res) :
    res.state.engine.ctx = s.engine.ctx := by
  cases h with
  | accepted obj rest hnew hfree => rfl
  | rejected e pool hlen hlogic => rfl

/-- **`LibaioEngine` obeys the contract of `IEngineIO`** when the kernel waits
    for the minimum it was asked for. -/
def libaioContract (admits : Int → Nat → Bool)
    (hadm : ∀ m n, admits m n = true → m ≤ (n : Int)) (d : Nat) :
    Contract (libaioEngine admits) Echoes d where
  Valid := fun s => AioInv d [] s ∧ s.engine.ctx = true
  outstanding := Libaio.outstanding
  accepted := by
    intro kernel request s s' hv h
    have hsub := submitIo_submitted kernel.submitRet request s
    rw [Option.some.inj h] at hsub
    obtain ⟨hinv, hheld⟩ := hsub.inv hv.1
    refine ⟨⟨hinv, hsub.ctx.trans hv.2⟩, ?_⟩
    exact List.Perm.of_eq hheld
  rejected := by
    intro kernel request s e s' hv h
    have hsub := submitIo_submitted kernel.submitRet request s
    rw [Option.some.inj h] at hsub
    exact List.Perm.of_eq (hsub.inv hv.1).2
  polled := by
    intro kernel lo hi out s res hv hne _ hlo hhi h
    obtain ⟨hinv, hctx, cs, hout, hans, hcount⟩ := pollCompletions_inv hv.1 h
    have hheld : s.held ≠ [] := by
      intro hnil
      refine hne ?_
      show s.held.map Held.request = []
      rw [hnil]
      rfl
    obtain ⟨hle, hge⟩ := hcount hv.2 hlo hhi hheld
    refine ⟨cs, hout, hle, hans, ?_⟩
    intro ht
    refine ⟨⟨hinv, hctx.trans hv.2⟩, ?_⟩
    have hlen : s.outstanding.length = s.held.length := List.length_map ..
    rw [hlen]
    exact hadm _ _ (hge ht)

/-- `SubmitIO` throws a `std::logic_error` only for an id in use, or with all `d`
    control blocks in use. -/
theorem Submitted.logicError {d : Nat} {request : IORequest} {s s' : Libaio} {e : Exn}
    (hi : AioInv d [] s) (h : Submitted request s ⟨some e, s'⟩)
    (he : e.isLogicError = true) :
    request.id ∈ s.outstanding.map IORequest.id ∨ d ≤ s.outstanding.length := by
  cases h with
  | rejected _ pool hlen hlogic =>
      rcases hlogic he with hdup | hfree
      · exact .inl (hi.tracks.mem_iff.mp hdup)
      · refine .inr ?_
        have hpool := hi.pool.length_eq
        rw [hfree, List.length_range, List.nil_append, List.nil_append,
          List.length_map] at hpool
        rw [← hpool]
        exact Nat.le_of_eq (List.length_map ..).symm

/-! ## Any client -/

/-- Whatever a client calls and the kernel answers, nothing is lost. -/
def libaioExact (admits : Int → Nat → Bool) (d : Nat) :
    Exact (libaioEngine admits) Echoes (fun _ _ => True) where
  Inv := AioInv d []
  outstanding := Libaio.outstanding
  submit := by
    intro kernel request s res hi _ h
    have hsub := submitIo_submitted kernel.submitRet request s
    rw [Option.some.inj h] at hsub
    obtain ⟨hinv, hheld⟩ := hsub.inv hi
    exact ⟨hinv, List.Perm.of_eq hheld⟩
  poll := by
    intro kernel lo hi out s res hinv _ h
    obtain ⟨hinv', -, cs, hout, hans, -⟩ := pollCompletions_inv hinv h
    exact ⟨hinv', cs, hout, hans⟩

/-- What holds of an engine opened with depth `d` after any calls, `accepted` and
    `delivered` being the requests it took and the completions it gave. -/
structure Conserved (d : Nat) (c : ClientState Libaio IORequest IOCompletion) :
    Prop where
  pool_size : c.server.engine.iocbPool.length = d
  pool_nodup :
    (c.server.engine.freeIocbs ++ c.server.held.map Held.obj).Nodup
  pool_full : ∀ i,
    i ∈ c.server.engine.freeIocbs ++ c.server.held.map Held.obj ↔ i < d
  ids_nodup : (c.server.held.map (fun h => h.iocb.data)).Nodup
  ids : ∀ id, id ∈ c.server.engine.inFlight ↔ ∃ h ∈ c.server.held, h.iocb.data = id
  atomic : ∀ ret request e s', submitIo ret request c.server = ⟨some e, s'⟩ →
    s'.engine.inFlight = c.server.engine.inFlight ∧
      s'.engine.freeIocbs = c.server.engine.freeIocbs ∧ s'.held = c.server.held
  expected : c.server.unexpected = []
  once : Answered Echoes c.accepted c.delivered c.server.outstanding

/-- The invariant in the terms of `Conserved`. -/
theorem conserved_of_inv {d : Nat} {c : ClientState Libaio IORequest IOCompletion}
    (hi : AioInv d [] c.server)
    (hacc : Answered Echoes c.accepted c.delivered c.server.outstanding) :
    Conserved d c := by
  have hdata : c.server.held.map (fun h => h.iocb.data)
      = (c.server.held.map Held.request).map IORequest.id := by
    rw [List.map_map]
    exact List.map_congr_left hi.labels
  refine ⟨hi.size, ?_, ?_, ?_, ?_, ?_, hi.unexpected, hacc⟩
  · exact hi.pool.nodup_iff.mpr List.nodup_range
  · intro i
    exact hi.pool.mem_iff.trans List.mem_range
  · rw [hdata]
    exact hi.tracks.nodup
  · intro id
    have hmem : id ∈ c.server.engine.inFlight ↔
        id ∈ (c.server.held.map Held.request).map IORequest.id := hi.tracks.mem_iff
    rw [← hdata] at hmem
    exact hmem.trans List.mem_map
  · intro ret request e s' h
    have hsub := submitIo_submitted ret request c.server
    rw [h] at hsub
    cases hsub with
    | rejected _ pool hlen hlogic => exact ⟨rfl, rfl, rfl⟩

/-- **Exactly-once completion and conservation of control blocks**, over every
    run of every client against every kernel. -/
theorem libaio_conserved {config : JobConfig} {first second : OpenOutcome}
    {setupRet : Int32} {engine : LibaioEngine}
    (hopen : ({} : LibaioEngine).openEngine config first second setupRet = .ok engine)
    (admits : Int → Nat → Bool) {as : List (ClientAct AioKernel IORequest IOCompletion)}
    {c : ClientState Libaio IORequest IOCompletion}
    (hrun : Transition.run (clientStep (libaioEngine admits))
      ⟨{ engine := engine }, [], []⟩ as = some c) :
    Conserved config.iodepth.toInt.toNat c := by
  have hacc := (libaioExact admits config.iodepth.toInt.toNat).run_accounted hrun
    (Transition.meets_of_forall (fun _ _ => trivial) _ _)
    ⟨(openEngine_inv hopen).1, Answered.refl (List.Perm.refl [])⟩
  exact conserved_of_inv hacc.1 hacc.2

/-- A job of depth two. -/
def depthTwoJob : JobConfig :=
  { name := "deep", engine := "libaio", blockSize := 512, fileSize := 4096
    iodepth := 2, filename := "data", alignment := 512 }

/-- Its engine after `Open`. -/
def depthTwoEngine : LibaioEngine :=
  { ctx := true, fd := 3, directEffective := true, iodepth := 2
    iocbPool := [{}, {}], freeIocbs := [1, 0], events := 2 }

/-- Two requests accepted, a duplicate, an `EAGAIN` and one too many rejected, and
    both completed after an interrupted wait. -/
def depthTwoCalls : List (ClientAct AioKernel IORequest IOCompletion) :=
  [.submit {} { id := 7 }, .submit {} { id := 7 },
    .submit { submitRet := -11 } { id := 8 }, .submit {} { id := 8 },
    .submit {} { id := 9 },
    .poll { getevents := [.failed (-4), .events [(1, ⟨512, 0⟩), (0, ⟨0, 0⟩)]] } 1 2 []]

/-- The theorem on that run. -/
theorem libaio_conserved_depthTwo :
    ∃ c, Transition.run (clientStep (libaioEngine (fun m n => m ≤ (n : Int))))
        ⟨{ engine := depthTwoEngine }, [], []⟩ depthTwoCalls = some c ∧
      (c.accepted.map IORequest.id, c.delivered.map IOCompletion.id)
        = ([7, 8], [7, 8]) ∧ Conserved 2 c := by
  have hids : (Transition.run (clientStep (libaioEngine (fun m n => m ≤ (n : Int))))
      ⟨{ engine := depthTwoEngine }, [], []⟩ depthTwoCalls).map (fun c =>
        (c.accepted.map IORequest.id, c.delivered.map IOCompletion.id))
      = some ([7, 8], [7, 8]) := rfl
  obtain ⟨c, hrun, hc⟩ := Option.map_eq_some_iff.mp hids
  exact ⟨c, hrun, hc, @libaio_conserved depthTwoJob ⟨3, 0⟩ ⟨-1, 0⟩ 0 depthTwoEngine rfl
    (fun m n => m ≤ (n : Int)) depthTwoCalls c hrun⟩

end CfioLibaio
