import Cfio.EngineUtils
import Cfio.RequestServer

/-! # The io_uring engine

    `IoUringEngine` together with the ring and the kernel's side of it.
    `io_uring_get_sqe` reserves the next entry of the submission queue
    (`pending`), `io_uring_submit` hands entries over from the front (`held`), and
    the kernel completes what it holds in any order.  A negative return value of
    `io_uring_submit` leaves the pending entries where they are.

    `UringInv batch s` is the invariant while every `SubmitIO` that throws does so
    before it reserves an entry: the entries in the ring are those of the requests
    in flight.  `uring_atomic` draws the line: a `SubmitIO` leaves the engine as it
    was exactly when `io_uring_submit` does not fail under it. -/

namespace CfioIoUring

open CfioTypes CfioConfig CfioEngine Checks RequestServer

/-! ## The engine -/

/-- A submission queue entry as the `io_uring_prep` functions fill it in, with the
    request it was made from. -/
structure Sqe where
  userData : UInt64
  opcode : IODirection
  fd : Int32
  addr : UInt64
  len : UInt32
  off : Int64
  request : IORequest
  deriving DecidableEq, Repr

/-- The members of `IoUringEngine`.  `cqeBatch` is the size of the vector. -/
structure IoUringEngine where
  fd : Int32 := -1
  directEffective : Bool := false
  ringInitialized : Bool := false
  iodepth : Int32 := 0
  inFlight : InFlight := ∅
  cqeBatch : Nat := 0

/-- The engine, its ring and the kernel, and the ids the log calls unexpected. -/
structure IoUring where
  engine : IoUringEngine
  sqEntries : Nat
  pending : List Sqe := []
  held : List Sqe := []
  unexpected : List UInt64 := []

/-- `IoUringEngine::Open`, with what `open` and `io_uring_queue_init` return. -/
def IoUringEngine.openEngine (config : JobConfig) (first second : OpenOutcome)
    (initRet : Int32) (engine : IoUringEngine) : Except Exn IoUringEngine :=
  if 0 ≤ engine.fd ∨ engine.ringInitialized = true then
    .error (.runtimeError "IoUringEngine::Open -- engine is already open")
  else if config.iodepth < 1 then
    .error (.runtimeError ("IoUringEngine::Open -- iodepth must be >= 1, got "
      ++ toString config.iodepth))
  else do
    let result ← openFileWithDirectFallback config.filename config.direct first second
    if initRet < 0 then
      throw (.systemError (-initRet) "io_uring_queue_init failed")
    else
      return { engine with
        fd := result.fd, directEffective := result.directEffective
        ringInitialized := true, iodepth := config.iodepth
        cqeBatch := config.iodepth.toInt.toNat }

/-- `UINT_MAX`. -/
def kUIntMax : UInt64 := 0xFFFFFFFF

/-- The checks of `SubmitIO` up to and with `io_uring_get_sqe`. -/
def IoUring.checkSubmit (request : IORequest) (s : IoUring) : Option Exn :=
  if s.engine.fd < 0 ∨ s.engine.ringInitialized = false then
    some (.runtimeError "IoUringEngine::SubmitIO -- engine is not open")
  else if request.length > kUIntMax then
    some (.runtimeError
      "IoUringEngine::SubmitIO -- request.length exceeds unsigned int range")
  else if request.id ∈ s.engine.inFlight then
    some (.logicError ("IoUringEngine::SubmitIO -- duplicate request id "
      ++ toString request.id))
  else if s.sqEntries ≤ s.pending.length then
    some (.logicError
      "IoUringEngine::SubmitIO -- SQ ring full, iodepth contract violated")
  else none

/-- The submission queue entry of a request. -/
def prepared (fd : Int32) (request : IORequest) : Sqe :=
  { userData := request.id, opcode := request.direction, fd := fd
    addr := request.buffer, len := request.length.toUInt32, off := request.offset
    request := request }

/-- `IoUringEngine::SubmitIO`; `ret` is what `io_uring_submit` returns: the number
    of entries it handed over, or a negative errno. -/
def submitIo (ret : Int32) (request : IORequest) (s : IoUring) :
    Option (SubmitResult Exn IoUring) :=
  match s.checkSubmit request with
  | some e => some ⟨some e, s⟩
  | none =>
      let pending := s.pending ++ [prepared s.engine.fd request]
      let inFlight := s.engine.inFlight.insert request.id (SubmitInfo.of request)
      -- the map is rolled back, the entry stays in the ring
      if ret < 0 then
        some ⟨some (.systemError (-ret) "io_uring_submit failed"),
          { s with
            engine := { s.engine with inFlight := inFlight.erase request.id }
            pending := pending }⟩
      else if ret.toInt.toNat ≤ pending.length then
        some ⟨none,
          { s with
            engine := { s.engine with inFlight := inFlight }
            pending := pending.drop ret.toInt.toNat
            held := s.held ++ pending.take ret.toInt.toNat }⟩
      else none

/-- The loop around `io_uring_wait_cqe_nr`: the first return value that makes it
    end. -/
def waitCqe : List Int32 → Option Int32
  | [] => none
  | ret :: rets => if ret = -EINTR ∨ ret = -EAGAIN then waitCqe rets else some ret

/-- The completion of a queue entry, from the record of its request. -/
def completionOf (reqId : UInt64) (info : SubmitInfo) (res : Int32) : IOCompletion :=
  if res < 0 then
    { id := reqId, direction := info.direction, submitTime := info.submitTime
      bytesTransferred := 0, success := false, errorCode := -res }
  else
    { id := reqId, direction := info.direction, submitTime := info.submitTime
      bytesTransferred := res.toInt64
      success := res.toInt64.toUInt64 = info.length
      errorCode := if res.toInt64.toUInt64 = info.length then 0 else EIO }

/-- The loop over the completion queue entries. -/
def reap : List (Sqe × Int32) → IoUring → List IOCompletion →
    IoUring × List IOCompletion
  | [], s, out => (s, out)
  | (sqe, res) :: cqes, s, out =>
      match s.engine.inFlight.lookup sqe.userData with
      -- an unexpected entry is logged and dropped
      | none => reap cqes { s with unexpected := sqe.userData :: s.unexpected } out
      | some info =>
          reap cqes
            { s with
              engine := { s.engine with
                inFlight := s.engine.inFlight.erase sqe.userData } }
            (out ++ [completionOf sqe.userData info res])

/-- What the kernel decides: the return value of `io_uring_submit`, those of the
    `io_uring_wait_cqe_nr` calls, and the entries that are found completed. -/
structure UringKernel where
  submitRet : Int32 := 1
  waits : List Int32 := [0]
  choices : List (Nat × Int32) := []
  deriving DecidableEq, Repr

/-- `IoUringEngine::PollCompletions`.  A wait that succeeds found as many entries
    as it was asked for. -/
def pollCompletions (kernel : UringKernel) (minEvents maxEvents : Int)
    (out : List IOCompletion) (s : IoUring) :
    Option (PollResult Exn IOCompletion IoUring) :=
  if s.engine.ringInitialized = false ∨ maxEvents < 1 then some ⟨none, out, s⟩
  else
    let minEvents := if minEvents < 0 then 0 else minEvents
    let waited := if minEvents > 0 then waitCqe kernel.waits else some 0
    let batchLimit := min maxEvents (s.engine.cqeBatch : Int)
    waited.bind (fun ret =>
      if ret < 0 then
        some ⟨some (.systemError (-ret) "io_uring_wait_cqe_nr failed"), out, s⟩
      else if minEvents ≤ s.held.length ∧ kernel.choices.length ≤ batchLimit ∧
          min minEvents batchLimit ≤ kernel.choices.length then
        (pickMany kernel.choices s.held).map (fun p =>
          let reaped := reap p.1 { s with held := p.2 } out
          ⟨none, reaped.2, reaped.1⟩)
      else none)

/-- `IoUringEngine` as an engine. -/
def ioUringEngine : Server IoUring UringKernel IORequest IOCompletion Exn where
  submit := fun kernel request s => submitIo kernel.submitRet request s
  poll := pollCompletions

/-! ## The invariant -/

/-- The entries in the ring, and those of the batch being processed, are the
    requests in flight. -/
structure UringInv (batch : List Sqe) (s : IoUring) : Prop where
  tracks : Tracks s.engine.inFlight ((batch ++ (s.pending ++ s.held)).map Sqe.request)
  labels : ∀ q ∈ batch ++ (s.pending ++ s.held), q.userData = q.request.id
  unexpected : s.unexpected = []

/-- The requests in flight that have an entry in the ring. -/
def IoUring.outstanding (s : IoUring) : List IORequest :=
  ((s.pending ++ s.held).map Sqe.request).filter (fun r => r.id ∈ s.engine.inFlight)

/-- Under the invariant every entry counts. -/
theorem UringInv.outstanding_eq {s : IoUring} (hi : UringInv [] s) :
    s.outstanding = (s.pending ++ s.held).map Sqe.request := by
  refine List.filter_eq_self.mpr ?_
  intro r hr
  exact decide_eq_true (hi.tracks.mem_iff.mpr (List.mem_map_of_mem hr))

/-- An engine that was opened satisfies the invariant. -/
theorem openEngine_inv {config : JobConfig} {first second : OpenOutcome}
    {initRet : Int32} {engine : IoUringEngine}
    (h : ({} : IoUringEngine).openEngine config first second initRet = .ok engine)
    (sqEntries : Nat) :
    UringInv [] { engine := engine, sqEntries := sqEntries } ∧
      engine.ringInitialized = true ∧
      engine.cqeBatch = config.iodepth.toInt.toNat ∧ 1 ≤ config.iodepth := by
  obtain ⟨-, h⟩ := guard_ok_iff.mp h
  obtain ⟨hd, h⟩ := guard_ok_iff.mp h
  obtain ⟨result, -, h⟩ := bind_ok_iff.mp h
  obtain ⟨-, h⟩ := guard_ok_iff.mp h
  rw [← Except.ok.inj h]
  exact ⟨⟨Tracks.empty, (fun _ hmem => nomatch hmem), rfl⟩, rfl, rfl, Int32.not_lt.mp hd⟩

/-! ## Submitting -/

/-- What a submit does: a check fails; or the new entry is pending and some
    entries are handed over; or it stays pending although its request is
    rejected. -/
inductive Submitted (ret : Int32) (request : IORequest) (s : IoUring) :
    SubmitResult Exn IoUring → Prop where
  | refused (e : Exn) : s.checkSubmit request = some e →
      Submitted ret request s ⟨some e, s⟩
  | accepted (n : Nat) : s.checkSubmit request = none → 0 ≤ ret →
      Submitted ret request s ⟨none,
        { s with
          engine := { s.engine with
            inFlight := s.engine.inFlight.insert request.id (SubmitInfo.of request) }
          pending := (s.pending ++ [prepared s.engine.fd request]).drop n
          held := s.held ++ (s.pending ++ [prepared s.engine.fd request]).take n }⟩
  | left : s.checkSubmit request = none → ret < 0 →
      Submitted ret request s
        ⟨some (.systemError (-ret) "io_uring_submit failed"),
          { s with pending := s.pending ++ [prepared s.engine.fd request] }⟩

/-- Checks that passed mean that the id is new and the ring has room. -/
theorem check_none {request : IORequest} {s : IoUring}
    (h : s.checkSubmit request = none) :
    request.id ∉ s.engine.inFlight ∧ s.pending.length < s.sqEntries := by
  obtain ⟨-, h⟩ := guard_none_iff.mp h
  obtain ⟨-, h⟩ := guard_none_iff.mp h
  obtain ⟨hnew, h⟩ := guard_none_iff.mp h
  obtain ⟨hroom, -⟩ := guard_none_iff.mp h
  exact ⟨hnew, Nat.lt_of_not_le hroom⟩

/-- A check that throws a `std::logic_error` found the id in use or the ring
    full. -/
theorem check_logicError {request : IORequest} {s : IoUring} {e : Exn}
    (h : s.checkSubmit request = some e) (he : e.isLogicError = true) :
    request.id ∈ s.engine.inFlight ∨ s.sqEntries ≤ s.pending.length := by
  rcases ite_eq_iff.mp h with ⟨-, hthrown⟩ | ⟨-, h⟩
  · rw [← Option.some.inj hthrown] at he
    exact nomatch he
  · rcases ite_eq_iff.mp h with ⟨-, hthrown⟩ | ⟨-, h⟩
    · rw [← Option.some.inj hthrown] at he
      exact nomatch he
    · rcases ite_eq_iff.mp h with ⟨hdup, -⟩ | ⟨-, h⟩
      · exact .inl hdup
      · exact .inr (Option.ite_none_right_eq_some.mp h).1

/-- What a submission does, by what the kernel returns. -/
theorem submitIo_submitted {ret : Int32} {request : IORequest} {s : IoUring}
    {res : SubmitResult Exn IoUring} (h : submitIo ret request s = some res) :
    Submitted ret request s res := by
  simp only [submitIo] at h
  cases hc : s.checkSubmit request with
  | some e =>
      rw [hc] at h
      rw [← Option.some.inj h]
      exact .refused e hc
  | none =>
      rw [hc] at h
      by_cases hneg : ret < 0
      · simp only [if_pos hneg, erase_insert (check_none hc).1] at h
        rw [← Option.some.inj h]
        exact .left hc hneg
      · simp only [if_neg hneg] at h
        obtain ⟨-, h⟩ := Option.ite_none_right_eq_some.mp h
        rw [← Option.some.inj h]
        exact .accepted _ hc (Int32.not_lt.mp hneg)

/-- A submit under which `io_uring_submit` does not fail keeps the invariant. -/
theorem Submitted.inv {ret : Int32} {request : IORequest} {s : IoUring}
    {res : SubmitResult Exn IoUring} (hi : UringInv [] s)
    (hret : s.checkSubmit request = none → 0 ≤ ret) (h : Submitted ret request s res) :
    UringInv [] res.state ∧ res.state.outstanding.Perm
      (if res.thrown.isNone then request :: s.outstanding else s.outstanding) := by
  cases h with
  | refused e hc => exact ⟨hi, List.Perm.refl _⟩
  | left hc hneg => exact absurd hneg (Int32.not_lt.mpr (hret hc))
  | accepted n hc hge =>
      -- handing over moves entries, the new one joins
      have hring : ((s.pending ++ [prepared s.engine.fd request]).drop n ++
          (s.held ++ (s.pending ++ [prepared s.engine.fd request]).take n)).Perm
          (prepared s.engine.fd request :: (s.pending ++ s.held)) := by
        have hsplit := List.take_append_drop n
          (s.pending ++ [prepared s.engine.fd request])
        have hswap : ((s.pending ++ [prepared s.engine.fd request]).drop n ++
            (s.held ++ (s.pending ++ [prepared s.engine.fd request]).take n)).Perm
            (s.held ++ (s.pending ++ [prepared s.engine.fd request])) := by
          refine List.perm_append_comm.trans ?_
          rw [List.append_assoc, hsplit]
        refine hswap.trans (List.perm_append_comm.trans ?_)
        rw [List.append_assoc]
        exact List.perm_middle
      have hinv : UringInv [] { s with
          engine := { s.engine with
            inFlight := s.engine.inFlight.insert request.id (SubmitInfo.of request) }
          pending := (s.pending ++ [prepared s.engine.fd request]).drop n
          held := s.held ++ (s.pending ++ [prepared s.engine.fd request]).take n } := by
        refine ⟨?_, ?_, hi.unexpected⟩
        · exact (hi.tracks.insert (check_none hc).1).perm
            (hring.map Sqe.request).symm
        · intro q hq
          rcases List.mem_cons.mp (hring.mem_iff.mp hq) with rfl | hold
          · rfl
          · exact hi.labels q hold
      refine ⟨hinv, ?_⟩
      simp only [hinv.outstanding_eq, hi.outstanding_eq]
      exact hring.map Sqe.request

/-- A request that is refused joins neither the map nor what counts as
    outstanding. -/
theorem Submitted.thrown {ret : Int32} {request : IORequest} {s s' : IoUring} {e : Exn}
    (h : Submitted ret request s ⟨some e, s'⟩) :
    s'.engine = s.engine ∧ s'.held = s.held ∧ s'.outstanding = s.outstanding := by
  cases h with
  | refused _ hc => exact ⟨rfl, rfl, rfl⟩
  | left hc hneg =>
      refine ⟨rfl, rfl, ?_⟩
      have hnew := (check_none hc).1
      have hdrop : (prepared s.engine.fd request).request.id ∉ s.engine.inFlight := hnew
      simp only [IoUring.outstanding, List.map_append, List.filter_append, List.map_cons,
        List.map_nil, List.append_assoc]
      rw [List.filter_cons_of_neg (by simpa using hdrop)]
      rfl

/-! ## Polling -/

/-- A completion has the id of its request. -/
theorem completionOf_echoes (request : IORequest) (res : Int32) :
    Echoes request (completionOf request.id (SubmitInfo.of request) res) := by
  simp only [completionOf]
  by_cases hneg : res < 0
  · rw [if_pos hneg]
    exact ⟨rfl, rfl, rfl, Int.le_refl 0⟩
  · rw [if_neg hneg]
    refine ⟨rfl, rfl, rfl, ?_⟩
    show 0 ≤ res.toInt64.toInt
    rw [Int32.toInt_toInt64]
    exact Int32.le_iff_toInt_le.mp (Int32.not_lt.mp hneg)

/-- One entry takes its request out of the map. -/
theorem reap_entry_inv {q : Sqe} {batch : List Sqe} {s : IoUring}
    (hi : UringInv (q :: batch) s) :
    s.engine.inFlight.lookup q.userData = some (SubmitInfo.of q.request) ∧
      UringInv batch { s with
        engine := { s.engine with inFlight := s.engine.inFlight.erase q.userData } } := by
  have hlabel : q.userData = q.request.id := hi.labels q (List.mem_cons_self ..)
  rw [hlabel]
  refine ⟨hi.tracks.info q.request (List.mem_cons_self ..), ?_, ?_, hi.unexpected⟩
  · exact Tracks.erase hi.tracks
  · intro q' hmem
    exact hi.labels q' (List.mem_cons_of_mem _ hmem)

/-- **A batch**: every entry is expected, and its completion belongs to its
    request. -/
theorem reap_inv {done : List (Sqe × Int32)} {s : IoUring}
    (hi : UringInv (done.map Prod.fst) s) (out : List IOCompletion) :
    UringInv [] (reap done s out).1 ∧ (reap done s out).1.pending = s.pending ∧
      (reap done s out).1.held = s.held ∧
      (reap done s out).1.sqEntries = s.sqEntries ∧
      (reap done s out).1.engine.cqeBatch = s.engine.cqeBatch ∧
      (reap done s out).1.engine.ringInitialized = s.engine.ringInitialized ∧
      (reap done s out).2 = out ++ done.map (fun p =>
        completionOf p.1.request.id (SubmitInfo.of p.1.request) p.2) := by
  induction done generalizing s out with
  | nil => exact ⟨hi, rfl, rfl, rfl, rfl, rfl, (List.append_nil out).symm⟩
  | cons p done ih =>
      obtain ⟨q, res⟩ := p
      obtain ⟨hlook, hnext⟩ := reap_entry_inv hi
      have hlabel : q.userData = q.request.id := hi.labels q (List.mem_cons_self ..)
      have hstep : reap ((q, res) :: done) s out =
          reap done { s with
            engine := { s.engine with
              inFlight := s.engine.inFlight.erase q.userData } }
            (out ++ [completionOf q.userData (SubmitInfo.of q.request) res]) := by
        simp only [reap, hlook]
      rw [hstep]
      obtain ⟨h1, h2, h3, h4, h5, h6, h7⟩ := ih hnext
        (out ++ [completionOf q.userData (SubmitInfo.of q.request) res])
      refine ⟨h1, h2, h3, h4, h5, h6, ?_⟩
      rw [h7, List.append_assoc, hlabel]
      rfl

/-- What a poll does: nothing, or an exception, or a batch of entries. -/
theorem pollCompletions_cases {kernel : UringKernel} {lo hi : Int}
    {out : List IOCompletion} {s : IoUring}
    {res : PollResult Exn IOCompletion IoUring}
    (h : pollCompletions kernel lo hi out s = some res) :
    (res = ⟨none, out, s⟩ ∧ (s.engine.ringInitialized = false ∨ hi < 1)) ∨
    (∃ e, res = ⟨some e, out, s⟩) ∨
    (∃ (done : List (Sqe × Int32)) (held' : List Sqe),
      (done.map Prod.fst ++ held').Perm s.held ∧
      (done.length : Int) ≤ min hi (s.engine.cqeBatch : Int) ∧
      min (max lo 0) (min hi (s.engine.cqeBatch : Int)) ≤ (done.length : Int) ∧
      max lo 0 ≤ (s.held.length : Int) ∧
      done.map Prod.snd = kernel.choices.map Prod.snd ∧
      res = ⟨none, (reap done { s with held := held' } out).2,
        (reap done { s with held := held' } out).1⟩) := by
  simp only [pollCompletions] at h
  rw [← max_def_lt] at h
  by_cases hidle : s.engine.ringInitialized = false ∨ hi < 1
  · rw [if_pos hidle] at h
    exact .inl ⟨(Option.some.inj h).symm, hidle⟩
  · rw [if_neg hidle] at h
    obtain ⟨ret, -, h⟩ := Option.bind_eq_some_iff.mp h
    by_cases hneg : ret < 0
    · rw [if_pos hneg] at h
      exact .inr (.inl ⟨_, (Option.some.inj h).symm⟩)
    · rw [if_neg hneg] at h
      obtain ⟨⟨hheld, hle, hge⟩, h⟩ := Option.ite_none_right_eq_some.mp h
      obtain ⟨⟨done, held'⟩, hpick, rfl⟩ := Option.map_eq_some_iff.mp h
      rw [← pickMany_length hpick] at hle hge
      exact .inr (.inr ⟨done, held', pickMany_perm hpick, hle, hge, hheld,
        pickMany_results hpick, rfl⟩)

/-- The invariant when a batch has been taken out of the kernel. -/
theorem UringInv.taken {s : IoUring} {batch held' : List Sqe} (hi : UringInv [] s)
    (hp : (batch ++ held').Perm s.held) : UringInv batch { s with held := held' } := by
  have hring : (batch ++ (s.pending ++ held')).Perm (s.pending ++ s.held) := by
    have hswap : (batch ++ (s.pending ++ held')).Perm
        (s.pending ++ (batch ++ held')) := by
      rw [← List.append_assoc, ← List.append_assoc]
      exact List.perm_append_comm.append_right _
    exact hswap.trans (hp.append_left _)
  refine ⟨hi.tracks.perm (hring.map _).symm, ?_, hi.unexpected⟩
  intro q hq
  exact hi.labels q (hring.mem_iff.mp hq)

/-- **A poll** keeps the invariant; what it appends are completions of entries the
    kernel held. -/
theorem pollCompletions_inv {kernel : UringKernel} {lo hi : Int}
    {out : List IOCompletion} {s : IoUring}
    {res : PollResult Exn IOCompletion IoUring} (hinv : UringInv [] s)
    (h : pollCompletions kernel lo hi out s = some res) :
    UringInv [] res.state ∧ res.state.sqEntries = s.sqEntries ∧
      res.state.engine.cqeBatch = s.engine.cqeBatch ∧
      res.state.engine.ringInitialized = s.engine.ringInitialized ∧
      ∃ done : List (Sqe × Int32), (∀ p ∈ done, p.1 ∈ s.held) ∧
        res.out = out ++ done.map (fun p =>
          completionOf p.1.request.id (SubmitInfo.of p.1.request) p.2) ∧
        Answered Echoes s.outstanding (done.map (fun p =>
          completionOf p.1.request.id (SubmitInfo.of p.1.request) p.2))
          res.state.outstanding ∧
        (s.engine.ringInitialized = true → 1 ≤ lo → lo ≤ hi →
          (done.length : Int) ≤ hi ∧ (res.thrown = none →
            min lo (s.engine.cqeBatch : Int) ≤ done.length)) := by
  have hnone : ∀ {s' : IoUring}, s' = s →
      Answered Echoes s.outstanding [] s'.outstanding := by
    rintro _ rfl
    exact Answered.refl (List.Perm.refl _)
  rcases pollCompletions_cases h with ⟨rfl, hidle⟩ | ⟨e, rfl⟩ | hbatch
  · refine ⟨hinv, rfl, rfl, rfl, [], (fun _ hp => nomatch hp), (List.append_nil out).symm,
      hnone rfl, ?_⟩
    intro hopen hlo hhi
    exfalso
    rcases hidle with hno | hlow
    · rw [hopen] at hno
      exact nomatch hno
    · omega
  · refine ⟨hinv, rfl, rfl, rfl, [], (fun _ hp => nomatch hp), (List.append_nil out).symm,
      hnone rfl, ?_⟩
    intro _ hlo hhi
    refine ⟨?_, fun hno => nomatch hno⟩
    show (0 : Int) ≤ hi
    omega
  · obtain ⟨done, held', hperm, hlen, hge, hheld, -, rfl⟩ := hbatch
    obtain ⟨hinv', hpend, hheld', hsq, hbatch, hring, hout⟩ :=
      reap_inv (hinv.taken hperm) out
    refine ⟨hinv', hsq, hbatch, hring, done, ?_, hout, ⟨done.map (fun p =>
      (p.1.request, completionOf p.1.request.id (SubmitInfo.of p.1.request) p.2)),
      ?_, ?_, ?_⟩, ?_⟩
    · intro p hp
      exact hperm.mem_iff.mp (List.mem_append_left _ (List.mem_map_of_mem hp))
    · rw [List.map_map]
      rfl
    · rw [hinv'.outstanding_eq, hinv.outstanding_eq, hpend, hheld', List.map_map]
      have hswap : (done.map Prod.fst ++ (s.pending ++ held')).Perm
          (s.pending ++ s.held) := by
        refine List.Perm.trans ?_ (hperm.append_left s.pending)
        rw [← List.append_assoc, ← List.append_assoc]
        exact List.perm_append_comm.append_right _
      have hmap := hswap.map Sqe.request
      rw [List.map_append, List.map_map] at hmap
      exact hmap
    · intro p hp
      obtain ⟨q, -, rfl⟩ := List.mem_map.mp hp
      exact completionOf_echoes q.1.request q.2
    · intro _ hlo hhi
      exact ⟨by omega, fun _ => by omega⟩

/-! ## An open engine -/

/-- The file is open and so is the ring. -/
def IoUring.IsOpen (s : IoUring) : Prop :=
  0 ≤ s.engine.fd ∧ s.engine.ringInitialized = true

/-- An open engine passes the check of a submission. -/
theorem IoUring.IsOpen.check {s : IoUring} (h : s.IsOpen) :
    ¬ (s.engine.fd < 0 ∨ s.engine.ringInitialized = false) := by
  rintro (hfd | hring)
  · exact absurd hfd (Int32.not_lt.mpr h.1)
  · rw [h.2] at hring
    exact nomatch hring

/-- An engine that was opened is open. -/
theorem openEngine_isOpen {config : JobConfig} {first second : OpenOutcome}
    {initRet : Int32} {engine : IoUringEngine}
    (h : ({} : IoUringEngine).openEngine config first second initRet = .ok engine)
    (sqEntries : Nat) : IoUring.IsOpen { engine := engine, sqEntries := sqEntries } := by
  obtain ⟨-, h⟩ := guard_ok_iff.mp h
  obtain ⟨-, h⟩ := guard_ok_iff.mp h
  obtain ⟨result, hfile, h⟩ := bind_ok_iff.mp h
  obtain ⟨-, h⟩ := guard_ok_iff.mp h
  rw [← Except.ok.inj h]
  exact ⟨openFile_ok hfile, rfl⟩

/-- The engine can be opened for any depth. -/
theorem exists_openEngine {config : JobConfig} (hdepth : 1 ≤ config.iodepth) :
    ∃ engine, ({} : IoUringEngine).openEngine config ⟨3, 0⟩ ⟨3, 0⟩ 0 = .ok engine := by
  have hlow : ¬ config.iodepth < 1 := Int32.not_lt.mpr hdepth
  have hfile : openFileWithDirectFallback config.filename config.direct ⟨3, 0⟩ ⟨3, 0⟩
      = .ok { fd := 3, directEffective := config.direct } := by
    cases config.direct <;> rfl
  refine ⟨{ fd := 3, directEffective := config.direct, ringInitialized := true
            iodepth := config.iodepth, cqeBatch := config.iodepth.toInt.toNat }, ?_⟩
  rw [IoUringEngine.openEngine, if_neg (by decide), if_neg hlow]
  exact bind_ok_iff.mpr ⟨_, hfile, rfl⟩

/-- Processing completions leaves the engine open. -/
theorem reap_isOpen {s : IoUring} (h : s.IsOpen) (cqes : List (Sqe × Int32))
    (out : List IOCompletion) : (reap cqes s out).1.IsOpen := by
  induction cqes generalizing s out with
  | nil => exact h
  | cons cqe cqes ih =>
      obtain ⟨sqe, res⟩ := cqe
      rw [reap]
      cases s.engine.inFlight.lookup sqe.userData with
      | none =>
          refine ih ?_ out
          exact h
      | some info =>
          refine ih ?_ _
          exact h

/-- An open engine refuses a request whose length does not fit. -/
theorem submitIo_tooLong {s : IoUring} (h : s.IsOpen) {request : IORequest}
    (hlong : request.length > kUIntMax) (ret : Int32) :
    submitIo ret request s = some ⟨some (.runtimeError
      "IoUringEngine::SubmitIO -- request.length exceeds unsigned int range"), s⟩ := by
  simp only [submitIo, IoUring.checkSubmit, if_neg h.check, if_pos hlong]

/-- An open engine stays open, and a submit of a request that fits finds it so. -/
theorem submitIo_isOpen {ret : Int32} {request : IORequest} {s : IoUring}
    {res : SubmitResult Exn IoUring} (h : s.IsOpen)
    (hsubmit : submitIo ret request s = some res) :
    res.state.IsOpen ∧ (¬ request.length > kUIntMax →
      ∀ what, res.thrown ≠ some (.runtimeError what)) := by
  cases submitIo_submitted hsubmit with
  | refused e hc =>
      refine ⟨h, fun hfits what => ?_⟩
      rw [IoUring.checkSubmit, if_neg h.check, if_neg hfits] at hc
      rintro ⟨⟩
      rcases ite_eq_iff.mp hc with ⟨-, hdup⟩ | ⟨-, hc⟩
      · exact nomatch hdup
      · exact nomatch (Option.ite_none_right_eq_some.mp hc).2
  | accepted n hc hge => exact ⟨h, fun _ => nofun⟩
  | left hc hneg => exact ⟨h, fun _ => nofun⟩

theorem pollCompletions_isOpen {kernel : UringKernel} {lo hi : Int}
    {out : List IOCompletion} {s : IoUring}
    {res : PollResult Exn IOCompletion IoUring} (h : s.IsOpen)
    (hpoll : pollCompletions kernel lo hi out s = some res) : res.state.IsOpen := by
  obtain ⟨rfl, -⟩ | ⟨e, rfl⟩ | ⟨done, held', -, -, -, -, -, rfl⟩ :=
    pollCompletions_cases hpoll
  · exact h
  · exact h
  · refine reap_isOpen ?_ _ _
    exact h

/-! ## The contract -/

/-- A submission leaves the ring as it was initialised. -/
theorem Submitted.keeps {ret : Int32} {request : IORequest} {s : IoUring}
    {res : SubmitResult Exn IoUring} (h : Submitted ret request s res) :
    res.state.sqEntries = s.sqEntries ∧
      res.state.engine.cqeBatch = s.engine.cqeBatch ∧
      res.state.engine.ringInitialized = s.engine.ringInitialized := by
  cases h with
  | refused e hc => exact ⟨rfl, rfl, rfl⟩
  | accepted n hc hge => exact ⟨rfl, rfl, rfl⟩
  | left hc hneg => exact ⟨rfl, rfl, rfl⟩

/-- A submit that does not throw is one under which `io_uring_submit` did not
    fail. -/
theorem Submitted.ret_nonneg {ret : Int32} {request : IORequest} {s s' : IoUring}
    (h : Submitted ret request s ⟨none, s'⟩) : 0 ≤ ret := by
  cases h with
  | accepted n hc hge => exact hge

/-- An open engine of depth `d` with room for as many entries. -/
structure Ready (d : Nat) (s : IoUring) : Prop where
  inv : UringInv [] s
  ring : s.engine.ringInitialized = true
  batch : s.engine.cqeBatch = d
  entries : d ≤ s.sqEntries

/-- **`IoUringEngine` obeys the contract of `IEngineIO`.** -/
def ioUringContract (d : Nat) : Contract ioUringEngine Echoes d where
  Valid := Ready d
  outstanding := IoUring.outstanding
  accepted := by
    intro kernel request s s' hv h
    have hsub := submitIo_submitted h
    obtain ⟨hinv, hout⟩ := hsub.inv hv.inv (fun _ => hsub.ret_nonneg)
    obtain ⟨hsq, hbatch, hring⟩ := hsub.keeps
    refine ⟨⟨hinv, hring.trans hv.ring, hbatch.trans hv.batch, ?_⟩, hout⟩
    exact hsq ▸ hv.entries
  rejected := by
    intro kernel request s e s' _ h
    exact List.Perm.of_eq (submitIo_submitted h).thrown.2.2
  polled := by
    intro kernel lo hi out s res hv _ hdepth hlo hhi h
    obtain ⟨hinv, hsq, hbatch, hring, done, -, hout, hans, hcount⟩ :=
      pollCompletions_inv hv.inv h
    obtain ⟨hle, hge⟩ := hcount hv.ring hlo hhi
    refine ⟨_, hout, ?_, hans, ?_⟩
    · rw [List.length_map]
      exact hle
    · intro ht
      refine ⟨⟨hinv, hring.trans hv.ring, hbatch.trans hv.batch, hsq ▸ hv.entries⟩, ?_⟩
      have hlow := hge ht
      rw [hv.batch] at hlow
      rw [List.length_map]
      omega

/-- `SubmitIO` throws a `std::logic_error` only for an id in use, or with `d`
    requests outstanding. -/
theorem Submitted.logicError {d : Nat} {ret : Int32} {request : IORequest}
    {s s' : IoUring} {e : Exn} (hr : Ready d s)
    (h : Submitted ret request s ⟨some e, s'⟩) (he : e.isLogicError = true) :
    request.id ∈ s.outstanding.map IORequest.id ∨ d ≤ s.outstanding.length := by
  cases h with
  | left hc hneg => exact nomatch he
  | refused _ hc =>
      rw [hr.inv.outstanding_eq]
      rcases check_logicError hc he with hdup | hfull
      · exact .inl (hr.inv.tracks.mem_iff.mp hdup)
      · refine .inr ?_
        have hroom := hr.entries
        rw [List.length_map, List.length_append]
        omega

/-! ## A submit that fails -/

/-- The calls under which `io_uring_submit` does not return a negative errno. -/
def SubmitOk (s : IoUring) : ClientAct UringKernel IORequest IOCompletion → Prop
  | .submit kernel request => s.checkSubmit request = none → 0 ≤ kernel.submitRet
  | .poll _ _ _ _ => True

/-- As long as `io_uring_submit` does not fail, nothing is lost, whatever a client
    calls. -/
def ioUringExact : Exact ioUringEngine Echoes SubmitOk where
  Inv := UringInv []
  outstanding := IoUring.outstanding
  submit := fun hi hok h => (submitIo_submitted h).inv hi hok
  poll := by
    intro kernel lo hi out s res hinv _ h
    obtain ⟨hinv', -, -, -, done, -, hout, hans, -⟩ := pollCompletions_inv hinv h
    exact ⟨hinv', _, hout, hans⟩

/-- A `SubmitIO` that throws leaves the map of requests in flight and the entries
    in the ring as they were. -/
def AtomicSubmit (ret : Int32) (request : IORequest) (s : IoUring) : Prop :=
  ∀ e s', submitIo ret request s = some ⟨some e, s'⟩ →
    s'.engine.inFlight = s.engine.inFlight ∧ s'.pending = s.pending ∧ s'.held = s.held

/-- **The line**: a `SubmitIO` is atomic exactly when `io_uring_submit` does not
    return a negative errno under it. -/
theorem atomicSubmit_iff {kernel : UringKernel} {request : IORequest} {s : IoUring} :
    AtomicSubmit kernel.submitRet request s ↔ SubmitOk s (.submit kernel request) := by
  constructor
  · intro hatomic hc
    refine Int32.not_lt.mp ?_
    intro hneg
    have hsub : submitIo kernel.submitRet request s = some
        ⟨some (.systemError (-kernel.submitRet) "io_uring_submit failed"),
          { s with pending := s.pending ++ [prepared s.engine.fd request] }⟩ := by
      simp only [submitIo, hc, if_pos hneg, erase_insert (check_none hc).1]
    obtain ⟨-, hpending, -⟩ := hatomic _ _ hsub
    exact absurd hpending (by simp)
  · intro hok e s' h
    cases submitIo_submitted h with
    | refused _ hc => exact ⟨rfl, rfl, rfl⟩
    | left hc hneg => exact absurd hneg (Int32.not_lt.mpr (hok hc))

/-- What holds of an engine after calls under none of which `io_uring_submit`
    failed, `accepted` and `delivered` being the requests it took and the
    completions it gave. -/
structure RingClean (c : ClientState IoUring IORequest IOCompletion) : Prop where
  atomic : ∀ kernel request, AtomicSubmit kernel.submitRet request c.server ↔
    SubmitOk c.server (.submit kernel request)
  expected : c.server.unexpected = []
  ids_nodup : ((c.server.pending ++ c.server.held).map Sqe.userData).Nodup
  ids : ∀ id, id ∈ c.server.engine.inFlight ↔
    ∃ q ∈ c.server.pending ++ c.server.held, q.userData = id
  ring : Answered Echoes c.accepted c.delivered
    ((c.server.pending ++ c.server.held).map Sqe.request)
  produced : ∀ kernel lo hi out res,
    pollCompletions kernel lo hi out c.server = some res →
    ∃ done : List (Sqe × Int32),
      (∀ p ∈ done, p.1 ∈ c.server.held ∧ p.1.request ∈ c.accepted) ∧
      res.out = out ++ done.map (fun p =>
        completionOf p.1.request.id (SubmitInfo.of p.1.request) p.2)

/-- The invariant in the terms of `RingClean`. -/
theorem ringClean_of_inv {c : ClientState IoUring IORequest IOCompletion}
    (hi : UringInv [] c.server)
    (hacc : Answered Echoes c.accepted c.delivered c.server.outstanding) :
    RingClean c := by
  rw [hi.outstanding_eq] at hacc
  have hdata : (c.server.pending ++ c.server.held).map Sqe.userData
      = ((c.server.pending ++ c.server.held).map Sqe.request).map IORequest.id := by
    rw [List.map_map]
    exact List.map_congr_left hi.labels
  refine ⟨fun _ _ => atomicSubmit_iff, hi.unexpected, ?_, ?_, hacc, ?_⟩
  · rw [hdata]
    exact hi.tracks.nodup
  · intro id
    have hmem : id ∈ c.server.engine.inFlight ↔
        id ∈ ((c.server.pending ++ c.server.held).map Sqe.request).map IORequest.id :=
      hi.tracks.mem_iff
    rw [← hdata] at hmem
    exact hmem.trans List.mem_map
  · intro kernel lo hi' out res h
    obtain ⟨-, -, -, -, done, hheld, hout, -, -⟩ := pollCompletions_inv hi h
    refine ⟨done, ?_, hout⟩
    intro p hp
    refine ⟨hheld p hp, hacc.mem_before ?_⟩
    exact List.mem_map_of_mem (List.mem_append_right _ (hheld p hp))

/-- **Submission failures are atomic in every run in which `io_uring_submit` never
    returns a negative errno**, and the rest of the run is as it should be. -/
theorem uring_clean {config : JobConfig} {first second : OpenOutcome} {initRet : Int32}
    {engine : IoUringEngine}
    (hopen : ({} : IoUringEngine).openEngine config first second initRet = .ok engine)
    (sqEntries : Nat) {as : List (ClientAct UringKernel IORequest IOCompletion)}
    {c : ClientState IoUring IORequest IOCompletion}
    (hrun : Transition.run (clientStep ioUringEngine)
      ⟨{ engine := engine, sqEntries := sqEntries }, [], []⟩ as = some c)
    (hok : Transition.Meets (clientStep ioUringEngine) (fun c a => SubmitOk c.server a)
      ⟨{ engine := engine, sqEntries := sqEntries }, [], []⟩ as) :
    RingClean c := by
  have hacc := ioUringExact.run_accounted hrun hok
    ⟨(openEngine_inv hopen sqEntries).1, Answered.refl (List.Perm.refl [])⟩
  exact ringClean_of_inv hacc.1 hacc.2

/-- A job of depth two. -/
def ringJob : JobConfig :=
  { name := "ring", engine := "io_uring", blockSize := 512, fileSize := 4096
    iodepth := 2, filename := "data", alignment := 512 }

/-- Its engine after `Open`. -/
def ringEngine : IoUringEngine :=
  { fd := 3, directEffective := true, ringInitialized := true, iodepth := 2
    cqeBatch := 2 }

/-- A request accepted, a duplicate refused, and the completion polled. -/
def ringCalls : List (ClientAct UringKernel IORequest IOCompletion) :=
  [.submit {} { id := 7, length := 512 }, .submit {} { id := 7 },
    .poll { waits := [-4, -11, 0], choices := [(0, 512)] } 1 2 []]

/-- The theorem on that run. -/
theorem uring_clean_ringCalls :
    ∃ c, Transition.run (clientStep ioUringEngine)
        ⟨{ engine := ringEngine, sqEntries := 2 }, [], []⟩ ringCalls = some c ∧
      (c.accepted.map IORequest.id, c.delivered.map IOCompletion.id) = ([7], [7]) ∧
      RingClean c := by
  have hids : (Transition.run (clientStep ioUringEngine)
      ⟨{ engine := ringEngine, sqEntries := 2 }, [], []⟩ ringCalls).map (fun c =>
        (c.accepted.map IORequest.id, c.delivered.map IOCompletion.id))
      = some ([7], [7]) := rfl
  obtain ⟨c, hrun, hc⟩ := Option.map_eq_some_iff.mp hids
  refine ⟨c, hrun, hc, @uring_clean ringJob ⟨3, 0⟩ ⟨-1, 0⟩ 0 ringEngine rfl 2 ringCalls c
    hrun ⟨fun _ => by decide, fun u _ => ⟨fun _ => by decide, fun v _ => ⟨trivial,
      fun w _ => trivial⟩⟩⟩⟩

/-- The request that `io_uring_submit` rejects, and the one that reuses its id. -/
def rejectedRequest : IORequest := { id := 0, offset := 0, buffer := 4096, length := 512 }

def reusedRequest : IORequest := { id := 0, offset := 512, buffer := 8192, length := 512 }

/-- `io_uring_submit` fails with `EAGAIN` for one request; the next `SubmitIO`
    flushes two entries with the same id, and both complete. -/
def reuseCalls : List (ClientAct UringKernel IORequest IOCompletion) :=
  [.submit { submitRet := -11 } rejectedRequest, .submit { submitRet := 2 } reusedRequest,
    .poll { choices := [(0, 512)] } 1 1 []]

/-- The rejected request stays queued and is executed; its completion is delivered
    as the one of the request that reuses the id, whose own entry is still in the
    ring and is unexpected when it completes. -/
theorem rejected_request_executed :
    ({} : IoUringEngine).openEngine ringJob ⟨3, 0⟩ ⟨-1, 0⟩ 0 = .ok ringEngine ∧
      ¬ AtomicSubmit (-11) rejectedRequest { engine := ringEngine, sqEntries := 2 } ∧
      (Transition.run (clientStep ioUringEngine)
        ⟨{ engine := ringEngine, sqEntries := 2 }, [], []⟩ reuseCalls).map (fun c =>
          (c.accepted, c.delivered.map IOCompletion.success,
            c.server.held.map Sqe.request))
        = some ([reusedRequest], [true], [reusedRequest]) ∧
      (Transition.run (clientStep ioUringEngine)
        ⟨{ engine := ringEngine, sqEntries := 2 }, [], []⟩
        (reuseCalls ++ [.poll { choices := [(0, 512)] } 1 1 []])).map (fun c =>
          c.server.unexpected) = some [0] := by
  refine ⟨rfl, ?_, rfl, rfl⟩
  intro hatomic
  obtain ⟨-, hpending, -⟩ := hatomic _ _ rfl
  exact nomatch hpending

end CfioIoUring
