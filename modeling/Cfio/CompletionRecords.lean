import Cfio.EngineReports

/-! # Completion records

    What an `IOCompletion` promises about itself: no error code exactly when it
    succeeded, an errno otherwise, and a success only for the whole request.  The
    record is computed from one answer of the kernel, and a call of an engine appends
    one record for each answer it gets (`Appends`).

    A record of `LibaioEngine` that reports a whole transfer takes the second result
    of the event for its error code as it is; there the promise holds just when the
    low half of that result is an errno. -/

namespace CfioRecords

open CfioTypes CfioEngine CfioReports RequestServer Words

/-! ## Records -/

/-- The errno values of the kernel. -/
def IsErrno (code : Int32) : Prop := 1 ≤ code.toInt ∧ code.toInt ≤ 4095

/-- What the members of a completion say about each other. -/
structure SelfConsistent (request : IORequest) (completion : IOCompletion) : Prop where
  success_iff : completion.success = true ↔ completion.errorCode = 0
  errno : completion.success = false → IsErrno completion.errorCode
  bytes_nonneg : 0 ≤ completion.bytesTransferred.toInt
  whole : completion.success = true →
    completion.bytesTransferred.toInt = (request.length.toNat : Int)

/-- One answer of the kernel to a request: what a system call returns, the errno of an
    `lseek` that fails, the result of a completion queue entry, or both results of an
    AIO event. -/
inductive KernelResult where
  | syscall (outcome : SyscallOutcome)
  | seekFailed (errno : Int32)
  | cqe (res : Int32)
  | event (result : CfioLibaio.AioResult)
  deriving DecidableEq, Repr

/-- The answers an engine can receive: a system call returns `-1` and sets an errno, or
    returns a count; the results of the asynchronous interfaces are counts or negated
    errnos.  Nothing is known about a second result. -/
def Receivable : KernelResult → Prop
  | .syscall outcome =>
      (outcome.result = -1 ∧ IsErrno outcome.errno) ∨ 0 ≤ outcome.result.toInt
  | .seekFailed errno => IsErrno errno
  | .cqe res => -4095 ≤ res.toInt
  | .event result => -4095 ≤ result.res.toInt64.toInt

/-- The record an engine makes of an answer. -/
def record (request : IORequest) : KernelResult → IOCompletion
  | .syscall outcome => CfioSyncEngines.completionOf request outcome
  | .seekFailed errno => CfioSyncEngines.seekFailure request errno
  | .cqe res => CfioIoUring.completionOf request.id (SubmitInfo.of request) res
  | .event result =>
      CfioLibaio.completionOf request.id (SubmitInfo.of request)
        { data := request.id, obj := 0, res := result.res, res2 := result.res2 }

/-- A second result that leaves the record consistent: there is none, or the first one
    was an error or a short transfer already, or its low half is an errno. -/
def SecondResultFits (request : IORequest) : KernelResult → Prop
  | .event result =>
      result.res2 = 0 ∨ result.res.toInt64.toInt ≠ (request.length.toNat : Int)
        ∨ (1 ≤ result.res2.toNat % 2 ^ 32 ∧ result.res2.toNat % 2 ^ 32 ≤ 4095)
  | _ => True

section Records

variable {request : IORequest} {completion : IOCompletion}

theorem IsErrno.ne_zero {code : Int32} (h : IsErrno code) : code ≠ 0 := by
  rintro rfl
  exact absurd h.1 (by decide)

theorem isErrno_EIO : IsErrno EIO := ⟨by decide, by decide⟩

/-- A failure with an errno. -/
theorem selfConsistent_failed (hfailed : completion.success = false)
    (herrno : IsErrno completion.errorCode)
    (hbytes : 0 ≤ completion.bytesTransferred.toInt) : SelfConsistent request completion := by
  have hnot : ¬ completion.success = true := by
    rw [hfailed]
    decide
  exact ⟨⟨fun h => absurd h hnot, fun h => absurd h herrno.ne_zero⟩, fun _ => herrno,
    hbytes, fun h => absurd h hnot⟩

/-- A whole transfer without an error code. -/
theorem selfConsistent_whole (hdone : completion.success = true)
    (hcode : completion.errorCode = 0)
    (hbytes : completion.bytesTransferred.toInt = (request.length.toNat : Int)) :
    SelfConsistent request completion := by
  refine ⟨⟨fun _ => hcode, fun _ => hdone⟩, ?_, ?_, fun _ => hbytes⟩
  · intro hfailed
    rw [hdone] at hfailed
    exact nomatch hfailed
  · omega

/-- A failure is consistent just when its error code is an errno. -/
theorem selfConsistent_failed_iff (hfailed : completion.success = false)
    (hbytes : 0 ≤ completion.bytesTransferred.toInt) :
    SelfConsistent request completion ↔ IsErrno completion.errorCode :=
  ⟨fun h => h.errno hfailed, fun h => selfConsistent_failed hfailed h hbytes⟩

/-! ## The synchronous engines -/

/-- What a system call returns is recorded consistently. -/
theorem syscall_selfConsistent {outcome : SyscallOutcome}
    (h : Receivable (.syscall outcome)) :
    SelfConsistent request (record request (.syscall outcome)) := by
  show SelfConsistent request (CfioSyncEngines.completionOf request outcome)
  have hbytes := (CfioSyncEngines.completionOf_echoes request outcome).bytes
  simp only [CfioSyncEngines.completionOf] at hbytes ⊢
  by_cases hfailed : outcome.result = -1
  · rw [if_pos hfailed] at hbytes ⊢
    rcases h with ⟨-, herrno⟩ | hcount
    · exact selfConsistent_failed rfl herrno hbytes
    · rw [hfailed] at hcount
      exact absurd hcount (by decide)
  rw [if_neg hfailed] at hbytes ⊢
  have hcount : 0 ≤ outcome.result.toInt := h.resolve_left (fun h => hfailed h.1)
  by_cases hshort : outcome.result ≠ request.length.toInt64
  · rw [if_pos hshort] at hbytes ⊢
    exact selfConsistent_failed rfl isErrno_EIO hbytes
  · rw [if_neg hshort]
    refine selfConsistent_whole rfl rfl ?_
    show (if 0 ≤ outcome.result then outcome.result else 0).toInt = _
    have hge : 0 ≤ outcome.result := Int64.le_iff_toInt_le.mpr hcount
    have hlength := toNat_toUInt64_of_nonneg hcount
    rw [if_pos hge, ← hlength, not_not.mp hshort, UInt64.toUInt64_toInt64]

theorem seekFailed_selfConsistent {errno : Int32} (h : Receivable (.seekFailed errno)) :
    SelfConsistent request (record request (.seekFailed errno)) :=
  selfConsistent_failed rfl h (Int.le_refl 0)

/-! ## The asynchronous engines -/

/-- The negated result is the errno. -/
theorem isErrno_neg {res : Int32} (hneg : res < 0) (h : -4095 ≤ res.toInt) :
    IsErrno (-res) := by
  have hlt : res.toInt < 0 := Int32.lt_iff_toInt_lt.mp hneg
  have hval : (-res).toInt = -res.toInt := by
    rw [Int32.toInt_neg]
    exact Int.bmod_eq_of_le_mul_two (by omega) (by omega)
  rw [IsErrno, hval]
  omega

theorem isErrno_neg_toInt32 {res : Int64} (hneg : res < 0) (h : -4095 ≤ res.toInt) :
    IsErrno (-res).toInt32 := by
  have hlt : res.toInt < 0 := Int64.lt_iff_toInt_lt.mp hneg
  have hval : (-res).toInt32.toInt = -res.toInt := by
    rw [Int64.toInt_toInt32, Int64.toInt_neg, Int.bmod_bmod_of_dvd (by decide)]
    exact Int.bmod_eq_of_le_mul_two (by omega) (by omega)
  rw [IsErrno, hval]
  omega

/-- A record made of a count: success and error code both say whether it is the
    length. -/
theorem selfConsistent_count {count : Int64} (h : 0 ≤ count.toInt)
    (hbytes : completion.bytesTransferred = count)
    (hsuccess : completion.success = decide (count.toUInt64 = request.length))
    (hcode : completion.errorCode
      = if count.toUInt64 = request.length then 0 else CfioTypes.EIO) :
    SelfConsistent request completion := by
  by_cases hwhole : count.toUInt64 = request.length
  · rw [decide_eq_true hwhole] at hsuccess
    rw [if_pos hwhole] at hcode
    refine selfConsistent_whole hsuccess hcode ?_
    rw [hbytes]
    exact (toUInt64_eq_iff h).mp hwhole
  · rw [decide_eq_false hwhole] at hsuccess
    rw [if_neg hwhole] at hcode
    refine selfConsistent_failed hsuccess ?_ ?_
    · rw [hcode]
      exact isErrno_EIO
    · rwa [hbytes]

/-- What a completion queue entry says is recorded consistently. -/
theorem cqe_selfConsistent {res : Int32} (h : Receivable (.cqe res)) :
    SelfConsistent request (record request (.cqe res)) := by
  rw [record, CfioIoUring.completionOf]
  by_cases hneg : res < 0
  · rw [if_pos hneg]
    exact selfConsistent_failed rfl (isErrno_neg hneg h) (Int.le_refl 0)
  · have hcount : 0 ≤ res.toInt64.toInt := by
      rw [Int32.toInt_toInt64]
      exact Int32.le_iff_toInt_le.mp (Int32.not_lt.mp hneg)
    rw [if_neg hneg]
    exact selfConsistent_count hcount rfl rfl rfl

/-- The low half of a word, as an errno. -/
theorem isErrno_low {x : UInt64} :
    IsErrno x.toInt64.toInt32 ↔ 1 ≤ x.toNat % 2 ^ 32 ∧ x.toNat % 2 ^ 32 ≤ 4095 := by
  have hval : x.toInt64.toInt32.toInt = (x.toNat : Int).bmod (2 ^ 32) := by
    rw [Int64.toInt_toInt32]
    show x.toBitVec.toInt.bmod _ = _
    rw [BitVec.toInt_eq_toNat_bmod, Int.bmod_bmod_of_dvd (by decide)]
    rfl
  rw [IsErrno, hval, Int.bmod_def]
  omega

/-- Without a second result an event is as good as a queue entry. -/
theorem firstResult_selfConsistent (request : IORequest) {res : UInt64}
    (h : Receivable (.event ⟨res, 0⟩)) :
    SelfConsistent request (record request (.event ⟨res, 0⟩))
      ∧ ((record request (.event ⟨res, 0⟩)).success = true
          ↔ res.toInt64.toInt = (request.length.toNat : Int)) := by
  have hquiet : ¬ (UInt64.toInt64 0 ≠ 0) := by decide
  have hzero : (0 : Int64).toInt = 0 := rfl
  simp only [record, CfioLibaio.completionOf, if_neg hquiet]
  by_cases hneg : res.toInt64 < 0
  · have hlt := Int64.lt_iff_toInt_lt.mp hneg
    rw [if_pos hneg]
    refine ⟨selfConsistent_failed rfl (isErrno_neg_toInt32 hneg h) (Int.le_refl 0), ?_⟩
    refine iff_of_false Bool.false_ne_true ?_
    omega
  · have hcount : 0 ≤ res.toInt64.toInt :=
      Int64.le_iff_toInt_le.mp (Int64.not_lt.mp hneg)
    rw [if_neg hneg]
    refine ⟨selfConsistent_count hcount rfl rfl rfl, ?_⟩
    exact decide_eq_true_iff.trans (toUInt64_eq_iff hcount)

/-- What a second result changes: the record fails, and takes it for an error code if it
    has none. -/
theorem record_loud (request : IORequest) {result : CfioLibaio.AioResult}
    (hloud : result.res2 ≠ 0) :
    (record request (.event result)).success = false
      ∧ (record request (.event result)).bytesTransferred
          = (record request (.event ⟨result.res, 0⟩)).bytesTransferred
      ∧ (record request (.event result)).errorCode
          = if (record request (.event ⟨result.res, 0⟩)).errorCode = 0 then
              result.res2.toInt64.toInt32
            else (record request (.event ⟨result.res, 0⟩)).errorCode := by
  have hres2 : result.res2.toInt64 ≠ 0 := fun h => hloud (toInt64_inj h)
  have hquiet : ¬ (UInt64.toInt64 0 ≠ 0) := by decide
  simp only [record, CfioLibaio.completionOf, if_pos hres2, if_neg hquiet]
  exact ⟨trivial, trivial, trivial⟩

/-- **The line**: what `LibaioEngine` reports is consistent just when the second
    result fits. -/
theorem event_selfConsistent_iff {result : CfioLibaio.AioResult}
    (h : Receivable (.event result)) :
    SelfConsistent request (record request (.event result))
      ↔ SecondResultFits request (.event result) := by
  obtain ⟨hfirst, hsuccess⟩ := firstResult_selfConsistent request h
  by_cases hquiet : result.res2 = 0
  · have heq : result = ⟨result.res, 0⟩ := by rw [← hquiet]
    refine iff_of_true ?_ (Or.inl hquiet)
    rw [heq]
    exact hfirst
  obtain ⟨hfailed, hbytes, hcode⟩ := record_loud request hquiet
  rw [selfConsistent_failed_iff hfailed (by rw [hbytes]; exact hfirst.bytes_nonneg), hcode,
    SecondResultFits, or_iff_right hquiet, ← isErrno_low]
  by_cases hwhole : result.res.toInt64.toInt = (request.length.toNat : Int)
  · -- a whole transfer leaves the error code to the second result
    have hnone := hfirst.success_iff.mp (hsuccess.mpr hwhole)
    rw [if_pos hnone, or_iff_right (not_not.mpr hwhole)]
  · have hshort : (record request (.event ⟨result.res, 0⟩)).success = false :=
      Bool.eq_false_iff.mpr (fun hs => hwhole (hsuccess.mp hs))
    have herrno := hfirst.errno hshort
    rw [if_neg herrno.ne_zero]
    exact iff_of_true herrno (Or.inl hwhole)

/-- A record is consistent just when its second result, if it has one, fits. -/
theorem record_selfConsistent_iff {answer : KernelResult} (h : Receivable answer) :
    SelfConsistent request (record request answer) ↔ SecondResultFits request answer := by
  cases answer with
  | syscall outcome => exact iff_of_true (syscall_selfConsistent h) trivial
  | seekFailed errno => exact iff_of_true (seekFailed_selfConsistent h) trivial
  | cqe res => exact iff_of_true (cqe_selfConsistent h) trivial
  | event result => exact event_selfConsistent_iff h

end Records

/-! ## What a call appends -/

/-- After a submit that does not throw, the next poll of `PsyncEngine` appends the record
    of one of the system call's outcomes. -/
def PsyncAppends : Prop :=
  ∀ outcomes request engine engine',
    CfioSyncEngines.psyncSubmitIo outcomes request engine = some ⟨none, engine'⟩ →
    ∃ outcome ∈ outcomes, ∀ maxEvents out, 1 ≤ maxEvents →
      (CfioSyncEngines.BlockingEngine.pollCompletions maxEvents out engine').out
        = out ++ [record request (.syscall outcome)]

/-- The same of `SyncEngine`, whose `lseek` may fail. -/
def SyncAppends : Prop :=
  ∀ kernel request engine engine',
    CfioSyncEngines.syncSubmitIo kernel request engine = some ⟨none, engine'⟩ →
    ∃ answer, ((kernel.seek.result = -1 ∧ answer = .seekFailed kernel.seek.errno)
        ∨ ∃ outcome ∈ kernel.outcomes, answer = .syscall outcome)
      ∧ ∀ maxEvents out, 1 ≤ maxEvents →
        (CfioSyncEngines.BlockingEngine.pollCompletions maxEvents out engine').out
          = out ++ [record request answer]

/-- A poll of `LibaioEngine` in any state appends the record of an event of the kernel for
    each of some requests in flight. -/
def LibaioAppends : Prop :=
  ∀ admits replies minEvents maxEvents out s res,
    CfioLibaio.pollCompletions admits replies minEvents maxEvents out s = some res →
    ∃ done : List (IORequest × CfioLibaio.AioResult),
      res.out = out ++ done.map (fun p => record p.1 (.event p.2))
      ∧ ∀ p ∈ done, s.engine.inFlight.lookup p.1.id = some (SubmitInfo.of p.1)
        ∧ ∃ choices, CfioLibaio.GetEvents.events choices ∈ replies
          ∧ p.2 ∈ choices.map Prod.snd

/-- A poll of `IoUringEngine` in any state appends the record of a queue entry for each of
    some requests in flight. -/
def UringAppends : Prop :=
  ∀ kernel minEvents maxEvents out s res,
    CfioIoUring.pollCompletions kernel minEvents maxEvents out s = some res →
    ∃ done : List (IORequest × Int32),
      res.out = out ++ done.map (fun p => record p.1 (.cqe p.2))
      ∧ ∀ p ∈ done, s.engine.inFlight.lookup p.1.id = some (SubmitInfo.of p.1)
        ∧ p.2 ∈ kernel.choices.map Prod.snd

section Appends

variable {request : IORequest}

/-- What a retry loop ends with is one of the outcomes. -/
theorem mem_of_retryOnEintr {outcomes : List SyscallOutcome} {outcome : SyscallOutcome}
    (h : retryOnEintr outcomes = some outcome) : outcome ∈ outcomes := by
  induction outcomes with
  | nil => exact nomatch h
  | cons o outcomes ih =>
      rw [retryOnEintr] at h
      by_cases hintr : o.interrupted = true
      · rw [if_pos hintr] at h
        exact List.mem_cons_of_mem _ (ih h)
      · rw [if_neg hintr] at h
        rw [← Option.some.inj h]
        exact List.mem_cons_self ..

/-- A request recorded in the map. -/
def recorded (id : UInt64) (info : SubmitInfo) : IORequest :=
  { id := id, length := info.length, direction := info.direction
    submitTime := info.submitTime }

/-- Erasing a key finds nothing new. -/
theorem lookup_of_lookup_erase {inFlight : InFlight} {key id : UInt64} {info : SubmitInfo}
    (h : (inFlight.erase key).lookup id = some info) : inFlight.lookup id = some info := by
  by_cases hid : id = key
  · rw [hid, AList.lookup_erase] at h
    exact nomatch h
  · rwa [AList.lookup_erase_ne hid] at h

/-- A completion that a submit stored is appended by the next poll. -/
theorem stored_appends {completion : IOCompletion}
    {engine engine' : CfioSyncEngines.BlockingEngine}
    (h : engine.store request completion = engine') {maxEvents : Int}
    (hmax : 1 ≤ maxEvents) (out : List IOCompletion) :
    (engine'.pollCompletions maxEvents out).out = out ++ [completion] := by
  rw [← h, poll_stored hmax]

/-- What the psync engine polls are its records. -/
theorem psync_appends : PsyncAppends := by
  intro outcomes request engine engine' h
  rw [CfioSyncEngines.psyncSubmitIo] at h
  cases hcheck : engine.checkSubmit "PsyncEngine" with
  | some e =>
      rw [hcheck] at h
      have hthrown := congrArg SubmitResult.thrown (Option.some.inj h)
      cases hthrown
  | none =>
      rw [hcheck] at h
      obtain ⟨outcome, houtcome, heq⟩ := Option.map_eq_some_iff.mp h
      have hstate := congrArg SubmitResult.state heq
      exact ⟨outcome, mem_of_retryOnEintr houtcome,
        fun _ out hmax => stored_appends hstate hmax out⟩

/-- What the sync engine polls are its records. -/
theorem sync_appends : SyncAppends := by
  intro kernel request engine engine' h
  rw [CfioSyncEngines.syncSubmitIo] at h
  cases hcheck : engine.checkSubmit "SyncEngine" with
  | some e =>
      rw [hcheck] at h
      have hthrown := congrArg SubmitResult.thrown (Option.some.inj h)
      cases hthrown
  | none =>
      rw [hcheck] at h
      dsimp only at h
      by_cases hseek : kernel.seek.result = -1
      · rw [if_pos hseek] at h
        have hstate := congrArg SubmitResult.state (Option.some.inj h)
        exact ⟨.seekFailed kernel.seek.errno, Or.inl ⟨hseek, rfl⟩,
          fun _ out hmax => stored_appends hstate hmax out⟩
      · rw [if_neg hseek] at h
        obtain ⟨outcome, houtcome, heq⟩ := Option.map_eq_some_iff.mp h
        have hstate := congrArg SubmitResult.state heq
        exact ⟨.syscall outcome, Or.inr ⟨outcome, mem_of_retryOnEintr houtcome, rfl⟩,
          fun _ out hmax => stored_appends hstate hmax out⟩

/-- The loop over the events appends a record for each that is expected. -/
theorem libaio_reap_appends (events : List CfioLibaio.IoEvent) (s : CfioLibaio.Libaio)
    (out : List IOCompletion) :
    ∃ done : List (IORequest × CfioLibaio.AioResult),
      (CfioLibaio.reap events s out).2 = out ++ done.map (fun p => record p.1 (.event p.2))
      ∧ ∀ p ∈ done, s.engine.inFlight.lookup p.1.id = some (SubmitInfo.of p.1)
        ∧ ∃ event ∈ events, p.2 = ⟨event.res, event.res2⟩ := by
  induction events generalizing s out with
  | nil => exact ⟨[], (List.append_nil out).symm, by simp⟩
  | cons event events ih =>
      rw [CfioLibaio.reap]
      cases hlookup : s.engine.inFlight.lookup event.data with
      | none =>
          obtain ⟨done, hout, hdone⟩ := ih
            { s with
              engine := { s.engine with freeIocbs := event.obj :: s.engine.freeIocbs }
              unexpected := event.data :: s.unexpected } out
          refine ⟨done, hout, ?_⟩
          intro p hp
          obtain ⟨hinfo, event', hmem, heq⟩ := hdone p hp
          exact ⟨hinfo, event', List.mem_cons_of_mem _ hmem, heq⟩
      | some info =>
          obtain ⟨done, hout, hdone⟩ := ih
            { s with
              engine := { s.engine with
                freeIocbs := event.obj :: s.engine.freeIocbs
                inFlight := s.engine.inFlight.erase event.data } }
            (out ++ [CfioLibaio.completionOf event.data info event])
          refine ⟨(recorded event.data info, ⟨event.res, event.res2⟩) :: done, ?_, ?_⟩
          · refine hout.trans ?_
            rw [List.append_assoc]
            rfl
          · intro p hp
            rcases List.mem_cons.mp hp with rfl | hp
            · exact ⟨hlookup, event, List.mem_cons_self .., rfl⟩
            · obtain ⟨hinfo, event', hmem, heq⟩ := hdone p hp
              exact ⟨lookup_of_lookup_erase hinfo, event', List.mem_cons_of_mem _ hmem, heq⟩

/-- What the libaio engine polls are its records. -/
theorem libaio_appends : LibaioAppends := by
  intro admits replies minEvents maxEvents out s res h
  rcases CfioLibaio.pollCompletions_cases h with ⟨rfl, -⟩ | ⟨e, rfl⟩ | hbatch
  · exact ⟨[], (List.append_nil out).symm, by simp⟩
  · exact ⟨[], (List.append_nil out).symm, by simp⟩
  · obtain ⟨batch, held', -, -, -, ⟨choices, hmem, hresults⟩, rfl⟩ := hbatch
    obtain ⟨done, hout, hdone⟩ := libaio_reap_appends (batch.map CfioLibaio.eventOf)
      { s with held := held' } out
    refine ⟨done, hout, ?_⟩
    intro p hp
    obtain ⟨hinfo, event, hevent, heq⟩ := hdone p hp
    obtain ⟨q, hq, rfl⟩ := List.mem_map.mp hevent
    refine ⟨hinfo, choices, hmem, ?_⟩
    rw [← hresults, heq]
    exact List.mem_map_of_mem hq

/-- The loop over the queue entries. -/
theorem uring_reap_appends (cqes : List (CfioIoUring.Sqe × Int32)) (s : CfioIoUring.IoUring)
    (out : List IOCompletion) :
    ∃ done : List (IORequest × Int32),
      (CfioIoUring.reap cqes s out).2 = out ++ done.map (fun p => record p.1 (.cqe p.2))
      ∧ ∀ p ∈ done, s.engine.inFlight.lookup p.1.id = some (SubmitInfo.of p.1)
        ∧ p.2 ∈ cqes.map Prod.snd := by
  induction cqes generalizing s out with
  | nil => exact ⟨[], (List.append_nil out).symm, by simp⟩
  | cons cqe cqes ih =>
      obtain ⟨sqe, res⟩ := cqe
      rw [CfioIoUring.reap]
      cases hlookup : s.engine.inFlight.lookup sqe.userData with
      | none =>
          obtain ⟨done, hout, hdone⟩ := ih
            { s with unexpected := sqe.userData :: s.unexpected } out
          refine ⟨done, hout, ?_⟩
          intro p hp
          obtain ⟨hinfo, hmem⟩ := hdone p hp
          exact ⟨hinfo, List.mem_cons_of_mem _ hmem⟩
      | some info =>
          obtain ⟨done, hout, hdone⟩ := ih
            { s with
              engine := { s.engine with
                inFlight := s.engine.inFlight.erase sqe.userData } }
            (out ++ [CfioIoUring.completionOf sqe.userData info res])
          refine ⟨(recorded sqe.userData info, res) :: done, ?_, ?_⟩
          · refine hout.trans ?_
            rw [List.append_assoc]
            rfl
          · intro p hp
            rcases List.mem_cons.mp hp with rfl | hp
            · exact ⟨hlookup, List.mem_cons_self ..⟩
            · obtain ⟨hinfo, hmem⟩ := hdone p hp
              exact ⟨lookup_of_lookup_erase hinfo, List.mem_cons_of_mem _ hmem⟩

/-- What the io_uring engine polls are its records. -/
theorem uring_appends : UringAppends := by
  intro kernel minEvents maxEvents out s res h
  rcases CfioIoUring.pollCompletions_cases h with ⟨rfl, -⟩ | ⟨e, rfl⟩ | hbatch
  · exact ⟨[], (List.append_nil out).symm, by simp⟩
  · exact ⟨[], (List.append_nil out).symm, by simp⟩
  · obtain ⟨batch, held', -, -, -, -, hresults, rfl⟩ := hbatch
    obtain ⟨done, hout, hdone⟩ := uring_reap_appends batch { s with held := held' } out
    refine ⟨done, hout, ?_⟩
    intro p hp
    obtain ⟨hinfo, hmem⟩ := hdone p hp
    refine ⟨hinfo, ?_⟩
    rwa [← hresults]

end Appends

/-- **Which records are self-consistent**: every call of an engine appends records of the
    kernel's answers to its requests, and a record of an answer that an engine can
    receive is self-consistent exactly when its second result, if it has one, fits. -/
theorem records_selfConsistent_iff {request : IORequest} {answer : KernelResult}
    (h : Receivable answer) :
    (SelfConsistent request (record request answer) ↔ SecondResultFits request answer)
      ∧ PsyncAppends ∧ SyncAppends ∧ LibaioAppends ∧ UringAppends :=
  ⟨record_selfConsistent_iff h, psync_appends, sync_appends, libaio_appends, uring_appends⟩

/-- A request for one sector. -/
def sectorRequest : IORequest := { id := 7, length := 512 }

/-- A short transfer with a second result is reported as `EIO`. -/
theorem records_selfConsistent_iff_short :
    SelfConsistent sectorRequest (record sectorRequest (.event ⟨100, 7⟩)) := by
  have hreceivable : Receivable (.event ⟨100, 7⟩) := by
    show (-4095 : Int) ≤ (100 : UInt64).toInt64.toInt
    decide
  have hshort : (100 : UInt64).toInt64.toInt ≠ (sectorRequest.length.toNat : Int) := by decide
  exact (@records_selfConsistent_iff sectorRequest (.event ⟨100, 7⟩) hreceivable).1.mpr
    (Or.inr (Or.inl hshort))

/-- The sector is submitted, and completes whole with `-5` for a second result. -/
def negatedSecondResult :
    List (ClientAct CfioLibaio.AioKernel IORequest IOCompletion) :=
  [.submit {} sectorRequest,
    .poll { getevents := [.events [(0, ⟨512, (-5 : Int64).toUInt64⟩)]] } 1 1 []]

/-- The completion delivered is a failure with the error code `-5`, which is no errno. -/
theorem negated_second_result :
    Receivable (.event ⟨512, (-5 : Int64).toUInt64⟩)
      ∧ ¬ SelfConsistent sectorRequest
          (record sectorRequest (.event ⟨512, (-5 : Int64).toUInt64⟩))
      ∧ (Transition.run (clientStep (CfioLibaio.libaioEngine (fun m n => m ≤ (n : Int))))
          ⟨{ engine := CfioLibaio.depthTwoEngine }, [], []⟩ negatedSecondResult).map
            (fun c => c.delivered)
          = some [record sectorRequest (.event ⟨512, (-5 : Int64).toUInt64⟩)]
      ∧ (record sectorRequest (.event ⟨512, (-5 : Int64).toUInt64⟩)).errorCode = -5 := by
  refine ⟨?_, ?_, rfl, rfl⟩
  · show (-4095 : Int) ≤ (512 : UInt64).toInt64.toInt
    decide
  intro hconsistent
  have herrno := hconsistent.errno rfl
  exact absurd herrno.1 (by decide)

end CfioRecords
