import Cfio.SyncEngines
import Cfio.LibaioEngine
import Cfio.IoUringEngine

/-! # Four engines, one report

    Each engine turns the kernel's answer to a request into a completion with its
    own casts: `pread` and `read` return `-1` with an `errno`, an AIO event and a
    completion queue entry carry the negated errno, in 64 and in 32 bits.
    `report` is what all of them mean, and `engines_report` says that they do.

    The exception is `EINTR`: the synchronous engines repeat an interrupted call,
    so they report the first answer that is not an interruption. -/

namespace CfioReports

open CfioTypes CfioEngine RequestServer Words

/-- The kernel's answers: a negative errno or a byte count. -/
def KernelAnswer (answer : Int) : Prop :=
  (-4095 ≤ answer ∧ answer ≤ -1) ∨ (0 ≤ answer ∧ answer < 2 ^ 31)

/-- The lengths every engine accepts. -/
def LengthOk (request : IORequest) : Prop :=
  1 ≤ request.length.toNat ∧ request.length.toNat < 2 ^ 32

instance (answer : Int) : Decidable (KernelAnswer answer) :=
  inferInstanceAs (Decidable (_ ∨ _))

instance (request : IORequest) : Decidable (LengthOk request) :=
  inferInstanceAs (Decidable (_ ∧ _))

/-- An answer as a system call gives it; `stale` is what `errno` holds when the
    call succeeds. -/
def syscallOf (answer : Int) (stale : Int32) : SyscallOutcome :=
  if answer < 0 then { result := -1, errno := Int32.ofInt (-answer) }
  else { result := Int64.ofInt answer, errno := stale }

/-- An answer as the `res` member of an AIO event. -/
def aioResultOf (answer : Int) : CfioLibaio.AioResult :=
  { res := (Int64.ofInt answer).toUInt64, res2 := 0 }

/-! ## What it means to report a completion -/

/-- `PsyncEngine`, whatever its state and however often the call is interrupted
    first. -/
def PsyncReports (request : IORequest) (answer : Int) (completion : IOCompletion) :
    Prop :=
  ∀ engine interruptions stale outcomes minEvents maxEvents out,
    CfioSyncEngines.BlockingEngine.checkSubmit "PsyncEngine" engine = none →
    (∀ o ∈ interruptions, SyscallOutcome.interrupted o = true) → 1 ≤ maxEvents →
    ∃ s₁ s₂, CfioSyncEngines.psyncEngine.submit
        (interruptions ++ syscallOf answer stale :: outcomes) request engine
        = some ⟨none, s₁⟩ ∧
      CfioSyncEngines.psyncEngine.poll [] minEvents maxEvents out s₁
        = some ⟨none, out ++ [completion], s₂⟩

/-- `SyncEngine`, after an `lseek` that succeeds. -/
def SyncReports (request : IORequest) (answer : Int) (completion : IOCompletion) :
    Prop :=
  ∀ engine seek interruptions stale outcomes kernel minEvents maxEvents out,
    CfioSyncEngines.BlockingEngine.checkSubmit "SyncEngine" engine = none →
    SyscallOutcome.result seek ≠ -1 →
    (∀ o ∈ interruptions, SyscallOutcome.interrupted o = true) → 1 ≤ maxEvents →
    ∃ s₁ s₂, CfioSyncEngines.syncEngine.submit
        ⟨seek, interruptions ++ syscallOf answer stale :: outcomes⟩ request engine
        = some ⟨none, s₁⟩ ∧
      CfioSyncEngines.syncEngine.poll kernel minEvents maxEvents out s₁
        = some ⟨none, out ++ [completion], s₂⟩

/-- `LibaioEngine`, for any request the kernel holds. -/
def LibaioReports (request : IORequest) (answer : Int) (completion : IOCompletion) :
    Prop :=
  ∀ admits d s i h minEvents maxEvents out, CfioLibaio.AioInv d [] s →
    s.engine.ctx = true → s.held[i]? = some h → h.request = request →
    1 ≤ maxEvents → admits (min (max minEvents 0) (s.held.length : Int)) 1 = true →
    ∃ s', (CfioLibaio.libaioEngine admits).poll
        { getevents := [.events [(i, aioResultOf answer)]] } minEvents maxEvents out s
      = some ⟨none, out ++ [completion], s'⟩

/-- `IoUringEngine`, for any request the kernel holds. -/
def UringReports (request : IORequest) (answer : Int) (completion : IOCompletion) :
    Prop :=
  ∀ s i q minEvents maxEvents out, CfioIoUring.UringInv [] s →
    s.engine.ringInitialized = true → 1 ≤ s.engine.cqeBatch →
    s.held[i]? = some q → q.request = request → minEvents ≤ 1 → 1 ≤ maxEvents →
    ∃ s', CfioIoUring.ioUringEngine.poll
        { waits := [0], choices := [(i, Int32.ofInt answer)] } minEvents maxEvents out s
      = some ⟨none, out ++ [completion], s'⟩

/-! ## One classification each -/

section Classify

variable {request : IORequest} {answer : Int}

theorem KernelAnswer.toInt64 (ha : KernelAnswer answer) :
    (Int64.ofInt answer).toInt = answer := by
  refine Int64.toInt_ofInt_of_le ?_ ?_
  · rcases ha with h | h <;> omega
  · rcases ha with h | h <;> omega

theorem KernelAnswer.toInt32 (ha : KernelAnswer answer) :
    (Int32.ofInt answer).toInt = answer := by
  refine Int32.toInt_ofInt_of_le ?_ ?_
  · rcases ha with h | h <;> omega
  · rcases ha with h | h <;> omega

/-- A 64-bit answer equals the length as a word exactly when the numbers are
    equal. -/
theorem toUInt64_eq_length (ha : KernelAnswer answer) (h0 : 0 ≤ answer) :
    (Int64.ofInt answer).toUInt64 = request.length ↔
      answer = (request.length.toNat : Int) := by
  rw [toUInt64_eq_iff (by rw [ha.toInt64]; exact h0), ha.toInt64]

/-- The comparison with the length cast to `ssize_t`. -/
theorem ofInt_eq_length (hlen : LengthOk request) (ha : KernelAnswer answer) :
    Int64.ofInt answer = request.length.toInt64 ↔
      answer = (request.length.toNat : Int) := by
  have hword : request.length.toInt64.toInt = (request.length.toNat : Int) := by
    have hup := hlen.2
    exact toInt_toInt64 (by omega)
  rw [← Int64.toInt_inj, ha.toInt64, hword]

/-- The synchronous engines. -/
theorem sync_completionOf (hlen : LengthOk request) (ha : KernelAnswer answer)
    (stale : Int32) :
    CfioSyncEngines.completionOf request (syscallOf answer stale)
      = report request answer := by
  by_cases hneg : answer < 0
  · have hlength : answer ≠ (request.length.toNat : Int) := by omega
    simp [CfioSyncEngines.completionOf, syscallOf, report, hneg, hlength]
  · have h64 := ha.toInt64
    have hm1 : Int64.ofInt answer ≠ -1 := by
      intro heq
      have hbad := congrArg Int64.toInt heq
      rw [h64] at hbad
      have hone : (-1 : Int64).toInt = -1 := rfl
      omega
    have hge : 0 ≤ Int64.ofInt answer := by
      rw [Int64.le_iff_toInt_le, h64]
      exact Int.not_lt.mp hneg
    have hlength := ofInt_eq_length hlen ha
    simp only [CfioSyncEngines.completionOf, syscallOf, report, if_neg hneg, if_neg hm1,
      if_pos hge]
    by_cases heq : answer = (request.length.toNat : Int)
    · rw [if_neg (not_not.mpr (hlength.mpr heq)), if_pos heq, decide_eq_true heq]
    · rw [if_pos (fun h => heq (hlength.mp h)), if_neg heq, decide_eq_false heq]

/-- An AIO event. -/
theorem libaio_completionOf (ha : KernelAnswer answer) {event : CfioLibaio.IoEvent}
    (hres : event.res = (aioResultOf answer).res) (hres2 : event.res2 = 0) :
    CfioLibaio.completionOf request.id (SubmitInfo.of request) event
      = report request answer := by
  have h64 := ha.toInt64
  have hword : event.res.toInt64 = Int64.ofInt answer := by
    rw [hres]
    exact Int64.toInt64_toUInt64 _
  have hsign : Int64.ofInt answer < 0 ↔ answer < 0 := by
    rw [Int64.lt_iff_toInt_lt, h64]
    exact Iff.rfl
  have hquiet : ¬ (UInt64.toInt64 0 ≠ 0) := by decide
  simp only [CfioLibaio.completionOf, hword, hres2, if_neg hquiet]
  by_cases hneg : answer < 0
  · have hlength : answer ≠ (request.length.toNat : Int) := by omega
    rw [if_pos (hsign.mpr hneg)]
    simp [report, hneg, hlength, SubmitInfo.of]
  · rw [if_neg (fun h => hneg (hsign.mp h))]
    have hlength : (Int64.ofInt answer).toUInt64 = request.length ↔
        answer = (request.length.toNat : Int) :=
      toUInt64_eq_length ha (Int.not_lt.mp hneg)
    simp only [report, if_neg hneg, SubmitInfo.of, hlength]

/-- A completion queue entry. -/
theorem uring_completionOf (ha : KernelAnswer answer) :
    CfioIoUring.completionOf request.id (SubmitInfo.of request) (Int32.ofInt answer)
      = report request answer := by
  have h32 := ha.toInt32
  have hsign : Int32.ofInt answer < 0 ↔ answer < 0 := by
    rw [Int32.lt_iff_toInt_lt, h32]
    exact Iff.rfl
  have hwide : (Int32.ofInt answer).toInt64 = Int64.ofInt answer := by
    rw [← Int64.toInt_inj, Int32.toInt_toInt64, h32, ha.toInt64]
  simp only [CfioIoUring.completionOf, hwide]
  by_cases hneg : answer < 0
  · have hlength : answer ≠ (request.length.toNat : Int) := by omega
    rw [if_pos (hsign.mpr hneg)]
    simp [report, hneg, hlength, SubmitInfo.of]
  · rw [if_neg (fun h => hneg (hsign.mp h))]
    have hlength : (Int64.ofInt answer).toUInt64 = request.length ↔
        answer = (request.length.toNat : Int) :=
      toUInt64_eq_length ha (Int.not_lt.mp hneg)
    simp only [report, if_neg hneg, SubmitInfo.of, hlength]

/-! ## One call each -/

/-- An answer other than an interruption ends the retry loop. -/
theorem syscallOf_not_interrupted (ha : KernelAnswer answer) (hintr : answer ≠ -4)
    (stale : Int32) : (syscallOf answer stale).interrupted = false := by
  by_cases hneg : answer < 0
  · simp only [syscallOf, if_pos hneg, SyscallOutcome.interrupted]
    refine decide_eq_false ?_
    rintro ⟨-, herr⟩
    have h4 := congrArg Int32.toInt herr
    rw [Int32.toInt_ofInt_of_le (by rcases ha with h | h <;> omega)
      (by rcases ha with h | h <;> omega)] at h4
    have hfour : EINTR.toInt = 4 := rfl
    omega
  · simp only [syscallOf, if_neg hneg, SyscallOutcome.interrupted]
    refine decide_eq_false ?_
    rintro ⟨hres, -⟩
    have hbad := congrArg Int64.toInt hres
    rw [ha.toInt64] at hbad
    have hone : (-1 : Int64).toInt = -1 := rfl
    omega

/-- A completion that was stored is handed out by the next poll. -/
theorem poll_stored {engine : CfioSyncEngines.BlockingEngine} {completion : IOCompletion}
    {maxEvents : Int} (hmax : 1 ≤ maxEvents) (out : List IOCompletion) :
    ((engine.store request completion).pollCompletions maxEvents out) =
      ⟨none, out ++ [completion], { engine.store request completion with
        hasCompletion := false, pending := none }⟩ := by
  refine if_neg ?_
  rintro (hno | hlow)
  · exact nomatch hno
  · omega

theorem psync_reports (hlen : LengthOk request) (ha : KernelAnswer answer)
    (hintr : answer ≠ -4) : PsyncReports request answer (report request answer) := by
  intro engine interruptions stale outcomes minEvents maxEvents out hcheck hall hmax
  refine ⟨engine.store request (report request answer), _, ?_,
    congrArg some (poll_stored hmax out)⟩
  show CfioSyncEngines.psyncSubmitIo _ request engine = _
  simp only [CfioSyncEngines.psyncSubmitIo, hcheck]
  rw [retryOnEintr_append hall (syscallOf_not_interrupted ha hintr stale),
    Option.map_some, sync_completionOf hlen ha]

theorem sync_reports (hlen : LengthOk request) (ha : KernelAnswer answer)
    (hintr : answer ≠ -4) : SyncReports request answer (report request answer) := by
  intro engine seek interruptions stale outcomes kernel minEvents maxEvents out hcheck
    hseek hall hmax
  refine ⟨engine.store request (report request answer), _, ?_,
    congrArg some (poll_stored hmax out)⟩
  show CfioSyncEngines.syncSubmitIo _ request engine = _
  simp only [CfioSyncEngines.syncSubmitIo, hcheck, if_neg hseek]
  rw [retryOnEintr_append hall (syscallOf_not_interrupted ha hintr stale),
    Option.map_some, sync_completionOf hlen ha]

/-- Picking a single element. -/
theorem pickMany_single {α β : Type} {held : List α} {i : Nat} {a : α}
    (hi : held[i]? = some a) (b : β) :
    pickMany [(i, b)] held = some ([(a, b)], held.eraseIdx i) := by
  simp only [pickMany, pick, hi, Option.map_some, Option.bind_some]

theorem libaio_reports (ha : KernelAnswer answer) :
    LibaioReports request answer (report request answer) := by
  intro admits d s i h minEvents maxEvents out hinv hctx hi hreq hmax hadm
  have hmem : h ∈ s.held := List.mem_of_getElem? hi
  have hsize : s.engine.inFlight.keys.length = s.held.length := by
    rw [hinv.tracks.size, List.nil_append, List.length_map]
  have hpos : 0 < s.held.length := List.length_pos_of_mem hmem
  have hle : s.held.length ≤ s.engine.events := by
    have hpool := hinv.pool.length_eq
    rw [List.length_append, List.nil_append, List.length_map, List.length_range,
      ← hinv.events] at hpool
    omega
  have hlow := (max_def_lt minEvents 0).symm
  have hkeys : s.engine.inFlight.keys ≠ [] := by
    intro hnil
    rw [hnil] at hsize
    exact absurd hsize.symm (by simpa using hpos.ne')
  have hone : (1 : Int) ≤ min maxEvents (s.engine.events : Int) := by omega
  show ∃ s', CfioLibaio.pollCompletions admits
    [.events [(i, aioResultOf answer)]] minEvents maxEvents out s = _
  simp only [CfioLibaio.pollCompletions]
  rw [if_neg (by simp [hctx]; omega), if_neg (fun hno => hkeys hno.2), hlow, hsize]
  simp only [CfioLibaio.getEvents]
  rw [if_pos ⟨hone, hadm⟩, pickMany_single hi]
  -- the batch of this one event
  have htaken : CfioLibaio.AioInv d ([(h, aioResultOf answer)].map Prod.fst)
      { s with held := s.held.eraseIdx i } :=
    hinv.taken (pickMany_perm (pickMany_single hi (aioResultOf answer)))
  obtain ⟨-, -, -, hout⟩ := CfioLibaio.reap_inv htaken out
  refine ⟨(CfioLibaio.reap [CfioLibaio.eventOf (h, aioResultOf answer)]
    { s with held := s.held.eraseIdx i } out).1, ?_⟩
  have hcompletion : CfioLibaio.completionOf h.request.id (SubmitInfo.of h.request)
      (CfioLibaio.eventOf (h, aioResultOf answer)) = report request answer := by
    rw [hreq]
    exact libaio_completionOf ha rfl rfl
  rw [← hcompletion]
  exact congrArg (fun cs => some (PollResult.mk none cs _)) hout

theorem uring_reports (ha : KernelAnswer answer) :
    UringReports request answer (report request answer) := by
  intro s i q minEvents maxEvents out hinv hring hbatch hi hreq hmin hmax
  have hmem : q ∈ s.held := List.mem_of_getElem? hi
  have hpos : 0 < s.held.length := List.length_pos_of_mem hmem
  have hlow := (max_def_lt minEvents 0).symm
  have hwait : (if max minEvents 0 > 0 then CfioIoUring.waitCqe [0] else some 0)
      = some 0 := by
    split <;> rfl
  have hcan : max minEvents 0 ≤ (s.held.length : Int) ∧
      (([(i, Int32.ofInt answer)] : List (Nat × Int32)).length : Int)
        ≤ min maxEvents (s.engine.cqeBatch : Int) ∧
      min (max minEvents 0) (min maxEvents (s.engine.cqeBatch : Int))
        ≤ (([(i, Int32.ofInt answer)] : List (Nat × Int32)).length : Int) := by
    rw [List.length_singleton]
    omega
  show ∃ s', CfioIoUring.pollCompletions
    { waits := [0], choices := [(i, Int32.ofInt answer)] } minEvents maxEvents out s = _
  simp only [CfioIoUring.pollCompletions]
  rw [if_neg (by simp [hring]; omega), hlow, hwait, Option.bind_some,
    if_neg (by decide), if_pos hcan, pickMany_single hi]
  -- the batch of this one entry
  have htaken : CfioIoUring.UringInv ([(q, Int32.ofInt answer)].map Prod.fst)
      { s with held := s.held.eraseIdx i } :=
    hinv.taken (pickMany_perm (pickMany_single hi (Int32.ofInt answer)))
  obtain ⟨-, -, -, -, -, -, hout⟩ := CfioIoUring.reap_inv htaken out
  refine ⟨(CfioIoUring.reap [(q, Int32.ofInt answer)]
    { s with held := s.held.eraseIdx i } out).1, ?_⟩
  have hcompletion : CfioIoUring.completionOf q.request.id (SubmitInfo.of q.request)
      (Int32.ofInt answer) = report request answer := by
    rw [hreq]
    exact uring_completionOf ha
  rw [← hcompletion]
  exact congrArg (fun cs => some (PollResult.mk none cs _)) hout

/-- What the common completion says. -/
theorem report_spec (request : IORequest) (ha : KernelAnswer answer) :
    Echoes request (report request answer) ∧
      (answer < 0 → (report request answer).bytesTransferred = 0 ∧
        (report request answer).success = false ∧
        (report request answer).errorCode.toInt = -answer) ∧
      (0 ≤ answer → (report request answer).bytesTransferred.toInt = answer ∧
        ((report request answer).success = true ↔
          answer = (request.length.toNat : Int)) ∧
        (report request answer).errorCode
          = if (report request answer).success then 0 else CfioTypes.EIO) := by
  have hbytes : answer < 0 ∨ 0 ≤ answer := by omega
  refine ⟨⟨rfl, rfl, rfl, ?_⟩, ?_, ?_⟩
  · simp only [report]
    rcases hbytes with hneg | hge
    · rw [if_pos hneg]
      exact Int.le_refl 0
    · rw [if_neg (Int.not_lt.mpr hge), ha.toInt64]
      exact hge
  · intro hneg
    have hlength : answer ≠ (request.length.toNat : Int) := by omega
    simp only [report, if_pos hneg]
    refine ⟨trivial, decide_eq_false hlength, ?_⟩
    refine Int32.toInt_ofInt_of_le ?_ ?_
    · rcases ha with h | h <;> omega
    · rcases ha with h | h <;> omega
  · intro hge
    simp only [report, if_neg (Int.not_lt.mpr hge)]
    refine ⟨ha.toInt64, decide_eq_true_iff, ?_⟩
    by_cases heq : answer = (request.length.toNat : Int)
    · simp [heq]
    · simp [heq]

end Classify

/-- **The four engines report alike**: the asynchronous ones for every answer, the
    synchronous ones for every answer but an interruption, after which they take
    the next. -/
theorem engines_report {request : IORequest} {answer : Int}
    (hlen : LengthOk request) (ha : KernelAnswer answer) :
    LibaioReports request answer (report request answer) ∧
      UringReports request answer (report request answer) ∧
      (answer ≠ -4 → PsyncReports request answer (report request answer) ∧
        SyncReports request answer (report request answer)) ∧
      Echoes request (report request answer) ∧
      (answer < 0 → (report request answer).bytesTransferred = 0 ∧
        (report request answer).success = false ∧
        (report request answer).errorCode.toInt = -answer) ∧
      (0 ≤ answer → (report request answer).bytesTransferred.toInt = answer ∧
        ((report request answer).success = true ↔
          answer = (request.length.toNat : Int)) ∧
        (report request answer).errorCode
          = if (report request answer).success then 0 else CfioTypes.EIO) :=
  ⟨libaio_reports ha, uring_reports ha,
    fun hintr => ⟨psync_reports hlen ha hintr, sync_reports hlen ha hintr⟩,
    report_spec request ha⟩

/-- A page to read. -/
def pageRequest : IORequest := { id := 3, length := 4096, submitTime := 17 }

/-- The theorem at a short transfer. -/
theorem engines_report_short :
    LibaioReports pageRequest 512 (report pageRequest 512) ∧
      PsyncReports pageRequest 512 (report pageRequest 512) ∧
      (report pageRequest 512).success = false ∧
      (report pageRequest 512).errorCode = 5 := by
  obtain ⟨haio, -, hsync, -⟩ := @engines_report pageRequest 512 (by decide) (by decide)
  exact ⟨haio, (hsync (by decide)).1, rfl, rfl⟩

/-- `PsyncEngine` does not report an interruption: the call is made again, and its
    success is what is reported. -/
theorem psync_hides_interruption :
    LengthOk pageRequest ∧ KernelAnswer (-4) ∧
      (CfioSyncEngines.psyncEngine.submit [syscallOf (-4) 0, syscallOf 4096 0]
        pageRequest { fd := 3 }).map (fun res => res.state.lastCompletion)
        = some (report pageRequest 4096) ∧
      ¬ PsyncReports pageRequest (-4) (report pageRequest (-4)) := by
  refine ⟨by decide, by decide, rfl, ?_⟩
  intro hreports
  obtain ⟨s₁, s₂, hsubmit, hpoll⟩ :=
    hreports { fd := 3 } [] 0 [syscallOf 4096 0] 1 1 [] rfl (fun o ho => nomatch ho)
      (Int.le_refl 1)
  have hstate : (CfioSyncEngines.psyncEngine.submit
      ([] ++ syscallOf (-4) 0 :: [syscallOf 4096 0]) pageRequest { fd := 3 })
      = some ⟨none, CfioSyncEngines.BlockingEngine.store pageRequest
          (report pageRequest 4096) { fd := 3 }⟩ := rfl
  rw [hstate] at hsubmit
  have hs : CfioSyncEngines.BlockingEngine.store pageRequest (report pageRequest 4096)
      { fd := 3 } = s₁ := congrArg SubmitResult.state (Option.some.inj hsubmit)
  rw [← hs] at hpoll
  have hout : [report pageRequest 4096] = [report pageRequest (-4)] :=
    congrArg PollResult.out (Option.some.inj hpoll)
  exact absurd hout (by decide)

end CfioReports
