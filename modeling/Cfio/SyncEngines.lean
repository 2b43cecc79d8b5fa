import Cfio.EngineUtils
import Cfio.RequestServer

/-! # The synchronous engines

    `PsyncEngine` and `SyncEngine` have the same members and the same
    `PollCompletions`: `SubmitIO` executes the system call and stores the
    completion, `PollCompletions` hands it out.  They differ in the system calls
    and in the class name their messages carry.

    What the kernel does is the list of outcomes of the successive calls.
    `pending` is the request behind the stored completion; no function reads
    it. -/

namespace CfioSyncEngines

open CfioTypes CfioConfig CfioEngine Checks RequestServer

/-- The members of `PsyncEngine`, which are those of `SyncEngine`. -/
structure BlockingEngine where
  fd : Int32 := -1
  directEffective : Bool := false
  hasCompletion : Bool := false
  lastCompletion : IOCompletion := {}
  pending : Option IORequest := none
  deriving DecidableEq, Repr

/-- `Open`, with the outcomes of the `open` calls it may make. -/
def BlockingEngine.openEngine (className : String) (config : JobConfig)
    (first second : OpenOutcome) (engine : BlockingEngine) :
    Except Exn BlockingEngine :=
  if 0 ≤ engine.fd then
    .error (.runtimeError (className ++ "::Open -- engine is already open"))
  else do
    let result ← openFileWithDirectFallback config.filename config.direct first second
    return { engine with fd := result.fd, directEffective := result.directEffective }

/-- The checks at the head of `SubmitIO`. -/
def BlockingEngine.checkSubmit (className : String) (engine : BlockingEngine) :
    Option Exn :=
  if engine.fd < 0 then
    some (.runtimeError (className ++ "::SubmitIO -- engine is not open"))
  else if engine.hasCompletion then
    some (.logicError (className
      ++ "::SubmitIO -- previous completion not yet polled"))
  else none

/-- The completion of a system call that was made. -/
def completionOf (request : IORequest) (outcome : SyscallOutcome) : IOCompletion :=
  let completion : IOCompletion :=
    { id := request.id
      bytesTransferred := if 0 ≤ outcome.result then outcome.result else 0
      direction := request.direction
      submitTime := request.submitTime }
  if outcome.result = -1 then
    { completion with success := false, errorCode := outcome.errno }
  else if outcome.result ≠ request.length.toInt64 then
    { completion with success := false, errorCode := EIO }
  else { completion with success := true, errorCode := 0 }

/-- The completion of a request whose `lseek` failed. -/
def seekFailure (request : IORequest) (errno : Int32) : IOCompletion :=
  { id := request.id, bytesTransferred := 0, direction := request.direction
    submitTime := request.submitTime, success := false, errorCode := errno }

/-- Store a completion. -/
def BlockingEngine.store (request : IORequest) (completion : IOCompletion)
    (engine : BlockingEngine) : BlockingEngine :=
  { engine with
    hasCompletion := true, lastCompletion := completion, pending := some request }

/-- `PsyncEngine::SubmitIO`: `pread` or `pwrite`, with their outcomes. -/
def psyncSubmitIo (outcomes : List SyscallOutcome) (request : IORequest)
    (engine : BlockingEngine) : Option (SubmitResult Exn BlockingEngine) :=
  match engine.checkSubmit "PsyncEngine" with
  | some e => some ⟨some e, engine⟩
  | none =>
      (retryOnEintr outcomes).map (fun outcome =>
        ⟨none, engine.store request (completionOf request outcome)⟩)

/-- The outcomes of `lseek` and of the `read` or `write` calls after it. -/
structure SeekOutcomes where
  seek : SyscallOutcome
  outcomes : List SyscallOutcome
  deriving DecidableEq, Repr

/-- `SyncEngine::SubmitIO`: `lseek`, then `read` or `write`. -/
def syncSubmitIo (kernel : SeekOutcomes) (request : IORequest)
    (engine : BlockingEngine) : Option (SubmitResult Exn BlockingEngine) :=
  match engine.checkSubmit "SyncEngine" with
  | some e => some ⟨some e, engine⟩
  | none =>
      if kernel.seek.result = -1 then
        some ⟨none, engine.store request (seekFailure request kernel.seek.errno)⟩
      else
        (retryOnEintr kernel.outcomes).map (fun outcome =>
          ⟨none, engine.store request (completionOf request outcome)⟩)

/-- `PollCompletions` of both engines. -/
def BlockingEngine.pollCompletions (maxEvents : Int) (out : List IOCompletion)
    (engine : BlockingEngine) : PollResult Exn IOCompletion BlockingEngine :=
  if engine.hasCompletion = false ∨ maxEvents < 1 then ⟨none, out, engine⟩
  else
    ⟨none, out ++ [engine.lastCompletion],
      { engine with hasCompletion := false, pending := none }⟩

/-- `PsyncEngine` as an engine. -/
def psyncEngine :
    Server BlockingEngine (List SyscallOutcome) IORequest IOCompletion Exn where
  submit := psyncSubmitIo
  poll := fun _ _ maxEvents out engine => some (engine.pollCompletions maxEvents out)

/-- `SyncEngine` as an engine. -/
def syncEngine : Server BlockingEngine SeekOutcomes IORequest IOCompletion Exn where
  submit := syncSubmitIo
  poll := fun _ _ maxEvents out engine => some (engine.pollCompletions maxEvents out)

/-! ## What a submit does -/

/-- A synchronous submit either fails one of its checks, or stores a completion
    for the request. -/
inductive Submitted (className : String) (request : IORequest)
    (engine : BlockingEngine) : SubmitResult Exn BlockingEngine → Prop where
  | rejected (e : Exn) : engine.checkSubmit className = some e →
      Submitted className request engine ⟨some e, engine⟩
  | stored (completion : IOCompletion) : engine.checkSubmit className = none →
      Echoes request completion →
      Submitted className request engine ⟨none, engine.store request completion⟩

/-- The completion of a system call belongs to its request, whatever the call
    returned. -/
theorem completionOf_echoes (request : IORequest) (outcome : SyscallOutcome) :
    Echoes request (completionOf request outcome) := by
  have hbytes : 0 ≤ (if 0 ≤ outcome.result then outcome.result else 0).toInt := by
    by_cases h0 : 0 ≤ outcome.result
    · rw [if_pos h0]
      exact Int64.le_iff_toInt_le.mp h0
    · rw [if_neg h0]
      exact Int.le_refl 0
  simp only [completionOf]
  split
  · exact ⟨rfl, rfl, rfl, hbytes⟩
  · split
    · exact ⟨rfl, rfl, rfl, hbytes⟩
    · exact ⟨rfl, rfl, rfl, hbytes⟩

theorem seekFailure_echoes (request : IORequest) (errno : Int32) :
    Echoes request (seekFailure request errno) :=
  ⟨rfl, rfl, rfl, Int.le_refl 0⟩

theorem psync_submitted {outcomes : List SyscallOutcome} {request : IORequest}
    {engine : BlockingEngine} {res : SubmitResult Exn BlockingEngine}
    (h : psyncSubmitIo outcomes request engine = some res) :
    Submitted "PsyncEngine" request engine res := by
  simp only [psyncSubmitIo] at h
  cases hc : engine.checkSubmit "PsyncEngine" with
  | some e =>
      rw [hc] at h
      rw [← Option.some.inj h]
      exact .rejected e hc
  | none =>
      rw [hc] at h
      obtain ⟨outcome, -, rfl⟩ := Option.map_eq_some_iff.mp h
      exact .stored _ hc (completionOf_echoes request outcome)

theorem sync_submitted {kernel : SeekOutcomes} {request : IORequest}
    {engine : BlockingEngine} {res : SubmitResult Exn BlockingEngine}
    (h : syncSubmitIo kernel request engine = some res) :
    Submitted "SyncEngine" request engine res := by
  simp only [syncSubmitIo] at h
  cases hc : engine.checkSubmit "SyncEngine" with
  | some e =>
      rw [hc] at h
      rw [← Option.some.inj h]
      exact .rejected e hc
  | none =>
      rw [hc] at h
      by_cases hs : kernel.seek.result = -1
      · simp only [if_pos hs] at h
        rw [← Option.some.inj h]
        exact .stored _ hc (seekFailure_echoes request _)
      · simp only [if_neg hs] at h
        obtain ⟨outcome, -, rfl⟩ := Option.map_eq_some_iff.mp h
        exact .stored _ hc (completionOf_echoes request outcome)

/-! ## An open engine -/

/-- An open engine stays open, and a submit finds it so. -/
theorem Submitted.isOpen {className : String} {request : IORequest}
    {engine : BlockingEngine} {res : SubmitResult Exn BlockingEngine}
    (hopen : 0 ≤ engine.fd) (h : Submitted className request engine res) :
    0 ≤ res.state.fd ∧ ∀ what, res.thrown ≠ some (.runtimeError what) := by
  cases h with
  | stored completion hc hechoes => exact ⟨hopen, nofun⟩
  | rejected e hc =>
      refine ⟨hopen, ?_⟩
      rintro what ⟨⟩
      rw [BlockingEngine.checkSubmit, if_neg (Int32.not_lt.mpr hopen)] at hc
      exact nomatch (Option.ite_none_right_eq_some.mp hc).2

theorem pollCompletions_isOpen {engine : BlockingEngine} (hopen : 0 ≤ engine.fd)
    (maxEvents : Int) (out : List IOCompletion) :
    0 ≤ (engine.pollCompletions maxEvents out).state.fd := by
  rw [BlockingEngine.pollCompletions]
  split <;> exact hopen

/-! ## The contract -/

/-- The stored completion is the one of the pending request. -/
def Stored (engine : BlockingEngine) : Prop :=
  match engine.pending with
  | none => engine.hasCompletion = false
  | some request => engine.hasCompletion = true ∧ Echoes request engine.lastCompletion

/-- A check that passed leaves no completion waiting. -/
theorem pending_of_check {className : String} {engine : BlockingEngine}
    (hs : Stored engine) (h : engine.checkSubmit className = none) :
    engine.pending = none := by
  cases hp : engine.pending with
  | none => rfl
  | some request =>
      simp only [Stored, hp] at hs
      obtain ⟨-, h⟩ := guard_none_iff.mp h
      exact absurd hs.1 (guard_none_iff.mp h).1

section Contract

variable {className : String} {request : IORequest} {engine : BlockingEngine}

theorem Submitted.accepted {engine' : BlockingEngine} (hs : Stored engine)
    (h : Submitted className request engine ⟨none, engine'⟩) :
    Stored engine' ∧
      engine'.pending.toList.Perm (request :: engine.pending.toList) := by
  cases h with
  | stored completion hc he =>
      rw [pending_of_check hs hc]
      exact ⟨⟨rfl, he⟩, List.Perm.refl _⟩

theorem Submitted.thrown {e : Exn} {engine' : BlockingEngine}
    (h : Submitted className request engine ⟨some e, engine'⟩) :
    engine' = engine ∧ engine.checkSubmit className = some e := by
  cases h with
  | rejected e hc => exact ⟨rfl, hc⟩

/-- A poll with a request pending hands out its completion. -/
theorem pollCompletions_pending (hs : Stored engine)
    (hp : engine.pending = some request) {hi : Int} (hhi : 1 ≤ hi)
    (out : List IOCompletion) :
    engine.pollCompletions hi out =
      ⟨none, out ++ [engine.lastCompletion],
        { engine with hasCompletion := false, pending := none }⟩ ∧
      Echoes request engine.lastCompletion := by
  simp only [Stored, hp] at hs
  refine ⟨if_neg ?_, hs.2⟩
  rintro (hno | hlow)
  · rw [hs.1] at hno
    exact nomatch hno
  · omega

/-- A poll with a request pending keeps the contract. -/
theorem pollCompletions_contract (hs : Stored engine)
    (hp : engine.pending.toList ≠ []) {lo hi : Int} (hlo : 1 ≤ lo) (hhi : lo ≤ hi)
    {out : List IOCompletion} {res : PollResult Exn IOCompletion BlockingEngine}
    (h : some (engine.pollCompletions hi out) = some res) :
    ∃ cs, res.out = out ++ cs ∧ (cs.length : Int) ≤ hi ∧
      Answered Echoes engine.pending.toList cs res.state.pending.toList ∧
      (res.thrown = none → Stored res.state ∧
        min lo (engine.pending.toList.length : Int) ≤ (cs.length : Int)) := by
  cases hpend : engine.pending with
  | none => exact absurd (by rw [hpend]; rfl) hp
  | some request =>
      obtain ⟨hpoll, hecho⟩ := pollCompletions_pending hs hpend (by omega : 1 ≤ hi) out
      rw [hpoll] at h
      rw [← Option.some.inj h]
      refine ⟨[engine.lastCompletion], rfl, ?_, ?_, ?_⟩
      · show (1 : Int) ≤ hi
        omega
      · refine ⟨[(request, engine.lastCompletion)], rfl, List.Perm.refl _, ?_⟩
        intro p hmem
        rw [List.mem_singleton.mp hmem]
        exact hecho
      · intro _
        refine ⟨rfl, ?_⟩
        show min lo 1 ≤ 1
        exact min_le_right lo 1

end Contract

/-- **`PsyncEngine` obeys the contract of `IEngineIO`.** -/
def psyncContract (d : Nat) : Contract psyncEngine Echoes d where
  Valid := Stored
  outstanding := fun engine => engine.pending.toList
  accepted := fun hs h => (psync_submitted h).accepted hs
  rejected := fun _ h => by rw [((psync_submitted h).thrown).1]
  polled := fun hs hp _ hlo hhi h => pollCompletions_contract hs hp hlo hhi h

/-- **`SyncEngine` obeys the contract of `IEngineIO`.** -/
def syncContract (d : Nat) : Contract syncEngine Echoes d where
  Valid := Stored
  outstanding := fun engine => engine.pending.toList
  accepted := fun hs h => (sync_submitted h).accepted hs
  rejected := fun _ h => by rw [((sync_submitted h).thrown).1]
  polled := fun hs hp _ hlo hhi h => pollCompletions_contract hs hp hlo hhi h

/-! ## Opening and misuse -/

/-- An engine that was opened has nothing stored. -/
theorem openEngine_stored {className : String} {config : JobConfig}
    {first second : OpenOutcome} {engine : BlockingEngine}
    (h : ({} : BlockingEngine).openEngine className config first second = .ok engine) :
    Stored engine ∧ engine.pending = none ∧ 0 ≤ engine.fd := by
  obtain ⟨-, h⟩ := guard_ok_iff.mp h
  obtain ⟨result, hfile, h⟩ := bind_ok_iff.mp h
  rw [← Except.ok.inj h]
  exact ⟨rfl, rfl, openFile_ok hfile⟩

/-- `SubmitIO` throws a `std::logic_error` only when a request is pending. -/
theorem Submitted.logicError {className : String} {request : IORequest}
    {engine engine' : BlockingEngine} {e : Exn} (hs : Stored engine)
    (h : Submitted className request engine ⟨some e, engine'⟩)
    (he : e.isLogicError = true) : engine.pending ≠ none := by
  obtain ⟨-, hcheck⟩ := h.thrown
  intro hp
  simp only [Stored, hp] at hs
  rcases ite_eq_iff.mp hcheck with ⟨-, hthrown⟩ | ⟨-, hcheck⟩
  · rw [← Option.some.inj hthrown] at he
    exact nomatch he
  · obtain ⟨hdone, -⟩ := Option.ite_none_right_eq_some.mp hcheck
    rw [hs] at hdone
    exact nomatch hdone

end CfioSyncEngines
