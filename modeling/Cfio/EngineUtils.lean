import Mathlib.Data.List.AList
import Cfio.JobConfig

/-! # What the engines share

    Opening the target file, the retry loop around blocking system calls, and the
    record of the requests in flight.

    `report` says once what a request and the kernel's answer to it amount to;
    each engine computes its completions in its own way and with its own
    integer widths.  `Tracks` relates the map of the requests in flight to the
    requests themselves. -/

namespace CfioEngine

open CfioTypes CfioConfig Checks

/-! ## Opening a file -/

/-- What `open` returns, with `errno`. -/
structure OpenOutcome where
  fd : Int32
  errno : Int32 := 0
  deriving DecidableEq, Repr

/-- Result of opening a file with optional O_DIRECT. -/
structure OpenResult where
  fd : Int32 := -1
  directEffective : Bool := false
  deriving DecidableEq, Repr

/-- Open a file with optional O_DIRECT and automatic fallback.  `first` and
    `second` are the outcomes of the first and of the second `open`. -/
def openFileWithDirectFallback (filePath : String) (directRequested : Bool)
    (first second : OpenOutcome) : Except Exn OpenResult :=
  if directRequested then
    if first.fd < 0 then
      if first.errno = EINVAL ∨ first.errno = EOPNOTSUPP then
        if second.fd < 0 then
          .error (.systemError second.errno
            ("failed to open file '" ++ filePath ++ "'"))
        else .ok { fd := second.fd, directEffective := false }
      else
        .error (.systemError first.errno
          ("failed to open file '" ++ filePath ++ "' with O_DIRECT"))
    else .ok { fd := first.fd, directEffective := true }
  else if first.fd < 0 then
    .error (.systemError first.errno ("failed to open file '" ++ filePath ++ "'"))
  else .ok { fd := first.fd, directEffective := false }

/-- A file that was opened has a descriptor. -/
theorem openFile_ok {filePath : String} {direct : Bool} {first second : OpenOutcome}
    {result : OpenResult}
    (h : openFileWithDirectFallback filePath direct first second = .ok result) :
    0 ≤ result.fd := by
  -- each `open` is followed by a check of what it returned
  have hchecked : ∀ {fd : Int32} {b : Bool} {e : Exn},
      (if fd < 0 then Except.error e
        else .ok { fd := fd, directEffective := b }) = .ok result → 0 ≤ result.fd := by
    intro fd b e hopen
    obtain ⟨hfd, hresult⟩ := guard_ok_iff.mp hopen
    rw [← Except.ok.inj hresult]
    exact Int32.not_lt.mp hfd
  rcases ite_eq_iff.mp h with ⟨-, h⟩ | ⟨-, h⟩
  · rcases ite_eq_iff.mp h with ⟨-, h⟩ | ⟨hfd, h⟩
    · rcases ite_eq_iff.mp h with ⟨-, h⟩ | ⟨-, h⟩
      · exact hchecked h
      · exact nomatch h
    · rw [← Except.ok.inj h]
      exact Int32.not_lt.mp hfd
  · exact hchecked h

/-- A job to open, with the outcomes of the `open` calls this may take. -/
structure OpenCall where
  config : JobConfig
  first : OpenOutcome
  second : OpenOutcome := ⟨-1, 0⟩

/-- `OpenFileWithDirectFallback` for the job. -/
def OpenCall.openFile (w : OpenCall) : Except Exn OpenResult :=
  openFileWithDirectFallback w.config.filename w.config.direct w.first w.second

/-- The descriptor behind `fd_`. -/
def descriptorOf (fd : Int32) : Option Int32 := if 0 ≤ fd then some fd else none

/-- A negative number is no descriptor. -/
theorem descriptorOf_eq_none {fd : Int32} : descriptorOf fd = none ↔ fd < 0 := by
  unfold descriptorOf
  by_cases hfd : 0 ≤ fd
  · rw [if_pos hfd]
    exact ⟨nofun, fun hneg => absurd hneg (Int32.not_lt.mpr hfd)⟩
  · rw [if_neg hfd]
    exact ⟨fun _ => Int32.not_le.mp hfd, fun _ => rfl⟩

theorem descriptorOf_of_nonneg {fd : Int32} (h : 0 ≤ fd) : descriptorOf fd = some fd :=
  if_pos h

/-! ## Blocking system calls -/

/-- What a system call returns, with `errno`. -/
structure SyscallOutcome where
  result : Int64
  errno : Int32 := 0
  deriving DecidableEq, Repr

/-- Was the call interrupted by a signal? -/
def SyscallOutcome.interrupted (outcome : SyscallOutcome) : Bool :=
  outcome.result = -1 ∧ outcome.errno = EINTR

/-- Retry a blocking system call that signals may interrupt.  The outcomes are
    those of the successive calls; `none` is a call that does not return. -/
def retryOnEintr : List SyscallOutcome → Option SyscallOutcome
  | [] => none
  | outcome :: outcomes =>
      if outcome.interrupted then retryOnEintr outcomes else some outcome

/-- Interruptions leave no trace. -/
theorem retryOnEintr_append {interruptions : List SyscallOutcome}
    (hall : ∀ o ∈ interruptions, o.interrupted = true) {outcome : SyscallOutcome}
    (hlast : outcome.interrupted = false) (outcomes : List SyscallOutcome) :
    retryOnEintr (interruptions ++ outcome :: outcomes) = some outcome := by
  induction interruptions with
  | nil => simp [retryOnEintr, hlast]
  | cons o os ih =>
      simp only [List.cons_append, retryOnEintr]
      rw [if_pos (hall o (List.mem_cons_self ..))]
      exact ih (fun p hp => hall p (List.mem_cons_of_mem _ hp))

/-! ## Requests in flight -/

/-- Tracks submit time metadata for async IO requests. -/
structure SubmitInfo where
  submitTime : TimePoint
  direction : IODirection := .kRead
  length : UInt64 := 0
  deriving DecidableEq, Repr

/-- What an engine remembers of a request. -/
def SubmitInfo.of (request : IORequest) : SubmitInfo :=
  { submitTime := request.submitTime, direction := request.direction
    length := request.length }

/-- `std::unordered_map<uint64_t, SubmitInfo>`. -/
abbrev InFlight := AList (fun _ : UInt64 => SubmitInfo)

/-- Erasing what was just inserted gives the map back. -/
theorem erase_insert {inFlight : InFlight} {id : UInt64} {info : SubmitInfo}
    (h : id ∉ inFlight) : (inFlight.insert id info).erase id = inFlight := by
  refine AList.ext ?_
  show List.kerase id (inFlight.insert id info).entries = inFlight.entries
  rw [AList.entries_insert_of_notMem h]
  exact List.kerase_cons_eq rfl

/-- The map holds these requests and no others, each under an id of its own. -/
structure Tracks (inFlight : InFlight) (requests : List IORequest) : Prop where
  keys : inFlight.keys.Perm (requests.map IORequest.id)
  info : ∀ r ∈ requests, inFlight.lookup r.id = some (SubmitInfo.of r)

section Tracks

variable {inFlight : InFlight} {requests requests' : List IORequest}
variable {request : IORequest}

theorem Tracks.empty : Tracks ∅ [] :=
  ⟨List.Perm.refl _, fun _ hr => nomatch hr⟩

/-- No two requests in flight have the same id. -/
theorem Tracks.nodup (h : Tracks inFlight requests) :
    (requests.map IORequest.id).Nodup :=
  h.keys.nodup_iff.mp inFlight.keys_nodup

/-- The table has the ids of the requests in flight. -/
theorem Tracks.mem_iff (h : Tracks inFlight requests) {id : UInt64} :
    id ∈ inFlight ↔ id ∈ requests.map IORequest.id := by
  rw [AList.mem_keys]
  exact h.keys.mem_iff

/-- The order of the requests makes no difference. -/
theorem Tracks.perm (h : Tracks inFlight requests) (hp : requests.Perm requests') :
    Tracks inFlight requests' :=
  ⟨h.keys.trans (hp.map _), fun r hr => h.info r (hp.mem_iff.mpr hr)⟩

/-- There are as many entries as requests in flight. -/
theorem Tracks.size (h : Tracks inFlight requests) :
    inFlight.keys.length = requests.length := by
  rw [h.keys.length_eq, List.length_map]

/-- A request under a new id joins. -/
theorem Tracks.insert (h : Tracks inFlight requests) (hnew : request.id ∉ inFlight) :
    Tracks (inFlight.insert request.id (SubmitInfo.of request))
      (request :: requests) := by
  constructor
  · rw [AList.keys_insert, List.erase_of_not_mem hnew]
    exact h.keys.cons request.id
  · intro r hr
    rcases List.mem_cons.mp hr with rfl | hmem
    · exact AList.lookup_insert inFlight
    · have hne : r.id ≠ request.id := by
        intro heq
        exact hnew (heq ▸ h.mem_iff.mpr (List.mem_map_of_mem hmem))
      rw [AList.lookup_insert_ne hne]
      exact h.info r hmem

/-- A request leaves. -/
theorem Tracks.erase (h : Tracks inFlight (request :: requests)) :
    Tracks (inFlight.erase request.id) requests := by
  have hnodup := h.nodup
  rw [List.map_cons, List.nodup_cons] at hnodup
  constructor
  · rw [AList.keys_erase]
    have herase := h.keys.erase request.id
    rw [List.map_cons, List.erase_cons_head] at herase
    exact herase
  · intro r hr
    have hne : r.id ≠ request.id := by
      intro heq
      exact hnodup.1 (heq ▸ List.mem_map_of_mem hr)
    rw [AList.lookup_erase_ne hne]
    exact h.info r (List.mem_cons_of_mem _ hr)

end Tracks

/-! ## Completions -/

/-- A completion that carries the id, the direction and the submit time of its
    request, and a byte count. -/
structure Echoes (request : IORequest) (completion : IOCompletion) : Prop where
  id : completion.id = request.id
  direction : completion.direction = request.direction
  submitTime : completion.submitTime = request.submitTime
  bytes : 0 ≤ completion.bytesTransferred.toInt

/-- **What the kernel's answer to a request means**: a negative answer is an
    errno, any other a byte count, and a byte count other than the length is an
    error too. -/
def report (request : IORequest) (answer : Int) : IOCompletion :=
  { id := request.id
    bytesTransferred := if answer < 0 then 0 else Int64.ofInt answer
    direction := request.direction
    success := decide (answer = (request.length.toNat : Int))
    errorCode :=
      if answer < 0 then Int32.ofInt (-answer)
      else if answer = (request.length.toNat : Int) then 0 else EIO
    submitTime := request.submitTime }

end CfioEngine
