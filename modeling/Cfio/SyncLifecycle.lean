import Cfio.Lifecycle
import Cfio.SyncEngines

/-! # Opening and closing the synchronous engines

    `Open` and `Close` of `PsyncEngine` and `SyncEngine` are the same but for the class
    name.  `Close` leaves the last completion where it is; without `has_completion_`
    nobody can see it. -/

namespace CfioSyncEngines

open CfioTypes CfioConfig CfioEngine Checks RequestServer Lifecycle

/-- A synchronous engine with the descriptors the process holds for it. -/
abbrev OwnedEngine := Owned BlockingEngine Int32

/-! ## Open and Close -/

/-- `Open`. -/
def openWith (className : String) (w : OpenCall) (o : OwnedEngine) :
    SubmitResult Exn OwnedEngine :=
  if 0 ≤ o.state.fd then
    ⟨some (.runtimeError (className ++ "::Open -- engine is already open")), o⟩
  else
    match w.openFile with
    | .error e => ⟨some e, o⟩
    | .ok result =>
        ⟨none,
          { state :=
              { o.state with fd := result.fd, directEffective := result.directEffective }
            holds := o.holds.acquire result.fd }⟩

/-- `Close`.  What `close` returns is only logged: the descriptor is gone. -/
def closeEngine (o : OwnedEngine) : OwnedEngine :=
  let o :=
    if 0 ≤ o.state.fd then
      { state := { o.state with fd := -1 }, holds := o.holds.release o.state.fd }
    else o
  { o with
    state :=
      { o.state with hasCompletion := false, directEffective := false, pending := none } }

/-- A synchronous engine as a device, with a `SubmitIO` of its own. -/
def blockingDevice {κ : Type} (className : String)
    (E : Server BlockingEngine κ IORequest IOCompletion Exn) :
    Device BlockingEngine Int32 OpenCall κ Unit IORequest IOCompletion Exn where
  toServer := E
  new := {}
  openWith := openWith className
  close := fun _ o => some (closeEngine o)
  handle := fun engine => descriptorOf engine.fd
  context := fun _ => false
  flag := BlockingEngine.directEffective

/-- `PsyncEngine` as a device. -/
def psyncDevice := blockingDevice "PsyncEngine" psyncEngine

/-- `SyncEngine` as a device. -/
def syncDevice := blockingDevice "SyncEngine" syncEngine

/-- `Open` with the descriptors is `Open`. -/
theorem openWith_openEngine (className : String) (w : OpenCall) (o : OwnedEngine) :
    o.state.openEngine className w.config w.first w.second =
      match (openWith className w o).thrown with
      | some e => .error e
      | none => .ok (openWith className w o).state.state := by
  rw [openWith, BlockingEngine.openEngine]
  by_cases hfd : 0 ≤ o.state.fd
  · rw [if_pos hfd, if_pos hfd]
  · rw [if_neg hfd, if_neg hfd]
    show (w.openFile >>= fun result => pure _) = _
    cases w.openFile with
    | error e => rfl
    | ok result => rfl

/-! ## One call -/

/-- A closed engine has no stale descriptor. -/
def Rest (engine : BlockingEngine) : Prop := engine.fd < 0 → engine.fd = -1

/-- All that can be seen of an engine: the last completion only while it waits. -/
structure Alike (s t : BlockingEngine) : Prop where
  fd : s.fd = t.fd
  directEffective : s.directEffective = t.directEffective
  hasCompletion : s.hasCompletion = t.hasCompletion
  lastCompletion : s.hasCompletion = true → s.lastCompletion = t.lastCompletion

/-- Both engines check, then execute the request, which gives a completion to
    store. -/
def Executes {κ : Type} (className : String)
    (E : Server BlockingEngine κ IORequest IOCompletion Exn)
    (execute : κ → IORequest → Option IOCompletion) : Prop :=
  (∀ k request engine, E.submit k request engine =
    match engine.checkSubmit className with
    | some e => some ⟨some e, engine⟩
    | none => (execute k request).map (fun completion =>
        ⟨none, engine.store request completion⟩)) ∧
  ∀ k lo hi out engine, E.poll k lo hi out engine
    = some (engine.pollCompletions hi out)

/-- `pread` or `pwrite`. -/
def psyncExecute (outcomes : List SyscallOutcome) (request : IORequest) :
    Option IOCompletion :=
  (retryOnEintr outcomes).map (completionOf request)

/-- `lseek`, then `read` or `write`. -/
def syncExecute (kernel : SeekOutcomes) (request : IORequest) : Option IOCompletion :=
  if kernel.seek.result = -1 then some (seekFailure request kernel.seek.errno)
  else (retryOnEintr kernel.outcomes).map (completionOf request)

/-- The psync engine runs each request with one call. -/
theorem psync_executes : Executes "PsyncEngine" psyncEngine psyncExecute := by
  refine ⟨fun outcomes request engine => ?_, fun _ _ _ _ _ => rfl⟩
  show psyncSubmitIo outcomes request engine = _
  rw [psyncSubmitIo, psyncExecute]
  cases engine.checkSubmit "PsyncEngine" with
  | some e => rfl
  | none =>
      dsimp only
      rw [Option.map_map]
      rfl

/-- The sync engine runs each request with a seek and a call. -/
theorem sync_executes : Executes "SyncEngine" syncEngine syncExecute := by
  refine ⟨fun kernel request engine => ?_, fun _ _ _ _ _ => rfl⟩
  show syncSubmitIo kernel request engine = _
  rw [syncSubmitIo, syncExecute]
  cases engine.checkSubmit "SyncEngine" with
  | some e => rfl
  | none =>
      dsimp only
      by_cases hseek : kernel.seek.result = -1
      · rw [if_pos hseek, if_pos hseek]
        rfl
      · rw [if_neg hseek, if_neg hseek]
        rw [Option.map_map]
        rfl

/-- Opening ends with the file acquired, or with nothing. -/
theorem openWith_opened {κ : Type} {className : String}
    {E : Server BlockingEngine κ IORequest IOCompletion Exn} (w : OpenCall)
    (o : OwnedEngine) (hb : Balanced (blockingDevice className E) o) (hrest : Rest o.state) :
    Opened (blockingDevice className E) Rest o (openWith className w o) := by
  rw [openWith]
  by_cases hfd : 0 ≤ o.state.fd
  · rw [if_pos hfd]
    refine .again _ ?_
    show descriptorOf o.state.fd ≠ none
    rw [descriptorOf_of_nonneg hfd]
    exact nofun
  · have hnone : descriptorOf o.state.fd = none :=
      descriptorOf_eq_none.mpr (Int32.not_le.mp hfd)
    have hclosed := hb.closed hnone
    rw [if_neg hfd]
    cases hfile : w.openFile with
    | error e => exact .failed e o hnone hclosed hrest
    | ok result =>
        have hopen : 0 ≤ result.fd := openFile_ok hfile
        exact .opened _ hnone (hclosed.acquire (descriptorOf_of_nonneg hopen) rfl)
          (fun hneg => absurd hneg (Int32.not_lt.mpr hopen))

/-- Closing releases the file, and forgets all but the last completion. -/
theorem closeEngine_closed {κ : Type} {className : String}
    {E : Server BlockingEngine κ IORequest IOCompletion Exn} {o : OwnedEngine}
    (hb : Balanced (blockingDevice className E) o) (hrest : Rest o.state) :
    Closed (blockingDevice className E) (closeEngine o) ∧
      (closeEngine o).state =
        { ({} : BlockingEngine) with lastCompletion := o.state.lastCompletion } := by
  by_cases hfd : 0 ≤ o.state.fd
  · have hstate : closeEngine o =
        { state := { fd := -1, lastCompletion := o.state.lastCompletion }
          holds := o.holds.release o.state.fd } := by
      rw [closeEngine]
      rw [if_pos hfd]
    rw [hstate]
    exact ⟨⟨rfl, rfl, hb.release (descriptorOf_of_nonneg hfd) rfl⟩, rfl⟩
  · have hneg := Int32.not_le.mp hfd
    have hclosed := hb.closed (descriptorOf_eq_none.mpr hneg)
    have hstate : closeEngine o =
        { state := { fd := o.state.fd, lastCompletion := o.state.lastCompletion }
          holds := o.holds } := by
      rw [closeEngine]
      rw [if_neg hfd]
    rw [hstate, hrest hneg]
    exact ⟨⟨rfl, rfl, hclosed.holds⟩, rfl⟩

/-- Closing twice is closing once. -/
theorem closeEngine_again {κ : Type} {className : String}
    {E : Server BlockingEngine κ IORequest IOCompletion Exn} {o : OwnedEngine}
    (hb : Balanced (blockingDevice className E) o) (hrest : Rest o.state) :
    closeEngine (closeEngine o) = closeEngine o := by
  obtain ⟨-, hstate⟩ := closeEngine_closed hb hrest
  generalize closeEngine o = p at hstate ⊢
  obtain ⟨state, holds⟩ := p
  obtain rfl : state = _ := hstate
  rfl

/-! ## Indistinguishable engines -/

theorem Alike.check {s t : BlockingEngine} (h : Alike s t) (className : String) :
    s.checkSubmit className = t.checkSubmit className := by
  unfold BlockingEngine.checkSubmit
  rw [h.fd, h.hasCompletion]

/-- Engines that are alike open alike. -/
theorem Alike.openWith {o p : OwnedEngine} (h : AlikeOwned Alike o p) (className : String)
    (w : OpenCall) :
    (CfioSyncEngines.openWith className w o).thrown
      = (CfioSyncEngines.openWith className w p).thrown ∧
    AlikeOwned Alike (CfioSyncEngines.openWith className w o).state
      (CfioSyncEngines.openWith className w p).state := by
  unfold CfioSyncEngines.openWith
  rw [h.state.fd]
  by_cases hfd : 0 ≤ p.state.fd
  · rw [if_pos hfd, if_pos hfd]
    exact ⟨rfl, h⟩
  · rw [if_neg hfd, if_neg hfd]
    cases w.openFile with
    | error e => exact ⟨rfl, h⟩
    | ok result =>
        refine ⟨rfl, { h.state with fd := rfl, directEffective := rfl }, ?_⟩
        show o.holds.acquire result.fd = p.holds.acquire result.fd
        rw [h.holds]

theorem Alike.close {o p : OwnedEngine} (h : AlikeOwned Alike o p) :
    AlikeOwned Alike (closeEngine o) (closeEngine p) := by
  unfold closeEngine
  rw [h.state.fd, h.holds]
  by_cases hfd : 0 ≤ p.state.fd
  · rw [if_pos hfd, if_pos hfd]
    exact ⟨⟨rfl, rfl, rfl, nofun⟩, rfl⟩
  · rw [if_neg hfd, if_neg hfd]
    exact ⟨⟨h.state.fd, rfl, rfl, nofun⟩, h.holds⟩

theorem Alike.poll {s t : BlockingEngine} (h : Alike s t) (hi : Int)
    (out : List IOCompletion) :
    (s.pollCompletions hi out).thrown = (t.pollCompletions hi out).thrown ∧
      (s.pollCompletions hi out).out = (t.pollCompletions hi out).out ∧
      Alike (s.pollCompletions hi out).state (t.pollCompletions hi out).state := by
  unfold BlockingEngine.pollCompletions
  rw [h.hasCompletion]
  by_cases hidle : t.hasCompletion = false ∨ hi < 1
  · rw [if_pos hidle, if_pos hidle]
    exact ⟨rfl, rfl, h⟩
  · rw [if_neg hidle, if_neg hidle]
    have hwaits : s.hasCompletion = true := by
      rw [h.hasCompletion]
      exact Bool.not_eq_false _ ▸ fun hno => hidle (.inl hno)
    rw [h.lastCompletion hwaits]
    exact ⟨rfl, rfl, { h with hasCompletion := rfl, lastCompletion := nofun }⟩

/-! ## The devices -/

section Devices

variable {κ : Type} {className : String}
variable {E : Server BlockingEngine κ IORequest IOCompletion Exn}
variable {execute : κ → IORequest → Option IOCompletion}

/-- A submission opens and closes nothing. -/
theorem submit_keeps (hE : Executes className E execute) {k : κ} {request : IORequest}
    {engine : BlockingEngine} {res : SubmitResult Exn BlockingEngine}
    (h : E.submit k request engine = some res) : res.state.fd = engine.fd := by
  rw [hE.1] at h
  cases hcheck : engine.checkSubmit className with
  | some e =>
      rw [hcheck] at h
      rw [← Option.some.inj h]
  | none =>
      rw [hcheck] at h
      obtain ⟨completion, -, rfl⟩ := Option.map_eq_some_iff.mp h
      rfl

theorem poll_keeps (hi : Int) (out : List IOCompletion) (engine : BlockingEngine) :
    (engine.pollCompletions hi out).state.fd = engine.fd := by
  rw [BlockingEngine.pollCompletions]
  split
  · rfl
  · rfl

/-- What has to be shown of a synchronous engine. -/
def blockingTidy (hE : Executes className E execute) : Tidy (blockingDevice className E) where
  rest := Rest
  alike := Alike
  new_rest := fun _ => rfl
  new_closed := ⟨rfl, rfl, rfl⟩
  openWith := openWith_opened
  submit := by
    intro k request engine res hrest h
    have hfd := submit_keeps hE h
    refine ⟨?_, congrArg descriptorOf hfd, rfl⟩
    rw [Rest]
    rw [hfd]
    exact hrest
  refused := by
    intro k request engine hnone
    have hcheck : engine.checkSubmit className
        = some (.runtimeError (className ++ "::SubmitIO -- engine is not open")) :=
      if_pos (descriptorOf_eq_none.mp hnone)
    have hsubmit := hE.1 k request engine
    rw [hcheck] at hsubmit
    exact ⟨_, hsubmit⟩
  poll := by
    intro k lo hi out engine res hrest h
    have hfd : res.state.fd = engine.fd := by
      rw [← Option.some.inj ((hE.2 k lo hi out engine).symm.trans h)]
      exact poll_keeps hi out engine
    refine ⟨?_, congrArg descriptorOf hfd, rfl⟩
    rw [Rest]
    rw [hfd]
    exact hrest
  close := by
    intro x o o' hb hrest h
    obtain rfl := Option.some.inj h
    obtain ⟨hclosed, hstate⟩ := closeEngine_closed hb hrest
    refine ⟨hclosed, ?_, ?_, ?_, fun _ => congrArg some (closeEngine_again hb hrest)⟩
    · show (closeEngine o).state.directEffective = false
      rw [hstate]
    · rw [hstate]
      exact fun _ => rfl
    · rw [hstate]
      exact ⟨rfl, rfl, rfl, nofun⟩
  alike_openWith := fun w o p h => Alike.openWith h className w
  alike_submit := by
    intro k request s t h
    rw [show (blockingDevice className E).submit k request s = _ from hE.1 k request s,
      show (blockingDevice className E).submit k request t = _ from hE.1 k request t,
      h.check className]
    cases t.checkSubmit className with
    | some e => exact .some ⟨rfl, h⟩
    | none =>
        cases execute k request with
        | none => exact .none
        | some completion =>
            exact .some ⟨rfl, { h with hasCompletion := rfl, lastCompletion := fun _ => rfl }⟩
  alike_poll := by
    intro k lo hi out s t h
    rw [show (blockingDevice className E).poll k lo hi out s = _ from hE.2 k lo hi out s,
      show (blockingDevice className E).poll k lo hi out t = _ from hE.2 k lo hi out t]
    exact .some (h.poll hi out)
  alike_close := fun _ o p h => .some (Alike.close h)
  alike_flag := fun s t h => h.directEffective

end Devices

end CfioSyncEngines
