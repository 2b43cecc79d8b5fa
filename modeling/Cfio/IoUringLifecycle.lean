import Cfio.Lifecycle
import Cfio.IoUringEngine

/-! # Opening and closing the io_uring engine

    `Open` acquires the descriptor, then the ring, and gives the descriptor back if
    there is no ring.  `Close` waits for everything in flight, then gives the ring back,
    with all that is queued in it, and closes the descriptor.  The struct of the ring
    stays as it was; the next `Open` overwrites it. -/

namespace CfioIoUring

open CfioTypes CfioConfig CfioEngine Checks RequestServer Lifecycle

/-- The engine with the descriptors and the rings the process holds for it. -/
abbrev OwnedUring := Owned IoUring Int32

/-! ## Open -/

/-- A call of `Open`: what `io_uring_queue_init` returns, and the entries of the ring if
    it makes one. -/
structure UringOpen extends OpenCall where
  initRet : Int32 := 0
  sqEntries : Nat := 0

/-- `IoUringEngine::Open`. -/
def openWith (w : UringOpen) (o : OwnedUring) : SubmitResult Exn OwnedUring :=
  let engine := o.state.engine
  if 0 ≤ engine.fd ∨ engine.ringInitialized = true then
    ⟨some (.runtimeError "IoUringEngine::Open -- engine is already open"), o⟩
  else if w.config.iodepth < 1 then
    ⟨some (.runtimeError ("IoUringEngine::Open -- iodepth must be >= 1, got "
      ++ toString w.config.iodepth)), o⟩
  else
    match w.openFile with
    | .error e => ⟨some e, o⟩
    | .ok result =>
        let holds := o.holds.acquire result.fd
        if w.initRet < 0 then
          ⟨some (.systemError (-w.initRet) "io_uring_queue_init failed"),
            { state :=
                { o.state with engine := { engine with fd := -1, directEffective := false } }
              holds := holds.release result.fd }⟩
        else
          ⟨none,
            { state :=
                { o.state with
                  engine :=
                    { engine with
                      fd := result.fd, directEffective := result.directEffective
                      ringInitialized := true, iodepth := w.config.iodepth
                      cqeBatch := w.config.iodepth.toInt.toNat }
                  sqEntries := w.sqEntries }
              holds := holds.create }⟩

/-! ## Close -/

/-- What one `io_uring_wait_cqe` returns: a negative errno, or a completed entry. -/
inductive WaitReply where
  | failed (ret : Int32)
  | completed (index : Nat)
  deriving DecidableEq, Repr

/-- Is anything in flight? -/
def IoUring.busy (s : IoUring) : Bool := s.engine.inFlight.keys ≠ []

/-- The loop that drains the ring. -/
def drain : List WaitReply → IoUring → Option IoUring
  | [], s => if s.busy then none else some s
  | reply :: replies, s =>
      if s.busy = false then some s
      else
        match reply with
        | .failed ret =>
            if ret = -EINTR then drain replies s
            else if ret < 0 then some s
            else none
        | .completed index =>
            (pick s.held index).bind (fun p =>
              drain replies
                { s with
                  held := p.2
                  engine :=
                    { s.engine with
                      inFlight := s.engine.inFlight.erase p.1.userData } })

/-- `io_uring_queue_exit`. -/
def exitQueue (o : OwnedUring) : OwnedUring :=
  { state :=
      { o.state with
        engine := { o.state.engine with ringInitialized := false }, pending := [], held := [] }
    holds := o.holds.destroy }

/-- `close`, if there is a descriptor. -/
def closeDescriptor (o : OwnedUring) : OwnedUring :=
  if 0 ≤ o.state.engine.fd then
    { state := { o.state with engine := { o.state.engine with fd := -1 } }
      holds := o.holds.release o.state.engine.fd }
  else o

/-- The end of `Close`. -/
def clearMembers (o : OwnedUring) : OwnedUring :=
  { o with
    state :=
      { o.state with
        engine :=
          { o.state.engine with
            directEffective := false, iodepth := 0, inFlight := ∅, cqeBatch := 0 } } }

/-- `IoUringEngine::Close`. -/
def closeEngine (replies : List WaitReply) (o : OwnedUring) : Option OwnedUring :=
  (if o.state.engine.ringInitialized = true then
    (drain replies o.state).map (fun s => exitQueue { o with state := s })
  else some o).map (fun o => clearMembers (closeDescriptor o))

/-- `IoUringEngine` as a device. -/
def uringDevice :
    Device IoUring Int32 UringOpen UringKernel (List WaitReply) IORequest IOCompletion
      Exn where
  toServer := ioUringEngine
  new := { engine := {}, sqEntries := 0 }
  openWith := openWith
  close := closeEngine
  handle := fun s => descriptorOf s.engine.fd
  context := fun s => s.engine.ringInitialized
  flag := fun s => s.engine.directEffective

/-- `Open` with what is held is `Open`. -/
theorem openWith_openEngine (w : UringOpen) (o : OwnedUring) :
    o.state.engine.openEngine w.config w.first w.second w.initRet =
      match (openWith w o).thrown with
      | some e => .error e
      | none => .ok (openWith w o).state.state.engine := by
  unfold openWith IoUringEngine.openEngine
  by_cases hopen : 0 ≤ o.state.engine.fd ∨ o.state.engine.ringInitialized = true
  · rw [if_pos hopen]
    dsimp only
    rw [if_pos hopen]
  · rw [if_neg hopen]
    dsimp only
    rw [if_neg hopen]
    by_cases hdepth : w.config.iodepth < 1
    · rw [if_pos hdepth, if_pos hdepth]
    · rw [if_neg hdepth, if_neg hdepth]
      show (w.openFile >>= _) = _
      cases w.openFile with
      | error e => rfl
      | ok result =>
          show (if w.initRet < 0 then _ else _) = _
          dsimp only
          by_cases hinit : w.initRet < 0
          · rw [if_pos hinit, if_pos hinit]
            rfl
          · rw [if_neg hinit, if_neg hinit]
            rfl

/-! ## One call -/

/-- Without a descriptor `fd_` is as in a new engine, and without a ring nothing is
    queued. -/
structure Rest (s : IoUring) : Prop where
  fd : s.engine.fd < 0 → s.engine.fd = -1
  pending : s.engine.ringInitialized = false → s.pending = []
  held : s.engine.ringInitialized = false → s.held = []

/-- The engine and its ring, whose size is seen only while there is one. -/
structure Alike (s t : IoUring) : Prop where
  engine : s.engine = t.engine
  pending : s.pending = t.pending
  held : s.held = t.held
  sqEntries : s.engine.ringInitialized = true → s.sqEntries = t.sqEntries

/-- Opening ends with everything acquired, or with nothing. -/
theorem openWith_opened (w : UringOpen) (o : OwnedUring) (hb : Balanced uringDevice o)
    (hrest : Rest o.state) : Opened uringDevice Rest o (openWith w o) := by
  rw [openWith]
  dsimp only
  by_cases hopen : 0 ≤ o.state.engine.fd ∨ o.state.engine.ringInitialized = true
  · rw [if_pos hopen]
    refine .again _ ?_
    rcases hopen with hfd | hring
    · show descriptorOf o.state.engine.fd ≠ none
      rw [descriptorOf_of_nonneg hfd]
      exact nofun
    · exact hb.context hring
  · have hnone : descriptorOf o.state.engine.fd = none :=
      descriptorOf_eq_none.mpr (Int32.not_le.mp (fun hfd => hopen (.inl hfd)))
    have hclosed := hb.closed hnone
    rw [if_neg hopen]
    by_cases hdepth : w.config.iodepth < 1
    · rw [if_pos hdepth]
      exact .failed _ o hnone hclosed hrest
    · rw [if_neg hdepth]
      cases hfile : w.openFile with
      | error e => exact .failed e o hnone hclosed hrest
      | ok result =>
          have hfd : 0 ≤ result.fd := openFile_ok hfile
          dsimp only
          by_cases hinit : w.initRet < 0
          · rw [if_pos hinit]
            exact .failed _ _ hnone
              ⟨rfl, hclosed.context, (o.holds.release_acquire result.fd).trans hclosed.holds⟩
              ⟨fun _ => rfl, hrest.pending, hrest.held⟩
          · rw [if_neg hinit]
            exact .opened _ hnone (hclosed.create (descriptorOf_of_nonneg hfd) rfl)
              ⟨fun hneg => absurd hneg (Int32.not_lt.mpr hfd), nofun, nofun⟩

/-- Draining leaves the descriptor and the ring alone. -/
theorem drain_keeps {replies : List WaitReply} {s t : IoUring}
    (h : drain replies s = some t) :
    t.engine.fd = s.engine.fd ∧ t.engine.ringInitialized = s.engine.ringInitialized := by
  induction replies generalizing s with
  | nil =>
      obtain ⟨-, ht⟩ := Option.ite_none_left_eq_some.mp h
      rw [← Option.some.inj ht]
      exact ⟨rfl, rfl⟩
  | cons reply replies ih =>
      unfold drain at h
      by_cases hdone : s.busy = false
      · rw [if_pos hdone] at h
        rw [← Option.some.inj h]
        exact ⟨rfl, rfl⟩
      · rw [if_neg hdone] at h
        cases reply with
        | failed ret =>
            dsimp only at h
            by_cases hintr : ret = -EINTR
            · rw [if_pos hintr] at h
              exact ih h
            · rw [if_neg hintr] at h
              obtain ⟨-, ht⟩ := Option.ite_none_right_eq_some.mp h
              rw [← Option.some.inj ht]
              exact ⟨rfl, rfl⟩
        | completed index =>
            obtain ⟨p, -, hrest⟩ := Option.bind_eq_some_iff.mp h
            have hkept := ih hrest
            exact hkept

/-- **`Close`, with or without requests in flight.** -/
theorem closeEngine_cleared {replies : List WaitReply} {o o' : OwnedUring}
    (hb : Balanced uringDevice o) (hrest : Rest o.state)
    (h : closeEngine replies o = some o') :
    ∃ sqEntries unexpected,
      o' = { state := { engine := {}, sqEntries := sqEntries, unexpected := unexpected } } := by
  obtain ⟨p, hp, rfl⟩ := Option.map_eq_some_iff.mp h
  obtain ⟨⟨engine, sqEntries, pending, held, unexpected⟩, holds⟩ := o
  by_cases hring : engine.ringInitialized = true
  · -- a ring comes with a descriptor
    have hfd : 0 ≤ engine.fd :=
      Int32.not_lt.mp (fun hneg => hb.context hring (descriptorOf_eq_none.mpr hneg))
    have hgone : holds.destroy.release engine.fd = {} :=
      hb.destroy (descriptorOf_of_nonneg hfd) hring
    rw [if_pos hring] at hp
    obtain ⟨s, hs, rfl⟩ := Option.map_eq_some_iff.mp hp
    obtain ⟨hkept, -⟩ := drain_keeps hs
    replace hkept : s.engine.fd = engine.fd := hkept
    refine ⟨s.sqEntries, s.unexpected, ?_⟩
    rw [closeDescriptor, exitQueue]
    dsimp only
    rw [hkept, if_pos hfd, hgone]
    rfl
  · have hnone := Bool.not_eq_true _ ▸ hring
    rw [if_neg hring] at hp
    obtain rfl := Option.some.inj hp
    refine ⟨sqEntries, unexpected, ?_⟩
    obtain rfl : pending = [] := hrest.pending hnone
    obtain rfl : held = [] := hrest.held hnone
    rw [closeDescriptor]
    dsimp only
    by_cases hfd : 0 ≤ engine.fd
    · have hgone : holds.release engine.fd = {} :=
        hb.release (descriptorOf_of_nonneg hfd) hnone
      rw [if_pos hfd, hgone]
      show ({ state := { engine := { ringInitialized := engine.ringInitialized }
                         sqEntries := sqEntries, unexpected := unexpected } } : OwnedUring)
        = _
      rw [hnone]
    · have hneg := Int32.not_le.mp hfd
      have hgone : holds = {} := (hb.closed (descriptorOf_eq_none.mpr hneg)).holds
      rw [if_neg hfd, hgone]
      show ({ state := { engine := { ringInitialized := engine.ringInitialized
                                     fd := engine.fd }
                         sqEntries := sqEntries, unexpected := unexpected } } : OwnedUring)
        = _
      rw [hnone, hrest.fd hneg]

/-- Processing completions opens and closes nothing. -/
theorem reap_keeps (cqes : List (Sqe × Int32)) (s : IoUring) (out : List IOCompletion) :
    (reap cqes s out).1.engine.fd = s.engine.fd ∧
      (reap cqes s out).1.engine.ringInitialized = s.engine.ringInitialized := by
  induction cqes generalizing s out with
  | nil => exact ⟨rfl, rfl⟩
  | cons cqe cqes ih =>
      rw [reap]
      cases s.engine.inFlight.lookup cqe.1.userData with
      | none => exact ih _ out
      | some info => exact ih _ _

/-- A closed engine refuses requests. -/
theorem submitIo_closed {s : IoUring} (h : s.engine.fd < 0 ∨ s.engine.ringInitialized = false)
    (ret : Int32) (request : IORequest) :
    submitIo ret request s
      = some ⟨some (.runtimeError "IoUringEngine::SubmitIO -- engine is not open"), s⟩ := by
  have hcheck : s.checkSubmit request
      = some (.runtimeError "IoUringEngine::SubmitIO -- engine is not open") := if_pos h
  rw [submitIo]
  rw [hcheck]

theorem submitIo_keeps {ret : Int32} {request : IORequest} {s : IoUring}
    {res : SubmitResult Exn IoUring} (h : submitIo ret request s = some res) :
    res.state.engine.fd = s.engine.fd ∧
      res.state.engine.ringInitialized = s.engine.ringInitialized := by
  cases submitIo_submitted h with
  | refused | accepted | left => exact ⟨rfl, rfl⟩

theorem pollCompletions_keeps {kernel : UringKernel} {lo hi : Int} {out : List IOCompletion}
    {s : IoUring} {res : PollResult Exn IOCompletion IoUring}
    (h : pollCompletions kernel lo hi out s = some res) :
    res.state.engine.fd = s.engine.fd ∧
      res.state.engine.ringInitialized = s.engine.ringInitialized := by
  obtain ⟨rfl, -⟩ | ⟨e, rfl⟩ | ⟨done, held', -, -, -, -, -, rfl⟩ := pollCompletions_cases h
  · exact ⟨rfl, rfl⟩
  · exact ⟨rfl, rfl⟩
  · exact reap_keeps done { s with held := held' } out

/-- A closed engine has nothing to poll. -/
theorem pollCompletions_closed {s : IoUring} (h : s.engine.ringInitialized = false)
    (kernel : UringKernel) (lo hi : Int) (out : List IOCompletion) :
    pollCompletions kernel lo hi out s = some ⟨none, out, s⟩ := by
  rw [pollCompletions]
  rw [if_pos (.inl h)]

/-! ## Indistinguishable engines -/

/-- Engines that are alike open alike. -/
theorem Alike.openWith {o p : OwnedUring} (h : AlikeOwned Alike o p) (w : UringOpen) :
    (CfioIoUring.openWith w o).thrown = (CfioIoUring.openWith w p).thrown ∧
      AlikeOwned Alike (CfioIoUring.openWith w o).state
        (CfioIoUring.openWith w p).state := by
  unfold CfioIoUring.openWith
  rw [h.state.engine, h.holds]
  dsimp only
  by_cases hopen : 0 ≤ p.state.engine.fd ∨ p.state.engine.ringInitialized = true
  · rw [if_pos hopen, if_pos hopen]
    exact ⟨rfl, h⟩
  · rw [if_neg hopen, if_neg hopen]
    split
    · exact ⟨rfl, h⟩
    · cases w.openFile with
      | error e => exact ⟨rfl, h⟩
      | ok result =>
          dsimp only
          split
          · refine ⟨rfl, ⟨rfl, h.state.pending, h.state.held, fun hring => ?_⟩, rfl⟩
            exact absurd (.inr hring) hopen
          · exact ⟨rfl, ⟨rfl, h.state.pending, h.state.held, fun _ => rfl⟩, rfl⟩

theorem Alike.check {s t : IoUring} (h : Alike s t) (request : IORequest) :
    s.checkSubmit request = t.checkSubmit request := by
  unfold IoUring.checkSubmit
  rw [h.engine, h.pending]
  by_cases hclosed : t.engine.fd < 0 ∨ t.engine.ringInitialized = false
  · rw [if_pos hclosed, if_pos hclosed]
  · have hring : s.engine.ringInitialized = true := by
      rw [h.engine]
      exact Bool.not_eq_false _ ▸ fun hno => hclosed (.inr hno)
    rw [h.sqEntries hring]

theorem Alike.submit {s t : IoUring} (h : Alike s t) (ret : Int32) (request : IORequest) :
    Option.Rel (fun x y => x.thrown = y.thrown ∧ Alike x.state y.state)
      (submitIo ret request s) (submitIo ret request t) := by
  unfold submitIo
  rw [h.check request]
  cases t.checkSubmit request with
  | some e => exact .some ⟨rfl, h⟩
  | none =>
      have hentries := h.sqEntries
      dsimp only
      rw [h.engine] at hentries ⊢
      rw [h.pending, h.held]
      split
      · exact .some ⟨rfl, ⟨rfl, rfl, rfl, hentries⟩⟩
      · split
        · exact .some ⟨rfl, ⟨rfl, rfl, rfl, hentries⟩⟩
        · exact .none

theorem Alike.reap {s t : IoUring} (h : Alike s t) (cqes : List (Sqe × Int32))
    (out : List IOCompletion) :
    Alike (CfioIoUring.reap cqes s out).1 (CfioIoUring.reap cqes t out).1 ∧
      (CfioIoUring.reap cqes s out).2 = (CfioIoUring.reap cqes t out).2 := by
  induction cqes generalizing s t out with
  | nil => exact ⟨h, rfl⟩
  | cons cqe cqes ih =>
      have hentries := h.sqEntries
      unfold CfioIoUring.reap
      rw [h.engine] at hentries ⊢
      cases t.engine.inFlight.lookup cqe.1.userData with
      | none =>
          refine ih ?_ out
          exact ⟨rfl, h.pending, h.held, hentries⟩
      | some info =>
          refine ih ?_ _
          exact ⟨rfl, h.pending, h.held, hentries⟩

theorem Alike.poll {s t : IoUring} (h : Alike s t) (kernel : UringKernel) (lo hi : Int)
    (out : List IOCompletion) :
    Option.Rel (fun x y => x.thrown = y.thrown ∧ x.out = y.out ∧ Alike x.state y.state)
      (pollCompletions kernel lo hi out s) (pollCompletions kernel lo hi out t) := by
  unfold pollCompletions
  rw [h.engine, h.held]
  by_cases hidle : t.engine.ringInitialized = false ∨ hi < 1
  · rw [if_pos hidle, if_pos hidle]
    exact .some ⟨rfl, rfl, h⟩
  · rw [if_neg hidle, if_neg hidle]
    dsimp only
    generalize (if lo < 0 then 0 else lo) = minEvents
    cases (if minEvents > 0 then waitCqe kernel.waits else some 0) with
    | none => exact .none
    | some ret =>
        dsimp only [Option.bind_some]
        by_cases hneg : ret < 0
        · rw [if_pos hneg, if_pos hneg]
          exact .some ⟨rfl, rfl, h⟩
        · rw [if_neg hneg, if_neg hneg]
          split
          · cases pickMany kernel.choices t.held with
            | none => exact .none
            | some p =>
                obtain ⟨halike, hout⟩ := Alike.reap (s := { s with held := p.2 })
                  (t := { t with held := p.2 }) ⟨h.engine, h.pending, rfl, h.sqEntries⟩ p.1 out
                rw [h.engine] at halike hout
                exact .some ⟨rfl, hout, halike⟩
          · exact .none

theorem Alike.drain {s t : IoUring} (h : Alike s t) (replies : List WaitReply) :
    Option.Rel Alike (CfioIoUring.drain replies s) (CfioIoUring.drain replies t) := by
  have hbusy : s.busy = t.busy := by
    unfold IoUring.busy
    rw [h.engine]
  induction replies generalizing s t with
  | nil =>
      unfold CfioIoUring.drain
      rw [hbusy]
      split
      · exact .none
      · exact .some h
  | cons reply replies ih =>
      have hentries := h.sqEntries
      unfold CfioIoUring.drain
      rw [hbusy]
      split
      · exact .some h
      · cases reply with
        | failed ret =>
            dsimp only
            split
            · exact ih h hbusy
            · split
              · exact .some h
              · exact .none
        | completed index =>
            dsimp only
            rw [h.held]
            rw [h.engine] at hentries ⊢
            cases pick t.held index with
            | none => exact .none
            | some p =>
                refine ih ?_ rfl
                exact ⟨rfl, h.pending, rfl, hentries⟩

theorem Alike.close {o p : OwnedUring} (h : AlikeOwned Alike o p) (replies : List WaitReply) :
    Option.Rel (AlikeOwned Alike) (closeEngine replies o) (closeEngine replies p) := by
  rw [closeEngine]
  refine rel_map (R := AlikeOwned Alike) ?_ ?_
  · rintro ⟨s, holds⟩ ⟨t, holds'⟩ hst
    have hengine : s.engine = t.engine := hst.state.engine
    obtain rfl : holds = holds' := hst.holds
    have hentries := hst.state.sqEntries
    unfold closeDescriptor
    dsimp only at hentries ⊢
    rw [hengine] at hentries ⊢
    split
    · refine ⟨⟨?_, hst.state.pending, hst.state.held, hentries⟩, rfl⟩
      rfl
    · refine ⟨⟨?_, hst.state.pending, hst.state.held, ?_⟩, rfl⟩
      · unfold clearMembers
        dsimp only
        rw [hengine]
      · rw [clearMembers]
        dsimp only
        rw [hengine]
        exact hentries
  · rw [h.state.engine]
    split
    · refine rel_map (R := Alike) (fun s t hst => ?_) (h.state.drain replies)
      refine ⟨⟨?_, rfl, rfl, nofun⟩, ?_⟩
      · show { s.engine with ringInitialized := false }
          = { t.engine with ringInitialized := false }
        rw [hst.engine]
      · exact congrArg Holdings.destroy h.holds
    · exact .some h

/-! ## The device -/

/-- What has to be shown of the engine. -/
def uringTidy : Tidy uringDevice where
  rest := Rest
  alike := Alike
  new_rest := ⟨fun _ => rfl, fun _ => rfl, fun _ => rfl⟩
  new_closed := ⟨rfl, rfl, rfl⟩
  openWith := openWith_opened
  submit := by
    intro kernel request s res hrest h
    obtain ⟨hfd, hring⟩ := submitIo_keeps h
    have hsame : s.engine.ringInitialized = false → res.state = s := by
      intro hno
      have hclosed := submitIo_closed (.inr hno) kernel.submitRet request
      exact (congrArg SubmitResult.state (Option.some.inj (hclosed.symm.trans h))).symm
    refine ⟨⟨?_, ?_, ?_⟩, congrArg descriptorOf hfd, hring⟩
    · rw [hfd]
      exact hrest.fd
    · intro hno
      rw [hring] at hno
      rw [hsame hno]
      exact hrest.pending hno
    · intro hno
      rw [hring] at hno
      rw [hsame hno]
      exact hrest.held hno
  refused := by
    intro kernel request s hnone
    exact ⟨_, submitIo_closed (.inl (descriptorOf_eq_none.mp hnone)) kernel.submitRet request⟩
  poll := by
    intro kernel lo hi out s res hrest h
    obtain ⟨hfd, hring⟩ := pollCompletions_keeps h
    have hsame : s.engine.ringInitialized = false → res.state = s := by
      intro hno
      have hclosed := pollCompletions_closed hno kernel lo hi out
      exact (congrArg PollResult.state (Option.some.inj (hclosed.symm.trans h))).symm
    refine ⟨⟨?_, ?_, ?_⟩, congrArg descriptorOf hfd, hring⟩
    · rw [hfd]
      exact hrest.fd
    · intro hno
      rw [hring] at hno
      rw [hsame hno]
      exact hrest.pending hno
    · intro hno
      rw [hring] at hno
      rw [hsame hno]
      exact hrest.held hno
  close := by
    intro replies o o' hb hrest h
    obtain ⟨sqEntries, unexpected, rfl⟩ := closeEngine_cleared hb hrest h
    exact ⟨⟨rfl, rfl, rfl⟩, rfl, ⟨fun _ => rfl, fun _ => rfl, fun _ => rfl⟩,
      ⟨rfl, rfl, rfl, nofun⟩, fun _ => rfl⟩
  alike_openWith := fun w o p h => Alike.openWith h w
  alike_submit := fun kernel request s t h => h.submit kernel.submitRet request
  alike_poll := fun kernel lo hi out s t h => h.poll kernel lo hi out
  alike_close := fun replies o p h => Alike.close h replies
  alike_flag := fun s t h => congrArg IoUringEngine.directEffective h.engine

end CfioIoUring
