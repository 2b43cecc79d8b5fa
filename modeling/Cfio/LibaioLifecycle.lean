import Cfio.Lifecycle
import Cfio.LibaioEngine

/-! # Opening and closing the Linux AIO engine

    `Open` acquires the descriptor, then the context, and gives the descriptor back if
    there is no context.  `Close` drains what is in flight for five seconds at most,
    then destroys the context, with all the kernel holds for it, and closes the
    descriptor.  What `io_cancel`, `io_destroy` and `close` return is only logged. -/

namespace CfioLibaio

open CfioTypes CfioConfig CfioEngine Checks RequestServer Lifecycle

/-- The engine with the descriptors and the contexts the process holds for it. -/
abbrev OwnedLibaio := Owned Libaio Int32

/-! ## Open -/

/-- A call of `Open`; `setupRet` is what `io_setup` returns. -/
structure AioOpen extends OpenCall where
  setupRet : Int32 := 0

/-- The exception for a context that could not be created. -/
def setupFailure (setupRet : Int32) : Exn :=
  if setupRet = -EAGAIN then
    .runtimeError ("LibaioEngine::Open -- io_setup EAGAIN: iodepth may exceed "
      ++ "/proc/sys/fs/aio-max-nr")
  else .systemError (-setupRet) "LibaioEngine::Open -- io_setup failed"

/-- `LibaioEngine::Open`. -/
def openWith (w : AioOpen) (o : OwnedLibaio) : SubmitResult Exn OwnedLibaio :=
  let engine := o.state.engine
  if 0 ≤ engine.fd ∨ engine.ctx = true then
    ⟨some (.runtimeError "LibaioEngine::Open -- engine is already open"), o⟩
  else if w.config.iodepth < 1 then
    ⟨some (.runtimeError ("LibaioEngine::Open -- iodepth must be >= 1, got "
      ++ toString w.config.iodepth)), o⟩
  else
    match w.openFile with
    | .error e => ⟨some e, o⟩
    | .ok result =>
        let holds := o.holds.acquire result.fd
        if w.setupRet < 0 then
          ⟨some (setupFailure w.setupRet),
            { state :=
                { o.state with
                  engine := { engine with fd := -1, ctx := false, directEffective := false } }
              holds := holds.release result.fd }⟩
        else
          let depth := w.config.iodepth.toInt.toNat
          ⟨none,
            { state :=
                { o.state with
                  engine :=
                    { engine with
                      ctx := true, fd := result.fd, directEffective := result.directEffective
                      iodepth := w.config.iodepth, iocbPool := List.replicate depth {}
                      freeIocbs := (List.range depth).reverse, events := depth } }
              holds := holds.create }⟩

/-! ## Close -/

/-- Is anything in flight? -/
def Libaio.busy (s : Libaio) : Bool := s.engine.inFlight.keys ≠ []

/-- The loop that drains the context.  For each round: the nanoseconds that remain
    until the deadline, and what `io_getevents` returns. -/
def drain : List (Int × GetEvents) → Libaio → Option Libaio
  | [], s => if s.busy then none else some s
  | (remaining, reply) :: rounds, s =>
      if s.busy = false ∨ remaining ≤ 0 then some s
      else
        match reply with
        | .failed ret =>
            if ret = -EINTR then drain rounds s
            else if ret < 0 then some s
            else none
        | .events [] => some s
        | .events choices =>
            if choices.length ≤ s.engine.events then
              (pickMany choices s.held).bind (fun p =>
                drain rounds
                  { s with
                    held := p.2
                    engine :=
                      { s.engine with
                        inFlight := p.1.foldl
                          (fun inFlight done => inFlight.erase done.1.iocb.data)
                          s.engine.inFlight } })
            else none

/-- `io_destroy`, if there is a context. -/
def destroyContext (o : OwnedLibaio) : OwnedLibaio :=
  if o.state.engine.ctx = true then
    { state := { o.state with engine := { o.state.engine with ctx := false }, held := [] }
      holds := o.holds.destroy }
  else o

/-- `close`, if there is a descriptor. -/
def closeDescriptor (o : OwnedLibaio) : OwnedLibaio :=
  if 0 ≤ o.state.engine.fd then
    { state := { o.state with engine := { o.state.engine with fd := -1 } }
      holds := o.holds.release o.state.engine.fd }
  else o

/-- The end of `Close`. -/
def clearMembers (o : OwnedLibaio) : OwnedLibaio :=
  { o with
    state :=
      { o.state with
        engine :=
          { o.state.engine with
            directEffective := false, iodepth := 0, iocbPool := [], freeIocbs := []
            events := 0, inFlight := ∅ } } }

/-- `LibaioEngine::Close`. -/
def closeEngine (rounds : List (Int × GetEvents)) (o : OwnedLibaio) : Option OwnedLibaio :=
  (if o.state.engine.ctx = true ∧ o.state.busy = true then drain rounds o.state
    else some o.state).map (fun s =>
      clearMembers (closeDescriptor (destroyContext { o with state := s })))

/-- `LibaioEngine` as a device. -/
def libaioDevice (admits : Int → Nat → Bool) :
    Device Libaio Int32 AioOpen AioKernel (List (Int × GetEvents)) IORequest IOCompletion
      Exn where
  toServer := libaioEngine admits
  new := { engine := {} }
  openWith := openWith
  close := closeEngine
  handle := fun s => descriptorOf s.engine.fd
  context := fun s => s.engine.ctx
  flag := fun s => s.engine.directEffective

/-- `Open` with what is held is `Open`. -/
theorem openWith_openEngine (w : AioOpen) (o : OwnedLibaio) :
    o.state.engine.openEngine w.config w.first w.second w.setupRet =
      match (openWith w o).thrown with
      | some e => .error e
      | none => .ok (openWith w o).state.state.engine := by
  rw [openWith, LibaioEngine.openEngine]
  by_cases hopen : 0 ≤ o.state.engine.fd ∨ o.state.engine.ctx = true
  · rw [if_pos hopen]
    dsimp only
    rw [if_pos hopen]
  · rw [if_neg hopen]
    dsimp only
    rw [if_neg hopen]
    by_cases hdepth : w.config.iodepth < 1
    · rw [if_pos hdepth, if_pos hdepth]
    · rw [if_neg hdepth, if_neg hdepth]
      show (w.openFile >>= _) = _
      cases w.openFile with
      | error e => rfl
      | ok result =>
          show (if w.setupRet < 0 then _ else _) = _
          dsimp only
          by_cases hsetup : w.setupRet < 0
          · rw [if_pos hsetup, if_pos hsetup]
            rw [setupFailure]
            by_cases hagain : w.setupRet = -EAGAIN
            · rw [if_pos hagain, if_pos hagain]
              rfl
            · rw [if_neg hagain, if_neg hagain]
              rfl
          · rw [if_neg hsetup, if_neg hsetup]
            rfl

/-! ## One call -/

/-- Without a descriptor `fd_` is as in a new engine, and without a context the kernel
    holds nothing. -/
structure Rest (s : Libaio) : Prop where
  fd : s.engine.fd < 0 → s.engine.fd = -1
  held : s.engine.ctx = false → s.held = []

/-- The engine and what the kernel holds for it; what was logged is not seen again. -/
structure Alike (s t : Libaio) : Prop where
  engine : s.engine = t.engine
  held : s.held = t.held

variable {admits : Int → Nat → Bool}

/-- Opening ends with everything acquired, or with nothing. -/
theorem openWith_opened (w : AioOpen) (o : OwnedLibaio)
    (hb : Balanced (libaioDevice admits) o) (hrest : Rest o.state) :
    Opened (libaioDevice admits) Rest o (openWith w o) := by
  rw [openWith]
  dsimp only
  by_cases hopen : 0 ≤ o.state.engine.fd ∨ o.state.engine.ctx = true
  · rw [if_pos hopen]
    refine .again _ ?_
    rcases hopen with hfd | hctx
    · show descriptorOf o.state.engine.fd ≠ none
      rw [descriptorOf_of_nonneg hfd]
      exact nofun
    · exact hb.context hctx
  · have hnone : descriptorOf o.state.engine.fd = none :=
      descriptorOf_eq_none.mpr (Int32.not_le.mp (fun hfd => hopen (.inl hfd)))
    have hclosed := hb.closed hnone
    have hheld := hrest.held hclosed.context
    rw [if_neg hopen]
    by_cases hdepth : w.config.iodepth < 1
    · rw [if_pos hdepth]
      exact .failed _ o hnone hclosed hrest
    · rw [if_neg hdepth]
      cases hfile : w.openFile with
      | error e => exact .failed e o hnone hclosed hrest
      | ok result =>
          have hfd : 0 ≤ result.fd := openFile_ok hfile
          dsimp only
          by_cases hsetup : w.setupRet < 0
          · rw [if_pos hsetup]
            exact .failed _ _ hnone
              ⟨rfl, rfl, (o.holds.release_acquire result.fd).trans hclosed.holds⟩
              ⟨fun _ => rfl, fun _ => hheld⟩
          · rw [if_neg hsetup]
            exact .opened _ hnone (hclosed.create (descriptorOf_of_nonneg hfd) rfl)
              ⟨fun hneg => absurd hneg (Int32.not_lt.mpr hfd), nofun⟩

/-- Draining leaves the descriptor and the context alone. -/
theorem drain_keeps {rounds : List (Int × GetEvents)} {s t : Libaio}
    (h : drain rounds s = some t) :
    t.engine.fd = s.engine.fd ∧ t.engine.ctx = s.engine.ctx := by
  induction rounds generalizing s with
  | nil =>
      obtain ⟨-, ht⟩ := Option.ite_none_left_eq_some.mp h
      rw [← Option.some.inj ht]
      exact ⟨rfl, rfl⟩
  | cons round rounds ih =>
      obtain ⟨remaining, reply⟩ := round
      unfold drain at h
      by_cases hdone : s.busy = false ∨ remaining ≤ 0
      · rw [if_pos hdone] at h
        rw [← Option.some.inj h]
        exact ⟨rfl, rfl⟩
      · rw [if_neg hdone] at h
        split at h
        case h_1 ret =>
            by_cases hintr : ret = -EINTR
            · rw [if_pos hintr] at h
              exact ih h
            · rw [if_neg hintr] at h
              obtain ⟨-, ht⟩ := Option.ite_none_right_eq_some.mp h
              rw [← Option.some.inj ht]
              exact ⟨rfl, rfl⟩
        case h_2 =>
            rw [← Option.some.inj h]
            exact ⟨rfl, rfl⟩
        case h_3 choices _ =>
            obtain ⟨-, h⟩ := Option.ite_none_right_eq_some.mp h
            obtain ⟨p, -, hrest⟩ := Option.bind_eq_some_iff.mp h
            have hkept := ih hrest
            exact hkept

/-- What `Close` leaves of the engine. -/
theorem cleared {o : OwnedLibaio} (hb : Balanced (libaioDevice admits) o)
    (hrest : Rest o.state) :
    clearMembers (closeDescriptor (destroyContext o)) =
      { state := { engine := {}, unexpected := o.state.unexpected }, holds := {} } := by
  obtain ⟨⟨engine, held, unexpected⟩, holds⟩ := o
  by_cases hctx : engine.ctx = true
  · -- a context comes with a descriptor
    have hfd : 0 ≤ engine.fd :=
      Int32.not_lt.mp (fun hneg => hb.context hctx (descriptorOf_eq_none.mpr hneg))
    have hgone : holds.destroy.release engine.fd = {} :=
      hb.destroy (descriptorOf_of_nonneg hfd) hctx
    rw [destroyContext]
    dsimp only
    rw [if_pos hctx]
    rw [closeDescriptor]
    dsimp only
    rw [if_pos hfd, hgone]
    rfl
  · have hnone := Bool.not_eq_true _ ▸ hctx
    have hheld : held = [] := hrest.held hnone
    rw [destroyContext]
    dsimp only
    rw [if_neg hctx, hheld]
    rw [closeDescriptor]
    dsimp only
    by_cases hfd : 0 ≤ engine.fd
    · have hgone : holds.release engine.fd = {} :=
        hb.release (descriptorOf_of_nonneg hfd) hnone
      rw [if_pos hfd, hgone]
      show ({ state := { engine := { ctx := engine.ctx }
                         unexpected := unexpected } } : OwnedLibaio) = _
      rw [hnone]
    · have hneg := Int32.not_le.mp hfd
      have hgone : holds = {} := (hb.closed (descriptorOf_eq_none.mpr hneg)).holds
      rw [if_neg hfd, hgone]
      show ({ state := { engine := { ctx := engine.ctx, fd := engine.fd }
                         unexpected := unexpected } } : OwnedLibaio) = _
      rw [hnone, hrest.fd hneg]

/-- **`Close`, with or without requests in flight.** -/
theorem closeEngine_cleared {rounds : List (Int × GetEvents)} {o o' : OwnedLibaio}
    (hb : Balanced (libaioDevice admits) o) (hrest : Rest o.state)
    (h : closeEngine rounds o = some o') :
    ∃ unexpected, o' = { state := { engine := {}, unexpected := unexpected } } := by
  obtain ⟨s, hs, rfl⟩ := Option.map_eq_some_iff.mp h
  obtain ⟨hfd, hctx⟩ : s.engine.fd = o.state.engine.fd ∧
      s.engine.ctx = o.state.engine.ctx := by
    split at hs
    · exact drain_keeps hs
    · rw [← Option.some.inj hs]
      exact ⟨rfl, rfl⟩
  have hheld : s.engine.ctx = false → s.held = [] := by
    intro hno
    have hidle : ¬ (o.state.engine.ctx = true ∧ o.state.busy = true) := by
      rintro ⟨hyes, -⟩
      rw [← hctx, hno] at hyes
      cases hyes
    rw [if_neg hidle] at hs
    rw [← Option.some.inj hs] at hno ⊢
    exact hrest.held hno
  refine ⟨s.unexpected, @cleared admits { o with state := s } ⟨?_, ?_, ?_⟩ ⟨?_, hheld⟩⟩
  · show o.holds.handles = (descriptorOf s.engine.fd).toList
    rw [hfd]
    exact hb.handles
  · show o.holds.contexts = if s.engine.ctx = true then 1 else 0
    rw [hctx]
    exact hb.contexts
  · show s.engine.ctx = true → descriptorOf s.engine.fd ≠ none
    rw [hfd, hctx]
    exact hb.context
  · show s.engine.fd < 0 → s.engine.fd = -1
    rw [hfd]
    exact hrest.fd

/-- Processing events opens and closes nothing. -/
theorem reap_keeps (events : List IoEvent) (s : Libaio) (out : List IOCompletion) :
    (reap events s out).1.engine.fd = s.engine.fd ∧
      (reap events s out).1.engine.ctx = s.engine.ctx := by
  induction events generalizing s out with
  | nil => exact ⟨rfl, rfl⟩
  | cons event events ih =>
      rw [reap]
      cases s.engine.inFlight.lookup event.data with
      | none => exact ih _ out
      | some info => exact ih _ _

theorem submitIo_keeps (ret : Int32) (request : IORequest) (s : Libaio) :
    (submitIo ret request s).state.engine.fd = s.engine.fd ∧
      (submitIo ret request s).state.engine.ctx = s.engine.ctx := by
  have hsub := submitIo_submitted ret request s
  generalize submitIo ret request s = res at hsub ⊢
  cases hsub with
  | accepted obj rest hnew hfree => exact ⟨rfl, rfl⟩
  | rejected e pool hlen hlogic => exact ⟨rfl, rfl⟩

/-- A closed engine refuses requests. -/
theorem submitIo_closed {s : Libaio} (h : s.engine.fd < 0 ∨ s.engine.ctx = false) (ret : Int32)
    (request : IORequest) :
    submitIo ret request s
      = ⟨some (.runtimeError "LibaioEngine::SubmitIO -- engine is not open"), s⟩ := by
  rw [submitIo]
  rw [if_pos h]

theorem pollCompletions_keeps {replies : List GetEvents} {lo hi : Int}
    {out : List IOCompletion} {s : Libaio} {res : PollResult Exn IOCompletion Libaio}
    (h : pollCompletions admits replies lo hi out s = some res) :
    res.state.engine.fd = s.engine.fd ∧ res.state.engine.ctx = s.engine.ctx ∧
      (s.engine.ctx = false → res.state = s) := by
  obtain ⟨rfl, -⟩ | ⟨e, rfl⟩ | ⟨done, held', -, -, -, -, rfl⟩ := pollCompletions_cases h
  · exact ⟨rfl, rfl, fun _ => rfl⟩
  · exact ⟨rfl, rfl, fun _ => rfl⟩
  · obtain ⟨hfd, hctx⟩ := reap_keeps (done.map eventOf) { s with held := held' } out
    refine ⟨hfd, hctx, fun hno => ?_⟩
    -- without a context there is no batch
    rw [pollCompletions] at h
    rw [if_pos (.inl hno)] at h
    exact (congrArg PollResult.state (Option.some.inj h)).symm

/-! ## Indistinguishable engines -/

/-- Engines that are alike open alike. -/
theorem Alike.openWith {o p : OwnedLibaio} (h : AlikeOwned Alike o p) (w : AioOpen) :
    (CfioLibaio.openWith w o).thrown = (CfioLibaio.openWith w p).thrown ∧
      AlikeOwned Alike (CfioLibaio.openWith w o).state (CfioLibaio.openWith w p).state := by
  unfold CfioLibaio.openWith
  rw [h.state.engine, h.holds]
  dsimp only
  split
  · exact ⟨rfl, h⟩
  · split
    · exact ⟨rfl, h⟩
    · cases w.openFile with
      | error e => exact ⟨rfl, h⟩
      | ok result =>
          dsimp only
          split
          · exact ⟨rfl, ⟨rfl, h.state.held⟩, rfl⟩
          · exact ⟨rfl, ⟨rfl, h.state.held⟩, rfl⟩

theorem Alike.submit {s t : Libaio} (h : Alike s t) (ret : Int32) (request : IORequest) :
    (submitIo ret request s).thrown = (submitIo ret request t).thrown ∧
      Alike (submitIo ret request s).state (submitIo ret request t).state := by
  obtain ⟨engine, held, unexpected⟩ := s
  obtain ⟨engine', held', unexpected'⟩ := t
  obtain ⟨rfl, rfl⟩ : engine = engine' ∧ held = held' := ⟨h.engine, h.held⟩
  unfold submitIo
  dsimp only
  split
  · exact ⟨rfl, h⟩
  · split
    · exact ⟨rfl, h⟩
    · cases engine.freeIocbs with
      | nil => exact ⟨rfl, h⟩
      | cons obj rest =>
          dsimp only
          split
          · exact ⟨rfl, rfl, rfl⟩
          · split
            · exact ⟨rfl, rfl, rfl⟩
            · exact ⟨rfl, rfl, rfl⟩

theorem Alike.reap {s t : Libaio} (h : Alike s t) (events : List IoEvent)
    (out : List IOCompletion) :
    Alike (CfioLibaio.reap events s out).1 (CfioLibaio.reap events t out).1 ∧
      (CfioLibaio.reap events s out).2 = (CfioLibaio.reap events t out).2 := by
  induction events generalizing s t out with
  | nil => exact ⟨h, rfl⟩
  | cons event events ih =>
      unfold CfioLibaio.reap
      rw [h.engine]
      cases t.engine.inFlight.lookup event.data with
      | none =>
          refine ih ?_ out
          exact ⟨rfl, h.held⟩
      | some info =>
          refine ih ?_ _
          exact ⟨rfl, h.held⟩

theorem Alike.poll {s t : Libaio} (h : Alike s t) (replies : List GetEvents) (lo hi : Int)
    (out : List IOCompletion) :
    Option.Rel (fun x y => x.thrown = y.thrown ∧ x.out = y.out ∧ Alike x.state y.state)
      (pollCompletions admits replies lo hi out s)
      (pollCompletions admits replies lo hi out t) := by
  unfold pollCompletions
  rw [h.engine, h.held]
  by_cases hidle : t.engine.ctx = false ∨ hi < 1
  · rw [if_pos hidle, if_pos hidle]
    exact .some ⟨rfl, rfl, h⟩
  · rw [if_neg hidle, if_neg hidle]
    dsimp only
    by_cases hnone : min (if lo < 0 then 0 else lo) (t.engine.inFlight.keys.length : Int) < 1 ∧
        t.engine.inFlight.keys = []
    · rw [if_pos hnone, if_pos hnone]
      exact .some ⟨rfl, rfl, h⟩
    · rw [if_neg hnone, if_neg hnone]
      cases getEvents admits _ _ t.held replies with
      | none => exact .none
      | some reply =>
          obtain ⟨answer, held⟩ := reply
          cases answer with
          | error ret => exact .some ⟨rfl, rfl, h⟩
          | ok done =>
              obtain ⟨halike, hout⟩ := Alike.reap (s := { s with held := held })
                (t := { t with held := held }) ⟨h.engine, rfl⟩ (done.map eventOf) out
              rw [h.engine] at halike hout
              exact .some ⟨rfl, hout, halike⟩

theorem Alike.drain {s t : Libaio} (h : Alike s t) (rounds : List (Int × GetEvents)) :
    Option.Rel Alike (CfioLibaio.drain rounds s) (CfioLibaio.drain rounds t) := by
  induction rounds generalizing s t with
  | nil =>
      unfold CfioLibaio.drain Libaio.busy
      rw [h.engine]
      split
      · exact .none
      · exact .some h
  | cons round rounds ih =>
      obtain ⟨remaining, reply⟩ := round
      unfold CfioLibaio.drain Libaio.busy
      rw [h.engine, h.held]
      split
      · exact .some h
      · split
        · split
          · exact ih h
          · split
            · exact .some h
            · exact .none
        · exact .some h
        · split
          · cases pickMany _ t.held with
            | none => exact .none
            | some p => exact ih ⟨rfl, rfl⟩
          · exact .none

theorem Alike.clear {o p : OwnedLibaio} (h : AlikeOwned Alike o p) :
    AlikeOwned Alike (clearMembers (closeDescriptor (destroyContext o)))
      (clearMembers (closeDescriptor (destroyContext p))) := by
  obtain ⟨⟨engine, held, unexpected⟩, holds⟩ := o
  obtain ⟨⟨engine', held', unexpected'⟩, holds'⟩ := p
  obtain ⟨rfl, rfl, rfl⟩ : engine = engine' ∧ held = held' ∧ holds = holds' :=
    ⟨h.state.engine, h.state.held, h.holds⟩
  unfold destroyContext closeDescriptor
  dsimp only
  split
  · dsimp only
    split
    · exact ⟨⟨rfl, rfl⟩, rfl⟩
    · exact ⟨⟨rfl, rfl⟩, rfl⟩
  · dsimp only
    split
    · exact ⟨⟨rfl, rfl⟩, rfl⟩
    · exact ⟨⟨rfl, rfl⟩, rfl⟩

theorem Alike.close {o p : OwnedLibaio} (h : AlikeOwned Alike o p)
    (rounds : List (Int × GetEvents)) :
    Option.Rel (AlikeOwned Alike) (closeEngine rounds o) (closeEngine rounds p) := by
  rw [closeEngine]
  refine rel_map (R := Alike) (fun s t hst => ?_) ?_
  · exact Alike.clear (o := { o with state := s }) (p := { p with state := t })
      ⟨hst, h.holds⟩
  unfold Libaio.busy
  rw [h.state.engine]
  split
  · exact h.state.drain rounds
  · exact .some h.state

/-! ## The device -/

/-- What has to be shown of the engine. -/
def libaioTidy (admits : Int → Nat → Bool) : Tidy (libaioDevice admits) where
  rest := Rest
  alike := Alike
  new_rest := ⟨fun _ => rfl, fun _ => rfl⟩
  new_closed := ⟨rfl, rfl, rfl⟩
  openWith := openWith_opened
  submit := by
    intro kernel request s res hrest h
    obtain rfl := Option.some.inj h
    obtain ⟨hfd, hctx⟩ := submitIo_keeps kernel.submitRet request s
    refine ⟨⟨?_, ?_⟩, congrArg descriptorOf hfd, hctx⟩
    · rw [hfd]
      exact hrest.fd
    · intro hno
      rw [hctx] at hno
      rw [submitIo_closed (.inr hno)]
      exact hrest.held hno
  refused := by
    intro kernel request s hnone
    exact ⟨_, congrArg some
      (submitIo_closed (.inl (descriptorOf_eq_none.mp hnone)) kernel.submitRet request)⟩
  poll := by
    intro kernel lo hi out s res hrest h
    obtain ⟨hfd, hctx, hsame⟩ := pollCompletions_keeps h
    refine ⟨⟨?_, ?_⟩, congrArg descriptorOf hfd, hctx⟩
    · rw [hfd]
      exact hrest.fd
    · intro hno
      rw [hctx] at hno
      rw [hsame hno]
      exact hrest.held hno
  close := by
    intro rounds o o' hb hrest h
    obtain ⟨unexpected, rfl⟩ := closeEngine_cleared hb hrest h
    exact ⟨⟨rfl, rfl, rfl⟩, rfl, ⟨fun _ => rfl, fun _ => rfl⟩, ⟨rfl, rfl⟩, fun _ => rfl⟩
  alike_openWith := fun w o p h => Alike.openWith h w
  alike_submit := fun kernel request s t h => .some (h.submit kernel.submitRet request)
  alike_poll := fun kernel lo hi out s t h => h.poll kernel.getevents lo hi out
  alike_close := fun rounds o p h => Alike.close h rounds
  alike_flag := fun s t h => congrArg LibaioEngine.directEffective h.engine

end CfioLibaio
