import Cfio.CompletionRecords

/-! # How long a poll may wait

    `PollCompletions` asks the kernel to block for some number of completions.  The
    synchronous engines never do; `LibaioEngine` asks for no more than it has in
    flight; `IoUringEngine` asks for as many as it was told to.  A number above the
    requests in flight can only end in an error or never. -/

namespace CfioPollLimits

open CfioTypes CfioConfig CfioEngine RequestServer Transition

variable {σ κ : Type*}

/-- The number of requests accepted and not yet reported. -/
def unreported (c : ClientState σ IORequest IOCompletion) : Int :=
  (c.accepted.length : Int) - c.delivered.length

/-- What is waited for, if anything is, can come. -/
def NeverOverwaits (waitsFor : Option Int) (c : ClientState σ IORequest IOCompletion) :
    Prop :=
  ∀ m, waitsFor = some m → m ≤ unreported c

/-- A poll appends at most as many completions as it was told to. -/
def AppendsAtMost (S : Server σ κ IORequest IOCompletion Exn) (minEvents maxEvents : Int)
    (s : σ) : Prop :=
  ∀ kernel out res, S.poll kernel minEvents maxEvents out s = some res →
    ∃ cs, res.out = out ++ cs ∧ (cs.length : Int) ≤ maxEvents

/-- The kernel can let a poll return. -/
def CanReturn (S : Server σ κ IORequest IOCompletion Exn) (minEvents maxEvents : Int)
    (s : σ) : Prop :=
  ∀ out, ∃ kernel res, S.poll kernel minEvents maxEvents out s = some res
    ∧ res.thrown = none

/-! ## The synchronous engines -/

/-- A poll that returns whatever the kernel does. -/
def NeverWaits (S : Server σ κ IORequest IOCompletion Exn) (minEvents maxEvents : Int) :
    Prop :=
  ∀ s kernel out, ∃ res, S.poll kernel minEvents maxEvents out s = some res
    ∧ res.thrown = none ∧ ∃ cs, res.out = out ++ cs ∧ (cs.length : Int) ≤ maxEvents

/-- A poll of a blocking engine returns at once, with its one completion if there is one. -/
theorem blocking_returns {maxEvents : Int} (hmax : 1 ≤ maxEvents)
    (engine : CfioSyncEngines.BlockingEngine) (out : List IOCompletion) :
    (engine.pollCompletions maxEvents out).thrown = none
      ∧ ∃ cs, (engine.pollCompletions maxEvents out).out = out ++ cs
        ∧ (cs.length : Int) ≤ maxEvents := by
  rw [CfioSyncEngines.BlockingEngine.pollCompletions]
  by_cases hidle : engine.hasCompletion = false ∨ maxEvents < 1
  · rw [if_pos hidle]
    refine ⟨rfl, [], (List.append_nil out).symm, ?_⟩
    show (0 : Int) ≤ maxEvents
    omega
  · rw [if_neg hidle]
    exact ⟨rfl, [engine.lastCompletion], rfl, hmax⟩

theorem psync_neverWaits {minEvents maxEvents : Int} (hmax : 1 ≤ maxEvents) :
    NeverWaits CfioSyncEngines.psyncEngine minEvents maxEvents :=
  fun s _ out => ⟨_, rfl, blocking_returns hmax s out⟩

theorem sync_neverWaits {minEvents maxEvents : Int} (hmax : 1 ≤ maxEvents) :
    NeverWaits CfioSyncEngines.syncEngine minEvents maxEvents :=
  fun s _ out => ⟨_, rfl, blocking_returns hmax s out⟩

/-! ## Linux AIO -/

/-- The minimum `LibaioEngine` passes to `io_getevents`, if it gets there. -/
def libaioWaitsFor (minEvents maxEvents : Int) (s : CfioLibaio.Libaio) : Option Int :=
  if s.engine.ctx = false ∨ maxEvents < 1 then none
  else
    let minEvents := if minEvents < 0 then 0 else minEvents
    let minEvents := min minEvents (s.engine.inFlight.keys.length : Int)
    if minEvents < 1 ∧ s.engine.inFlight.keys = [] then none else some minEvents

section Libaio

variable {admits : Int → Nat → Bool} {d : Nat} {minEvents maxEvents : Int}
variable {s : CfioLibaio.Libaio}

/-- What `PollCompletions` makes of what `io_getevents` gives. -/
def afterGetEvents (out : List IOCompletion) (s : CfioLibaio.Libaio) :
    Except Int32 (List (CfioLibaio.Held × CfioLibaio.AioResult)) × List CfioLibaio.Held →
      PollResult Exn IOCompletion CfioLibaio.Libaio
  | (.error ret, _) =>
      ⟨some (.systemError (-ret) "LibaioEngine::PollCompletions -- io_getevents failed"),
        out, s⟩
  | (.ok done, held) =>
      let reaped := CfioLibaio.reap (done.map CfioLibaio.eventOf) { s with held := held } out
      ⟨none, reaped.2, reaped.1⟩

/-- `PollCompletions` is a call of `io_getevents` with that minimum, or nothing. -/
theorem libaio_poll_eq (admits : Int → Nat → Bool) (minEvents maxEvents : Int)
    (s : CfioLibaio.Libaio) (replies : List CfioLibaio.GetEvents) (out : List IOCompletion) :
    CfioLibaio.pollCompletions admits replies minEvents maxEvents out s
      = match libaioWaitsFor minEvents maxEvents s with
        | none => some ⟨none, out, s⟩
        | some m =>
            (CfioLibaio.getEvents admits m (min maxEvents (s.engine.events : Int)) s.held
              replies).map (afterGetEvents out s) := by
  simp only [CfioLibaio.pollCompletions, libaioWaitsFor]
  by_cases hidle : s.engine.ctx = false ∨ maxEvents < 1
  · rw [if_pos hidle, if_pos hidle]
  rw [if_neg hidle, if_neg hidle]
  by_cases hnone : min (if minEvents < 0 then 0 else minEvents)
      (s.engine.inFlight.keys.length : Int) < 1 ∧ s.engine.inFlight.keys = []
  · rw [if_pos hnone, if_pos hnone]
  · rw [if_neg hnone, if_neg hnone]
    refine congrArg (fun f => Option.map f _) (funext fun reply => ?_)
    obtain ⟨reply, held⟩ := reply
    cases reply <;> rfl

/-- The engine asks for no more than is in flight, and never for less than nothing. -/
theorem libaioWaitsFor_le {m : Int} (h : libaioWaitsFor minEvents maxEvents s = some m) :
    0 ≤ m ∧ m ≤ (s.engine.inFlight.keys.length : Int) ∧ m ≤ max minEvents 0 := by
  simp only [libaioWaitsFor] at h
  rw [← max_def_lt] at h
  obtain ⟨-, h⟩ := Option.ite_none_left_eq_some.mp h
  obtain ⟨-, h⟩ := Option.ite_none_left_eq_some.mp h
  rw [← Option.some.inj h]
  omega

/-- A poll of libaio appends no more than it was asked for. -/
theorem libaio_appendsAtMost (hinv : CfioLibaio.AioInv d [] s) (hmax : 1 ≤ maxEvents) :
    AppendsAtMost (CfioLibaio.libaioEngine admits) minEvents maxEvents s := by
  intro kernel out res h
  have hzero : ((([] : List IOCompletion).length : Nat) : Int) ≤ maxEvents := by
    rw [List.length_nil]
    omega
  rcases CfioLibaio.pollCompletions_cases h with ⟨rfl, -⟩ | ⟨e, rfl⟩ | hbatch
  · exact ⟨[], (List.append_nil out).symm, hzero⟩
  · exact ⟨[], (List.append_nil out).symm, hzero⟩
  · obtain ⟨done, held', hperm, hlen, -, -, rfl⟩ := hbatch
    obtain ⟨-, -, -, hout⟩ := CfioLibaio.reap_inv (hinv.taken hperm) out
    refine ⟨_, hout, ?_⟩
    rw [List.length_map]
    omega

/-- A kernel that has completed what it holds lets the call return. -/
theorem libaio_canReturn (hadmits : ∀ m n, m ≤ ((n : Nat) : Int) → admits m n = true)
    (hinv : CfioLibaio.AioInv d [] s) (hmax : 1 ≤ maxEvents) (hle : minEvents ≤ maxEvents) :
    CanReturn (CfioLibaio.libaioEngine admits) minEvents maxEvents s := by
  intro out
  have hsize : s.engine.inFlight.keys.length = s.held.length := by
    rw [hinv.tracks.size, List.nil_append, List.length_map]
  have hroom : s.held.length ≤ s.engine.events := by
    have hpool := hinv.pool.length_eq
    rw [List.length_append, List.nil_append, List.length_map, List.length_range,
      ← hinv.events] at hpool
    omega
  cases hwaits : libaioWaitsFor minEvents maxEvents s with
  | none =>
      have hpoll := libaio_poll_eq admits minEvents maxEvents s [] out
      rw [hwaits] at hpoll
      exact ⟨{}, _, hpoll, rfl⟩
  | some m =>
      obtain ⟨hpos, hflight, hmin⟩ := libaioWaitsFor_le hwaits
      obtain ⟨taken, rest, hpick⟩ := exists_pickMany (CfioLibaio.AioResult.mk 0 0)
        (show m.toNat ≤ s.held.length by omega)
      have hpoll := libaio_poll_eq admits minEvents maxEvents s
        [.events (List.replicate m.toNat (0, CfioLibaio.AioResult.mk 0 0))] out
      rw [hwaits] at hpoll
      dsimp only at hpoll
      rw [CfioLibaio.getEvents, List.length_replicate,
        if_pos ⟨by omega, hadmits m _ (by omega)⟩, hpick] at hpoll
      exact ⟨{ getevents := _ }, _, hpoll, rfl⟩

end Libaio

/-! ## io_uring -/

/-- The number `IoUringEngine` passes to `io_uring_wait_cqe_nr`, if it calls it. -/
def uringWaitsFor (minEvents maxEvents : Int) (s : CfioIoUring.IoUring) : Option Int :=
  if s.engine.ringInitialized = false ∨ maxEvents < 1 then none
  else
    let minEvents := if minEvents < 0 then 0 else minEvents
    if minEvents > 0 then some minEvents else none

section Uring

variable {minEvents maxEvents : Int} {s : CfioIoUring.IoUring}

/-- The engine waits for what it is told to. -/
theorem uringWaitsFor_open (hring : s.engine.ringInitialized = true) (hlo : 1 ≤ minEvents)
    (hhi : minEvents ≤ maxEvents) : uringWaitsFor minEvents maxEvents s = some minEvents := by
  have hbusy : ¬ (s.engine.ringInitialized = false ∨ maxEvents < 1) := by
    rintro (hclosed | hlow)
    · rw [hring] at hclosed
      cases hclosed
    · omega
  simp only [uringWaitsFor]
  rw [if_neg hbusy, if_neg (show ¬ minEvents < 0 by omega),
    if_pos (show minEvents > 0 by omega)]

/-- A call that gets past the wait has found at least as many entries. -/
theorem uring_poll_waited {kernel : CfioIoUring.UringKernel} {out : List IOCompletion}
    {res : PollResult Exn IOCompletion CfioIoUring.IoUring} {m : Int}
    (hwaits : uringWaitsFor minEvents maxEvents s = some m)
    (h : CfioIoUring.pollCompletions kernel minEvents maxEvents out s = some res)
    (hreturns : res.thrown = none) : m ≤ (s.held.length : Int) := by
  simp only [uringWaitsFor] at hwaits
  obtain ⟨hbusy, hwaits⟩ := Option.ite_none_left_eq_some.mp hwaits
  obtain ⟨-, hwaits⟩ := Option.ite_none_right_eq_some.mp hwaits
  rw [← Option.some.inj hwaits, ← max_def_lt]
  rcases CfioIoUring.pollCompletions_cases h with ⟨-, hidle⟩ | ⟨e, rfl⟩ | hbatch
  · exact absurd hidle hbusy
  · cases hreturns
  · obtain ⟨-, -, -, -, -, hheld, -⟩ := hbatch
    exact hheld

/-- A kernel that holds as many completed entries lets the call return. -/
theorem uring_canReturn (hheld : minEvents ≤ (s.held.length : Int)) (hlo : 1 ≤ minEvents)
    (hhi : minEvents ≤ maxEvents) :
    CanReturn CfioIoUring.ioUringEngine minEvents maxEvents s := by
  intro out
  obtain ⟨n, hn⟩ : ∃ n : Nat, (n : Int) = min minEvents (s.engine.cqeBatch : Int) :=
    ⟨(min minEvents (s.engine.cqeBatch : Int)).toNat, Int.toNat_of_nonneg (by omega)⟩
  obtain ⟨taken, rest, hpick⟩ := exists_pickMany (0 : Int32)
    (show n ≤ s.held.length by omega)
  by_cases hclosed : s.engine.ringInitialized = false
  · exact ⟨{}, _, if_pos (Or.inl hclosed), rfl⟩
  · have hbusy : ¬ (s.engine.ringInitialized = false ∨ maxEvents < 1) := by
      rintro (h | h)
      · exact hclosed h
      · omega
    have hcan : minEvents ≤ (s.held.length : Int)
        ∧ ((List.replicate n ((0 : Nat), (0 : Int32))).length : Int)
          ≤ min maxEvents (s.engine.cqeBatch : Int)
        ∧ min minEvents (min maxEvents (s.engine.cqeBatch : Int))
          ≤ ((List.replicate n ((0 : Nat), (0 : Int32))).length : Int) := by
      rw [List.length_replicate]
      omega
    have hpoll : CfioIoUring.pollCompletions
        { waits := [0], choices := List.replicate n (0, 0) } minEvents maxEvents out s
        = some ⟨none, (CfioIoUring.reap taken { s with held := rest } out).2,
          (CfioIoUring.reap taken { s with held := rest } out).1⟩ := by
      simp only [CfioIoUring.pollCompletions]
      rw [if_neg hbusy, if_neg (show ¬ minEvents < 0 by omega),
        if_pos (show minEvents > 0 by omega)]
      show (some 0).bind _ = _
      rw [Option.bind_some, if_neg (by decide), if_pos hcan, hpick]
      rfl
    exact ⟨_, _, hpoll, rfl⟩

/-- The loop over the queue entries takes one request out of the map for each record it
    appends. -/
theorem uring_reap_counts (cqes : List (CfioIoUring.Sqe × Int32)) (s : CfioIoUring.IoUring)
    (out : List IOCompletion) :
    ∃ cs, (CfioIoUring.reap cqes s out).2 = out ++ cs ∧ cs.length ≤ cqes.length
      ∧ (CfioIoUring.reap cqes s out).1.engine.inFlight.keys.length + cs.length
        = s.engine.inFlight.keys.length
      ∧ (CfioIoUring.reap cqes s out).1.engine.ringInitialized
        = s.engine.ringInitialized := by
  induction cqes generalizing s out with
  | nil => exact ⟨[], (List.append_nil out).symm, Nat.le_refl _, rfl, rfl⟩
  | cons cqe cqes ih =>
      obtain ⟨sqe, res⟩ := cqe
      rw [CfioIoUring.reap]
      cases hlookup : s.engine.inFlight.lookup sqe.userData with
      | none =>
          obtain ⟨cs, hout, hle, hkeys, hring⟩ := ih
            { s with unexpected := sqe.userData :: s.unexpected } out
          exact ⟨cs, hout, Nat.le_succ_of_le hle, hkeys, hring⟩
      | some info =>
          obtain ⟨cs, hout, hle, hkeys, hring⟩ := ih
            { s with
              engine := { s.engine with
                inFlight := s.engine.inFlight.erase sqe.userData } }
            (out ++ [CfioIoUring.completionOf sqe.userData info res])
          have hmem : sqe.userData ∈ s.engine.inFlight.keys :=
            AList.mem_keys.mp (AList.lookup_isSome.mp (by rw [hlookup]; rfl))
          have herase : (s.engine.inFlight.erase sqe.userData).keys.length
              = s.engine.inFlight.keys.length - 1 := by
            rw [AList.keys_erase, List.length_erase_of_mem hmem]
          have hpos := List.length_pos_of_mem hmem
          refine ⟨CfioIoUring.completionOf sqe.userData info res :: cs, ?_,
            Nat.succ_le_succ hle, ?_, hring⟩
          · refine hout.trans ?_
            rw [List.append_assoc]
            rfl
          · refine (congrArg Nat.succ hkeys).trans ?_
            show (s.engine.inFlight.erase sqe.userData).keys.length + 1 = _
            rw [herase]
            omega

/-- A poll of io_uring appends no more than it was asked for. -/
theorem uring_appendsAtMost (hmax : 1 ≤ maxEvents) :
    AppendsAtMost CfioIoUring.ioUringEngine minEvents maxEvents s := by
  intro kernel out res h
  have hzero : ((([] : List IOCompletion).length : Nat) : Int) ≤ maxEvents := by
    rw [List.length_nil]
    omega
  rcases CfioIoUring.pollCompletions_cases h with ⟨rfl, -⟩ | ⟨e, rfl⟩ | hbatch
  · exact ⟨[], (List.append_nil out).symm, hzero⟩
  · exact ⟨[], (List.append_nil out).symm, hzero⟩
  · obtain ⟨done, held', -, hlen, -, -, -, rfl⟩ := hbatch
    obtain ⟨cs, hout, hle, -⟩ := uring_reap_counts done { s with held := held' } out
    exact ⟨cs, hout, by omega⟩

/-- The requests in the map are those accepted and not yet reported. -/
structure Counted (c : ClientState CfioIoUring.IoUring IORequest IOCompletion) : Prop where
  ring : c.server.engine.ringInitialized = true
  count : (c.server.engine.inFlight.keys.length : Int) = unreported c

/-- **One call**, whether or not it throws. -/
theorem Counted.step {c c' : ClientState CfioIoUring.IoUring IORequest IOCompletion}
    {a : ClientAct CfioIoUring.UringKernel IORequest IOCompletion} (hc : Counted c)
    (h : clientStep CfioIoUring.ioUringEngine c a = some c') : Counted c' := by
  have hcount : (c.server.engine.inFlight.keys.length : Int)
      = (c.accepted.length : Int) - c.delivered.length := hc.count
  cases a with
  | submit kernel request =>
      obtain ⟨res, hres, rfl⟩ := Option.map_eq_some_iff.mp h
      have hsub := CfioIoUring.submitIo_submitted hres
      refine ⟨hsub.keeps.2.2.trans hc.ring, ?_⟩
      cases hsub with
      | refused e hcheck => exact hcount
      | left hcheck hneg => exact hcount
      | accepted n hcheck hge =>
          have hnew := (CfioIoUring.check_none hcheck).1
          show ((c.server.engine.inFlight.insert request.id _).keys.length : Int)
            = ((c.accepted ++ [request]).length : Int) - c.delivered.length
          rw [AList.keys_insert, List.erase_of_not_mem hnew, List.length_cons,
            List.length_append, List.length_singleton]
          omega
  | poll kernel lo hi out =>
      obtain ⟨res, hres, rfl⟩ := Option.map_eq_some_iff.mp h
      have hnothing : (c.server.engine.inFlight.keys.length : Int)
          = (c.accepted.length : Int) - (c.delivered ++ out.drop out.length).length := by
        rw [List.drop_length, List.append_nil]
        exact hcount
      rcases CfioIoUring.pollCompletions_cases hres with ⟨rfl, -⟩ | ⟨e, rfl⟩ | hbatch
      · exact ⟨hc.ring, hnothing⟩
      · exact ⟨hc.ring, hnothing⟩
      · obtain ⟨done, held', -, -, -, -, -, rfl⟩ := hbatch
        obtain ⟨cs, hout, -, hkeys, hring⟩ := uring_reap_counts done
          { c.server with held := held' } out
        refine ⟨hring.trans hc.ring, ?_⟩
        show ((CfioIoUring.reap done { c.server with held := held' } out).1.engine.inFlight.keys
            |>.length : Int)
          = (c.accepted.length : Int)
            - (c.delivered ++ (CfioIoUring.reap done { c.server with held := held' }
                out).2.drop out.length).length
        have hkeys' : _ + cs.length = c.server.engine.inFlight.keys.length := hkeys
        rw [hout, List.drop_left, List.length_append]
        omega

end Uring

/-! ## Every engine, every run -/

/-- `LibaioEngine`, opened at any depth and used by any client. -/
def LibaioPolls (minEvents maxEvents : Int) : Prop :=
  ∀ (admits : Int → Nat → Bool) (config : JobConfig) (first second : OpenOutcome)
    (setupRet : Int32) (engine : CfioLibaio.LibaioEngine) (as : List _)
    (c : ClientState CfioLibaio.Libaio IORequest IOCompletion),
    CfioLibaio.LibaioEngine.openEngine config first second setupRet {} = .ok engine →
    run (clientStep (CfioLibaio.libaioEngine admits)) ⟨{ engine := engine }, [], []⟩ as
      = some c →
    NeverOverwaits (libaioWaitsFor minEvents maxEvents c.server) c
      ∧ AppendsAtMost (CfioLibaio.libaioEngine admits) minEvents maxEvents c.server
      ∧ ((∀ m n, m ≤ ((n : Nat) : Int) → admits m n = true) →
          CanReturn (CfioLibaio.libaioEngine admits) minEvents maxEvents c.server)

/-- `IoUringEngine`, opened at any depth and used by any client: it waits for no more than
    can come just when it is not told to, and a call told to wait for more than the kernel
    holds does not return but by throwing. -/
def UringPolls (minEvents maxEvents : Int) : Prop :=
  ∀ (config : JobConfig) (first second : OpenOutcome) (initRet : Int32)
    (engine : CfioIoUring.IoUringEngine) (sqEntries : Nat) (as : List _)
    (c : ClientState CfioIoUring.IoUring IORequest IOCompletion),
    CfioIoUring.IoUringEngine.openEngine config first second initRet {} = .ok engine →
    run (clientStep CfioIoUring.ioUringEngine)
      ⟨{ engine := engine, sqEntries := sqEntries }, [], []⟩ as = some c →
    (NeverOverwaits (uringWaitsFor minEvents maxEvents c.server) c
        ↔ minEvents ≤ unreported c)
      ∧ AppendsAtMost CfioIoUring.ioUringEngine minEvents maxEvents c.server
      ∧ (minEvents ≤ (c.server.held.length : Int) →
          CanReturn CfioIoUring.ioUringEngine minEvents maxEvents c.server)
      ∧ ((c.server.held.length : Int) < minEvents → ∀ kernel out res,
          CfioIoUring.ioUringEngine.poll kernel minEvents maxEvents out c.server = some res →
          res.thrown ≠ none)

section Polls

variable {minEvents maxEvents : Int}

/-- All that can be said of a poll of libaio. -/
theorem libaio_polls (hlo : 1 ≤ minEvents) (hhi : minEvents ≤ maxEvents) :
    LibaioPolls minEvents maxEvents := by
  intro admits config first second setupRet engine as c hopen hrun
  obtain ⟨hinv, hanswered⟩ :=
    (CfioLibaio.libaioExact admits config.iodepth.toInt.toNat).run_accounted hrun
      (meets_of_forall (fun _ _ => trivial) _ _)
      ⟨(CfioLibaio.openEngine_inv hopen).1, Answered.refl (List.Perm.refl [])⟩
  refine ⟨?_, libaio_appendsAtMost hinv (by omega), ?_⟩
  · intro m hwaits
    have hle := (libaioWaitsFor_le hwaits).2.1
    have hlength := hanswered.length_eq
    have hkeys : c.server.engine.inFlight.keys.length = c.server.outstanding.length :=
      hinv.tracks.size
    show m ≤ (c.accepted.length : Int) - c.delivered.length
    have hout : c.delivered.length + c.server.outstanding.length = c.accepted.length := hlength
    omega
  · intro hadmits
    exact libaio_canReturn hadmits hinv (by omega) hhi

/-- All that can be said of a poll of io_uring. -/
theorem uring_polls (hlo : 1 ≤ minEvents) (hhi : minEvents ≤ maxEvents) :
    UringPolls minEvents maxEvents := by
  intro config first second initRet engine sqEntries as c hopen hrun
  have hc : Counted c := by
    refine run_invariant (fun _ _ _ hs h => Counted.step hs h) hrun ⟨?_, ?_⟩
    · exact (CfioIoUring.openEngine_isOpen hopen sqEntries).2
    · exact congrArg Int.ofNat (CfioIoUring.openEngine_inv hopen sqEntries).1.tracks.size
  have hwaits := uringWaitsFor_open hc.ring hlo hhi
  refine ⟨?_, uring_appendsAtMost (by omega), fun hheld => uring_canReturn hheld hlo hhi, ?_⟩
  · rw [hwaits]
    constructor
    · intro hnever
      exact hnever minEvents rfl
    · intro hle m hm
      rwa [← Option.some.inj hm]
  · intro hfew kernel out res hpoll hreturns
    have hheld := uring_poll_waited hwaits hpoll hreturns
    omega

/-- **How long the engines wait**: the synchronous ones never do; `LibaioEngine` never waits
    for more completions than it has requests accepted and not reported; `IoUringEngine`
    does so exactly when it is told to.  No poll appends more than it was told to. -/
theorem polls_bounded (hlo : 1 ≤ minEvents) (hhi : minEvents ≤ maxEvents) :
    NeverWaits CfioSyncEngines.psyncEngine minEvents maxEvents
      ∧ NeverWaits CfioSyncEngines.syncEngine minEvents maxEvents
      ∧ LibaioPolls minEvents maxEvents ∧ UringPolls minEvents maxEvents :=
  ⟨psync_neverWaits (by omega), sync_neverWaits (by omega), libaio_polls hlo hhi,
    uring_polls hlo hhi⟩

end Polls

/-- One completion or more, four at most. -/
theorem polls_bounded_four : LibaioPolls 1 4 ∧ UringPolls 1 4 :=
  (@polls_bounded 1 4 (by decide) (by decide)).2.2

/-- An idle ring, told to wait for one completion: nothing is in flight and it asks for
    one, so no answer of the kernel but an error lets the call return.  `LibaioEngine`
    returns at once. -/
theorem idle_ring_waits :
    CfioIoUring.IoUringEngine.openEngine CfioIoUring.ringJob ⟨3, 0⟩ ⟨-1, 0⟩ 0 {}
        = .ok CfioIoUring.ringEngine
      ∧ ¬ NeverOverwaits
          (uringWaitsFor 1 1 { engine := CfioIoUring.ringEngine, sqEntries := 2 })
          (⟨{ engine := CfioIoUring.ringEngine, sqEntries := 2 }, [], []⟩ :
            ClientState CfioIoUring.IoUring IORequest IOCompletion)
      ∧ (∀ kernel out res,
          CfioIoUring.ioUringEngine.poll kernel 1 1 out
            { engine := CfioIoUring.ringEngine, sqEntries := 2 } = some res →
          res.thrown ≠ none)
      ∧ ∀ admits kernel out,
          (CfioLibaio.libaioEngine admits).poll kernel 1 1 out
            { engine := CfioLibaio.depthTwoEngine }
            = some ⟨none, out, { engine := CfioLibaio.depthTwoEngine }⟩ := by
  refine ⟨rfl, ?_, ?_, fun _ _ _ => rfl⟩
  · intro hnever
    exact absurd (hnever 1 rfl) (by decide)
  · intro kernel out res hpoll hreturns
    have hwaits : uringWaitsFor 1 1 { engine := CfioIoUring.ringEngine, sqEntries := 2 }
        = some 1 := rfl
    have hheld := uring_poll_waited hwaits hpoll hreturns
    exact absurd hheld (by decide)

end CfioPollLimits
