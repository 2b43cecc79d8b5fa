import Mathlib.Algebra.Order.BigOperators.Group.List
import Mathlib.Algebra.Order.Ring.Int
import Cfio.WorkerSlots

/-! # What a worker counts

    The counters of a worker are functions of the completions it has recorded
    (`Tally`), and what it has recorded, followed by the batch in hand, is what
    the engine delivered (`run_tally`, for any engine).

    * `worker_counts_iff`: when `Run` ends, the counters are right exactly when no
      exception left a loop with part of a batch unrecorded.
    * `worker_conserves`: when the loops end normally, every request submitted was
      answered once, every answer counted and every slot given back. -/

namespace CfioWorkerAccounting

open CfioTypes CfioConfig CfioBufferPool CfioGenerators CfioHistogram CfioWorkerThread
open CfioWorkerSlots RequestServer Transition Words

/-! ## Counters -/

/-- A failed completion of one direction. -/
def failedIn (direction : IODirection) (c : IOCompletion) : Bool :=
  c.success = false ∧ c.direction = direction

/-- The bytes of a list of completions. -/
def totalBytes (cs : List IOCompletion) : Int :=
  (cs.map (fun c => c.bytesTransferred.toInt)).sum

/-- The counters after `recorded` completions, each in its own width. -/
structure Tally (thread : WorkerThread) (recorded : List IOCompletion) : Prop where
  iops : thread.iopsCount = UInt64.ofNat recorded.length
  histogram : thread.histogram.totalCount = UInt64.ofNat recorded.length
  bytes : thread.bytesTransferred = UInt64.ofInt (totalBytes recorded)
  readErrors : thread.readErrorCount = UInt64.ofNat (recorded.countP (failedIn .kRead))
  writeErrors :
    thread.writeErrorCount = UInt64.ofNat (recorded.countP (failedIn .kWrite))

/-- A counter that is bumped when its condition holds. -/
theorem bump_count {p : IOCompletion → Bool} {recorded : List IOCompletion}
    {counter : UInt64} (h : counter = UInt64.ofNat (recorded.countP p))
    (c : IOCompletion) (cond : Prop) [Decidable cond] (hp : cond ↔ p c = true) :
    (if cond then counter + 1 else counter)
      = UInt64.ofNat ((recorded ++ [c]).countP p) := by
  rw [List.countP_append, List.countP_singleton]
  by_cases hc : cond
  · rw [if_pos hc, if_pos (hp.mp hc), h, UInt64.ofNat_add]
    rfl
  · rw [if_neg hc, if_neg (fun hpc => hc (hp.mpr hpc)), h]
    rfl

/-- **One more completion recorded.** -/
theorem Tally.record {thread : WorkerThread} {recorded : List IOCompletion}
    (h : Tally thread recorded) (c : IOCompletion) (now : TimePoint) :
    Tally (thread.recordCompletion c now) (recorded ++ [c]) := by
  have hlen : UInt64.ofNat (recorded ++ [c]).length = UInt64.ofNat recorded.length + 1 := by
    rw [List.length_append, UInt64.ofNat_add]
    rfl
  refine ⟨?_, ?_, ?_, ?_, ?_⟩
  · rw [hlen, ← h.iops]
    rfl
  · rw [hlen, ← h.histogram]
    exact totalCount_record (by decide) _ _
  · show thread.bytesTransferred + c.bytesTransferred.toUInt64 = _
    have hsum : totalBytes (recorded ++ [c])
        = totalBytes recorded + c.bytesTransferred.toInt := by
      simp [totalBytes]
    rw [hsum, UInt64.ofInt_add, ofInt_toInt, h.bytes]
  · exact bump_count h.readErrors c _ (by simp [failedIn])
  · -- what is not a read is a write
    refine bump_count h.writeErrors c _ ?_
    cases hd : c.direction <;> simp [failedIn, hd]

/-! ## Any engine -/

section Tally

variable {σ κ : Type*} {E : Engine σ κ}
variable {running running' : Bool} {w w' : Worker σ} {env : Env κ}

/-- What was delivered is what was recorded, and the batch in hand. -/
def Tallied (w : Worker σ) : Prop :=
  ∃ recorded, delivered w.calls = recorded ++ w.loc.batch ∧ Tally w.thread recorded

theorem Tally.of_counters {thread thread' : WorkerThread} {recorded : List IOCompletion}
    (h : Tally thread recorded) (hi : thread'.iopsCount = thread.iopsCount)
    (hh : thread'.histogram = thread.histogram)
    (hb : thread'.bytesTransferred = thread.bytesTransferred)
    (hr : thread'.readErrorCount = thread.readErrorCount)
    (hw : thread'.writeErrorCount = thread.writeErrorCount) : Tally thread' recorded :=
  ⟨hi.trans h.iops, (congrArg _ hh).trans h.histogram, hb.trans h.bytes,
    hr.trans h.readErrors, hw.trans h.writeErrors⟩

/-- **Every step keeps the tally.** -/
theorem effect_tally (hi : Tallied w) (h : Effect E running w env running' w') :
    Tallied w' := by
  obtain ⟨recorded, hdel, htally⟩ := hi
  cases h with
  | jump next hj => exact ⟨recorded, hdel.trans (by rw [hj.batch]), htally⟩
  | accepted next request thread engine hs hgen hsub =>
      obtain ⟨slot, rest, -, -, rfl⟩ := generate_cases hgen
      refine ⟨recorded, ?_, htally.of_counters rfl rfl rfl rfl rfl⟩
      rw [delivered_submitIo, hs.batch]
      exact hdel
  | rejected next request thread engine e hs hgen hsub =>
      obtain ⟨slot, rest, -, -, rfl⟩ := generate_cases hgen
      refine ⟨recorded, ?_, htally.of_counters rfl rfl rfl rfl rfl⟩
      rw [delivered_submitIo]
      exact hdel
  | polled hiEvents go out engine hp hpoll =>
      obtain ⟨hb, hb'⟩ := hp.batch env.now out
      rw [hb, List.append_nil] at hdel
      refine ⟨recorded, ?_, htally⟩
      rw [delivered_pollCompletions, hb', hdel]
  | pollThrew hiEvents go out engine e hp hpoll =>
      obtain ⟨hb, -⟩ := hp.batch env.now out
      rw [hb, List.append_nil] at hdel
      refine ⟨recorded, ?_, htally⟩
      rw [delivered_pollCompletions, hdel]
      rfl
  | recorded now c next hr =>
      -- the completion moves from the batch to those recorded
      refine ⟨recorded ++ [c], ?_, htally.record c now⟩
      rw [List.append_assoc]
      exact hdel.trans (by rw [hr.batch]; rfl)
  | failed e lost hloc =>
      refine ⟨recorded, ?_, htally.of_counters rfl rfl rfl rfl rfl⟩
      rw [hloc] at hdel
      exact hdel

/-- A new worker has counted nothing. -/
theorem new_tally {alloc : Allocator} {config : JobConfig} {opened : Except Exn Bool}
    {thread : WorkerThread} (halloc : AllocatorSpec alloc)
    (h : WorkerThread.new alloc config opened = .ok thread) : Tally thread [] := by
  obtain ⟨pool, direct, -, rfl, -⟩ := new_worker halloc h
  exact ⟨rfl, totalCount_empty, rfl, rfl, rfl⟩

/-- Over a run, on any engine at all. -/
theorem run_tally {thread : WorkerThread} (hnew : Tally thread []) {s : σ}
    {running₀ : Bool} {as : List (ThreadAct Bool (Env κ))}
    (hrun : run (threadStep flagRely (step E))
      (running₀, { thread := thread, engine := s }) as = some (running, w)) :
    Tallied w :=
  worker_invariant (I := fun _ v => Tallied v) (fun _ _ _ _ hv => hv)
    (fun _ _ _ _ _ hv he => effect_tally hv he) hrun ⟨[], rfl, hnew⟩

/-! ## What an exception can lose -/

/-- A call that does not throw, or throws with nothing unrecorded in hand. -/
def CleanCall : EngineCall → Prop
  | .submitIo _ unrecorded _ thrown => thrown = none ∨ unrecorded = 0
  | .pollCompletions _ _ _ appended thrown => thrown = none ∨ appended = []

/-- Calls made from the loops so far were clean; once the loops were left, they
    all were exactly when nothing of a batch was left over. -/
structure CleanInv (w : Worker σ) : Prop where
  live : Live w.loc → ∀ call ∈ w.calls, CleanCall call
  ended : ¬ Live w.loc → (w.loc.batch = [] ↔ ∀ call ∈ w.calls, CleanCall call)

/-- All calls and one more. -/
theorem forall_append_single {calls : List EngineCall} {call : EngineCall}
    (h : ∀ c ∈ calls, CleanCall c) :
    (∀ c ∈ calls ++ [call], CleanCall c) ↔ CleanCall call := by
  rw [List.forall_mem_append, List.forall_mem_singleton]
  exact and_iff_right h

/-- The loops end with no batch in hand. -/
theorem jump_dead {depth : Int32} {loc next : Loc} (h : Jump running depth loc next)
    (hdead : ¬ Live next) : next.batch = [] := by
  cases h with
  | syncStop _ => rfl
  | drainStop n _ _ => rfl
  | _ => exact absurd trivial hdead

theorem effect_clean (hi : CleanInv w) (h : Effect E running w env running' w') :
    CleanInv w' := by
  cases h with
  | jump next hj =>
      have hclean := hi.live (Jump.live hj)
      exact ⟨fun _ => hclean, fun hdead => ⟨fun _ => hclean, fun _ => jump_dead hj hdead⟩⟩
  | accepted next request thread engine hs hgen hsub =>
      have hclean := hi.live (SubmitSite.live hs)
      exact ⟨fun _ => (forall_append_single hclean).mpr (.inl rfl),
        fun hdead => absurd (SubmitSite.next_live hs) hdead⟩
  | rejected next request thread engine e hs hgen hsub =>
      have hclean := hi.live (SubmitSite.live hs)
      refine ⟨fun hlive => hlive.elim, fun _ => ?_⟩
      rw [forall_append_single hclean]
      constructor
      · intro hnil
        exact .inr (List.length_eq_zero_iff.mpr hnil)
      · rintro (hno | hlen)
        · exact nomatch hno
        · exact List.length_eq_zero_iff.mp hlen
  | polled hiEvents go out engine hp hpoll =>
      have hclean := hi.live (PollSite.live hp)
      exact ⟨fun _ => (forall_append_single hclean).mpr (.inl rfl),
        fun hdead => absurd (PollSite.next_live hp env.now out) hdead⟩
  | pollThrew hiEvents go out engine e hp hpoll =>
      have hclean := hi.live (PollSite.live hp)
      refine ⟨fun hlive => hlive.elim, fun _ => ?_⟩
      rw [forall_append_single hclean]
      constructor
      · intro hnil
        exact .inr hnil
      · rintro (hno | hout)
        · exact nomatch hno
        · exact hout
  | recorded now c next hr =>
      have hclean := hi.live (RecordSite.live hr)
      exact ⟨fun _ => hclean, fun hdead => absurd (RecordSite.next_live hr) hdead⟩
  | failed e lost hloc =>
      have hended := hi.ended
      rw [hloc] at hended
      exact ⟨fun hlive => hlive.elim, fun _ => hended id⟩

/-- Over a run, on any engine at all. -/
theorem run_clean {thread : WorkerThread} {s : σ} {running₀ : Bool}
    {as : List (ThreadAct Bool (Env κ))}
    (hrun : run (threadStep flagRely (step E))
      (running₀, { thread := thread, engine := s }) as = some (running, w)) :
    CleanInv w :=
  worker_invariant (I := fun _ v => CleanInv v) (fun _ _ _ _ hv => hv)
    (fun _ _ _ _ _ hv he => effect_clean hv he) hrun
    ⟨fun _ _ hc => (nomatch hc), fun hdead => absurd trivial hdead⟩

end Tally

section Counts

variable {σ κ : Type*} {E : Engine σ κ} {answers : IORequest → IOCompletion → Prop}
variable {d : Nat} {C : Contract E answers d} {config : JobConfig} {alloc : Allocator}
variable {opened : Except Exn Bool} {thread : WorkerThread} {s : σ}
variable {running₀ running running' : Bool} {w w' : Worker σ} {env : Env κ}
variable {as : List (ThreadAct Bool (Env κ))}

/-- The counters of a worker count every completion the engine delivered once. -/
def CountedOnce (w : Worker σ) : Prop :=
  w.thread.iopsCount = UInt64.ofNat (delivered w.calls).length ∧
    w.thread.histogram.totalCount = UInt64.ofNat (delivered w.calls).length ∧
    w.thread.bytesTransferred = UInt64.ofInt (totalBytes (delivered w.calls))

/-- **What it takes to count every completion**: when `Run` has ended, the counters
    are right exactly when no `SubmitIO` threw with part of a batch unrecorded and
    no `PollCompletions` threw after it had appended. -/
theorem worker_counts_iff (hans : ∀ r c, answers r c → c.id = r.id)
    (hstart : Started C config alloc opened thread s)
    (hrun : run (threadStep flagRely (step E))
      (running₀, { thread := thread, engine := s }) as = some (running, w))
    {lost : List IOCompletion} (hend : w.loc = .finished lost) :
    CountedOnce w ↔ ∀ call ∈ w.calls, CleanCall call := by
  obtain ⟨recorded, hdel, htally⟩ :=
    run_tally (new_tally hstart.alloc_spec hstart.built) hrun
  have hslots := run_slotInv hans hstart hrun
  have hclean := (run_clean hrun).ended (by rw [hend]; exact id)
  rw [← hclean]
  constructor
  · rintro ⟨hiops, -, -⟩
    -- the counter says that nothing is left over, modulo its width
    have hlen := congrArg UInt64.toNat (htally.iops.symm.trans hiops)
    rw [UInt64.toNat_ofNat', UInt64.toNat_ofNat', hdel, List.length_append] at hlen
    have hsmall := hslots.length
    have hcap := hslots.capacity
    have hbound := hslots.geometry.capacity_le
    exact List.length_eq_zero_iff.mp (by omega)
  · intro hnil
    rw [hnil, List.append_nil] at hdel
    refine ⟨?_, ?_, ?_⟩
    · rw [hdel]
      exact htally.iops
    · rw [hdel]
      exact htally.histogram
    · rw [hdel]
      exact htally.bytes

end Counts

/-- The refill of the first slot of a batch fails. -/
def refillFailsRun : List (ThreadAct Bool (Env CfioLibaio.AioKernel)) :=
  prefillRun ++ [quiet, quiet, .own { kernel := { submitRet := -EAGAIN } }, quiet]

/-- It ends with a completion of the batch in hand. -/
theorem refillFails_ends :
    ∃ w, run (threadStep flagRely (step (CfioLibaio.libaioEngine waits)))
        (true, { thread := depthTwoThread, engine := { engine := CfioLibaio.depthTwoEngine } })
        refillFailsRun = some (false, w) ∧
      w.loc = .finished [⟨1, 512, .kRead, true, 0, 0⟩] ∧ (delivered w.calls).length = 2 ∧
      w.thread.iopsCount = 1 ∧ w.thread.failed = true := by
  have hend : (run (threadStep flagRely (step (CfioLibaio.libaioEngine waits)))
      (true, { thread := depthTwoThread, engine := { engine := CfioLibaio.depthTwoEngine } })
      refillFailsRun).map (fun s => (s.1, s.2.loc, (delivered s.2.calls).length,
        s.2.thread.iopsCount, s.2.thread.failed))
      = some (false, .finished [⟨1, 512, .kRead, true, 0, 0⟩], 2, 1, true) := rfl
  obtain ⟨⟨running, w⟩, hrun, hw⟩ := Option.map_eq_some_iff.mp hend
  simp only [Prod.mk.injEq] at hw
  obtain ⟨rfl, hfacts⟩ := hw
  exact ⟨w, hrun, hfacts⟩

/-- Two completions were delivered and one was counted. -/
theorem refill_failure_loses_completion :
    Started waitsContract CfioLibaio.depthTwoJob arenaAlloc (.ok true) depthTwoThread
        { engine := CfioLibaio.depthTwoEngine } ∧
      ∃ w lost, run (threadStep flagRely (step (CfioLibaio.libaioEngine waits)))
          (true, { thread := depthTwoThread, engine := { engine := CfioLibaio.depthTwoEngine } })
          refillFailsRun = some (false, w) ∧ w.loc = .finished lost ∧
        (delivered w.calls).length = 2 ∧ w.thread.iopsCount = 1 ∧
        w.thread.failed = true ∧ ¬ CountedOnce w := by
  obtain ⟨w, hrun, hend, hlen, hiops, hfailed⟩ := refillFails_ends
  refine ⟨depthTwo_started, w, _, hrun, hend, hlen, hiops, hfailed, ?_⟩
  rintro ⟨hcount, -, -⟩
  rw [hiops, hlen] at hcount
  exact absurd hcount (by decide)

/-- `worker_counts_iff` on that run. -/
theorem worker_counts_iff_refill :
    ∃ w, run (threadStep flagRely (step (CfioLibaio.libaioEngine waits)))
        (true, { thread := depthTwoThread, engine := { engine := CfioLibaio.depthTwoEngine } })
        refillFailsRun = some (false, w) ∧
      (CountedOnce w ↔ ∀ call ∈ w.calls, CleanCall call) := by
  obtain ⟨w, hrun, hend, -⟩ := refillFails_ends
  exact ⟨w, hrun, worker_counts_iff (fun r c h => h.id) depthTwo_started hrun hend⟩

/-! ## When the loops end normally -/

section Conserved

variable {σ κ : Type*} {E : Engine σ κ} {answers : IORequest → IOCompletion → Prop}
variable {d : Nat} (C : Contract E answers d) (config : JobConfig)

/-- No exception has left the loops. -/
def Normal (w : Worker σ) : Prop :=
  match w.loc with
  | .unwinding _ _ => False
  | .finished _ => w.thread.failed = false
  | _ => True

/-- The direction of a request in a mode that only reads, or only writes. -/
def DirectionOk (request : IORequest) : Prop :=
  (ReadOnly config.rwMode → request.direction = .kRead) ∧
    (WriteOnly config.rwMode → request.direction = .kWrite)

/-- Unless an exception has left the loops, every request submitted was answered or
    is outstanding; each has the direction of the workload. -/
structure AccountInv (w : Worker σ) : Prop where
  answered : Normal w →
    Answered answers (submitted w.calls) (delivered w.calls) (C.outstanding w.engine)
  mode : w.thread.directionDecider.mode = config.rwMode
  directions : ∀ r ∈ submitted w.calls, DirectionOk config r

variable {C config}
variable {alloc : Allocator} {opened : Except Exn Bool} {thread : WorkerThread} {s : σ}
variable {running₀ running running' : Bool} {w w' : Worker σ} {env : Env κ}
variable {as : List (ThreadAct Bool (Env κ))}

theorem Normal.of_live (h : Live w.loc) : Normal w := by
  obtain ⟨thread, engine, loc, calls⟩ := w
  cases loc with
  | unwinding e lost => exact h
  | finished lost => exact h.elim
  | _ => exact trivial

/-- The next request has the direction of the workload, and the worker stays in its
    mode. -/
theorem generate_direction {raw : UInt64} {coin : Bool} {thread' : WorkerThread}
    {request : IORequest} (hmode : thread.directionDecider.mode = config.rwMode)
    (h : thread.generateNextIo raw coin = some (request, thread')) :
    DirectionOk config request ∧ thread'.directionDecider.mode = config.rwMode := by
  obtain ⟨slot, rest, -, rfl, rfl⟩ := generate_cases h
  obtain ⟨hread, hwrite⟩ := next_pure thread.directionDecider coin
  rw [hmode] at hread hwrite
  exact ⟨⟨hread, hwrite⟩, hmode⟩

/-- **Every step accounts for its requests.** -/
theorem effect_account (hd : config.effectiveIODepth.toInt = d) (hpos : 1 ≤ d)
    (hslots : SlotInv C config running w) (hi : AccountInv C config w)
    (h : Effect E running w env running' w') : AccountInv C config w' := by
  have hdepth := hslots.depth_eq hd
  cases h with
  | jump next hj =>
      have hlive := Jump.live hj
      exact ⟨fun _ => hi.answered (.of_live hlive), hi.mode, hi.directions⟩
  | accepted next request thread engine hs hgen hsub =>
      have hlive := SubmitSite.live hs
      obtain ⟨-, hout⟩ := C.accepted (hslots.valid hlive) hsub
      obtain ⟨hdir, hmode⟩ := generate_direction hi.mode hgen
      refine ⟨?_, hmode, forall_submitted_submitIo hi.directions hdir⟩
      intro _
      rw [submitted_submitIo, delivered_submitIo]
      exact (hi.answered (.of_live hlive)).accept hout
  | rejected next request thread engine e hs hgen hsub =>
      obtain ⟨hdir, hmode⟩ := generate_direction hi.mode hgen
      exact ⟨fun hno => hno.elim, hmode, forall_submitted_submitIo hi.directions hdir⟩
  | polled hiEvents go out engine hp hpoll =>
      obtain ⟨-, hans, -⟩ := poll_contract hslots hp hdepth hpos hpoll
      refine ⟨?_, hi.mode, ?_⟩
      · intro _
        rw [submitted_pollCompletions, delivered_pollCompletions]
        exact (hi.answered (.of_live (PollSite.live hp))).trans hans
      · rw [submitted_pollCompletions]
        exact hi.directions
  | pollThrew hiEvents go out engine e hp hpoll =>
      refine ⟨fun hno => hno.elim, hi.mode, ?_⟩
      rw [submitted_pollCompletions]
      exact hi.directions
  | recorded now c next hr =>
      have hlive := RecordSite.live hr
      exact ⟨fun _ => hi.answered (.of_live hlive), hi.mode, hi.directions⟩
  | failed e lost hloc =>
      exact ⟨fun hno => Bool.noConfusion (show true = false from hno), hi.mode, hi.directions⟩

/-- Over a run. -/
theorem run_account (hans : ∀ r c, answers r c → c.id = r.id)
    (hstart : Started C config alloc opened thread s)
    (hrun : run (threadStep flagRely (step E))
      (running₀, { thread := thread, engine := s }) as = some (running, w)) :
    SlotInv C config running w ∧ AccountInv C config w := by
  obtain ⟨hd, hpos⟩ := hstart.depth_eq
  refine run_slotInv_and hans hstart ?_ hrun ?_
  · intro g v env g' v' hslots hacc he
    exact effect_account hd hpos hslots hacc he
  · obtain ⟨pool, direct, -, rfl, -⟩ := new_worker hstart.alloc_spec hstart.built
    refine ⟨fun _ => .refl ?_, rfl, fun r hr => nomatch hr⟩
    rw [hstart.idle]
    exact List.Perm.refl _

/-- Failed completions by the direction they carry are failed completions by the
    direction of their request. -/
theorem countP_served {served : List (IORequest × IOCompletion)}
    {cs : List IOCompletion} (hcs : served.map Prod.snd = cs)
    (hdir : ∀ p ∈ served, p.2.direction = p.1.direction) (direction : IODirection) :
    cs.countP (failedIn direction)
      = served.countP (fun p => p.2.success = false ∧ p.1.direction = direction) := by
  rw [← hcs, List.countP_map]
  refine List.countP_congr ?_
  intro p hp
  simp [failedIn, hdir p hp]

/-- No request of a direction, no failed completion of one. -/
theorem countP_other {served : List (IORequest × IOCompletion)} {direction : IODirection}
    (h : ∀ p ∈ served, p.1.direction ≠ direction) :
    served.countP (fun p => p.2.success = false ∧ p.1.direction = direction) = 0 := by
  rw [List.countP_eq_zero]
  intro p hp hfailed
  exact h p hp (of_decide_eq_true hfailed).2

/-- Bytes that are not negative sum up to no less. -/
theorem totalBytes_nonneg {cs : List IOCompletion}
    (h : ∀ c ∈ cs, 0 ≤ c.bytesTransferred.toInt) : 0 ≤ totalBytes cs := by
  refine List.sum_nonneg ?_
  intro n hn
  obtain ⟨c, hc, rfl⟩ := List.mem_map.mp hn
  exact h c hc

/-- What a worker leaves behind whose loop returned: nothing outstanding, every slot
    free, every request submitted answered by one completion, and every completion
    counted, the failed ones by the direction their request was submitted with. -/
structure Conserved (C : Contract E answers d) (config : JobConfig) (w : Worker σ) :
    Prop where
  drained : C.outstanding w.engine = []
  free : (freeIds w).Perm (List.range d)
  submitted_eq : (submitted w.calls).length = (delivered w.calls).length
  iops : w.thread.iopsCount.toNat = (delivered w.calls).length
  histogram : w.thread.histogram.totalCount.toNat = (delivered w.calls).length
  bytes : (w.thread.bytesTransferred.toNat : Int) = totalBytes (delivered w.calls)
  errors : ∃ served : List (IORequest × IOCompletion),
    served.map Prod.snd = delivered w.calls ∧
    (served.map Prod.fst).Perm (submitted w.calls) ∧
    (∀ p ∈ served, answers p.1 p.2) ∧
    w.thread.readErrorCount.toNat
      = served.countP (fun p => p.2.success = false ∧ p.1.direction = .kRead) ∧
    w.thread.writeErrorCount.toNat
      = served.countP (fun p => p.2.success = false ∧ p.1.direction = .kWrite)
  readOnly : ReadOnly config.rwMode → w.thread.writeErrorCount = 0
  writeOnly : WriteOnly config.rwMode → w.thread.readErrorCount = 0

/-- The loop's own count says that the engine is idle and the batch done. -/
theorem SlotInv.returned (hi : SlotInv C config running w) {lost : List IOCompletion}
    (hend : w.loc = .finished lost) (hok : w.thread.failed = false) :
    C.outstanding w.engine = [] ∧ w.loc.batch = [] ∧
      (freeIds w).Perm (List.range d) := by
  have hcounted := hi.counted
  rw [hend, hok] at hcounted
  obtain ⟨hlen, hlost⟩ := hcounted.resolve_left Bool.false_ne_true
  have hdrained : C.outstanding w.engine = [] := List.length_eq_zero_iff.mp hlen
  have hbatch : w.loc.batch = [] := by
    rw [hend]
    exact hlost
  refine ⟨hdrained, hbatch, ?_⟩
  have hslots := hi.slots
  simp only [outstandingIds, hdrained, polledIds, hbatch, List.map_nil,
    List.append_nil] at hslots
  exact hslots

/-- **Conservation**: whenever and wherever the flag is cleared, and in whatever
    order and batches the engine completes. -/
theorem worker_conserves (hid : ∀ r c, answers r c → c.id = r.id)
    (hdir : ∀ r c, answers r c → c.direction = r.direction)
    (hbytes : ∀ r c, answers r c → 0 ≤ c.bytesTransferred.toInt)
    (hstart : Started C config alloc opened thread s)
    (hrun : run (threadStep flagRely (step E))
      (running₀, { thread := thread, engine := s }) as = some (running, w))
    {lost : List IOCompletion} (hend : w.loc = .finished lost)
    (hok : w.thread.failed = false) (hcount : (delivered w.calls).length < 2 ^ 64)
    (htotal : totalBytes (delivered w.calls) < 2 ^ 64) : Conserved C config w := by
  obtain ⟨hslots, hacc⟩ := run_account hid hstart hrun
  obtain ⟨recorded, hdel, htally⟩ :=
    run_tally (new_tally hstart.alloc_spec hstart.built) hrun
  obtain ⟨hdrained, hbatch, hfree⟩ := SlotInv.returned hslots hend hok
  rw [hbatch, List.append_nil] at hdel
  rw [← hdel] at htally
  have hnormal : Normal w := by
    rw [Normal, hend]
    exact hok
  obtain ⟨served, hsnd, hperm, hserved⟩ := hacc.answered hnormal
  rw [hdrained, List.append_nil] at hperm
  have hdirs : ∀ p ∈ served, DirectionOk config p.1 :=
    fun p hp => hacc.directions p.1 (hperm.mem_iff.mp (List.mem_map_of_mem hp))
  -- each error counter, by the direction of the requests
  have herrors : ∀ {direction : IODirection} {counter : UInt64},
      counter = UInt64.ofNat ((delivered w.calls).countP (failedIn direction)) →
      counter.toNat = served.countP
        (fun p => p.2.success = false ∧ p.1.direction = direction) := by
    intro direction counter h
    rw [h, UInt64.toNat_ofNat_of_lt'
      (Nat.lt_of_le_of_lt (List.countP_le_length ..) hcount)]
    exact countP_served hsnd (fun p hp => hdir p.1 p.2 (hserved p hp)) direction
  have hreads := herrors htally.readErrors
  have hwrites := herrors htally.writeErrors
  refine ⟨hdrained, hfree, ?_, ?_, ?_, ?_, ⟨served, hsnd, hperm, hserved, hreads, hwrites⟩,
    ?_, ?_⟩
  · rw [← hperm.length_eq, ← hsnd, List.length_map, List.length_map]
  · rw [htally.iops, UInt64.toNat_ofNat_of_lt' hcount]
  · rw [htally.histogram, UInt64.toNat_ofNat_of_lt' hcount]
  · rw [htally.bytes]
    refine toNat_ofInt (totalBytes_nonneg ?_) htotal
    intro c hc
    rw [← hsnd] at hc
    obtain ⟨p, hp, rfl⟩ := List.mem_map.mp hc
    exact hbytes p.1 p.2 (hserved p hp)
  · intro hmode
    refine UInt64.toNat_inj.mp (hwrites.trans (countP_other ?_))
    intro p hp hwrite
    rw [(hdirs p hp).1 hmode] at hwrite
    exact nomatch hwrite
  · intro hmode
    refine UInt64.toNat_inj.mp (hreads.trans (countP_other ?_))
    intro p hp hread
    rw [(hdirs p hp).2 hmode] at hread
    exact nomatch hread

end Conserved

/-- The flag is cleared with a batch of two in hand, and the loop drains. -/
def drainRun : List (ThreadAct Bool (Env CfioLibaio.AioKernel)) :=
  prefillRun ++ [.interfere false, quiet, quiet, quiet, quiet, quiet, quiet]

/-- `worker_conserves` on that run. -/
theorem worker_conserves_drain :
    ∃ w, run (threadStep flagRely (step (CfioLibaio.libaioEngine waits)))
        (true, { thread := depthTwoThread, engine := { engine := CfioLibaio.depthTwoEngine } })
        drainRun = some (false, w) ∧
      w.thread.iopsCount = 2 ∧ Conserved waitsContract CfioLibaio.depthTwoJob w := by
  have hends : (run (threadStep flagRely (step (CfioLibaio.libaioEngine waits)))
      (true, { thread := depthTwoThread, engine := { engine := CfioLibaio.depthTwoEngine } })
      drainRun).map (fun s => (s.1, s.2.loc, s.2.thread.failed, s.2.thread.iopsCount,
        (delivered s.2.calls).length, totalBytes (delivered s.2.calls)))
      = some (false, .finished [], false, 2, 2, 1024) := rfl
  obtain ⟨⟨running, w⟩, hrun, hw⟩ := Option.map_eq_some_iff.mp hends
  simp only [Prod.mk.injEq] at hw
  obtain ⟨rfl, hend, hok, hiops, hcount, htotal⟩ := hw
  refine ⟨w, hrun, hiops, worker_conserves (fun r c h => h.id) (fun r c h => h.direction)
    (fun r c h => h.bytes) depthTwo_started hrun hend hok ?_ ?_⟩
  · rw [hcount]
    decide
  · rw [htotal]
    decide

end CfioWorkerAccounting
