import Cfio.WorkerThread
import Cfio.LibaioEngine

/-! # Buffer slots of a worker run

    A slot is free, or its number is the id of a request outstanding in the
    engine, or of a completion polled and not yet recorded.  `SlotInv` says that
    these three make up the pool, and `Counted` what the loop's own count of
    requests in flight has to do with them at each location.

    The steps: `counted_jump`, `counted_submit`, `counted_poll` and
    `counted_record` keep the count, `effect_slots` the invariant; `worker_slots`
    is what follows for a run under any interference with the run flag. -/

namespace CfioWorkerSlots

open CfioTypes CfioConfig CfioBufferPool CfioWorkerThread RequestServer Transition

/-! ## The count of requests in flight -/

/-- What the local variables of a loop say about the number `k` of requests
    outstanding, `d` being the depth. -/
def Counted (running failed : Bool) (d k : Nat) : Loc → Prop
  | .enter => k = 0
  | .syncTest => d = 1 ∧ k = 0
  | .syncSubmit => d = 1 ∧ k = 0
  | .syncPoll => d = 1 ∧ k = 1
  | .syncRecord _ _ => d = 1 ∧ k = 0
  | .prefillTest i n => i = n ∧ n = k ∧ k ≤ d
  | .prefillSubmit i n => i = n ∧ n = k ∧ k < d
  | .drainTest n => n = k ∧ (running = true → k = d)
  | .poll n => n = k ∧ 1 ≤ k ∧ (running = true → k = d)
  | .record n _ todo => n = k + todo.length ∧ (running = true → n = d)
  | .refillTest n _ todo => n = k + todo.length ∧ (running = true → n + 1 = d)
  | .refillSubmit n _ todo => n = k + todo.length ∧ n + 1 = d
  | .unwinding _ _ => True
  | .finished lost => failed = true ∨ k = 0 ∧ lost = []

section Counted

variable {running failed : Bool} {depth : Int32} {d k : Nat} {loc next : Loc}

/-- The flag may be cleared at any time. -/
theorem counted_clear {running' : Bool} (hrely : flagRely running running' = true)
    (h : Counted running failed d k loc) : Counted running' failed d k loc := by
  have hmono : running' = true → running = true := by
    intro ht
    subst ht
    cases running with
    | true => rfl
    | false => exact nomatch hrely
  cases loc with
  | drainTest n => exact ⟨h.1, fun ht => h.2 (hmono ht)⟩
  | poll n => exact ⟨h.1, h.2.1, fun ht => h.2.2 (hmono ht)⟩
  | record n now todo => exact ⟨h.1, fun ht => h.2 (hmono ht)⟩
  | refillTest n now todo => exact ⟨h.1, fun ht => h.2 (hmono ht)⟩
  | _ => exact h

/-- A jump that calls nothing keeps the count. -/
theorem counted_jump (hd : depth.toInt = d) (hpos : 1 ≤ d)
    (h : Counted running failed d k loc) (hj : Jump running depth loc next) :
    Counted running failed d k next := by
  cases hj with
  | sync hone =>
      have hd1 : depth.toInt = 1 := by
        rw [hone]
        rfl
      exact ⟨by omega, h⟩
  | async _ =>
      have hk : k = 0 := h
      subst hk
      exact ⟨rfl, rfl, Nat.zero_le d⟩
  | syncGo _ => exact h
  | syncStop _ => exact .inr ⟨h.2, rfl⟩
  | syncDone now => exact h
  | prefillGo i n hi _ =>
      obtain ⟨h1, h2, h3⟩ := h
      exact ⟨h1, h2, by omega⟩
  | prefillStop i n hstop =>
      obtain ⟨h1, h2, h3⟩ := h
      refine ⟨h2, ?_⟩
      intro ht
      -- the flag is up, so the bound ended the loop
      have hi : ¬ i < depth.toInt := fun hi => hstop ⟨hi, ht⟩
      omega
  | drainGo n hgo =>
      obtain ⟨h1, h2⟩ := h
      refine ⟨h1, ?_, h2⟩
      rcases hgo with ht | hn
      · have hk := h2 ht
        omega
      · omega
  | drainStop n hn _ =>
      obtain ⟨h1, h2⟩ := h
      exact .inr ⟨by omega, rfl⟩
  | batchDone n now =>
      obtain ⟨h1, h2⟩ := h
      rw [List.length_nil] at h1
      refine ⟨by omega, ?_⟩
      intro ht
      have hn := h2 ht
      omega
  | refillGo n now todo ht => exact ⟨h.1, h.2 ht⟩
  | refillStop n now todo hf =>
      refine ⟨h.1, ?_⟩
      intro ht
      exact absurd (ht.symm.trans hf) (by decide)

/-- Where a request is submitted, a slot is free, and one more is outstanding
    afterwards. -/
theorem counted_submit (hs : SubmitSite loc next)
    (h : Counted running failed d k loc) :
    k + loc.batch.length < d ∧ Counted running failed d (k + 1) next := by
  cases hs with
  | sync =>
      obtain ⟨h1, h2⟩ := h
      have hb : Loc.syncSubmit.batch.length = 0 := rfl
      exact ⟨by omega, h1, by omega⟩
  | prefill i n =>
      obtain ⟨h1, h2, h3⟩ := h
      have hb : (Loc.prefillSubmit i n).batch.length = 0 := rfl
      exact ⟨by omega, by omega, by omega, h3⟩
  | refill n now todo =>
      obtain ⟨h1, h2⟩ := h
      have hb : (Loc.refillSubmit n now todo).batch.length = todo.length := rfl
      exact ⟨by omega, by omega, fun _ => h2⟩

/-- Where completions are polled, a request is outstanding and all of them may be
    asked for; what was appended is no longer outstanding. -/
theorem counted_poll {depth hi : Int} {go : TimePoint → List IOCompletion → Loc}
    (hp : PollSite depth loc hi go) (hd : depth = d) (hpos : 1 ≤ d)
    (h : Counted running failed d k loc) :
    1 ≤ k ∧ 1 ≤ hi ∧ ∀ (now : TimePoint) (cs : List IOCompletion) (k' : Nat),
      cs.length + k' = k → 1 ≤ cs.length → (cs.length : Int) ≤ hi →
      Counted running failed d k' (go now cs) := by
  cases hp with
  | sync =>
      obtain ⟨h1, h2⟩ := h
      refine ⟨by omega, Int.le_refl 1, ?_⟩
      intro now cs k' hk hge hle
      exact ⟨h1, by omega⟩
  | async n =>
      obtain ⟨h1, h2, h3⟩ := h
      refine ⟨h2, by omega, ?_⟩
      intro now cs k' hk hge hle
      refine ⟨by omega, ?_⟩
      intro ht
      have hfull := h3 ht
      omega

/-- Recording a completion keeps the count: it was polled before. -/
theorem counted_record {now : TimePoint} {c : IOCompletion}
    (hr : RecordSite loc now c next) (h : Counted running failed d k loc) :
    Counted running failed d k next := by
  cases hr with
  | sync now c todo => exact h
  | async n now c todo =>
      obtain ⟨h1, h2⟩ := h
      rw [List.length_cons] at h1
      refine ⟨by omega, ?_⟩
      intro ht
      have hn := h2 ht
      omega

end Counted

/-! ## The invariant -/

/-- A location of the loops, from which the engine is still called. -/
def Live : Loc → Prop
  | .unwinding _ _ => False
  | .finished _ => False
  | _ => True

section Live

variable {loc next : Loc}

theorem Jump.live {running : Bool} {depth : Int32} (h : Jump running depth loc next) :
    Live loc := by
  cases h <;> trivial

theorem SubmitSite.live (h : SubmitSite loc next) : Live loc := by
  cases h <;> trivial

theorem SubmitSite.next_live (h : SubmitSite loc next) : Live next := by
  cases h <;> trivial

theorem PollSite.live {depth hi : Int} {go : TimePoint → List IOCompletion → Loc}
    (h : PollSite depth loc hi go) : Live loc := by
  cases h <;> trivial

theorem PollSite.next_live {depth hi : Int} {go : TimePoint → List IOCompletion → Loc}
    (h : PollSite depth loc hi go) (now : TimePoint) (out : List IOCompletion) :
    Live (go now out) := by
  cases h <;> trivial

theorem RecordSite.live {now : TimePoint} {c : IOCompletion}
    (h : RecordSite loc now c next) : Live loc := by
  cases h <;> trivial

theorem RecordSite.next_live {now : TimePoint} {c : IOCompletion}
    (h : RecordSite loc now c next) : Live next := by
  cases h <;> trivial

end Live

/-- The slots that are free. -/
def freeIds {σ : Type*} (w : Worker σ) : List Nat :=
  w.thread.bufferPool.freeSlots.map UInt32.toNat

/-- The ids of the completions polled and not yet recorded. -/
def polledIds {σ : Type*} (w : Worker σ) : List Nat :=
  w.loc.batch.map (fun c => c.id.toNat)

section Slots

variable {σ κ : Type*} {E : Engine σ κ} {answers : IORequest → IOCompletion → Prop}
variable {d : Nat} (C : Contract E answers d)

/-- The ids of the requests outstanding in the engine. -/
def outstandingIds (s : σ) : List Nat :=
  (C.outstanding s).map (fun r => r.id.toNat)

/-- Free slots, requests outstanding and completions in hand make up the pool;
    a request outstanding uses the buffer of its slot; the loop's count is
    right. -/
structure SlotInv (config : JobConfig) (running : Bool) (w : Worker σ) : Prop where
  config_eq : w.thread.config = config
  geometry : Geometry config.alignment w.thread.bufferPool
  capacity : w.thread.bufferPool.capacity.toNat = d
  blockSize : w.thread.bufferPool.blockSize = config.blockSize
  slots : (freeIds w ++ (outstandingIds C w.engine ++ polledIds w)).Perm (List.range d)
  buffers : ∀ r ∈ C.outstanding w.engine, ∃ slot : UInt32,
    r.id = slot.toUInt64 ∧ r.buffer = w.thread.bufferPool.data slot
  valid : Live w.loc → C.Valid w.engine
  counted : Counted running w.thread.failed d (C.outstanding w.engine).length w.loc

variable {C}
variable {config : JobConfig} {running running' : Bool} {w w' : Worker σ} {env : Env κ}

/-- Free slots, outstanding requests and polled completions make up the pool. -/
theorem SlotInv.length (hi : SlotInv C config running w) :
    w.thread.bufferPool.freeSlots.length
      + ((C.outstanding w.engine).length + w.loc.batch.length) = d := by
  have hlen := hi.slots.length_eq
  simp only [freeIds, outstandingIds, polledIds, List.length_append, List.length_map,
    List.length_range] at hlen
  exact hlen

/-- No slot is in two of these places. -/
theorem SlotInv.nodup (hi : SlotInv C config running w) :
    (freeIds w ++ (outstandingIds C w.engine ++ polledIds w)).Nodup :=
  hi.slots.nodup_iff.mpr List.nodup_range

/-- The depth of the loop is that of the job. -/
theorem SlotInv.depth_eq (hi : SlotInv C config running w)
    (hd : config.effectiveIODepth.toInt = d) : w.thread.depth = d := by
  rw [WorkerThread.depth, hi.config_eq]
  exact hd

/-- Every free slot is a slot of the pool. -/
theorem SlotInv.free_lt (hi : SlotInv C config running w) :
    ∀ s ∈ w.thread.bufferPool.freeSlots,
      s.toNat < w.thread.bufferPool.capacity.toNat := by
  intro s hs
  rw [hi.capacity]
  refine List.mem_range.mp (hi.slots.mem_iff.mp ?_)
  exact List.mem_append_left _ (List.mem_map_of_mem hs)

/-- The completion that is recorded next has the number of a slot, which is not
    free. -/
theorem SlotInv.head (hi : SlotInv C config running w) {now : TimePoint}
    {c : IOCompletion} {next : Loc} (hr : RecordSite w.loc now c next) :
    c.id.toNat < d ∧ c.id.toUInt32.toNat = c.id.toNat ∧
      c.id.toUInt32 ∉ w.thread.bufferPool.freeSlots := by
  have hmem : c.id.toNat ∈ outstandingIds C w.engine ++ polledIds w := by
    refine List.mem_append_right _ ?_
    simp only [polledIds, hr.batch]
    exact List.mem_cons_self ..
  have hlt : c.id.toNat < d :=
    List.mem_range.mp (hi.slots.mem_iff.mp (List.mem_append_right _ hmem))
  have hid : c.id.toUInt32.toNat = c.id.toNat := by
    have hcap := hi.capacity
    have hbound := hi.geometry.capacity_le
    rw [UInt64.toNat_toUInt32]
    omega
  refine ⟨hlt, hid, ?_⟩
  intro hfree
  have hdup : c.id.toNat ∈ freeIds w := hid ▸ List.mem_map_of_mem hfree
  exact (List.nodup_append.mp hi.nodup).2.2 _ hdup _ hmem rfl

/-! ### Where the slots go -/

/-- A request accepted moves its slot from the pool to the engine. -/
theorem SlotInv.slots_submitted (hi : SlotInv C config running w) {slot : UInt32}
    {rest : List UInt32} {request : IORequest} {s' : σ}
    (hfree : w.thread.bufferPool.freeSlots = slot :: rest)
    (hid : request.id = slot.toUInt64)
    (hout : (C.outstanding s').Perm (request :: C.outstanding w.engine)) :
    (rest.map UInt32.toNat ++ (outstandingIds C s' ++ polledIds w)).Perm
      (List.range d) := by
  have hids : (outstandingIds C s').Perm (slot.toNat :: outstandingIds C w.engine) := by
    have hmap := hout.map (fun r => r.id.toNat)
    rw [List.map_cons, hid, UInt32.toNat_toUInt64] at hmap
    exact hmap
  have hslots := hi.slots
  simp only [freeIds, hfree, List.map_cons] at hslots
  refine ((hids.append_right _).append_left _).trans ?_
  exact List.perm_middle.trans hslots

/-- The completions of a batch answer distinct requests, so a batch moves slots from
    the engine to the worker. -/
theorem SlotInv.slots_polled (hans : ∀ r c, answers r c → c.id = r.id)
    (hi : SlotInv C config running w) (hb : w.loc.batch = []) {s' : σ}
    {cs : List IOCompletion}
    (h : Answered answers (C.outstanding w.engine) cs (C.outstanding s')) :
    (freeIds w ++ (outstandingIds C s' ++ cs.map (fun c => c.id.toNat))).Perm
      (List.range d) := by
  have hids : ∀ r c, answers r c → c.id.toNat = r.id.toNat :=
    fun r c hrc => congrArg UInt64.toNat (hans r c hrc)
  have hperm : (cs.map (fun c => c.id.toNat) ++ outstandingIds C s').Perm
      (outstandingIds C w.engine) := h.map_perm hids
  have hslots := hi.slots
  simp only [polledIds, hb, List.map_nil, List.append_nil] at hslots
  exact ((List.perm_append_comm.trans hperm).append_left _).trans hslots

/-- A completion recorded moves its slot back to the pool. -/
theorem SlotInv.slots_recorded (hi : SlotInv C config running w) {now : TimePoint}
    {c : IOCompletion} {next : Loc} (hr : RecordSite w.loc now c next) :
    ((w.thread.bufferPool.release c.id.toUInt32).freeSlots.map UInt32.toNat
      ++ (outstandingIds C w.engine ++ next.batch.map (fun c => c.id.toNat))).Perm
      (List.range d) := by
  obtain ⟨hlt, hid, -⟩ := hi.head hr
  have hcap := hi.capacity
  have hslots := hi.slots
  simp only [polledIds, hr.batch, List.map_cons] at hslots
  rw [release_freeSlots (by omega), List.map_cons, hid]
  have hmove : (outstandingIds C w.engine
      ++ c.id.toNat :: next.batch.map (fun c => c.id.toNat)).Perm
      (c.id.toNat :: (outstandingIds C w.engine
        ++ next.batch.map (fun c => c.id.toNat))) := List.perm_middle
  exact (((hmove.append_left _).trans List.perm_middle).symm).trans hslots

/-- The engine's part of a poll. -/
theorem poll_contract (hi : SlotInv C config running w) {hiEvents : Int}
    {go : TimePoint → List IOCompletion → Loc}
    (hp : PollSite w.thread.depth w.loc hiEvents go) (hd : w.thread.depth = d)
    (hpos : 1 ≤ d) {k : κ} {res : PollResult Exn IOCompletion σ}
    (h : E.poll k 1 hiEvents [] w.engine = some res) :
    (res.out.length : Int) ≤ hiEvents ∧
      Answered answers (C.outstanding w.engine) res.out (C.outstanding res.state) ∧
      (res.thrown = none → C.Valid res.state ∧ 1 ≤ res.out.length) := by
  obtain ⟨hk, hhi, -⟩ := counted_poll hp hd hpos hi.counted
  have hne : C.outstanding w.engine ≠ [] := List.ne_nil_of_length_pos hk
  have hle : (C.outstanding w.engine).length ≤ d := by
    have hlen := hi.length
    omega
  obtain ⟨cs, hout, hup, hansd, hok⟩ :=
    C.polled (hi.valid (PollSite.live hp)) hne hle (Int.le_refl 1) hhi h
  rw [List.nil_append] at hout
  rw [← hout] at hup hansd hok
  refine ⟨hup, hansd, ?_⟩
  intro ht
  obtain ⟨hvalid, hlow⟩ := hok ht
  exact ⟨hvalid, by omega⟩

/-- **Every step keeps the slots accounted for.** -/
theorem effect_slots (hans : ∀ r c, answers r c → c.id = r.id)
    (hd : config.effectiveIODepth.toInt = d) (hpos : 1 ≤ d)
    (hi : SlotInv C config running w) (h : Effect E running w env running' w') :
    SlotInv C config running' w' := by
  have hdepth := hi.depth_eq hd
  cases h with
  | jump next hj =>
      refine { hi with slots := ?_, valid := ?_, counted := ?_ }
      · show (freeIds w ++ (outstandingIds C w.engine
          ++ next.batch.map (fun c => c.id.toNat))).Perm _
        rw [hj.batch]
        exact hi.slots
      · intro _
        exact hi.valid (Jump.live hj)
      · exact counted_jump hdepth hpos hi.counted hj
  | accepted next request thread engine hs hgen hsub =>
      obtain ⟨slot, rest, hfree, rfl, rfl⟩ := generate_cases hgen
      obtain ⟨hvalid, hout⟩ := C.accepted (hi.valid (SubmitSite.live hs)) hsub
      have hsame : SameBlocks w.thread.bufferPool
          { w.thread.bufferPool with freeSlots := rest } := ⟨rfl, rfl, rfl⟩
      refine ⟨hi.config_eq, hi.geometry.transfer hsame, hi.capacity, hi.blockSize, ?_, ?_,
        fun _ => hvalid, ?_⟩
      · show (rest.map UInt32.toNat ++ (outstandingIds C engine
          ++ next.batch.map (fun c => c.id.toNat))).Perm _
        rw [hs.batch]
        exact hi.slots_submitted hfree rfl hout
      · -- the new request uses the buffer of its slot
        intro r hr
        rcases List.mem_cons.mp (hout.mem_iff.mp hr) with rfl | hold
        · exact ⟨slot, rfl, (hsame.data slot).symm⟩
        · obtain ⟨slot', hid, hbuf⟩ := hi.buffers r hold
          exact ⟨slot', hid, hbuf.trans (hsame.data slot').symm⟩
      · show Counted running w.thread.failed d (C.outstanding engine).length next
        rw [hout.length_eq]
        exact (counted_submit hs hi.counted).2
  | rejected next request thread engine e hs hgen hsub =>
      -- the handler has put the slot back where it was
      have hout := C.rejected (hi.valid (SubmitSite.live hs)) hsub
      have hpool := release_generated hgen hi.free_lt
      obtain ⟨slot, rest, hfree, rfl, rfl⟩ := generate_cases hgen
      refine ⟨hi.config_eq, ?_, ?_, ?_, ?_, ?_, fun hno => hno.elim, trivial⟩
      · rw [hpool]
        exact hi.geometry
      · rw [hpool]
        exact hi.capacity
      · rw [hpool]
        exact hi.blockSize
      · simp only [freeIds, hpool]
        refine List.Perm.trans ?_ hi.slots
        exact ((hout.map _).append_right _).append_left _
      · intro r hr
        rw [hpool]
        exact hi.buffers r (hout.mem_iff.mp hr)
  | polled hiEvents go out engine hp hpoll =>
      obtain ⟨hup, hansd, hok⟩ := poll_contract hi hp hdepth hpos hpoll
      obtain ⟨hvalid, hlow⟩ := hok rfl
      obtain ⟨hb, hb'⟩ := hp.batch env.now out
      refine ⟨hi.config_eq, hi.geometry, hi.capacity, hi.blockSize, ?_, ?_,
        fun _ => hvalid, ?_⟩
      · show (freeIds w ++ (outstandingIds C engine
          ++ (go env.now out).batch.map (fun c => c.id.toNat))).Perm _
        rw [hb']
        exact hi.slots_polled hans hb hansd
      · intro r hr
        exact hi.buffers r (hansd.mem_before hr)
      · exact (counted_poll hp hdepth hpos hi.counted).2.2 env.now out _
          hansd.length_eq hlow hup
  | pollThrew hiEvents go out engine e hp hpoll =>
      obtain ⟨-, hansd, -⟩ := poll_contract hi hp hdepth hpos hpoll
      obtain ⟨hb, -⟩ := hp.batch env.now out
      refine ⟨hi.config_eq, hi.geometry, hi.capacity, hi.blockSize,
        hi.slots_polled hans hb hansd, ?_, fun hno => hno.elim, trivial⟩
      intro r hr
      exact hi.buffers r (hansd.mem_before hr)
  | recorded now c next hr =>
      have hsame := release_sameBlocks w.thread.bufferPool c.id.toUInt32
      refine ⟨hi.config_eq, hi.geometry.transfer hsame, ?_, ?_, hi.slots_recorded hr, ?_,
        ?_, ?_⟩
      · exact (congrArg UInt64.toNat hsame.capacity).trans hi.capacity
      · exact hsame.blockSize.trans hi.blockSize
      · intro r hmem
        obtain ⟨slot, hrid, hbuf⟩ := hi.buffers r hmem
        exact ⟨slot, hrid, hbuf.trans (hsame.data slot).symm⟩
      · intro _
        exact hi.valid (RecordSite.live hr)
      · exact counted_record hr hi.counted
  | failed e lost hloc =>
      refine ⟨hi.config_eq, hi.geometry, hi.capacity, hi.blockSize, ?_, hi.buffers,
        fun hno => hno.elim, .inl rfl⟩
      have hslots := hi.slots
      simp only [polledIds, hloc] at hslots
      exact hslots

/-! ## Runs -/

/-- A worker built for a validated job whose engine is open and idle. -/
structure Started (C : Contract E answers d) (config : JobConfig) (alloc : Allocator)
    (opened : Except Exn Bool) (thread : WorkerThread) (s : σ) : Prop where
  validated : validate config = .ok ()
  alloc_spec : AllocatorSpec alloc
  built : WorkerThread.new alloc config opened = .ok thread
  depth : d = config.effectiveIODepth.toInt.toNat
  valid : C.Valid s
  idle : C.outstanding s = []

variable {alloc : Allocator} {opened : Except Exn Bool} {thread : WorkerThread} {s : σ}

/-- The engine was opened with the depth of the job, which is positive. -/
theorem Started.depth_eq (h : Started C config alloc opened thread s) :
    config.effectiveIODepth.toInt = d ∧ 1 ≤ d := by
  have hpos := (poolCapacity_toNat (validate_ok h.validated)).2
  have hd := h.depth
  omega

/-- A worker starts with every slot free. -/
theorem Started.slotInv (h : Started C config alloc opened thread s) (running : Bool) :
    SlotInv C config running { thread := thread, engine := s } := by
  obtain ⟨pool, direct, -, rfl, hgeo, hblock, hcap, hfree⟩ :=
    new_worker h.alloc_spec h.built
  have hd := (poolCapacity_toNat (validate_ok h.validated)).1
  refine ⟨rfl, hgeo, ?_, hblock, ?_, ?_, fun _ => h.valid, ?_⟩
  · show pool.capacity.toNat = d
    rw [hcap, hd, h.depth]
  · simp only [freeIds, hfree, outstandingIds, h.idle, polledIds, Loc.batch,
      List.map_nil, List.append_nil, hd, h.depth]
    exact List.Perm.refl _
  · intro r hr
    rw [h.idle] at hr
    exact nomatch hr
  · show (C.outstanding s).length = 0
    rw [h.idle]
    rfl

/-- **The invariant rule of a worker that accounts for its slots**: `I` need only
    be kept by the steps taken in `SlotInv`. -/
theorem run_slotInv_and (hans : ∀ r c, answers r c → c.id = r.id)
    (hstart : Started C config alloc opened thread s) {I : Worker σ → Prop}
    (heffect : ∀ running w env running' w', SlotInv C config running w → I w →
      Effect E running w env running' w' → I w')
    {running₀ : Bool} {as : List (ThreadAct Bool (Env κ))}
    (hrun : run (threadStep flagRely (step E))
      (running₀, { thread := thread, engine := s }) as = some (running, w))
    (hinit : I { thread := thread, engine := s }) :
    SlotInv C config running w ∧ I w := by
  obtain ⟨hd, hpos⟩ := hstart.depth_eq
  refine worker_invariant (I := fun g v => SlotInv C config g v ∧ I v) ?_ ?_ hrun
    ⟨hstart.slotInv running₀, hinit⟩
  · rintro g g' v hrely ⟨hslots, hv⟩
    exact ⟨{ hslots with counted := counted_clear hrely hslots.counted }, hv⟩
  · rintro g v env g' v' ⟨hslots, hv⟩ he
    exact ⟨effect_slots hans hd hpos hslots he, heffect g v env g' v' hslots hv he⟩

/-- The invariant over a run. -/
theorem run_slotInv (hans : ∀ r c, answers r c → c.id = r.id)
    (hstart : Started C config alloc opened thread s) {running₀ : Bool}
    {as : List (ThreadAct Bool (Env κ))}
    (hrun : run (threadStep flagRely (step E))
      (running₀, { thread := thread, engine := s }) as = some (running, w)) :
    SlotInv C config running w :=
  (run_slotInv_and hans hstart (I := fun _ => True)
    (fun _ _ _ _ _ _ _ _ => trivial) hrun trivial).1

/-- What holds of the slots at every step of a worker: the free ones, the ids
    outstanding and the ids in hand are disjoint, without duplicates, and together
    are the pool; no acquire fails; no release is of a free slot; requests
    outstanding share neither an id nor a buffer; a submit that throws leaves the
    free list as it was. -/
structure SlotSafe (C : Contract E answers d) (config : JobConfig) (running : Bool)
    (w : Worker σ) : Prop where
  nodup : (freeIds w ++ (outstandingIds C w.engine ++ polledIds w)).Nodup
  full : ∀ i, i ∈ freeIds w ++ (outstandingIds C w.engine ++ polledIds w) ↔ i < d
  acquire : ∀ next, SubmitSite w.loc next → w.thread.bufferPool.freeSlots ≠ []
  release : ∀ now c next, RecordSite w.loc now c next →
    c.id.toNat < d ∧ c.id.toUInt32 ∉ w.thread.bufferPool.freeSlots
  rollback : ∀ raw coin request thread,
    w.thread.generateNextIo raw coin = some (request, thread) →
    request.id.toNat < d ∧ request.id.toUInt32 ∉ thread.bufferPool.freeSlots
  distinct : (C.outstanding w.engine).Pairwise (fun r r' =>
    r.id ≠ r'.id ∧ DisjointBlocks r.buffer r'.buffer config.blockSize)
  bound : (C.outstanding w.engine).length ≤ d
  rejected : ∀ env running' w' next e lost, SubmitSite w.loc next →
    step E running w env = some (running', w') → w'.loc = .unwinding e lost →
    w'.thread.bufferPool.freeSlots = w.thread.bufferPool.freeSlots

/-- Requests under different ids have different slots, hence disjoint buffers. -/
theorem SlotInv.distinct (hi : SlotInv C config running w) :
    (C.outstanding w.engine).Pairwise (fun r r' =>
      r.id ≠ r'.id ∧ DisjointBlocks r.buffer r'.buffer config.blockSize) := by
  have hids : (outstandingIds C w.engine).Nodup :=
    (List.nodup_append.mp (List.nodup_append.mp hi.nodup).2.1).1
  have hpair : (C.outstanding w.engine).Pairwise
      (fun r r' => r.id.toNat ≠ r'.id.toNat) := List.pairwise_map.mp hids
  refine hpair.imp_of_mem ?_
  intro r r' hr hr' hne
  obtain ⟨slot, hid, hbuf⟩ := hi.buffers r hr
  obtain ⟨slot', hid', hbuf'⟩ := hi.buffers r' hr'
  have hlt : ∀ {q : IORequest} {i : UInt32}, q ∈ C.outstanding w.engine →
      q.id = i.toUInt64 → i.toNat < w.thread.bufferPool.capacity.toNat := by
    intro q i hq hqi
    rw [hi.capacity]
    refine List.mem_range.mp (hi.slots.mem_iff.mp ?_)
    refine List.mem_append_right _ (List.mem_append_left _ ?_)
    exact List.mem_map.mpr ⟨q, hq, by rw [hqi, UInt32.toNat_toUInt64]⟩
  refine ⟨fun heq => hne (congrArg UInt64.toNat heq), ?_⟩
  rw [hbuf, hbuf', ← hi.blockSize]
  refine hi.geometry.data_disjoint (hlt hr hid) (hlt hr' hid') ?_
  intro heq
  refine hne ?_
  rw [hid, hid', UInt32.toNat_toUInt64, UInt32.toNat_toUInt64, heq]

/-- The invariant in the terms of `SlotSafe`. -/
theorem SlotInv.safe (hi : SlotInv C config running w) :
    SlotSafe C config running w := by
  have hlen := hi.length
  have hcap := hi.capacity
  refine ⟨hi.nodup, fun i => hi.slots.mem_iff.trans List.mem_range, ?_, ?_, ?_,
    hi.distinct, by omega, ?_⟩
  · intro next hs hnil
    have hroom := (counted_submit hs hi.counted).1
    rw [hnil, List.length_nil] at hlen
    omega
  · intro now c next hr
    obtain ⟨hlt, -, hbusy⟩ := hi.head hr
    exact ⟨hlt, hbusy⟩
  · intro raw coin request thread' hgen
    obtain ⟨slot, rest, hfree, rfl, rfl⟩ := generate_cases hgen
    have hslot : slot.toNat < d := by
      have hlt := hi.free_lt slot (hfree ▸ List.mem_cons_self ..)
      omega
    refine ⟨by rw [UInt32.toNat_toUInt64]; exact hslot, ?_⟩
    rw [UInt32.toUInt32_toUInt64]
    intro hmem
    have hfirst := (List.nodup_append.mp hi.nodup).1
    simp only [freeIds, hfree, List.map_cons, List.nodup_cons] at hfirst
    exact hfirst.1 (List.mem_map_of_mem hmem)
  · intro env running' w' next e lost hs hstep hloc
    cases step_effect hstep with
    | rejected next' request thread' engine e' hs' hgen hsub =>
        exact congrArg BufferPool.freeSlots (release_generated hgen hi.free_lt)
    | jump next' hj => rfl
    | accepted next' request thread' engine hs' hgen hsub =>
        have hbad : next' = .unwinding e lost := hloc
        have hlive := SubmitSite.next_live hs'
        rw [hbad] at hlive
        exact hlive.elim
    | polled hiEvents go out engine hp hpoll => rfl
    | pollThrew hiEvents go out engine e' hp hpoll => rfl
    | recorded now c next' hr =>
        have hbad : next' = .unwinding e lost := hloc
        have hlive := RecordSite.next_live hr
        rw [hbad] at hlive
        exact hlive.elim
    | failed e' lost' hfin =>
        have hlive := SubmitSite.live hs
        rw [hfin] at hlive
        exact hlive.elim

/-- **Buffer slot safety** of every run of a worker, on any engine that obeys the
    contract and whenever others clear the run flag. -/
theorem worker_slots (hans : ∀ r c, answers r c → c.id = r.id)
    (hstart : Started C config alloc opened thread s) {running₀ : Bool}
    {as : List (ThreadAct Bool (Env κ))}
    (hrun : run (threadStep flagRely (step E))
      (running₀, { thread := thread, engine := s }) as = some (running, w)) :
    SlotSafe C config running w :=
  (run_slotInv hans hstart hrun).safe

end Slots

/-! ## A worker of depth two -/

/-- The worker built for `depthTwoJob`. -/
def depthTwoThread : WorkerThread :=
  { config := CfioLibaio.depthTwoJob
    bufferPool := { storage := ⟨0x10000000000, 1024, 512⟩, blockSize := 512
                    capacity := 2, freeSlots := [0, 1] }
    offsetGen := .ofConfig CfioLibaio.depthTwoJob
    directionDecider := { mode := .kRead, rwmixread := 50 }
    directEffective := true }

/-- An AIO kernel that waits for the minimum. -/
def waits (minEvents : Int) (n : Nat) : Bool := decide (minEvents ≤ (n : Int))

/-- Its contract. -/
def waitsContract : Contract (CfioLibaio.libaioEngine waits) CfioEngine.Echoes 2 :=
  CfioLibaio.libaioContract waits (fun _ _ h => of_decide_eq_true h) 2

/-- A worker of depth two, as it is started. -/
theorem depthTwo_started : Started waitsContract CfioLibaio.depthTwoJob arenaAlloc
    (.ok true) depthTwoThread { engine := CfioLibaio.depthTwoEngine } := by
  have hopen := @CfioLibaio.openEngine_inv CfioLibaio.depthTwoJob ⟨3, 0⟩ ⟨-1, 0⟩ 0
    CfioLibaio.depthTwoEngine rfl
  exact ⟨rfl, arenaAlloc_spec, rfl, rfl, ⟨hopen.1, rfl⟩, rfl⟩

/-- A step with nothing of note from outside. -/
def quiet : ThreadAct Bool (Env CfioLibaio.AioKernel) := .own { kernel := {} }

/-- Pre-fill with two requests, and poll both in one batch. -/
def prefillRun : List (ThreadAct Bool (Env CfioLibaio.AioKernel)) :=
  [quiet, quiet, quiet, quiet, quiet, quiet, quiet,
    .own { kernel := { getevents := [.events [(1, ⟨512, 0⟩), (0, ⟨512, 0⟩)]] } }]

/-- The theorem after the first completion of the batch is recorded and its slot is
    used again. -/
theorem worker_slots_depthTwo :
    ∃ w, run (threadStep flagRely (step (CfioLibaio.libaioEngine waits)))
        (true, { thread := depthTwoThread, engine := { engine := CfioLibaio.depthTwoEngine } })
        (prefillRun ++ [quiet, quiet, quiet]) = some (true, w) ∧
      (freeIds w, outstandingIds waitsContract w.engine, polledIds w) = ([], [0], [1]) ∧
      SlotSafe waitsContract CfioLibaio.depthTwoJob true w := by
  have hids : (run (threadStep flagRely (step (CfioLibaio.libaioEngine waits)))
      (true, { thread := depthTwoThread, engine := { engine := CfioLibaio.depthTwoEngine } })
      (prefillRun ++ [quiet, quiet, quiet])).map (fun s =>
        (s.1, freeIds s.2, outstandingIds waitsContract s.2.engine, polledIds s.2))
      = some (true, [], [0], [1]) := rfl
  obtain ⟨⟨running, w⟩, hrun, hw⟩ := Option.map_eq_some_iff.mp hids
  obtain ⟨rfl, hslots⟩ := Prod.mk.inj hw
  exact ⟨w, hrun, hslots, worker_slots (fun r c h => h.id) depthTwo_started hrun⟩

end CfioWorkerSlots
