import Cfio.EngineUsage

/-! # What validation leaves unchecked

    Three parts of a run put limits of their own on the numbers of a job: the
    buffer pool on the product of block size and depth, `off_t` and the wrap of
    the sequential cursor on the offsets, and `io_uring` on the length of a
    request.  `ConfigValidator` puts an upper bound on none of them.

    `Sound` says that a run meets none of these limits.  For a job that passed
    validation it is equivalent to `Fits`, a condition on the job's numbers
    alone (`validate_sound_iff`). -/

namespace CfioConfigSoundness

open CfioTypes CfioConfig CfioBufferPool CfioGenerators CfioWorkerThread
open CfioEngine CfioEngineUsage RequestServer Transition Words Checks

variable {config : JobConfig}

/-! ## The buffer pool -/

/-- The constructor of the pool does not reject the job's numbers. -/
def PoolAccepts (config : JobConfig) : Prop :=
  ∀ alloc what, BufferPool.new alloc config.alignment config.blockSize
    (poolCapacity config) ≠ .error (.invalidArgument what)

/-- The depth of a validated job passes the check of the capacity. -/
theorem checkCapacity_depth (hv : Validated config) :
    checkCapacity (poolCapacity config) = .ok (poolCapacity config) := by
  obtain ⟨hcap, hpos⟩ := poolCapacity_toNat hv
  have hlt := Int32.toInt_lt config.effectiveIODepth
  have hmax : kUInt32Max.toNat = 2 ^ 32 - 1 := rfl
  have hne : poolCapacity config ≠ 0 := ne_zero_of_toNat_pos (by omega)
  have hle : ¬ poolCapacity config > kUInt32Max := by
    rw [gt_iff_lt, UInt64.lt_iff_toNat_lt]
    omega
  rw [checkCapacity, if_neg hne, if_neg hle]

/-- The division-based test of the product is exact. -/
theorem totalSize_test (hv : Validated config) :
    (config.blockSize ≠ 0 ∧ poolCapacity config > kSizeMax / config.blockSize) ↔
      ¬ NoWrapMul config.blockSize (poolCapacity config) := by
  have hmax : kSizeMax.toNat = 2 ^ 64 - 1 := rfl
  have hne : config.blockSize ≠ 0 := ne_zero_of_toNat_pos hv.block_pos
  rw [and_iff_right hne, gt_iff_lt, UInt64.lt_iff_toNat_lt, UInt64.toNat_div,
    Nat.div_lt_iff_lt_mul hv.block_pos, Nat.mul_comm, hmax]
  show _ ↔ ¬ config.blockSize.toNat * (poolCapacity config).toNat < 2 ^ 64
  omega

/-- **The pool of a validated job**: when the product fits, all that can fail is the
    allocation. -/
theorem new_of_noWrap (hv : Validated config)
    (hfit : NoWrapMul config.blockSize (poolCapacity config)) (alloc : Allocator) :
    BufferPool.new alloc config.alignment config.blockSize (poolCapacity config)
      = if alloc config.alignment (config.blockSize * poolCapacity config) = 0
          then .error .badAlloc
        else .ok
          { storage :=
              { data := alloc config.alignment (config.blockSize * poolCapacity config)
                size := config.blockSize * poolCapacity config
                alignment := config.alignment }
            blockSize := config.blockSize
            capacity := poolCapacity config
            freeSlots := pushSlots (poolCapacity config).toNat [] } := by
  obtain ⟨hcap, hpos⟩ := poolCapacity_toNat hv
  have hprod := hfit.toNat
  have htotal : totalSize config.blockSize (poolCapacity config)
      = .ok (config.blockSize * poolCapacity config) :=
    if_neg (fun h => (totalSize_test hv).mp h hfit)
  have halign : ¬ (config.alignment = 0 ∨
      config.alignment &&& (config.alignment - 1) ≠ 0) := by
    rintro (h0 | hpow)
    · exact ne_zero_of_toNat_pos hv.alignment_pos h0
    · exact hpow hv.alignment_pow
  have hsize : config.blockSize * poolCapacity config ≠ 0 := by
    refine ne_zero_of_toNat_pos ?_
    rw [hprod]
    exact Nat.mul_pos hv.block_pos (by omega)
  have hmod : ¬ config.blockSize * poolCapacity config % config.alignment ≠ 0 := by
    rw [not_not]
    refine UInt64.toNat_inj.mp ?_
    rw [UInt64.toNat_mod, hprod]
    exact Nat.mod_eq_zero_of_dvd (Nat.dvd_mul_right_of_dvd hv.block_aligned _)
  simp only [BufferPool.new, checkCapacity_depth hv, htotal, AlignedBuffer.new, bind,
    Except.bind, if_neg halign, if_neg hsize, if_neg hmod]
  by_cases hnull : alloc config.alignment (config.blockSize * poolCapacity config) = 0
  · rw [if_pos hnull, if_pos hnull]
  · rw [if_neg hnull, if_neg hnull]
    rfl

/-- The constructor rejects the job's numbers exactly when the product wraps. -/
theorem poolAccepts_iff (hv : Validated config) :
    PoolAccepts config ↔
      config.blockSize.toNat * config.effectiveIODepth.toInt.toNat < 2 ^ 64 := by
  rw [← (poolCapacity_toNat hv).1]
  constructor
  · intro h
    by_contra hwrap
    have htotal : ∃ what, totalSize config.blockSize (poolCapacity config)
        = .error (.invalidArgument what) :=
      ⟨_, if_pos ((totalSize_test hv).mpr hwrap)⟩
    obtain ⟨what, htotal⟩ := htotal
    refine h arenaAlloc what ?_
    rw [BufferPool.new, checkCapacity_depth hv]
    show (totalSize config.blockSize (poolCapacity config) >>= _) = _
    rw [htotal]
    rfl
  · intro hfit alloc what
    rw [new_of_noWrap hv hfit]
    split <;> exact nofun

/-! ## The offsets -/

/-- `Next` can return this offset, after some number of draws. -/
def Returns (config : JobConfig) (offset : Int64) : Prop :=
  ∃ raws raw, (∀ r ∈ raw :: raws, r ≤ config.fileSize - config.blockSize) ∧
    (((OffsetGenerator.ofConfig config).after raws).next raw).1 = offset

/-- Every offset is a non-negative `off_t` that leaves room for a block. -/
def OffsetsInRange (config : JobConfig) : Prop :=
  ∀ offset, Returns config offset → 0 ≤ offset.toInt ∧
    offset.toInt ≤ (config.fileSize.toNat : Int) - config.blockSize.toNat

/-- The offsets fit in an `off_t`, and the test for the wrap of the cursor does
    not overflow. -/
def OffsetsFit (config : JobConfig) : Prop :=
  (config.accessPattern = .kRandom →
    config.fileSize.toNat - config.blockSize.toNat < 2 ^ 63) ∧
  (config.accessPattern = .kSequential →
    (config.fileSize.toNat / config.blockSize.toNat - 1) * config.blockSize.toNat
      < 2 ^ 63 ∧
    (config.fileSize.toNat / config.blockSize.toNat + 1) * config.blockSize.toNat
      < 2 ^ 64)

instance (config : JobConfig) : Decidable (OffsetsFit config) :=
  inferInstanceAs (Decidable (_ ∧ _))

/-- A word is a non-negative `off_t` below `2 ^ 63` only. -/
theorem toInt64_nonneg_iff {x : UInt64} : 0 ≤ x.toInt64.toInt ↔ x.toNat < 2 ^ 63 := by
  constructor
  · intro h
    have hlt := Int64.toInt_lt x.toInt64
    have hback := toNat_toUInt64_of_nonneg h
    rw [UInt64.toUInt64_toInt64] at hback
    omega
  · intro h
    rw [toInt_toInt64 h]
    exact Int.natCast_nonneg _

/-- The random offsets. -/
theorem offsets_random_iff (hv : Validated config)
    (hp : config.accessPattern = .kRandom) :
    OffsetsInRange config ↔
      config.fileSize.toNat - config.blockSize.toNat < 2 ^ 63 := by
  have hgen : (OffsetGenerator.ofConfig config).pattern = .kRandom := hp
  have hlast := toNat_sub_of_le hv.block_le_file
  have hroom := hv.block_le_file
  constructor
  · intro h
    -- the last offset is drawn as it is
    have hdraw := congrArg Prod.fst
      (next_random hgen (config.fileSize - config.blockSize))
    have hdvd : config.alignment.toNat ∣ (config.fileSize - config.blockSize).toNat := by
      rw [hlast]
      exact Nat.dvd_sub hv.file_aligned hv.block_aligned
    have hround : (config.fileSize - config.blockSize) / config.alignment
        * config.alignment = config.fileSize - config.blockSize := by
      refine UInt64.toNat_inj.mp ?_
      rw [toNat_div_mul, Nat.div_mul_cancel hdvd]
    have hreturns : Returns config (config.fileSize - config.blockSize).toInt64 := by
      refine ⟨[], config.fileSize - config.blockSize,
        List.forall_mem_singleton.mpr (UInt64.le_refl _), hdraw.trans ?_⟩
      exact congrArg UInt64.toInt64 hround
    rw [← hlast]
    exact toInt64_nonneg_iff.mp (h _ hreturns).1
  · rintro hfit _ ⟨raws, raw, hraws, rfl⟩
    have hraw := hraws raw (List.mem_cons_self ..)
    rw [UInt64.le_iff_toNat_le, hlast] at hraw
    have hle := Nat.div_mul_le_self raw.toNat config.alignment.toNat
    rw [after_random hgen, congrArg Prod.fst (next_random hgen raw)]
    show 0 ≤ (raw / config.alignment * config.alignment).toInt64.toInt ∧
      (raw / config.alignment * config.alignment).toInt64.toInt ≤ _
    rw [toInt_toInt64 (by rw [toNat_div_mul]; omega), toNat_div_mul]
    omega

/-- The generator of a sequential job with the cursor at this block. -/
def atBlock (config : JobConfig) (k : Nat) : OffsetGenerator :=
  { OffsetGenerator.ofConfig config with
    sequentialOffset := UInt64.ofNat (k * config.blockSize.toNat) }

theorem atBlock_zero : atBlock config 0 = OffsetGenerator.ofConfig config := by
  rw [atBlock, Nat.zero_mul]
  rfl

/-- **One sequential draw.**  The cursor goes back to the start when the block after
    next does not fit, unless the sum that tests this overflows. -/
theorem next_atBlock (hp : config.accessPattern = .kSequential) {k : Nat}
    (hk : (k + 1) * config.blockSize.toNat ≤ config.fileSize.toNat) (raw : UInt64) :
    (atBlock config k).next raw
      = ((UInt64.ofNat (k * config.blockSize.toNat)).toInt64,
        if config.fileSize.toNat < (k + 2) * config.blockSize.toNat ∧
            (k + 2) * config.blockSize.toNat < 2 ^ 64 then atBlock config 0
        else atBlock config (k + 1)) := by
  have hfile := UInt64.toNat_lt config.fileSize
  have hgen : (atBlock config k).pattern = .kSequential := hp
  have hone : (k + 1) * config.blockSize.toNat
      = k * config.blockSize.toNat + config.blockSize.toNat := Nat.succ_mul _ _
  have htwo : (k + 2) * config.blockSize.toNat
      = (k + 1) * config.blockSize.toNat + config.blockSize.toNat := Nat.succ_mul _ _
  have hword : (UInt64.ofNat (k * config.blockSize.toNat)).toNat
      = k * config.blockSize.toNat := by
    rw [UInt64.toNat_ofNat']
    exact Nat.mod_eq_of_lt (by omega)
  have hmoved : UInt64.ofNat (k * config.blockSize.toNat) + config.blockSize
      = UInt64.ofNat ((k + 1) * config.blockSize.toNat) := by
    refine UInt64.toNat_inj.mp ?_
    rw [UInt64.toNat_add, hword, UInt64.toNat_ofNat', hone]
  have htest : (UInt64.ofNat ((k + 1) * config.blockSize.toNat) + config.blockSize
      > config.fileSize) ↔ config.fileSize.toNat < (k + 2) * config.blockSize.toNat ∧
        (k + 2) * config.blockSize.toNat < 2 ^ 64 := by
    rw [gt_iff_lt, UInt64.lt_iff_toNat_lt, UInt64.toNat_add, UInt64.toNat_ofNat', htwo,
      Nat.mod_eq_of_lt (Nat.lt_of_le_of_lt hk hfile)]
    by_cases hwrap : (k + 1) * config.blockSize.toNat + config.blockSize.toNat < 2 ^ 64
    · rw [Nat.mod_eq_of_lt hwrap, and_iff_left hwrap]
    · -- what is left of the sum after the wrap is less than a block
      have hblock := UInt64.toNat_lt config.blockSize
      rw [Nat.mod_eq_sub_mod (Nat.not_lt.mp hwrap), Nat.mod_eq_of_lt (by omega)]
      have hbf : config.blockSize.toNat ≤ config.fileSize.toNat := by
        refine Nat.le_trans ?_ hk
        exact Nat.le_mul_of_pos_left _ (Nat.succ_pos k)
      omega
  have hzero : (0 : UInt64) = UInt64.ofNat (0 * config.blockSize.toNat) := by
    rw [Nat.zero_mul]
    rfl
  have hnext : (atBlock config k).next raw
      = ((UInt64.ofNat (k * config.blockSize.toNat)).toInt64,
        if UInt64.ofNat (k * config.blockSize.toNat) + config.blockSize
            + config.blockSize > config.fileSize
          then { atBlock config k with sequentialOffset := 0 }
        else { atBlock config k with
          sequentialOffset := UInt64.ofNat (k * config.blockSize.toNat)
            + config.blockSize }) := by
    rw [OffsetGenerator.next, if_pos hgen]
    exact (apply_ite (Prod.mk _) _ _ _).symm
  rw [hnext, hmoved, hzero]
  exact congrArg (Prod.mk _) (if_congr htest rfl rfl)

/-- Sequential draws from one block to a later one. -/
theorem after_atBlock (hp : config.accessPattern = .kSequential) {j k : Nat}
    (hsteps : ∀ i, j ≤ i → i < j + k →
      (i + 1) * config.blockSize.toNat ≤ config.fileSize.toNat ∧
      ¬ (config.fileSize.toNat < (i + 2) * config.blockSize.toNat ∧
        (i + 2) * config.blockSize.toNat < 2 ^ 64)) :
    (atBlock config j).after (List.replicate k 0) = atBlock config (j + k) := by
  induction k generalizing j with
  | zero => rfl
  | succ k ih =>
      obtain ⟨hk, hstay⟩ := hsteps j (Nat.le_refl j) (by omega)
      show ((atBlock config j).next 0).2.after (List.replicate k 0) = _
      rw [next_atBlock hp hk, if_neg hstay,
        ih (fun i hi hlt => hsteps i (by omega) (by omega)), Nat.add_right_comm,
        Nat.add_assoc]

/-- The cursor of a generator whose test never overflows is at a block that
    fits. -/
theorem after_inFile (hv : Validated config) (hp : config.accessPattern = .kSequential)
    (hfit : (config.fileSize.toNat / config.blockSize.toNat + 1)
      * config.blockSize.toNat < 2 ^ 64) (raws : List UInt64) {k : Nat}
    (hk : (k + 1) * config.blockSize.toNat ≤ config.fileSize.toNat) :
    ∃ j, (j + 1) * config.blockSize.toNat ≤ config.fileSize.toNat ∧
      (atBlock config k).after raws = atBlock config j := by
  induction raws generalizing k with
  | nil => exact ⟨k, hk, rfl⟩
  | cons raw raws ih =>
      show ∃ j, _ ∧ ((atBlock config k).next raw).2.after raws = _
      rw [next_atBlock hp hk]
      have hblocks := (Nat.le_div_iff_mul_le hv.block_pos).mpr hk
      have htwo : (k + 2) * config.blockSize.toNat < 2 ^ 64 :=
        Nat.lt_of_le_of_lt (Nat.mul_le_mul_right _ (by omega)) hfit
      by_cases hend : config.fileSize.toNat < (k + 2) * config.blockSize.toNat
      · rw [if_pos ⟨hend, htwo⟩]
        refine ih ?_
        rw [Nat.zero_add, Nat.one_mul]
        exact hv.block_le_file
      · rw [if_neg (fun h => hend h.1)]
        exact ih (Nat.not_lt.mp hend)

/-- The offset of a block that draws lead to. -/
theorem returns_atBlock (hp : config.accessPattern = .kSequential) {k : Nat}
    (h : (atBlock config 0).after (List.replicate k 0) = atBlock config k) :
    Returns config (UInt64.ofNat (k * config.blockSize.toNat)).toInt64 := by
  have hgen : (atBlock config k).pattern = .kSequential := hp
  refine ⟨List.replicate k 0, 0, ?_, ?_⟩
  · intro r hr
    have hzero : r = 0 := by
      rcases List.mem_cons.mp hr with rfl | hmem
      · rfl
      · exact List.eq_of_mem_replicate hmem
    rw [hzero]
    exact UInt64.zero_le
  · rw [← atBlock_zero, h]
    exact (next_sequential hgen 0).1

/-- The last block that fits in the file. -/
theorem exists_lastBlock (hv : Validated config) :
    ∃ last, config.fileSize.toNat / config.blockSize.toNat = last + 1 ∧
      (∀ i, i ≤ last → (i + 1) * config.blockSize.toNat ≤ config.fileSize.toNat) ∧
      config.fileSize.toNat < (last + 2) * config.blockSize.toNat := by
  have hpos := hv.block_pos
  obtain ⟨last, hlast⟩ : ∃ last,
      config.fileSize.toNat / config.blockSize.toNat = last + 1 :=
    Nat.exists_eq_succ_of_ne_zero
      (Nat.pos_iff_ne_zero.mp (Nat.div_pos hv.block_le_file hpos))
  refine ⟨last, hlast, fun i hi => ?_, Nat.lt_mul_of_div_lt (by omega) hpos⟩
  refine (Nat.le_div_iff_mul_le hpos).mp ?_
  omega

/-- The offset of a block that begins in the file is a word. -/
theorem toNat_blockOffset {k : Nat}
    (hk : k * config.blockSize.toNat ≤ config.fileSize.toNat) :
    (UInt64.ofNat (k * config.blockSize.toNat)).toNat = k * config.blockSize.toNat := by
  have hfile := UInt64.toNat_lt config.fileSize
  rw [UInt64.toNat_ofNat']
  exact Nat.mod_eq_of_lt (by omega)

/-- Offsets that stay in range: the cursor reaches the last block, and would pass it
    if the test overflowed there. -/
theorem fit_of_offsetsInRange (hp : config.accessPattern = .kSequential) {last : Nat}
    (hfits : ∀ i, i ≤ last →
      (i + 1) * config.blockSize.toNat ≤ config.fileSize.toNat)
    (hover : config.fileSize.toNat < (last + 2) * config.blockSize.toNat)
    (h : OffsetsInRange config) :
    last * config.blockSize.toNat < 2 ^ 63 ∧
      (last + 2) * config.blockSize.toNat < 2 ^ 64 := by
  have hlast := hfits last (Nat.le_refl last)
  have hstay : ∀ i, i < last → ¬ (config.fileSize.toNat
      < (i + 2) * config.blockSize.toNat ∧ (i + 2) * config.blockSize.toNat < 2 ^ 64) :=
    fun i hi hno => absurd (hfits (i + 1) hi) (Nat.not_le.mpr hno.1)
  constructor
  · have hreach : (atBlock config 0).after (List.replicate last 0)
        = atBlock config (0 + last) :=
      after_atBlock hp (fun i _ hi => ⟨hfits i (by omega), hstay i (by omega)⟩)
    rw [Nat.zero_add] at hreach
    have hnonneg := toInt64_nonneg_iff.mp (h _ (returns_atBlock hp hreach)).1
    rw [Nat.succ_mul] at hlast
    rw [toNat_blockOffset (by omega)] at hnonneg
    exact hnonneg
  · by_contra hwrap
    have hreach : (atBlock config 0).after (List.replicate (last + 1) 0)
        = atBlock config (0 + (last + 1)) := by
      refine after_atBlock hp (fun i _ hi => ⟨hfits i (by omega), ?_⟩)
      by_cases hi' : i < last
      · exact hstay i hi'
      · have heq : i = last := by omega
        rw [heq]
        exact fun hno => hwrap hno.2
    rw [Nat.zero_add] at hreach
    obtain ⟨hnonneg, hle⟩ := h _ (returns_atBlock hp hreach)
    rw [toInt_toInt64 (toInt64_nonneg_iff.mp hnonneg), toNat_blockOffset hlast] at hle
    rw [Nat.succ_mul (last + 1)] at hover
    omega

/-- The sequential offsets. -/
theorem offsets_sequential_iff (hv : Validated config)
    (hp : config.accessPattern = .kSequential) :
    OffsetsInRange config ↔
      (config.fileSize.toNat / config.blockSize.toNat - 1) * config.blockSize.toNat
        < 2 ^ 63 ∧
      (config.fileSize.toNat / config.blockSize.toNat + 1) * config.blockSize.toNat
        < 2 ^ 64 := by
  have hpos := hv.block_pos
  obtain ⟨last, hlast, hfits, hover⟩ := exists_lastBlock hv
  rw [hlast, Nat.add_sub_cancel]
  constructor
  · exact fit_of_offsetsInRange hp hfits hover
  · rintro ⟨h63, h64⟩ _ ⟨raws, raw, -, rfl⟩
    obtain ⟨j, hj, hafter⟩ := after_inFile hv hp (by rw [hlast]; exact h64) raws
      (hfits 0 (Nat.zero_le _))
    have hjlast : j ≤ last := by
      have hle := (Nat.le_div_iff_mul_le hpos).mpr hj
      omega
    have hle := Nat.mul_le_mul_right config.blockSize.toNat hjlast
    rw [← atBlock_zero, hafter, next_atBlock hp hj]
    rw [Nat.succ_mul] at hj
    have hx : (UInt64.ofNat (j * config.blockSize.toNat)).toNat = _ :=
      toNat_blockOffset (by omega)
    show 0 ≤ (UInt64.ofNat (j * config.blockSize.toNat)).toInt64.toInt ∧
      (UInt64.ofNat (j * config.blockSize.toNat)).toInt64.toInt ≤ _
    rw [toInt_toInt64 (by rw [hx]; omega), hx]
    omega

/-- **The offsets are in range exactly when they fit.** -/
theorem offsetsInRange_iff (hv : Validated config) :
    OffsetsInRange config ↔ OffsetsFit config := by
  have hrandom := fun hp => offsets_random_iff hv hp
  have hsequential := fun hp => offsets_sequential_iff hv hp
  constructor
  · intro h
    exact ⟨fun hp => (hrandom hp).mp h, fun hp => (hsequential hp).mp h⟩
  · intro h
    cases hp : config.accessPattern with
    | kRandom => exact (hrandom hp).mpr (h.1 hp)
    | kSequential => exact (hsequential hp).mpr (h.2 hp)

/-! ## The submits -/

/-- An engine throws these for a call that breaks its precondition; a
    `std::system_error` is the operating system's refusal. -/
def isPreconditionError : Exn → Bool
  | .runtimeError _ => true
  | e => e.isLogicError

/-- A `SubmitIO` that found its precondition broken. -/
def Refused : EngineCall → Prop
  | .submitIo _ _ _ thrown => ∃ e, thrown = some e ∧ isPreconditionError e = true
  | .pollCompletions _ _ _ _ _ => False

/-- No run of the worker on the engine has such a submit. -/
def NeverRefused {σ κ : Type*} (E : Engine σ κ) (thread : WorkerThread) (s : σ) : Prop :=
  ∀ (running₀ : Bool) (as : List (ThreadAct Bool (Env κ))) (running : Bool)
    (w : Worker σ), run (threadStep flagRely (step E))
      (running₀, { thread := thread, engine := s }) as = some (running, w) →
    ∀ call ∈ w.calls, ¬ Refused call

/-- A `SubmitIO` that threw a `std::runtime_error`. -/
def RuntimeError : EngineCall → Prop
  | .submitIo _ _ _ thrown => ∃ what, thrown = some (.runtimeError what)
  | .pollCompletions _ _ _ _ _ => False

/-- What is refused is a misuse, or a failure at run time. -/
theorem not_refused {call : EngineCall} (hmisuse : ¬ Misuse call)
    (hruntime : ¬ RuntimeError call) : ¬ Refused call := by
  cases call with
  | pollCompletions running lo hi appended thrown => exact id
  | submitIo running unrecorded request thrown =>
      rintro ⟨e, hthrown, he⟩
      cases e with
      | runtimeError what => exact hruntime ⟨what, hthrown⟩
      | logicError what => exact hmisuse ⟨_, hthrown, rfl⟩
      | invalidArgument what => exact hmisuse ⟨_, hthrown, rfl⟩
      | systemError code what => exact nomatch he
      | badAlloc => exact nomatch he
      | unknown => exact nomatch he

section Open

variable {σ κ : Type*} {E : Engine σ κ} {IsOpen : σ → Prop}

/-- An open engine stays open, and throws no `std::runtime_error` for a request of
    this length. -/
structure StaysOpen (E : Engine σ κ) (length : UInt64) (IsOpen : σ → Prop) : Prop where
  submit : ∀ {k request s res}, IsOpen s → E.submit k request s = some res →
    IsOpen res.state ∧
      (request.length = length → ∀ what, res.thrown ≠ some (.runtimeError what))
  poll : ∀ {k lo hi out s res}, IsOpen s → E.poll k lo hi out s = some res →
    IsOpen res.state

/-- The worker keeps its configuration and its engine open, and has seen no
    `std::runtime_error`. -/
structure OpenInv (IsOpen : σ → Prop) (config : JobConfig) (w : Worker σ) : Prop where
  config_eq : w.thread.config = config
  isOpen : IsOpen w.engine
  calls : ∀ call ∈ w.calls, ¬ RuntimeError call

/-- **No step meets a `std::runtime_error`.** -/
theorem effect_open (hstays : StaysOpen E config.blockSize IsOpen)
    {running running' : Bool} {w w' : Worker σ} {env : Env κ}
    (hi : OpenInv IsOpen config w) (h : Effect E running w env running' w') :
    OpenInv IsOpen config w' := by
  cases h with
  | jump next hj => exact ⟨hi.config_eq, hi.isOpen, hi.calls⟩
  | accepted next request thread engine hs hgen hsub =>
      obtain ⟨slot, rest, hfree, rfl, rfl⟩ := generate_cases hgen
      obtain ⟨hopen, -⟩ := hstays.submit hi.isOpen hsub
      refine ⟨hi.config_eq, hopen, List.forall_mem_append.mpr ⟨hi.calls, ?_⟩⟩
      exact List.forall_mem_singleton.mpr (fun ⟨_, hno⟩ => nomatch hno)
  | rejected next request thread engine e hs hgen hsub =>
      obtain ⟨slot, rest, hfree, rfl, rfl⟩ := generate_cases hgen
      obtain ⟨hopen, hthrown⟩ := hstays.submit hi.isOpen hsub
      refine ⟨hi.config_eq, hopen, List.forall_mem_append.mpr ⟨hi.calls, ?_⟩⟩
      refine List.forall_mem_singleton.mpr (fun ⟨what, heq⟩ => hthrown ?_ what heq)
      exact congrArg JobConfig.blockSize hi.config_eq
  | polled hiEvents go out engine hp hpoll =>
      refine ⟨hi.config_eq, hstays.poll hi.isOpen hpoll,
        List.forall_mem_append.mpr ⟨hi.calls, ?_⟩⟩
      exact List.forall_mem_singleton.mpr id
  | pollThrew hiEvents go out engine e hp hpoll =>
      refine ⟨hi.config_eq, hstays.poll hi.isOpen hpoll,
        List.forall_mem_append.mpr ⟨hi.calls, ?_⟩⟩
      exact List.forall_mem_singleton.mpr id
  | recorded now c next hr => exact ⟨hi.config_eq, hi.isOpen, hi.calls⟩
  | failed e lost hloc => exact ⟨hi.config_eq, hi.isOpen, hi.calls⟩

/-- An engine that is not misused, opened and stays open refuses nothing. -/
theorem neverRefused_of_open (hstays : StaysOpen E config.blockSize IsOpen)
    {thread : WorkerThread} {s : σ} (hconfig : thread.config = config) (hopen : IsOpen s)
    (hused : NeverMisused E thread s) : NeverRefused E thread s := by
  intro running₀ as running w hrun call hcall
  have hinv := worker_invariant (I := fun _ v => OpenInv IsOpen config v)
    (fun _ _ _ _ hv => hv) (fun _ _ _ _ _ hv he => effect_open hstays hv he) hrun
    ⟨hconfig, hopen, fun _ hc => nomatch hc⟩
  exact not_refused (hused running₀ as running w hrun call hcall) (hinv.calls call hcall)

end Open

/-- An open psync engine stays open, and refuses no length. -/
theorem psync_staysOpen (length : UInt64) :
    StaysOpen CfioSyncEngines.psyncEngine length (fun engine => 0 ≤ engine.fd) where
  submit hopen h := by
    obtain ⟨hstill, hthrown⟩ := (CfioSyncEngines.psync_submitted h).isOpen hopen
    exact ⟨hstill, fun _ => hthrown⟩
  poll hopen h := by
    rw [← Option.some.inj h]
    exact CfioSyncEngines.pollCompletions_isOpen hopen _ _

/-- An open sync engine stays open, and refuses no length. -/
theorem sync_staysOpen (length : UInt64) :
    StaysOpen CfioSyncEngines.syncEngine length (fun engine => 0 ≤ engine.fd) where
  submit hopen h := by
    obtain ⟨hstill, hthrown⟩ := (CfioSyncEngines.sync_submitted h).isOpen hopen
    exact ⟨hstill, fun _ => hthrown⟩
  poll hopen h := by
    rw [← Option.some.inj h]
    exact CfioSyncEngines.pollCompletions_isOpen hopen _ _

/-- An open libaio engine stays open, and refuses no length. -/
theorem libaio_staysOpen (admits : Int → Nat → Bool) (length : UInt64) :
    StaysOpen (CfioLibaio.libaioEngine admits) length CfioLibaio.Libaio.IsOpen where
  submit hopen h := by
    rw [← Option.some.inj h]
    obtain ⟨hstill, hthrown⟩ := CfioLibaio.submitIo_isOpen hopen _ _
    exact ⟨hstill, fun _ => hthrown⟩
  poll hopen h := CfioLibaio.pollCompletions_isOpen hopen h

/-- An open io_uring engine stays open, and refuses no length of 32 bits. -/
theorem uring_staysOpen {length : UInt64} (hlength : ¬ length > CfioIoUring.kUIntMax) :
    StaysOpen CfioIoUring.ioUringEngine length CfioIoUring.IoUring.IsOpen where
  submit hopen h := by
    obtain ⟨hstill, hthrown⟩ := CfioIoUring.submitIo_isOpen hopen h
    exact ⟨hstill, fun hlen => hthrown (hlen ▸ hlength)⟩
  poll hopen h := CfioIoUring.pollCompletions_isOpen hopen h

/-! ### The first submit -/

/-- An allocator that grants what fits. -/
def grantAlloc : Allocator := fun alignment size =>
  if alignment.toNat + size.toNat ≤ 2 ^ 64 then alignment else 0

/-- An allocator that grants everything is one. -/
theorem grantAlloc_spec : AllocatorSpec grantAlloc :=
  allocatorSpec_ite (fun a _ _ => Nat.dvd_refl a.toNat) (fun _ _ h => h)

/-- The alignment is a power of two. -/
theorem alignment_dvd (hv : Validated config) : config.alignment.toNat ∣ 2 ^ 64 := by
  obtain ⟨k, hk⟩ :=
    (and_sub_one_eq_zero_iff (ne_zero_of_toNat_pos hv.alignment_pos)).mp hv.alignment_pow
  rw [hk]
  refine Nat.pow_dvd_pow 2 ?_
  have hlt := UInt64.toNat_lt config.alignment
  rw [hk] at hlt
  exact Nat.le_of_lt ((Nat.pow_lt_pow_iff_right Nat.one_lt_two).mp hlt)

/-- A worker can be built for a validated job whose pool fits. -/
theorem exists_worker (hv : Validated config)
    (hfit : config.blockSize.toNat * config.effectiveIODepth.toInt.toNat < 2 ^ 64) :
    ∃ thread, WorkerThread.new grantAlloc config (.ok true) = .ok thread := by
  obtain ⟨hcap, -⟩ := poolCapacity_toNat hv
  rw [← hcap] at hfit
  have hwrap : NoWrapMul config.blockSize (poolCapacity config) := hfit
  -- the size is a multiple of the alignment below `2 ^ 64`, as the alignment is
  have hgrant : grantAlloc config.alignment (config.blockSize * poolCapacity config) ≠ 0 := by
    have hpow : config.alignment.toNat ∣ 2 ^ 64 := alignment_dvd hv
    have hle : config.alignment.toNat
        + (config.blockSize * poolCapacity config).toNat ≤ 2 ^ 64 := by
      rw [hwrap.toNat]
      obtain ⟨q, hq⟩ := hpow
      obtain ⟨m, hm⟩ := Nat.dvd_mul_right_of_dvd hv.block_aligned
        (poolCapacity config).toNat
      rw [hq, hm] at hfit
      rw [hq, hm, Nat.add_comm, ← Nat.mul_succ]
      exact Nat.mul_le_mul_left _ (Nat.lt_of_mul_lt_mul_left hfit)
    rw [grantAlloc, if_pos hle]
    exact ne_zero_of_toNat_pos hv.alignment_pos
  have hpool := new_of_noWrap hv hwrap grantAlloc
  rw [if_neg hgrant] at hpool
  exact ⟨_, bind_ok_iff.mpr ⟨_, hpool, rfl⟩⟩

/-- A request that the engine refuses ends the worker's loop. -/
theorem submitOne_refused {σ κ : Type*} {E : Engine σ κ} (w : Worker σ) (env : Env κ)
    {request : IORequest} {thread : WorkerThread} {s' : σ} {e : Exn}
    (hgen : w.thread.generateNextIo env.raw env.coin = some (request, thread))
    (hsubmit : E.submit env.kernel { request with submitTime := env.now } w.engine
      = some ⟨some e, s'⟩) (he : isPreconditionError e = true) (next : Loc) :
    ∃ w', w.submitOne E true env next [] = some (true, w') ∧
      ∃ call ∈ w'.calls, Refused call := by
  have hstep : w.submitOne E true env next [] = some (true,
      { thread := thread.release request.id, engine := s', loc := .unwinding e []
        calls := w.calls ++
          [.submitIo true 0 { request with submitTime := env.now } (some e)] }) := by
    rw [Worker.submitOne, hgen]
    show (E.submit env.kernel { request with submitTime := env.now } w.engine).map _ = _
    rw [hsubmit]
    rfl
  exact ⟨_, hstep, _, List.mem_append_right _ (List.mem_singleton_self _), e, rfl, he⟩

/-- A new worker has a slot for its first request. -/
theorem new_generates {alloc : Allocator} (halloc : AllocatorSpec alloc)
    (hv : Validated config) {opened : Except Exn Bool} {thread : WorkerThread}
    (hnew : WorkerThread.new alloc config opened = .ok thread) :
    thread.config = config ∧ ∃ request thread',
      thread.generateNextIo 0 false = some (request, thread') ∧
        request.length = config.blockSize := by
  obtain ⟨hcap, hpos⟩ := poolCapacity_toNat hv
  obtain ⟨pool, direct, -, hthread, -, -, -, hfree⟩ := new_worker halloc hnew
  have hconfig : thread.config = config := by rw [hthread]
  have hpool : thread.bufferPool = pool := by rw [hthread]
  refine ⟨hconfig, ?_⟩
  cases hslots : pool.freeSlots with
  | nil =>
      have hlen := congrArg List.length hfree
      rw [hslots, List.length_map, List.length_range] at hlen
      have hnone : 0 = (poolCapacity config).toNat := hlen
      omega
  | cons slot rest =>
      have hacquire : thread.bufferPool.acquire
          = some (slot, { pool with freeSlots := rest }) := by
        rw [hpool, BufferPool.acquire, hslots]
      have hgen : ∃ generated, thread.generateNextIo 0 false = some generated ∧
          generated.1.length = thread.config.blockSize := by
        rw [WorkerThread.generateNextIo, hacquire]
        exact ⟨_, rfl, rfl⟩
      obtain ⟨⟨request, thread'⟩, hgen, hlength⟩ := hgen
      rw [hconfig] at hlength
      exact ⟨request, thread', hgen, hlength⟩

/-- **A worker submits**: an engine that refuses its requests refuses one. -/
theorem first_refused {alloc : Allocator} (halloc : AllocatorSpec alloc)
    (hv : Validated config) {opened : Except Exn Bool} {thread : WorkerThread}
    (hnew : WorkerThread.new alloc config opened = .ok thread) {σ κ : Type*}
    {E : Engine σ κ} {s : σ} (k : κ)
    (hrefuse : ∀ request : IORequest, request.length = config.blockSize →
      ∃ e, E.submit k request s = some ⟨some e, s⟩ ∧ isPreconditionError e = true) :
    ¬ NeverRefused E thread s := by
  intro hnever
  obtain ⟨-, hpos⟩ := poolCapacity_toNat hv
  obtain ⟨hconfig, request, thread', hgen, hlength⟩ := new_generates halloc hv hnew
  obtain ⟨e, hsubmit, he⟩ := hrefuse { request with submitTime := 0 } hlength
  let env : Env κ := { kernel := k }
  have hsubmitted := fun (loc : Loc) (next : Loc) =>
    submitOne_refused { thread := thread, engine := s, loc := loc } env hgen hsubmit he next
  by_cases hone : config.effectiveIODepth = 1
  · obtain ⟨w', hw', call, hcall, hrefused⟩ := hsubmitted .syncSubmit .syncPoll
    have hrun : run (threadStep flagRely (step E))
        (true, { thread := thread, engine := s })
        [.own env, .own env, .own env] = some (true, w') := by
      refine run_cons_iff.mpr ⟨(true, { thread := thread, engine := s, loc := .syncTest }),
        ?_, run_cons_iff.mpr ⟨(true, { thread := thread, engine := s, loc := .syncSubmit }),
        rfl, run_single hw'⟩⟩
      exact if_pos (hconfig ▸ hone)
    exact hnever true _ true w' hrun call hcall hrefused
  · obtain ⟨w', hw', call, hcall, hrefused⟩ :=
      hsubmitted (.prefillSubmit 0 0) (.prefillTest (0 + 1) (0 + 1))
    have hrun : run (threadStep flagRely (step E))
        (true, { thread := thread, engine := s })
        [.own env, .own env, .own env] = some (true, w') := by
      refine run_cons_iff.mpr
        ⟨(true, { thread := thread, engine := s, loc := .prefillTest 0 0 }), ?_,
        run_cons_iff.mpr
          ⟨(true, { thread := thread, engine := s, loc := .prefillSubmit 0 0 }), ?_,
          run_single hw'⟩⟩
      · exact if_neg (hconfig ▸ hone)
      · refine if_pos ⟨?_, rfl⟩
        show 0 < thread.config.effectiveIODepth.toInt
        rw [hconfig]
        omega
    exact hnever true _ true w' hrun call hcall hrefused

/-! ## The validator -/

/-- No `SubmitIO` of the job's engine, opened with the job, refuses a request of the
    job's worker. -/
def SubmitsAccepted (config : JobConfig) : Prop :=
  ∀ (alloc : Allocator) (opened : Except Exn Bool) (thread : WorkerThread)
    (first second : OpenOutcome), AllocatorSpec alloc →
    WorkerThread.new alloc config opened = .ok thread →
    (config.engine = "psync" → ∀ engine,
      ({} : CfioSyncEngines.BlockingEngine).openEngine "PsyncEngine" config first second
        = .ok engine → NeverRefused CfioSyncEngines.psyncEngine thread engine) ∧
    (config.engine = "sync" → ∀ engine,
      ({} : CfioSyncEngines.BlockingEngine).openEngine "SyncEngine" config first second
        = .ok engine → NeverRefused CfioSyncEngines.syncEngine thread engine) ∧
    (config.engine = "libaio" → ∀ (setupRet : Int32) engine (admits : Int → Nat → Bool),
      ({} : CfioLibaio.LibaioEngine).openEngine config first second setupRet
        = .ok engine → (∀ m n, admits m n = true → m ≤ (n : Int)) →
      NeverRefused (CfioLibaio.libaioEngine admits) thread { engine := engine }) ∧
    (config.engine = "io_uring" → ∀ (initRet : Int32) engine (sqEntries : Nat),
      ({} : CfioIoUring.IoUringEngine).openEngine config first second initRet
        = .ok engine → config.iodepth.toInt.toNat ≤ sqEntries →
      NeverRefused CfioIoUring.ioUringEngine thread
        { engine := engine, sqEntries := sqEntries })

/-- What runs afterwards meets none of its limits. -/
structure Sound (config : JobConfig) : Prop where
  pool : PoolAccepts config
  offsets : OffsetsInRange config
  submits : SubmitsAccepted config

/-- The bounds that `ConfigValidator` does not check. -/
structure Fits (config : JobConfig) : Prop where
  pool : config.blockSize.toNat * config.effectiveIODepth.toInt.toNat < 2 ^ 64
  offsets : OffsetsFit config
  length : config.engine = "io_uring" → config.blockSize.toNat < 2 ^ 32

/-- No engine refuses a request that fits. -/
theorem submits_of_fits (hv : validate config = .ok ())
    (hlength : config.engine = "io_uring" → config.blockSize.toNat < 2 ^ 32) :
    SubmitsAccepted config := by
  intro alloc opened thread first second halloc hnew
  obtain ⟨hpsync, hsync, hlibaio, huring⟩ := engines_usage hv halloc hnew first second
  obtain ⟨hconfig, -⟩ := new_generates halloc (validate_ok hv) hnew
  refine ⟨?_, ?_, ?_, ?_⟩
  · intro hname engine hopen
    obtain ⟨-, -, hfd⟩ := CfioSyncEngines.openEngine_stored hopen
    exact neverRefused_of_open (psync_staysOpen _) hconfig hfd (hpsync hname engine hopen)
  · intro hname engine hopen
    obtain ⟨-, -, hfd⟩ := CfioSyncEngines.openEngine_stored hopen
    exact neverRefused_of_open (sync_staysOpen _) hconfig hfd (hsync hname engine hopen)
  · intro hname setupRet engine admits hopen hadm
    obtain ⟨-, hfd, hctx⟩ := CfioLibaio.openEngine_inv hopen
    exact neverRefused_of_open (libaio_staysOpen admits _) hconfig ⟨hfd, hctx⟩
      (hlibaio hname setupRet engine admits hopen hadm)
  · intro hname initRet engine sqEntries hopen hentries
    have hfits : ¬ config.blockSize > CfioIoUring.kUIntMax := by
      have hblock := hlength hname
      have hmax : CfioIoUring.kUIntMax.toNat = 2 ^ 32 - 1 := rfl
      rw [gt_iff_lt, UInt64.lt_iff_toNat_lt]
      omega
    exact neverRefused_of_open (uring_staysOpen hfits) hconfig
      (CfioIoUring.openEngine_isOpen hopen sqEntries)
      (huring hname initRet engine sqEntries hopen hentries)

/-- `io_uring` refuses a block that does not fit in an `unsigned`. -/
theorem length_of_submits (hv : Validated config)
    (hfit : config.blockSize.toNat * config.effectiveIODepth.toInt.toNat < 2 ^ 64)
    (h : SubmitsAccepted config) (hname : config.engine = "io_uring") :
    config.blockSize.toNat < 2 ^ 32 := by
  by_contra hlong
  have hmax : CfioIoUring.kUIntMax.toNat = 2 ^ 32 - 1 := rfl
  obtain ⟨thread, hnew⟩ := exists_worker hv hfit
  obtain ⟨engine, hopen⟩ := CfioIoUring.exists_openEngine hv.iodepth
  have hrefused := first_refused (E := CfioIoUring.ioUringEngine) grantAlloc_spec hv hnew {}
    (s := { engine := engine, sqEntries := config.iodepth.toInt.toNat })
    (fun request hlen => by
      refine ⟨_, CfioIoUring.submitIo_tooLong
        (CfioIoUring.openEngine_isOpen hopen _) ?_ _, rfl⟩
      rw [hlen, gt_iff_lt, UInt64.lt_iff_toNat_lt]
      omega)
  exact hrefused ((h _ _ _ _ _ grantAlloc_spec hnew).2.2.2 hname 0 engine _ hopen
    (Nat.le_refl _))

/-- **What validation is worth**: a job that passed it runs within the limits of its
    pool, its offsets and its engine if and only if its numbers fit. -/
theorem validate_sound_iff (hv : validate config = .ok ()) :
    Sound config ↔ Fits config := by
  have hval := validate_ok hv
  constructor
  · intro h
    have hpool := (poolAccepts_iff hval).mp h.pool
    exact ⟨hpool, (offsetsInRange_iff hval).mp h.offsets,
      length_of_submits hval hpool h.submits⟩
  · intro h
    exact ⟨(poolAccepts_iff hval).mpr h.pool, (offsetsInRange_iff hval).mpr h.offsets,
      submits_of_fits hv h.length⟩

/-- A job with blocks of 4 KiB. -/
def smallJob : JobConfig :=
  { name := "small", engine := "io_uring", blockSize := 4096, fileSize := 1048576
    iodepth := 8 }

theorem validate_sound_iff_smallJob : Sound smallJob :=
  (validate_sound_iff rfl).mpr
    { pool := by decide, offsets := by decide, length := fun _ => by decide }

/-- A job with blocks of 4 GiB on `io_uring`. -/
def bigBlockJob : JobConfig :=
  { name := "big", engine := "io_uring", blockSize := 0x100000000
    fileSize := 0x200000000 }

/-- A job whose buffers add up to `2 ^ 64` bytes. -/
def deepJob : JobConfig :=
  { name := "deep", engine := "libaio", blockSize := 0x10000000000
    fileSize := 0x10000000000, iodepth := 0x1000000 }

/-- A job on random offsets up to `2 ^ 63`. -/
def hugeFileJob : JobConfig :=
  { name := "huge", engine := "psync", rwMode := .kRandRead, accessPattern := .kRandom
    blockSize := 4096, fileSize := 0x8000000000001000 }

/-- Validation accepts jobs that each of the three parts fails on. -/
theorem validate_unsound :
    (validate bigBlockJob = .ok () ∧ PoolAccepts bigBlockJob ∧
      ¬ SubmitsAccepted bigBlockJob) ∧
    (validate deepJob = .ok () ∧ ¬ PoolAccepts deepJob) ∧
    (validate hugeFileJob = .ok () ∧ ¬ OffsetsInRange hugeFileJob) ∧
    ¬ ∀ config, validate config = .ok () → Sound config := by
  have hpool : PoolAccepts bigBlockJob :=
    (poolAccepts_iff (validate_ok rfl)).mpr (by decide)
  have hbig : ¬ SubmitsAccepted bigBlockJob := by
    intro h
    have hlength := length_of_submits (validate_ok rfl) (by decide) h rfl
    exact absurd hlength (by decide)
  have hdeep : ¬ PoolAccepts deepJob := by
    intro h
    exact absurd ((poolAccepts_iff (validate_ok rfl)).mp h) (by decide)
  have hhuge : ¬ OffsetsInRange hugeFileJob := by
    intro h
    exact absurd ((offsetsInRange_iff (validate_ok rfl)).mp h) (by decide)
  exact ⟨⟨rfl, hpool, hbig⟩, ⟨rfl, hdeep⟩, ⟨rfl, hhuge⟩,
    fun h => hbig (h bigBlockJob rfl).submits⟩

end CfioConfigSoundness
