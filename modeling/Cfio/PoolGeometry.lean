import Cfio.BufferPool

/-! # Which pools can be built

    The checks on the three sizes of a pool are spread over two helpers and the
    constructor of its storage.  Together they refuse exactly the sizes of `Rejected`,
    and what they let pass is a pool of disjoint blocks (`pool_geometry`). -/

namespace CfioBufferPool

open CfioTypes Checks Words

/-- The call throws `std::invalid_argument`. -/
def ThrowsInvalidArgument {α : Type} (result : Except Exn α) : Prop :=
  ∃ text, result = .error (.invalidArgument text)

/-- The sizes no pool is built with. -/
def Rejected (alignment blockSize capacity : UInt64) : Prop :=
  capacity.toNat = 0 ∨ 2 ^ 32 - 1 < capacity.toNat
    ∨ 2 ^ 64 - 1 < blockSize.toNat * capacity.toNat
    ∨ blockSize.toNat * capacity.toNat = 0
    ∨ ¬ alignment.toNat.isPowerOfTwo
    ∨ ¬ alignment.toNat ∣ blockSize.toNat * capacity.toNat

/-- Gets the total memory held by the pool. -/
def BufferPool.totalBytes (pool : BufferPool) : UInt64 := pool.storage.size

section Checks

variable {α : Type} {alloc : Allocator} {alignment blockSize capacity size : UInt64}

theorem not_throws_ok (a : α) : ¬ ThrowsInvalidArgument (.ok a : Except Exn α) := by
  rintro ⟨text, h⟩
  cases h

/-- A check that throws, or the call after it does. -/
theorem throws_guard_iff {p : Prop} [Decidable p] {text : String} {x : Except Exn α} :
    ThrowsInvalidArgument (if p then .error (.invalidArgument text) else x)
      ↔ p ∨ ThrowsInvalidArgument x := by
  by_cases hp : p
  · rw [if_pos hp]
    exact ⟨fun _ => Or.inl hp, fun _ => ⟨text, rfl⟩⟩
  · rw [if_neg hp]
    exact (or_iff_right hp).symm

/-- The first call throws, or the next does on its result. -/
theorem throws_bind_iff {β : Type} {x : Except Exn α} {f : α → Except Exn β} {a : α}
    (hx : ¬ ThrowsInvalidArgument x → x = .ok a) :
    ThrowsInvalidArgument (x >>= f) ↔ ThrowsInvalidArgument x ∨ ThrowsInvalidArgument (f a) := by
  by_cases hthrows : ThrowsInvalidArgument x
  · refine ⟨fun _ => Or.inl hthrows, fun _ => ?_⟩
    obtain ⟨text, rfl⟩ := hthrows
    exact ⟨text, rfl⟩
  · rw [hx hthrows, ok_bind]
    exact (or_iff_right (not_throws_ok a)).symm

/-- Nothing after the last call throws. -/
theorem throws_bind_pure_iff {β : Type} {x : Except Exn α} {f : α → β} :
    ThrowsInvalidArgument (x >>= fun a => pure (f a)) ↔ ThrowsInvalidArgument x := by
  cases x with
  | error e =>
      constructor
      · rintro ⟨text, h⟩
        exact ⟨text, congrArg Except.error (Except.error.inj h)⟩
      · rintro ⟨text, h⟩
        exact ⟨text, congrArg Except.error (Except.error.inj h)⟩
  | ok a => exact iff_of_false (not_throws_ok (f a)) (not_throws_ok a)

/-- Zero is no capacity, nor is what does not fit in 32 bits. -/
theorem throws_checkCapacity_iff :
    ThrowsInvalidArgument (checkCapacity capacity)
      ↔ capacity.toNat = 0 ∨ 2 ^ 32 - 1 < capacity.toNat := by
  have hzero : capacity = 0 ↔ capacity.toNat = 0 := UInt64.toNat_inj.symm
  have hlarge : capacity > kUInt32Max ↔ 2 ^ 32 - 1 < capacity.toNat :=
    UInt64.lt_iff_toNat_lt
  rw [checkCapacity, throws_guard_iff, throws_guard_iff, hzero, hlarge,
    or_iff_left (not_throws_ok capacity)]

theorem checkCapacity_eq_ok (h : ¬ ThrowsInvalidArgument (checkCapacity capacity)) :
    checkCapacity capacity = .ok capacity := by
  rw [checkCapacity, throws_guard_iff, throws_guard_iff] at h
  rw [checkCapacity, if_neg (fun hz => h (Or.inl hz)),
    if_neg (fun hl => h (Or.inr (Or.inl hl)))]

/-- The test by division finds every product that does not fit. -/
theorem throws_totalSize_iff :
    ThrowsInvalidArgument (totalSize blockSize capacity)
      ↔ 2 ^ 64 - 1 < blockSize.toNat * capacity.toNat := by
  have hmax : kSizeMax.toNat = 2 ^ 64 - 1 := rfl
  rw [totalSize, throws_guard_iff, or_iff_left (not_throws_ok _)]
  constructor
  · rintro ⟨hblock, hlarge⟩
    have hlt : (kSizeMax / blockSize).toNat < capacity.toNat := UInt64.lt_iff_toNat_lt.mp hlarge
    rw [UInt64.toNat_div, hmax, Nat.div_lt_iff_lt_mul (toNat_pos_of_ne hblock)] at hlt
    rw [Nat.mul_comm]
    exact hlt
  · intro hlarge
    have hblock : blockSize ≠ 0 := by
      rintro rfl
      rw [UInt64.toNat_zero, Nat.zero_mul] at hlarge
      exact absurd hlarge (Nat.not_lt_zero _)
    refine ⟨hblock, UInt64.lt_iff_toNat_lt.mpr ?_⟩
    rw [UInt64.toNat_div, hmax, Nat.div_lt_iff_lt_mul (toNat_pos_of_ne hblock), Nat.mul_comm]
    exact hlarge

/-- A product that does not wrap is accepted. -/
theorem totalSize_eq_ok (h : ¬ ThrowsInvalidArgument (totalSize blockSize capacity)) :
    totalSize blockSize capacity = .ok (blockSize * capacity) := by
  rw [totalSize, throws_guard_iff] at h
  rw [totalSize, if_neg (fun hl => h (Or.inl hl))]

/-- A word has a single bit if and only if it is a power of two. -/
theorem isPowerOfTwo_iff (alignment : UInt64) :
    (alignment = 0 ∨ alignment &&& (alignment - 1) ≠ 0) ↔ ¬ alignment.toNat.isPowerOfTwo := by
  by_cases hzero : alignment = 0
  · refine ⟨fun _ => ?_, fun _ => Or.inl hzero⟩
    rintro ⟨k, hk⟩
    rw [hzero, UInt64.toNat_zero] at hk
    exact absurd hk.symm (Nat.pos_iff_ne_zero.mp (Nat.two_pow_pos k))
  · rw [or_iff_right hzero, not_iff_not, and_sub_one_eq_zero_iff hzero]

/-- What the buffer asks of its alignment and size. -/
theorem throws_alignedBuffer_iff :
    ThrowsInvalidArgument (AlignedBuffer.new alloc alignment size)
      ↔ ¬ alignment.toNat.isPowerOfTwo ∨ size.toNat = 0 ∨ ¬ alignment.toNat ∣ size.toNat := by
  have hzero : size = 0 ↔ size.toNat = 0 := UInt64.toNat_inj.symm
  have hmod : size % alignment ≠ 0 ↔ ¬ alignment.toNat ∣ size.toNat := by
    rw [← UInt64.toNat_inj.ne, UInt64.toNat_mod, Nat.dvd_iff_mod_eq_zero]
    exact Iff.rfl
  have hlast : ¬ ThrowsInvalidArgument ((if alloc alignment size = 0 then .error .badAlloc
      else .ok { data := alloc alignment size, size := size, alignment := alignment } :
      Except Exn AlignedBuffer)) := by
    split
    · rintro ⟨text, h⟩
      cases h
    · exact not_throws_ok _
  rw [AlignedBuffer.new, throws_guard_iff, throws_guard_iff, throws_guard_iff,
    isPowerOfTwo_iff, hzero, hmod, or_iff_left hlast]

/-- Sizes that pass the checks leave the allocation alone to fail. -/
theorem alignedBuffer_eq (h : ¬ ThrowsInvalidArgument (AlignedBuffer.new alloc alignment size)) :
    AlignedBuffer.new alloc alignment size = if alloc alignment size = 0 then .error .badAlloc
      else .ok { data := alloc alignment size, size := size, alignment := alignment } := by
  rw [AlignedBuffer.new, throws_guard_iff, throws_guard_iff, throws_guard_iff] at h
  rw [AlignedBuffer.new, if_neg (fun ha => h (Or.inl ha)),
    if_neg (fun hs => h (Or.inr (Or.inl hs))),
    if_neg (fun hm => h (Or.inr (Or.inr (Or.inl hm))))]

end Checks

section Pool

variable {alloc : Allocator} {alignment blockSize capacity : UInt64} {pool : BufferPool}

/-- **The constructor refuses exactly these sizes**, whatever the allocator does. -/
theorem throws_new_iff :
    ThrowsInvalidArgument (BufferPool.new alloc alignment blockSize capacity)
      ↔ Rejected alignment blockSize capacity := by
  rw [BufferPool.new, throws_bind_iff checkCapacity_eq_ok, throws_bind_iff totalSize_eq_ok,
    throws_bind_pure_iff, throws_checkCapacity_iff, throws_totalSize_iff,
    throws_alignedBuffer_iff, Rejected, or_assoc]
  refine or_congr_right (or_congr_right (or_congr_right' (fun hfits => ?_)))
  have hwrap : NoWrapMul blockSize capacity := by
    show blockSize.toNat * capacity.toNat < 2 ^ 64
    omega
  rw [hwrap.toNat]
  exact or_left_comm

/-- Sizes that are not refused make a pool, given the memory. -/
theorem new_of_not_rejected (hsizes : ¬ Rejected alignment blockSize capacity)
    (hgrant : alloc alignment (blockSize * capacity) ≠ 0) :
    ∃ pool, BufferPool.new alloc alignment blockSize capacity = .ok pool := by
  have hpasses : ¬ ThrowsInvalidArgument (BufferPool.new alloc alignment blockSize capacity) :=
    fun hthrows => hsizes (throws_new_iff.mp hthrows)
  rw [BufferPool.new, throws_bind_iff checkCapacity_eq_ok, throws_bind_iff totalSize_eq_ok,
    throws_bind_pure_iff, not_or, not_or] at hpasses
  obtain ⟨hcap, htotal, hbuffer⟩ := hpasses
  have hstorage := alignedBuffer_eq hbuffer
  rw [if_neg hgrant] at hstorage
  exact ⟨_, bind_ok_iff.mpr ⟨_, checkCapacity_eq_ok hcap, bind_ok_iff.mpr ⟨_,
    totalSize_eq_ok htotal, bind_ok_iff.mpr ⟨_, hstorage, rfl⟩⟩⟩⟩

/-- The slots of a pool: disjoint blocks at aligned addresses inside its storage.  That
    each address is the sum and the product as numbers says that neither wraps. -/
structure SlotsLaidOut (alignment : UInt64) (pool : BufferPool) : Prop where
  disjoint : ∀ i j : UInt32, i ≠ j → i.toNat < pool.capacity.toNat →
    j.toNat < pool.capacity.toNat →
    DisjointBlocks (pool.data i) (pool.data j) pool.blockSize
  aligned : ∀ i : UInt32, i.toNat < pool.capacity.toNat →
    alignment.toNat ∣ (pool.data i).toNat
  inside : ∀ i : UInt32, i.toNat < pool.capacity.toNat →
    pool.storage.data.toNat ≤ (pool.data i).toNat ∧
      (pool.data i).toNat + pool.blockSize.toNat
        ≤ pool.storage.data.toNat + pool.totalBytes.toNat
  no_wrap : ∀ i : UInt32, i.toNat < pool.capacity.toNat →
    (i.toUInt64 * pool.blockSize).toNat = i.toNat * pool.blockSize.toNat ∧
      (pool.data i).toNat = pool.storage.data.toNat + i.toNat * pool.blockSize.toNat
  null : ∀ i : UInt32, pool.capacity.toNat ≤ i.toNat → pool.data i = 0

/-- The slots of a pool that was built, if blocks keep the alignment. -/
theorem Geometry.slotsLaidOut (h : Geometry alignment pool)
    (hblock : alignment.toNat ∣ pool.blockSize.toNat) : SlotsLaidOut alignment pool where
  disjoint i j hne hi hj :=
    h.data_disjoint hi hj (fun heq => hne (UInt32.toNat_inj.mp heq))
  aligned i hi := by
    rw [h.data_toNat hi]
    exact Nat.dvd_add h.data_aligned (Nat.dvd_mul_left_of_dvd hblock _)
  inside i hi := by
    have hend := h.slot_end_le hi
    rw [h.data_toNat hi, BufferPool.totalBytes]
    omega
  no_wrap i hi := by
    refine ⟨?_, h.data_toNat hi⟩
    rw [(h.slotFits hi).noWrap_slot.toNat, UInt32.toNat_toUInt64]
  null i hi := data_of_capacity_le hi

/-- **The geometry of a pool**: its constructor refuses exactly the sizes of `Rejected`,
    and makes a pool of the others, given the memory; blocks of aligned size are then
    laid out as they should be. -/
theorem pool_geometry (alloc : Allocator) (halloc : AllocatorSpec alloc)
    (alignment blockSize capacity : UInt64) :
    (ThrowsInvalidArgument (BufferPool.new alloc alignment blockSize capacity)
      ↔ Rejected alignment blockSize capacity) ∧
    (¬ Rejected alignment blockSize capacity → alloc alignment (blockSize * capacity) ≠ 0 →
      ∃ pool, BufferPool.new alloc alignment blockSize capacity = .ok pool) ∧
    ∀ pool, BufferPool.new alloc alignment blockSize capacity = .ok pool →
      alignment.toNat ∣ blockSize.toNat →
      pool.blockSize = blockSize ∧ pool.capacity = capacity ∧ SlotsLaidOut alignment pool := by
  refine ⟨throws_new_iff, new_of_not_rejected, ?_⟩
  intro pool hnew hdvd
  obtain ⟨hgeometry, hblock, hcapacity, -⟩ := new_ok halloc hnew
  rw [← hblock] at hdvd
  exact ⟨hblock, hcapacity, hgeometry.slotsLaidOut hdvd⟩

theorem pool_geometry_arena :
    (ThrowsInvalidArgument (BufferPool.new arenaAlloc 4096 8192 4) ↔ Rejected 4096 8192 4) ∧
    (¬ Rejected 4096 8192 4 → arenaAlloc 4096 (8192 * 4) ≠ 0 →
      ∃ pool, BufferPool.new arenaAlloc 4096 8192 4 = .ok pool) ∧
    ∀ pool, BufferPool.new arenaAlloc 4096 8192 4 = .ok pool →
      (4096 : UInt64).toNat ∣ (8192 : UInt64).toNat →
      pool.blockSize = 8192 ∧ pool.capacity = 4 ∧ SlotsLaidOut 4096 pool :=
  pool_geometry arenaAlloc arenaAlloc_spec 4096 8192 4

end Pool

end CfioBufferPool
