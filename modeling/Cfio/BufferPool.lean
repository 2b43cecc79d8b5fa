import Cfio.Checks
import Cfio.Types
import Cfio.Words

/-! # The pool of aligned IO buffers

    `AlignedBuffer` and `BufferPool` with the checks of their constructors in the
    order the code makes them.  The allocator is outside the program: it is a
    function from alignment and size to an address, and `AllocatorSpec` is what
    the code relies on.  The vector of free slots is a list whose head is
    `back()`.

    `Geometry` is what every pool that could be built has: from it follow the
    addresses of the slots (`data_toNat`), that they lie inside the storage and
    that different slots are disjoint. -/

namespace CfioBufferPool

open CfioTypes Checks Words

/-- `std::aligned_alloc`: the address of a new block, or null. -/
abbrev Allocator := UInt64 → UInt64 → UInt64

/-- A block that was granted starts at a multiple of the alignment and does not
    wrap around the address space. -/
structure AllocatorSpec (alloc : Allocator) : Prop where
  aligned : ∀ a n, alloc a n ≠ 0 → a.toNat ∣ (alloc a n).toNat
  fits : ∀ a n, alloc a n ≠ 0 → (alloc a n).toNat + n.toNat ≤ 2 ^ 64

/-- An allocator that grants what meets a condition. -/
theorem allocatorSpec_ite {address : Allocator} {granted : UInt64 → UInt64 → Prop}
    [∀ a n, Decidable (granted a n)]
    (haligned : ∀ a n, granted a n → a.toNat ∣ (address a n).toNat)
    (hfits : ∀ a n, granted a n → (address a n).toNat + n.toNat ≤ 2 ^ 64) :
    AllocatorSpec (fun a n => if granted a n then address a n else 0) := by
  have hgranted : ∀ a n, (if granted a n then address a n else 0) ≠ 0 →
      granted a n ∧ (if granted a n then address a n else 0) = address a n := by
    intro a n h
    by_cases hc : granted a n
    · exact ⟨hc, if_pos hc⟩
    · exact absurd (if_neg hc) h
  constructor
  · intro a n h
    obtain ⟨hc, heq⟩ := hgranted a n h
    rw [heq]
    exact haligned a n hc
  · intro a n h
    obtain ⟨hc, heq⟩ := hgranted a n h
    rw [heq]
    exact hfits a n hc

/-- An allocator that grants one block of an arena of `2 ^ 40` bytes. -/
def arenaAlloc : Allocator := fun alignment size =>
  if 0x10000000000 % alignment = 0 ∧ size ≤ 0x10000000000 then 0x10000000000 else 0

theorem arenaAlloc_spec : AllocatorSpec arenaAlloc := by
  refine allocatorSpec_ite (fun a n h => dvd_of_mod_eq h.1) (fun a n h => ?_)
  have hle := UInt64.le_iff_toNat_le.mp h.2
  have harena : (0x10000000000 : UInt64).toNat = 2 ^ 40 := rfl
  omega

/-- The owned, aligned block of memory. -/
structure AlignedBuffer where
  data : UInt64 := 0
  size : UInt64 := 0
  alignment : UInt64 := 0
  deriving DecidableEq, Repr

/-- The constructor of `AlignedBuffer`. -/
def AlignedBuffer.new (alloc : Allocator) (alignment size : UInt64) :
    Except Exn AlignedBuffer :=
  if alignment = 0 ∨ alignment &&& (alignment - 1) ≠ 0 then
    .error (.invalidArgument ("alignment must be a positive power of 2, got "
      ++ toString alignment))
  else if size = 0 then
    .error (.invalidArgument "size must be greater than 0")
  else if size % alignment ≠ 0 then
    .error (.invalidArgument ("size (" ++ toString size
      ++ ") must be a multiple of alignment (" ++ toString alignment
      ++ "), required by aligned_alloc"))
  else if alloc alignment size = 0 then .error .badAlloc
  else .ok { data := alloc alignment size, size := size, alignment := alignment }

/-- Distinct aligned buffers, one for each request in flight. -/
structure BufferPool where
  storage : AlignedBuffer := {}
  blockSize : UInt64 := 0
  capacity : UInt64 := 0
  freeSlots : List UInt32 := []
  deriving DecidableEq, Repr

/-- `std::numeric_limits<size_t>::max()`. -/
def kSizeMax : UInt64 := 0xFFFFFFFFFFFFFFFF

/-- `std::numeric_limits<std::uint32_t>::max()`. -/
def kUInt32Max : UInt64 := 0xFFFFFFFF

def totalSize (blockSize capacity : UInt64) : Except Exn UInt64 :=
  if blockSize ≠ 0 ∧ capacity > kSizeMax / blockSize then
    .error (.invalidArgument ("buffer pool size overflows: block_size "
      ++ toString blockSize ++ " times capacity " ++ toString capacity))
  else .ok (blockSize * capacity)

def checkCapacity (capacity : UInt64) : Except Exn UInt64 :=
  if capacity = 0 then
    .error (.invalidArgument "buffer pool capacity must be greater than 0")
  else if capacity > kUInt32Max then
    .error (.invalidArgument ("buffer pool capacity too large: "
      ++ toString capacity))
  else .ok capacity

/-- The loop that pushes `i - 1`, then `i - 2`, down to `0`. -/
def pushSlots : Nat → List UInt32 → List UInt32
  | 0, free => free
  | i + 1, free => pushSlots i (UInt32.ofNat i :: free)

/-- The constructor of `BufferPool`, less the random bytes it fills the storage
    with. -/
def BufferPool.new (alloc : Allocator) (alignment blockSize capacity : UInt64) :
    Except Exn BufferPool := do
  let checked ← checkCapacity capacity
  let total ← totalSize blockSize checked
  let storage ← AlignedBuffer.new alloc alignment total
  return { storage := storage, blockSize := blockSize, capacity := capacity
           freeSlots := pushSlots capacity.toNat [] }

/-- Take a free slot; `back()` of an empty vector has no meaning. -/
def BufferPool.acquire (pool : BufferPool) : Option (UInt32 × BufferPool) :=
  match pool.freeSlots with
  | [] => none
  | slot :: rest => some (slot, { pool with freeSlots := rest })

/-- Return a slot.  As built without assertions: a slot out of range is ignored,
    any other is pushed. -/
def BufferPool.release (pool : BufferPool) (slot : UInt32) : BufferPool :=
  if slot.toUInt64 ≥ pool.capacity then pool
  else { pool with freeSlots := slot :: pool.freeSlots }

/-- The memory of one slot, null for an index out of range. -/
def BufferPool.data (pool : BufferPool) (slot : UInt32) : UInt64 :=
  if slot.toUInt64 ≥ pool.capacity then 0
  else pool.storage.data + slot.toUInt64 * pool.blockSize

@[simp] theorem release_blockSize (pool : BufferPool) (slot : UInt32) :
    (pool.release slot).blockSize = pool.blockSize := by
  simp only [BufferPool.release]
  split <;> rfl

@[simp] theorem release_capacity (pool : BufferPool) (slot : UInt32) :
    (pool.release slot).capacity = pool.capacity := by
  simp only [BufferPool.release]
  split <;> rfl

@[simp] theorem release_storage (pool : BufferPool) (slot : UInt32) :
    (pool.release slot).storage = pool.storage := by
  simp only [BufferPool.release]
  split <;> rfl

/-- A slot in range is pushed. -/
theorem release_freeSlots {pool : BufferPool} {slot : UInt32}
    (h : slot.toNat < pool.capacity.toNat) :
    (pool.release slot).freeSlots = slot :: pool.freeSlots := by
  simp only [BufferPool.release]
  rw [if_neg]
  rw [ge_iff_le, UInt64.le_iff_toNat_le, UInt32.toNat_toUInt64]
  omega

/-- What an `Acquire` does, when it has a slot to give. -/
theorem acquire_cases {pool pool' : BufferPool} {slot : UInt32}
    (h : pool.acquire = some (slot, pool')) :
    ∃ rest, pool.freeSlots = slot :: rest ∧ pool' = { pool with freeSlots := rest } := by
  simp only [BufferPool.acquire] at h
  cases hf : pool.freeSlots with
  | nil =>
      rw [hf] at h
      exact nomatch h
  | cons s rest =>
      rw [hf] at h
      obtain ⟨rfl, rfl⟩ := Prod.mk.inj (Option.some.inj h)
      exact ⟨rest, rfl, rfl⟩

/-- Two pools with the same blocks; their free slots may differ. -/
structure SameBlocks (pool pool' : BufferPool) : Prop where
  storage : pool'.storage = pool.storage
  blockSize : pool'.blockSize = pool.blockSize
  capacity : pool'.capacity = pool.capacity

theorem release_sameBlocks (pool : BufferPool) (slot : UInt32) :
    SameBlocks pool (pool.release slot) :=
  ⟨release_storage pool slot, release_blockSize pool slot, release_capacity pool slot⟩

/-- The address of a slot does not depend on what is free. -/
theorem SameBlocks.data {pool pool' : BufferPool} (h : SameBlocks pool pool')
    (slot : UInt32) : pool'.data slot = pool.data slot := by
  simp only [BufferPool.data, h.storage, h.blockSize, h.capacity]

/-! ## The loop that fills the free list -/

/-- By induction: the free list is filled with the slots in order. -/
theorem pushSlots_eq (n : Nat) (free : List UInt32) :
    pushSlots n free = (List.range n).map UInt32.ofNat ++ free := by
  induction n generalizing free with
  | zero => rfl
  | succ n ih =>
      show pushSlots n (UInt32.ofNat n :: free) = _
      rw [ih, List.range_succ, List.map_append, List.append_assoc]
      rfl

/-- As numbers, the slots of a new pool are `0`, `1`, … -/
theorem pushSlots_toNat {n : Nat} (h : n ≤ 2 ^ 32) :
    (pushSlots n []).map UInt32.toNat = List.range n := by
  rw [pushSlots_eq, List.append_nil, List.map_map]
  refine (List.map_congr_left ?_).trans (List.map_id _)
  intro i hi
  have hlt : i < 2 ^ 32 := by
    have := List.mem_range.mp hi
    omega
  show (UInt32.ofNat i).toNat = i
  rw [UInt32.toNat_ofNat']
  exact Nat.mod_eq_of_lt hlt

/-! ## Addresses -/

/-- The slot is one of the pool's and ends inside its storage, which does not wrap around
    the address space. -/
structure SlotFits (pool : BufferPool) (slot : UInt32) : Prop where
  in_range : slot.toNat < pool.capacity.toNat
  block_pos : 0 < pool.blockSize.toNat
  end_le : slot.toNat * pool.blockSize.toNat + pool.blockSize.toNat
    ≤ pool.storage.size.toNat
  storage_fits : pool.storage.data.toNat + pool.storage.size.toNat ≤ 2 ^ 64

section Addresses

variable {pool : BufferPool} {slot : UInt32}

/-- A slot that the pool does not have is at no address. -/
theorem data_of_capacity_le (h : pool.capacity.toNat ≤ slot.toNat) : pool.data slot = 0 := by
  refine if_pos ?_
  rw [ge_iff_le, UInt64.le_iff_toNat_le, UInt32.toNat_toUInt64]
  exact h

/-- The product in a slot's address does not wrap. -/
theorem SlotFits.noWrap_slot (h : SlotFits pool slot) :
    NoWrapMul slot.toUInt64 pool.blockSize := by
  have hblock := h.block_pos
  have hend := h.end_le
  have hfits := h.storage_fits
  show slot.toUInt64.toNat * pool.blockSize.toNat < 2 ^ 64
  rw [UInt32.toNat_toUInt64]
  omega

/-- Nor does the sum. -/
theorem SlotFits.noWrap_data (h : SlotFits pool slot) :
    NoWrapAdd pool.storage.data (slot.toUInt64 * pool.blockSize) := by
  have hblock := h.block_pos
  have hend := h.end_le
  have hfits := h.storage_fits
  show pool.storage.data.toNat + (slot.toUInt64 * pool.blockSize).toNat < 2 ^ 64
  rw [h.noWrap_slot.toNat, UInt32.toNat_toUInt64]
  omega

/-- The address of a slot, without a wrap. -/
theorem SlotFits.data_toNat (h : SlotFits pool slot) :
    (pool.data slot).toNat
      = pool.storage.data.toNat + slot.toNat * pool.blockSize.toNat := by
  have hge : ¬ slot.toUInt64 ≥ pool.capacity := by
    rw [ge_iff_le, UInt64.le_iff_toNat_le, UInt32.toNat_toUInt64]
    exact Nat.not_le_of_lt h.in_range
  simp only [BufferPool.data]
  rw [if_neg hge, h.noWrap_data.toNat, h.noWrap_slot.toNat, UInt32.toNat_toUInt64]

end Addresses

/-! ## Geometry -/

/-- What a pool has that could be built with this alignment. -/
structure Geometry (alignment : UInt64) (pool : BufferPool) : Prop where
  capacity_pos : 0 < pool.capacity.toNat
  capacity_le : pool.capacity.toNat < 2 ^ 32
  block_pos : 0 < pool.blockSize.toNat
  noWrap : NoWrapMul pool.blockSize pool.capacity
  size : pool.storage.size = pool.blockSize * pool.capacity
  data_pos : 0 < pool.storage.data.toNat
  data_aligned : alignment.toNat ∣ pool.storage.data.toNat
  data_fits : pool.storage.data.toNat + pool.storage.size.toNat ≤ 2 ^ 64

/-- Pools with the same blocks have the same geometry. -/
theorem Geometry.transfer {alignment : UInt64} {pool pool' : BufferPool}
    (h : Geometry alignment pool) (hs : SameBlocks pool pool') :
    Geometry alignment pool' := by
  obtain ⟨storage, blockSize, capacity, freeSlots⟩ := pool
  obtain ⟨storage', blockSize', capacity', freeSlots'⟩ := pool'
  obtain ⟨rfl, rfl, rfl⟩ := hs
  exact ⟨h.capacity_pos, h.capacity_le, h.block_pos, h.noWrap, h.size, h.data_pos,
    h.data_aligned, h.data_fits⟩

/-- A capacity that is accepted fits in 32 bits, and is not zero. -/
theorem checkCapacity_ok {c c' : UInt64} (h : checkCapacity c = .ok c') :
    c' = c ∧ 0 < c.toNat ∧ c.toNat < 2 ^ 32 := by
  obtain ⟨h0, h⟩ := guard_ok_iff.mp h
  obtain ⟨hm, h⟩ := guard_ok_iff.mp h
  have hle : c.toNat ≤ kUInt32Max.toNat := by
    rw [gt_iff_lt, UInt64.lt_iff_toNat_lt] at hm
    exact Nat.le_of_not_lt hm
  have hmax : kUInt32Max.toNat = 2 ^ 32 - 1 := rfl
  exact ⟨(Except.ok.inj h).symm, toNat_pos_of_ne h0, by omega⟩

/-- A size that is accepted is the product, without a wrap. -/
theorem totalSize_ok {b c t : UInt64} (h : totalSize b c = .ok t) :
    t = b * c ∧ NoWrapMul b c := by
  obtain ⟨hb, h⟩ := guard_ok_iff.mp h
  refine ⟨(Except.ok.inj h).symm, ?_⟩
  by_cases h0 : b = 0
  · rw [h0]
    show (0 : UInt64).toNat * c.toNat < 2 ^ 64
    rw [UInt64.toNat_zero, Nat.zero_mul]
    exact Nat.two_pow_pos 64
  · have hle : ¬ c > kSizeMax / b := fun hgt => hb ⟨h0, hgt⟩
    rw [gt_iff_lt, UInt64.lt_iff_toNat_lt, UInt64.toNat_div] at hle
    exact noWrapMul_of_le_div (Nat.le_of_not_lt hle)

/-- A buffer that was allocated is what the allocator gave. -/
theorem alignedBuffer_ok {alloc : Allocator} {a n : UInt64} {buffer : AlignedBuffer}
    (h : AlignedBuffer.new alloc a n = .ok buffer) :
    n ≠ 0 ∧ alloc a n ≠ 0 ∧
      buffer = { data := alloc a n, size := n, alignment := a } := by
  obtain ⟨-, h⟩ := guard_ok_iff.mp h
  obtain ⟨hn, h⟩ := guard_ok_iff.mp h
  obtain ⟨-, h⟩ := guard_ok_iff.mp h
  obtain ⟨ha, h⟩ := guard_ok_iff.mp h
  exact ⟨hn, ha, (Except.ok.inj h).symm⟩

/-- **A pool that could be built has the geometry**, and all its slots are
    free. -/
theorem new_ok {alloc : Allocator} (halloc : AllocatorSpec alloc)
    {alignment blockSize capacity : UInt64} {pool : BufferPool}
    (h : BufferPool.new alloc alignment blockSize capacity = .ok pool) :
    Geometry alignment pool ∧ pool.blockSize = blockSize ∧
      pool.capacity = capacity ∧
      pool.freeSlots.map UInt32.toNat = List.range capacity.toNat := by
  obtain ⟨checked, hc, h⟩ := bind_ok_iff.mp h
  obtain ⟨total, ht, h⟩ := bind_ok_iff.mp h
  obtain ⟨storage, hb, h⟩ := bind_ok_iff.mp h
  obtain ⟨rfl, hpos, hlt⟩ := checkCapacity_ok hc
  obtain ⟨rfl, hwrap⟩ := totalSize_ok ht
  obtain ⟨hn, ha, rfl⟩ := alignedBuffer_ok hb
  obtain rfl := Except.ok.inj h
  have hblock : 0 < blockSize.toNat := by
    have hprod := toNat_pos_of_ne hn
    rw [hwrap.toNat] at hprod
    exact Nat.pos_of_mul_pos_right hprod
  refine ⟨⟨hpos, hlt, hblock, hwrap, rfl, toNat_pos_of_ne ha,
    halloc.aligned _ _ ha, halloc.fits _ _ ha⟩, rfl, rfl, ?_⟩
  exact pushSlots_toNat (Nat.le_of_lt hlt)

section Slots

variable {alignment : UInt64} {pool : BufferPool} {slot slot' : UInt32}

/-- The storage in bytes. -/
theorem Geometry.size_toNat (h : Geometry alignment pool) :
    pool.storage.size.toNat = pool.blockSize.toNat * pool.capacity.toNat := by
  rw [h.size, h.noWrap.toNat]

/-- A slot ends inside the storage. -/
theorem Geometry.slot_end_le (h : Geometry alignment pool)
    (hs : slot.toNat < pool.capacity.toNat) :
    slot.toNat * pool.blockSize.toNat + pool.blockSize.toNat
      ≤ pool.storage.size.toNat := by
  rw [h.size_toNat, Nat.mul_comm pool.blockSize.toNat, ← Nat.succ_mul]
  exact Nat.mul_le_mul_right _ hs

/-- Every slot of a pool that was built fits. -/
theorem Geometry.slotFits (h : Geometry alignment pool)
    (hs : slot.toNat < pool.capacity.toNat) : SlotFits pool slot :=
  ⟨hs, h.block_pos, h.slot_end_le hs, h.data_fits⟩

/-- **The address of a slot**, as a number. -/
theorem Geometry.data_toNat (h : Geometry alignment pool)
    (hs : slot.toNat < pool.capacity.toNat) :
    (pool.data slot).toNat
      = pool.storage.data.toNat + slot.toNat * pool.blockSize.toNat :=
  (h.slotFits hs).data_toNat

/-- The addresses `[start, start + length)` of a block do not meet those of
    another. -/
def DisjointBlocks (a b length : UInt64) : Prop :=
  a.toNat + length.toNat ≤ b.toNat ∨ b.toNat + length.toNat ≤ a.toNat

/-- **Different slots are disjoint blocks.** -/
theorem Geometry.data_disjoint (h : Geometry alignment pool)
    (hs : slot.toNat < pool.capacity.toNat)
    (hs' : slot'.toNat < pool.capacity.toNat) (hne : slot.toNat ≠ slot'.toNat) :
    DisjointBlocks (pool.data slot) (pool.data slot') pool.blockSize := by
  have key : ∀ {i j b : Nat}, i < j → i * b + b ≤ j * b := by
    intro i j b hij
    rw [← Nat.succ_mul]
    exact Nat.mul_le_mul_right b hij
  simp only [DisjointBlocks]
  rw [h.data_toNat hs, h.data_toNat hs']
  rcases Nat.lt_or_gt_of_ne hne with hlt | hlt
  · have := key (b := pool.blockSize.toNat) hlt
    omega
  · have := key (b := pool.blockSize.toNat) hlt
    omega

end Slots

end CfioBufferPool
