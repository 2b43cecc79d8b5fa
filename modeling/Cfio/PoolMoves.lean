import Cfio.BufferPool
import Cfio.Transition

/-! # Moving buffer pools

    The defaulted moves of `BufferPool` treat its members differently: the storage is
    taken on construction and swapped on assignment, the vector is taken, and the two
    sizes are copied and stay behind.  A pool that was moved from therefore still has
    its sizes, over no storage or over that of another pool
    (`moves_keep_pools_iff`). -/

namespace CfioBufferPool

open CfioTypes Words Transition

/-! ## Moves -/

/-- The move constructor of `AlignedBuffer`: the new buffer, and what is left. -/
def AlignedBuffer.moveConstruct (other : AlignedBuffer) : AlignedBuffer × AlignedBuffer :=
  ({ data := other.data, size := other.size, alignment := other.alignment },
    { data := 0, size := 0, alignment := 0 })

/-- Its move assignment swaps the members. -/
def AlignedBuffer.moveAssign (self other : AlignedBuffer) : AlignedBuffer × AlignedBuffer :=
  ({ data := other.data, size := other.size, alignment := other.alignment },
    { data := self.data, size := self.size, alignment := self.alignment })

/-- The move constructor of `BufferPool`, member by member: the new pool, and what is
    left.  A vector that a vector was constructed from is empty. -/
def BufferPool.moveConstruct (other : BufferPool) : BufferPool × BufferPool :=
  let storage := other.storage.moveConstruct
  ({ storage := storage.1
     blockSize := other.blockSize
     capacity := other.capacity
     freeSlots := other.freeSlots },
    { other with storage := storage.2, freeSlots := [] })

/-- The move assignment from another pool, member by member.  What is left in the vector
    of the other is not specified: `left` stands for it. -/
def BufferPool.moveAssign (self other : BufferPool) (left : List UInt32) :
    BufferPool × BufferPool :=
  let storage := self.storage.moveAssign other.storage
  ({ storage := storage.1
     blockSize := other.blockSize
     capacity := other.capacity
     freeSlots := other.freeSlots },
    { other with storage := storage.2, freeSlots := left })

/-- What can be done with the pools of a program, by their positions. -/
inductive PoolAction
  | acquire (i : Nat)
  | release (i : Nat) (slot : UInt32)
  | moveConstruct (source : Nat)
  | moveAssign (target source : Nat) (left : List UInt32)

/-- One action on the pools; a pool that is constructed comes last.  There is no step
    for a position without a pool, nor for an `Acquire` with no free slot. -/
def poolStep (pools : List BufferPool) : PoolAction → Option (List BufferPool)
  | .acquire i =>
      pools[i]?.bind (fun pool => pool.acquire.map (fun r => pools.set i r.2))
  | .release i slot => pools[i]?.map (fun pool => pools.set i (pool.release slot))
  | .moveConstruct source =>
      pools[source]?.map (fun other =>
        pools.set source other.moveConstruct.2 ++ [other.moveConstruct.1])
  | .moveAssign target source left =>
      pools[target]?.bind (fun self => pools[source]?.map (fun other =>
        if target = source then pools.set target { self with freeSlots := left }
        else
          (pools.set target (self.moveAssign other left).1).set source
            (self.moveAssign other left).2))

/-! ## Valid pools -/

/-- Every slot of a pool lies inside its own storage. -/
structure Valid (pool : BufferPool) : Prop where
  sizes : pool.capacity.toNat * pool.blockSize.toNat ≤ pool.storage.size.toNat
  data : ∀ slot, pool.data slot = 0 ∨
    (pool.storage.data.toNat ≤ (pool.data slot).toNat ∧
      (pool.data slot).toNat + pool.blockSize.toNat
        ≤ pool.storage.data.toNat + pool.storage.size.toNat)

/-- A pool without slots. -/
structure Emptied (pool : BufferPool) : Prop where
  data_null : ∀ slot, pool.data slot = 0
  capacity_zero : pool.capacity = 0
  available_zero : pool.freeSlots.length = 0

/-- What no move changes: the sizes are not zero, and the storage, if any, does not wrap
    around the address space. -/
structure Placed (pool : BufferPool) : Prop where
  capacity_pos : 0 < pool.capacity.toNat
  block_pos : 0 < pool.blockSize.toNat
  storage_fits : pool.storage.data.toNat + pool.storage.size.toNat ≤ 2 ^ 64

section Pool

variable {pool pool' self other : BufferPool} {left : List UInt32}

/-- Keeping the blocks keeps what no move changes. -/
theorem Placed.transfer (h : Placed pool) (hs : SameBlocks pool pool') : Placed pool' := by
  refine ⟨?_, ?_, ?_⟩
  · rw [hs.capacity]
    exact h.capacity_pos
  · rw [hs.blockSize]
    exact h.block_pos
  · rw [hs.storage]
    exact h.storage_fits

/-- Keeping the blocks keeps a pool valid. -/
theorem Valid.transfer (h : Valid pool) (hs : SameBlocks pool pool') : Valid pool' := by
  refine ⟨?_, fun slot => ?_⟩
  · rw [hs.capacity, hs.blockSize, hs.storage]
    exact h.sizes
  · rw [hs.data, hs.storage, hs.blockSize]
    exact h.data slot

/-- The sizes are all there is to a valid pool. -/
theorem Placed.valid_iff (h : Placed pool) :
    Valid pool ↔ pool.capacity.toNat * pool.blockSize.toNat ≤ pool.storage.size.toNat := by
  refine ⟨Valid.sizes, fun hsizes => ⟨hsizes, fun slot => ?_⟩⟩
  by_cases hslot : slot.toNat < pool.capacity.toNat
  · right
    have hend : slot.toNat * pool.blockSize.toNat + pool.blockSize.toNat
        ≤ pool.storage.size.toNat := by
      rw [← Nat.succ_mul]
      exact le_trans (Nat.mul_le_mul_right _ hslot) hsizes
    rw [SlotFits.data_toNat ⟨hslot, h.block_pos, hend, h.storage_fits⟩]
    omega
  · exact Or.inl (data_of_capacity_le (Nat.le_of_not_lt hslot))

/-- A pool that was built has its sizes, and storage that does not wrap. -/
theorem Geometry.placed {alignment : UInt64} (h : Geometry alignment pool) : Placed pool :=
  ⟨h.capacity_pos, h.block_pos, h.data_fits⟩

theorem Geometry.valid {alignment : UInt64} (h : Geometry alignment pool) : Valid pool := by
  rw [h.placed.valid_iff, h.size_toNat, Nat.mul_comm]

/-! ## Moves, pool by pool -/

/-- Constructing by a move takes over all blocks. -/
theorem moveConstruct_sameBlocks (other : BufferPool) :
    SameBlocks other other.moveConstruct.1 := ⟨rfl, rfl, rfl⟩

/-- The source of a construction keeps its sizes. -/
theorem Placed.moveConstruct (h : Placed other) : Placed other.moveConstruct.2 :=
  ⟨h.capacity_pos, h.block_pos, Nat.zero_le _⟩

/-- **The source of a move construction keeps its sizes over no storage.** -/
theorem not_valid_moveConstruct (h : Placed other) : ¬ Valid other.moveConstruct.2 := by
  intro hvalid
  have hsizes : other.capacity.toNat * other.blockSize.toNat ≤ 0 := hvalid.sizes
  have hpos := Nat.mul_pos h.capacity_pos h.block_pos
  omega

/-- The target of a move assignment has the blocks of the source. -/
theorem moveAssign_sameBlocks (self other : BufferPool) (left : List UInt32) :
    SameBlocks other (self.moveAssign other left).1 := ⟨rfl, rfl, rfl⟩

/-- The source of an assignment keeps its sizes. -/
theorem Placed.moveAssign (hself : Placed self) (hother : Placed other) :
    Placed (self.moveAssign other left).2 :=
  ⟨hother.capacity_pos, hother.block_pos, hself.storage_fits⟩

/-- **The source of a move assignment keeps its sizes over the storage of the target.** -/
theorem valid_moveAssign_iff (left : List UInt32) (hself : Placed self)
    (hother : Placed other) :
    Valid (self.moveAssign other left).2
      ↔ other.capacity.toNat * other.blockSize.toNat ≤ self.storage.size.toNat :=
  (hself.moveAssign hother).valid_iff

end Pool

/-! ## Moves among pools -/

/-- The moves that leave valid pools: no construction, and an assignment only to a pool
    whose storage holds the slots of the source. -/
def MoveFits (pools : List BufferPool) : PoolAction → Prop
  | .acquire _ => True
  | .release _ _ => True
  | .moveConstruct _ => False
  | .moveAssign target source _ =>
      target ≠ source → ∀ self other, pools[target]? = some self →
        pools[source]? = some other →
        other.capacity.toNat * other.blockSize.toNat ≤ self.storage.size.toNat

section Steps

variable {pools pools' : List BufferPool} {action : PoolAction}

/-- Replacing one pool by a good one keeps all good. -/
theorem forall_mem_set {Q : BufferPool → Prop} {pool : BufferPool}
    (hall : ∀ p ∈ pools, Q p) (hpool : Q pool) (i : Nat) : ∀ p ∈ pools.set i pool, Q p := by
  intro p hp
  rcases List.mem_or_eq_of_mem_set hp with hmem | rfl
  · exact hall p hmem
  · exact hpool

theorem mem_set_of_getElem? {pool pool' : BufferPool} {i : Nat} (h : pools[i]? = some pool) :
    pool' ∈ pools.set i pool' := by
  obtain ⟨hi, -⟩ := List.getElem?_eq_some_iff.mp h
  exact List.mem_set hi pool'

/-- What a step does: the free slots of a pool, a move construction, or a move assignment
    between two pools. -/
theorem poolStep_cases (h : poolStep pools action = some pools') :
    (∃ i pool pool', pools[i]? = some pool ∧ SameBlocks pool pool' ∧
      pools' = pools.set i pool' ∧ MoveFits pools action) ∨
    (∃ source other, action = .moveConstruct source ∧ pools[source]? = some other ∧
      pools' = pools.set source other.moveConstruct.2 ++ [other.moveConstruct.1]) ∨
    (∃ target source left self other, action = .moveAssign target source left ∧
      target ≠ source ∧ pools[target]? = some self ∧ pools[source]? = some other ∧
      pools' = (pools.set target (self.moveAssign other left).1).set source
        (self.moveAssign other left).2) := by
  cases action with
  | acquire i =>
      left
      obtain ⟨pool, hpool, h⟩ := Option.bind_eq_some_iff.mp h
      obtain ⟨⟨slot, pool'⟩, hacquire, rfl⟩ := Option.map_eq_some_iff.mp h
      obtain ⟨rest, -, rfl⟩ := acquire_cases hacquire
      exact ⟨i, pool, { pool with freeSlots := rest }, hpool, ⟨rfl, rfl, rfl⟩, rfl, trivial⟩
  | release i slot =>
      left
      obtain ⟨pool, hpool, rfl⟩ := Option.map_eq_some_iff.mp h
      exact ⟨i, pool, _, hpool, release_sameBlocks pool slot, rfl, trivial⟩
  | moveConstruct source =>
      right
      left
      obtain ⟨other, hother, rfl⟩ := Option.map_eq_some_iff.mp h
      exact ⟨source, other, rfl, hother, rfl⟩
  | moveAssign target source left =>
      obtain ⟨self, hself, h⟩ := Option.bind_eq_some_iff.mp h
      obtain ⟨other, hother, rfl⟩ := Option.map_eq_some_iff.mp h
      by_cases heq : target = source
      · refine Or.inl ⟨target, self, { self with freeSlots := left }, hself,
          ⟨rfl, rfl, rfl⟩, if_pos heq, ?_⟩
        exact fun hne => absurd heq hne
      · exact Or.inr (Or.inr ⟨target, source, left, self, other, rfl, heq, hself, hother,
          if_neg heq⟩)

/-- Every operation keeps what no move changes, in all pools. -/
theorem placed_step (hplaced : ∀ pool ∈ pools, Placed pool)
    (h : poolStep pools action = some pools') : ∀ pool ∈ pools', Placed pool := by
  have hat (i : Nat) (pool : BufferPool) (hpool : pools[i]? = some pool) : Placed pool :=
    hplaced pool (List.mem_of_getElem? hpool)
  rcases poolStep_cases h with ⟨i, pool, pool', hpool, hsame, rfl, -⟩
    | ⟨source, other, rfl, hother, rfl⟩
    | ⟨target, source, left, self, other, rfl, -, hself, hother, rfl⟩
  · exact forall_mem_set hplaced ((hat i pool hpool).transfer hsame) i
  · have hsource := hat source other hother
    intro pool hmem
    rcases List.mem_append.mp hmem with hold | hnew
    · exact forall_mem_set hplaced hsource.moveConstruct source pool hold
    · rw [List.mem_singleton.mp hnew]
      exact hsource.transfer (moveConstruct_sameBlocks other)
  · have hsource := hat source other hother
    exact forall_mem_set (forall_mem_set hplaced
      (hsource.transfer (moveAssign_sameBlocks self other left)) target)
      ((hat target self hself).moveAssign hsource) source

/-- **A step from valid pools leads to valid pools** if and only if it is one of
    `MoveFits`. -/
theorem valid_step_iff (hplaced : ∀ pool ∈ pools, Placed pool)
    (hvalid : ∀ pool ∈ pools, Valid pool) (h : poolStep pools action = some pools') :
    (∀ pool ∈ pools', Valid pool) ↔ MoveFits pools action := by
  rcases poolStep_cases h with ⟨i, pool, pool', hpool, hsame, rfl, hfits⟩
    | ⟨source, other, rfl, hother, rfl⟩
    | ⟨target, source, left, self, other, rfl, hne, hself, hother, rfl⟩
  · have hkept := (hvalid pool (List.mem_of_getElem? hpool)).transfer hsame
    exact ⟨fun _ => hfits, fun _ => forall_mem_set hvalid hkept i⟩
  · refine ⟨fun hall => ?_, False.elim⟩
    exact not_valid_moveConstruct (hplaced other (List.mem_of_getElem? hother))
      (hall _ (List.mem_append_left _ (mem_set_of_getElem? hother)))
  · have hplaced_self := hplaced self (List.mem_of_getElem? hself)
    have hplaced_other := hplaced other (List.mem_of_getElem? hother)
    constructor
    · intro hall _ self' other' hself' hother'
      rw [← Option.some.inj (hself.symm.trans hself'),
        ← Option.some.inj (hother.symm.trans hother')]
      refine (valid_moveAssign_iff left hplaced_self hplaced_other).mp (hall _ ?_)
      obtain ⟨hsource, -⟩ := List.getElem?_eq_some_iff.mp hother
      exact List.mem_set (by rw [List.length_set]; exact hsource) _
    · intro hfits
      have htarget := (hvalid other (List.mem_of_getElem? hother)).transfer
        (moveAssign_sameBlocks self other left)
      exact forall_mem_set (forall_mem_set hvalid htarget target)
        ((valid_moveAssign_iff left hplaced_self hplaced_other).mpr
          (hfits hne self other hself hother)) source

end Steps

/-! ## Runs -/

section Runs

/-- The pool was built, with what the allocator granted then. -/
def Built (pool : BufferPool) : Prop :=
  ∃ alloc, AllocatorSpec alloc ∧ ∃ alignment blockSize capacity,
    BufferPool.new alloc alignment blockSize capacity = .ok pool

/-- How the constructor lays out a pool. -/
theorem Built.geometry {pool : BufferPool} (h : Built pool) :
    ∃ alignment, Geometry alignment pool := by
  obtain ⟨alloc, halloc, alignment, blockSize, capacity, hnew⟩ := h
  exact ⟨alignment, (new_ok halloc hnew).1⟩

/-- What the moves promise: valid pools throughout, and an empty source of every move
    construction. -/
structure PoolsKept (pools : List BufferPool) (actions : List PoolAction) : Prop where
  valid : ∀ done pools', done <+: actions → run poolStep pools done = some pools' →
    ∀ pool ∈ pools', Valid pool
  emptied : ∀ done source pools', done ++ [.moveConstruct source] <+: actions →
    run poolStep pools (done ++ [.moveConstruct source]) = some pools' →
    ∃ pool, pools'[source]? = some pool ∧ Emptied pool

/-- **Moving pools keeps them valid** if and only if no pool is move constructed and no
    pool is assigned to one with less storage than its slots take. -/
theorem moves_keep_pools_iff (first second : BufferPool) (hfirst : Built first)
    (hsecond : Built second) (actions : List PoolAction) (final : List BufferPool)
    (hrun : run poolStep [first, second] actions = some final) :
    PoolsKept [first, second] actions ↔ Meets poolStep MoveFits [first, second] actions := by
  have hgeometry (pool : BufferPool) (hpool : pool ∈ [first, second]) :
      ∃ alignment, Geometry alignment pool := by
    rcases List.mem_pair.mp hpool with rfl | rfl
    · exact hfirst.geometry
    · exact hsecond.geometry
  have hplaced (pool : BufferPool) (hpool : pool ∈ [first, second]) : Placed pool := by
    obtain ⟨alignment, h⟩ := hgeometry pool hpool
    exact h.placed
  have hvalid (pool : BufferPool) (hpool : pool ∈ [first, second]) : Valid pool := by
    obtain ⟨alignment, h⟩ := hgeometry pool hpool
    exact h.valid
  have hstates := run_states_iff_meets (I := fun pools => ∀ pool ∈ pools, Placed pool)
    (Q := fun pools => ∀ pool ∈ pools, Valid pool) (fun _ _ _ hI h => placed_step hI h)
    (fun _ _ _ hI hQ h => valid_step_iff hI hQ h) hrun hplaced hvalid
  constructor
  · intro hkept
    exact hstates.mp hkept.valid
  · intro hmeets
    refine ⟨hstates.mpr hmeets, fun done source pools' hdone hrun' => ?_⟩
    obtain ⟨pools, hpools, -⟩ := exists_of_run_append hrun'
    exact False.elim (hmeets.at_prefix hdone hpools)

/-- An allocator that grants the block at one address. -/
def blockAt (address : UInt64) : Allocator := fun alignment size =>
  if address % alignment = 0 ∧ address.toNat + size.toNat ≤ 2 ^ 64 then address else 0

/-- An allocator that gives the same address each time is one. -/
theorem blockAt_spec (address : UInt64) : AllocatorSpec (blockAt address) :=
  allocatorSpec_ite (fun _ _ h => dvd_of_mod_eq h.1) (fun _ _ h => h.2)

/-- Four pages at one address. -/
def fourPages : BufferPool :=
  { storage := { data := 0x10000, size := 16384, alignment := 4096 }
    blockSize := 4096, capacity := 4, freeSlots := [0, 1, 2, 3] }

/-- Two pages at another. -/
def twoPages : BufferPool :=
  { storage := { data := 0x20000, size := 8192, alignment := 4096 }
    blockSize := 4096, capacity := 2, freeSlots := [0, 1] }

theorem built_fourPages : Built fourPages :=
  ⟨blockAt 0x10000, blockAt_spec _, 4096, 4096, 4, rfl⟩

theorem built_twoPages : Built twoPages :=
  ⟨blockAt 0x20000, blockAt_spec _, 4096, 4096, 2, rfl⟩

theorem moves_keep_pools_iff_larger :
    PoolsKept [fourPages, twoPages] [.acquire 1, .moveAssign 0 1 []]
      ↔ Meets poolStep MoveFits [fourPages, twoPages] [.acquire 1, .moveAssign 0 1 []] :=
  moves_keep_pools_iff fourPages twoPages built_fourPages built_twoPages
    [.acquire 1, .moveAssign 0 1 []]
    [{ twoPages with freeSlots := [1] },
      { twoPages with storage := fourPages.storage, freeSlots := [] }] rfl

/-- The source of a move construction is not empty, and neither it nor the source of an
    assignment to a smaller pool is valid. -/
theorem moved_from_keeps_sizes :
    ¬ PoolsKept [fourPages, twoPages] [.moveConstruct 0] ∧
      ¬ PoolsKept [fourPages, twoPages] [.moveAssign 1 0 []] := by
  constructor
  · intro hkept
    have hvalid := hkept.valid [.moveConstruct 0]
      [{ fourPages with storage := {}, freeSlots := [] }, twoPages, fourPages]
      (List.prefix_refl _) rfl _ (List.mem_cons_self ..)
    exact absurd hvalid.sizes (by decide)
  · intro hkept
    have hvalid := hkept.valid [.moveAssign 1 0 []]
      [{ fourPages with storage := twoPages.storage, freeSlots := [] }, fourPages]
      (List.prefix_refl _) rfl _ (List.mem_cons_self ..)
    exact absurd hvalid.sizes (by decide)

end Runs

end CfioBufferPool
