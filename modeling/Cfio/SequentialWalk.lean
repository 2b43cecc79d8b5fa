import Cfio.ConfigSoundness

/-! # The sequential walk

    A closed form for the cursor of `OffsetGenerator`: after `n` draws it is at block
    `n % blocks`, where `blocks` is the number of whole blocks of the file.  The test
    for the wrap looks one block ahead, so a partial block at the end of the file is
    never entered. -/

namespace CfioGenerators

open CfioTypes CfioConfig CfioConfigSoundness Words

/-- The offsets a generator returns, draw by draw. -/
def OffsetGenerator.offsets (gen : OffsetGenerator) : List UInt64 → List Int64
  | [] => []
  | raw :: raws => (gen.next raw).1 :: (gen.next raw).2.offsets raws

section Walk

variable {config : JobConfig}

/-- The whole blocks of a job's file. -/
def wholeBlocks (config : JobConfig) : Nat :=
  config.fileSize.toNat / config.blockSize.toNat

/-- The sizes of a walk: a block that is not empty, a file that holds one and whose
    size is an `off_t`. -/
structure Walkable (config : JobConfig) : Prop where
  pattern : config.accessPattern = .kSequential
  block_pos : 1 ≤ config.blockSize.toNat
  block_le_file : config.blockSize.toNat ≤ config.fileSize.toNat
  file_le : config.fileSize.toNat ≤ 2 ^ 63 - 1

theorem Walkable.blocks_pos (h : Walkable config) : 0 < wholeBlocks config :=
  Nat.div_pos h.block_le_file h.block_pos

/-- A whole block ends inside the file. -/
theorem Walkable.block_end_le (h : Walkable config) {k : Nat}
    (hk : k < wholeBlocks config) :
    (k + 1) * config.blockSize.toNat ≤ config.fileSize.toNat :=
  (Nat.le_div_iff_mul_le h.block_pos).mp hk

/-- **One draw** moves the cursor to the next block, and from the last whole block to
    the first. -/
theorem next_walk (h : Walkable config) {k : Nat} (hk : k < wholeBlocks config)
    (raw : UInt64) :
    (atBlock config k).next raw
      = ((UInt64.ofNat (k * config.blockSize.toNat)).toInt64,
        atBlock config ((k + 1) % wholeBlocks config)) := by
  have hend := h.block_end_le hk
  have hle := h.block_le_file
  have hfile := h.file_le
  -- the sum of the test is at most twice the file
  have hsum : (k + 2) * config.blockSize.toNat < 2 ^ 64 := by
    rw [Nat.succ_mul]
    omega
  rw [next_atBlock h.pattern hend]
  by_cases hlast : k + 1 = wholeBlocks config
  · have hwrap : config.fileSize.toNat < (k + 2) * config.blockSize.toNat := by
      refine Nat.lt_mul_of_div_lt ?_ h.block_pos
      show wholeBlocks config < k + 2
      omega
    rw [if_pos ⟨hwrap, hsum⟩, hlast, Nat.mod_self]
  · have hroom : (k + 2) * config.blockSize.toNat ≤ config.fileSize.toNat :=
      h.block_end_le (by omega)
    rw [if_neg (fun hwrap => Nat.not_lt.mpr hroom hwrap.1), Nat.mod_eq_of_lt (by omega)]

/-- The cursor after any number of draws. -/
theorem after_walk (h : Walkable config) (raws : List UInt64) (n : Nat) :
    (atBlock config (n % wholeBlocks config)).after raws
      = atBlock config ((n + raws.length) % wholeBlocks config) := by
  induction raws generalizing n with
  | nil => rfl
  | cons raw raws ih =>
      show ((atBlock config (n % wholeBlocks config)).next raw).2.after raws = _
      rw [next_walk h (Nat.mod_lt _ h.blocks_pos), Nat.mod_add_mod, ih, List.length_cons,
        Nat.add_assoc, Nat.add_comm 1]

/-- The offset of a whole block is its number times the block size. -/
theorem next_toInt (h : Walkable config) {k : Nat} (hk : k < wholeBlocks config)
    (raw : UInt64) :
    ((atBlock config k).next raw).1.toInt = ((k * config.blockSize.toNat : Nat) : Int) := by
  have hend := h.block_end_le hk
  have hfile := h.file_le
  rw [Nat.succ_mul] at hend
  have hword : (UInt64.ofNat (k * config.blockSize.toNat)).toNat = k * config.blockSize.toNat :=
    toNat_blockOffset (by omega)
  rw [next_walk h hk, toInt_toInt64 (by omega), hword]

/-- The offsets of a stretch of draws, one block after the other. -/
theorem offsets_walk (h : Walkable config) (raws : List UInt64) (n : Nat) :
    ((atBlock config (n % wholeBlocks config)).offsets raws).map Int64.toInt
      = (List.range' n raws.length).map
          (fun i => ((i % wholeBlocks config * config.blockSize.toNat : Nat) : Int)) := by
  induction raws generalizing n with
  | nil => rfl
  | cons raw raws ih =>
      have hn := Nat.mod_lt n h.blocks_pos
      rw [OffsetGenerator.offsets, List.map_cons, next_toInt h hn, next_walk h hn,
        Nat.mod_add_mod, ih, List.length_cons, List.range'_succ, List.map_cons]

end Walk

section Sizes

variable {fileSize blockSize alignment : UInt64}

/-- A generator with the sequential pattern, as the constructor leaves it. -/
def sequentialGenerator (fileSize blockSize alignment : UInt64) : OffsetGenerator :=
  OffsetGenerator.new .kSequential fileSize blockSize alignment

/-- A job with these sizes. -/
def walkJob (fileSize blockSize alignment : UInt64) : JobConfig :=
  { name := "walk", engine := "psync", rwMode := .kRead, accessPattern := .kSequential
    blockSize := blockSize, fileSize := fileSize, alignment := alignment }

theorem walkJob_walkable (alignment : UInt64) (hpos : 1 ≤ blockSize.toNat)
    (hle : blockSize.toNat ≤ fileSize.toNat) (hmax : fileSize.toNat ≤ 2 ^ 63 - 1) :
    Walkable (walkJob fileSize blockSize alignment) := ⟨rfl, hpos, hle, hmax⟩

/-- The generator of a sequential walk begins at the first block. -/
theorem new_eq_atBlock :
    sequentialGenerator fileSize blockSize alignment
      = atBlock (walkJob fileSize blockSize alignment)
          (0 % wholeBlocks (walkJob fileSize blockSize alignment)) := by
  rw [Nat.zero_mod, atBlock_zero]
  rfl

/-- **Sequential access walks the file block by block**: the `n`-th offset is that of
    block `n % (fileSize / blockSize)`, a cycle of draws lists every whole block once
    and in order, and what is returned is always a whole block of the file. -/
theorem sequential_walk (hpos : 1 ≤ blockSize.toNat)
    (hle : blockSize.toNat ≤ fileSize.toNat) (hmax : fileSize.toNat ≤ 2 ^ 63 - 1)
    (raws : List UInt64) :
    (∀ raw, (((sequentialGenerator fileSize blockSize alignment).after raws).next raw).1.toInt
        = ((raws.length % (fileSize.toNat / blockSize.toNat) * blockSize.toNat : Nat) : Int))
      ∧ (∀ cycle : List UInt64, raws.length % (fileSize.toNat / blockSize.toNat) = 0 →
          cycle.length = fileSize.toNat / blockSize.toNat →
          (((sequentialGenerator fileSize blockSize alignment).after raws).offsets cycle).map
              Int64.toInt
            = (List.range (fileSize.toNat / blockSize.toNat)).map
                (fun k => ((k * blockSize.toNat : Nat) : Int)))
      ∧ ∀ offset ∈ (sequentialGenerator fileSize blockSize alignment).offsets raws,
          ∃ k, (k + 1) * blockSize.toNat ≤ fileSize.toNat
            ∧ offset.toInt = ((k * blockSize.toNat : Nat) : Int) := by
  have h := walkJob_walkable alignment hpos hle hmax
  have hafter : (sequentialGenerator fileSize blockSize alignment).after raws
      = atBlock (walkJob fileSize blockSize alignment)
          (raws.length % (fileSize.toNat / blockSize.toNat)) := by
    rw [new_eq_atBlock, after_walk h, Nat.zero_add]
    rfl
  refine ⟨?_, ?_, ?_⟩
  · intro raw
    rw [hafter]
    exact next_toInt h (Nat.mod_lt _ h.blocks_pos) raw
  · intro cycle hstart hlength
    rw [hafter, hstart]
    have hwalk := offsets_walk h cycle 0
    rw [Nat.zero_mod, hlength, ← List.range_eq_range'] at hwalk
    refine hwalk.trans (List.map_congr_left ?_)
    intro k hk
    show ((k % (fileSize.toNat / blockSize.toNat) * blockSize.toNat : Nat) : Int) = _
    rw [Nat.mod_eq_of_lt (List.mem_range.mp hk)]
  · intro offset hmem
    have hmap : offset.toInt
        ∈ ((sequentialGenerator fileSize blockSize alignment).offsets raws).map Int64.toInt :=
      List.mem_map_of_mem hmem
    rw [new_eq_atBlock, offsets_walk h] at hmap
    obtain ⟨i, -, hi⟩ := List.mem_map.mp hmap
    exact ⟨i % (fileSize.toNat / blockSize.toNat),
      h.block_end_le (Nat.mod_lt _ h.blocks_pos), hi.symm⟩

/-- A file of three blocks and a half, during the second cycle. -/
theorem sequential_walk_partialTail :
    (((sequentialGenerator 14336 4096 4096).after [0, 0, 0, 0]).next 0).1.toInt = 4096 :=
  (@sequential_walk 14336 4096 4096 (by decide) (by decide) (by decide) [0, 0, 0, 0]).1 0

end Sizes

end CfioGenerators
