import Cfio.JobConfig

/-! # Offsets and directions

    `OffsetGenerator` and `IODirectionDecider`, one instance of each per worker.
    The pseudo random numbers are outside the program: `raw` is what
    `uniform_int_distribution(0, file_size - block_size)` returns and `coin` what
    the Bernoulli distribution returns.

    * `InRange` is the invariant of the generator, and `next_inRange` the step:
      the cursor leaves room for one more block, however often it wraps.
    * `random_uniform_iff` counts the raw draws behind each random offset: they
      are equally many exactly when there is nothing to round. -/

namespace CfioGenerators

open CfioTypes CfioConfig Words

/-! ## Directions -/

/-- Picks the direction of each IO. -/
structure IODirectionDecider where
  mode : RWMode
  rwmixread : Int32
  deriving DecidableEq, Repr

/-- The direction of the next IO. -/
def IODirectionDecider.next (coin : Bool) (decider : IODirectionDecider) :
    IODirection :=
  match decider.mode with
  | .kRead => .kRead
  | .kRandRead => .kRead
  | .kWrite => .kWrite
  | .kRandWrite => .kWrite
  | .kReadWrite => if coin then .kRead else .kWrite
  | .kRandRW => if coin then .kRead else .kWrite

/-- The modes that only read. -/
def ReadOnly (mode : RWMode) : Prop := mode = .kRead ∨ mode = .kRandRead

/-- The modes that only write. -/
def WriteOnly (mode : RWMode) : Prop := mode = .kWrite ∨ mode = .kRandWrite

instance (mode : RWMode) : Decidable (ReadOnly mode) :=
  inferInstanceAs (Decidable (_ ∨ _))

instance (mode : RWMode) : Decidable (WriteOnly mode) :=
  inferInstanceAs (Decidable (_ ∨ _))

/-- A pure mode leaves nothing to the coin. -/
theorem next_pure (decider : IODirectionDecider) (coin : Bool) :
    (ReadOnly decider.mode → decider.next coin = .kRead) ∧
      (WriteOnly decider.mode → decider.next coin = .kWrite) := by
  constructor
  · rintro (h | h)
    · simp only [IODirectionDecider.next, h]
    · simp only [IODirectionDecider.next, h]
  · rintro (h | h)
    · simp only [IODirectionDecider.next, h]
    · simp only [IODirectionDecider.next, h]

/-! ## Offsets -/

/-- Produces the next aligned offset.  `distMax` is the upper end of the uniform
    distribution, which starts at zero. -/
structure OffsetGenerator where
  pattern : AccessPattern
  fileSize : UInt64
  blockSize : UInt64
  alignment : UInt64
  sequentialOffset : UInt64 := 0
  distMax : UInt64
  deriving DecidableEq, Repr

/-- The constructor of `OffsetGenerator`. -/
def OffsetGenerator.new (pattern : AccessPattern)
    (fileSize blockSize alignment : UInt64) : OffsetGenerator :=
  { pattern := pattern, fileSize := fileSize, blockSize := blockSize
    alignment := alignment, distMax := fileSize - blockSize }

/-- The next offset, and the generator after it. -/
def OffsetGenerator.next (raw : UInt64) (gen : OffsetGenerator) :
    Int64 × OffsetGenerator :=
  if gen.pattern = .kSequential then
    let current := gen.sequentialOffset.toInt64
    let moved := gen.sequentialOffset + gen.blockSize
    if moved + gen.blockSize > gen.fileSize then
      (current, { gen with sequentialOffset := 0 })
    else (current, { gen with sequentialOffset := moved })
  else
    let aligned := raw / gen.alignment * gen.alignment
    (aligned.toInt64, gen)

/-- The generator a worker builds for its job. -/
def OffsetGenerator.ofConfig (config : JobConfig) : OffsetGenerator :=
  .new config.accessPattern config.fileSize config.blockSize config.alignment

/-- Random access leaves the generator as it is. -/
theorem next_random {gen : OffsetGenerator} (h : gen.pattern = .kRandom)
    (raw : UInt64) :
    gen.next raw = ((raw / gen.alignment * gen.alignment).toInt64, gen) := by
  simp [OffsetGenerator.next, h]

/-- Sequential access returns the cursor and moves it, back to the start when the
    block after next would not fit. -/
theorem next_sequential {gen : OffsetGenerator} (h : gen.pattern = .kSequential)
    (raw : UInt64) :
    (gen.next raw).1 = gen.sequentialOffset.toInt64 ∧
      ∃ cursor, (gen.next raw).2 = { gen with sequentialOffset := cursor } ∧
        (cursor = 0 ∨ cursor = gen.sequentialOffset + gen.blockSize ∧
          ¬ gen.sequentialOffset + gen.blockSize + gen.blockSize > gen.fileSize) := by
  simp only [OffsetGenerator.next, if_pos h]
  by_cases hw : gen.sequentialOffset + gen.blockSize + gen.blockSize > gen.fileSize
  · rw [if_pos hw]
    exact ⟨rfl, 0, rfl, .inl rfl⟩
  · rw [if_neg hw]
    exact ⟨rfl, _, rfl, .inr ⟨rfl, hw⟩⟩

/-- The generator of a validated job at any time: its parameters, and a cursor
    with room for one block. -/
structure InRange (config : JobConfig) (gen : OffsetGenerator) : Prop where
  pattern : gen.pattern = config.accessPattern
  fileSize : gen.fileSize = config.fileSize
  blockSize : gen.blockSize = config.blockSize
  alignment : gen.alignment = config.alignment
  distMax : gen.distMax.toNat = config.fileSize.toNat - config.blockSize.toNat
  cursor_le : gen.sequentialOffset.toNat + config.blockSize.toNat
    ≤ config.fileSize.toNat
  cursor_aligned : config.alignment.toNat ∣ gen.sequentialOffset.toNat

/-- The generator starts in range. -/
theorem ofConfig_inRange {config : JobConfig} (hv : Validated config) :
    InRange config (.ofConfig config) := by
  refine ⟨rfl, rfl, rfl, rfl, toNat_sub_of_le hv.block_le_file, ?_, Nat.dvd_zero _⟩
  show 0 + config.blockSize.toNat ≤ config.fileSize.toNat
  rw [Nat.zero_add]
  exact hv.block_le_file

/-- Neither sum of the sequential branch wraps when the file size is an
    `off_t`. -/
theorem InRange.noWrap {config : JobConfig} {gen : OffsetGenerator}
    (hsize : config.fileSize.toNat < 2 ^ 63) (h : InRange config gen) :
    NoWrapAdd gen.sequentialOffset gen.blockSize ∧
      NoWrapAdd (gen.sequentialOffset + gen.blockSize) gen.blockSize := by
  have hle := h.cursor_le
  have hfirst : NoWrapAdd gen.sequentialOffset gen.blockSize := by
    simp only [NoWrapAdd, h.blockSize]
    omega
  refine ⟨hfirst, ?_⟩
  show (gen.sequentialOffset + gen.blockSize).toNat + gen.blockSize.toNat < 2 ^ 64
  rw [hfirst.toNat, h.blockSize]
  omega

/-- The offset of a request: inside the file with its whole block, and
    aligned. -/
structure OffsetOk (config : JobConfig) (offset : Int64) : Prop where
  nonneg : 0 ≤ offset.toInt
  fits : offset.toInt + config.blockSize.toNat ≤ config.fileSize.toNat
  aligned : (config.alignment.toNat : Int) ∣ offset.toInt

/-- An offset given as a word. -/
theorem offsetOk_of_word {config : JobConfig} {x : UInt64}
    (hsize : config.fileSize.toNat < 2 ^ 63)
    (hle : x.toNat + config.blockSize.toNat ≤ config.fileSize.toNat)
    (hdvd : config.alignment.toNat ∣ x.toNat) : OffsetOk config x.toInt64 := by
  have hx : x.toInt64.toInt = (x.toNat : Int) := toInt_toInt64 (by omega)
  refine ⟨?_, ?_, ?_⟩
  · rw [hx]
    omega
  · rw [hx]
    omega
  · rw [hx]
    exact Int.natCast_dvd_natCast.mpr hdvd

/-- **One draw**: the offset is good and the generator stays in range. -/
theorem next_inRange {config : JobConfig} (hv : Validated config)
    (hsize : config.fileSize.toNat < 2 ^ 63) {gen : OffsetGenerator}
    (h : InRange config gen) {raw : UInt64} (hraw : raw ≤ gen.distMax) :
    OffsetOk config (gen.next raw).1 ∧ InRange config (gen.next raw).2 := by
  cases hp : gen.pattern with
  | kSequential =>
      obtain ⟨hcur, cursor, hgen, hmove⟩ := next_sequential hp raw
      rw [hcur, hgen]
      refine ⟨offsetOk_of_word hsize h.cursor_le h.cursor_aligned, ?_⟩
      rcases hmove with rfl | ⟨rfl, hroom⟩
      · -- back to the start
        refine { h with cursor_le := ?_, cursor_aligned := Nat.dvd_zero _ }
        show 0 + config.blockSize.toNat ≤ config.fileSize.toNat
        rw [Nat.zero_add]
        exact hv.block_le_file
      · -- one block further, where the test left room
        obtain ⟨hw1, hw2⟩ := h.noWrap hsize
        rw [gt_iff_lt, UInt64.lt_iff_toNat_lt, hw2.toNat, hw1.toNat, h.fileSize,
          h.blockSize] at hroom
        refine { h with cursor_le := ?_, cursor_aligned := ?_ }
        · show (gen.sequentialOffset + gen.blockSize).toNat + _ ≤ _
          rw [hw1.toNat, h.blockSize]
          omega
        · show config.alignment.toNat ∣ (gen.sequentialOffset + gen.blockSize).toNat
          rw [hw1.toNat, h.blockSize]
          exact Nat.dvd_add h.cursor_aligned hv.block_aligned
  | kRandom =>
      rw [next_random hp]
      refine ⟨?_, h⟩
      rw [UInt64.le_iff_toNat_le, h.distMax] at hraw
      have hdown := Nat.div_mul_le_self raw.toNat gen.alignment.toNat
      have hroom := hv.block_le_file
      refine offsetOk_of_word hsize ?_ ?_
      · rw [toNat_div_mul]
        omega
      · rw [toNat_div_mul, h.alignment]
        exact Nat.dvd_mul_left _ _

/-! ## How often a random offset is drawn -/

/-- How many of the raw draws the distribution can return end up at `offset`. -/
def OffsetGenerator.drawsTo (gen : OffsetGenerator) (offset : Int64) : Nat :=
  (List.range (gen.distMax.toNat + 1)).countP
    (fun raw => (gen.next (UInt64.ofNat raw)).1 = offset)

/-- The offsets a random generator can return: multiples of the alignment that
    leave room for a block. -/
def Admissible (config : JobConfig) (offset : UInt64) : Prop :=
  config.alignment.toNat ∣ offset.toNat ∧
    offset.toNat ≤ config.fileSize.toNat - config.blockSize.toNat

/-- The generator after a number of draws. -/
def OffsetGenerator.after (gen : OffsetGenerator) : List UInt64 → OffsetGenerator
  | [] => gen
  | raw :: raws => (gen.next raw).2.after raws

/-- Any two admissible offsets are equally likely. -/
def Uniform (config : JobConfig) (gen : OffsetGenerator) : Prop :=
  ∀ a b, Admissible config a → Admissible config b →
    gen.drawsTo a.toInt64 = gen.drawsTo b.toInt64

/-- Drawing at random any number of times leaves the generator as built. -/
theorem after_random {gen : OffsetGenerator} (h : gen.pattern = .kRandom)
    (raws : List UInt64) : gen.after raws = gen := by
  induction raws with
  | nil => rfl
  | cons raw raws ih =>
      show (gen.next raw).2.after raws = gen
      rw [next_random h]
      exact ih

/-- **The draws behind an admissible offset**: as many as fit between it and the
    end of the range, at most `alignment`. -/
theorem drawsTo_admissible {config : JobConfig} (hv : Validated config)
    (hp : config.accessPattern = .kRandom) {offset : UInt64}
    (ho : Admissible config offset) :
    (OffsetGenerator.ofConfig config).drawsTo offset.toInt64
      = min config.alignment.toNat
          (config.fileSize.toNat - config.blockSize.toNat + 1 - offset.toNat) := by
  have hmax : (OffsetGenerator.ofConfig config).distMax.toNat
      = config.fileSize.toNat - config.blockSize.toNat :=
    (ofConfig_inRange hv).distMax
  have hfile := UInt64.toNat_lt config.fileSize
  have hcount : (OffsetGenerator.ofConfig config).drawsTo offset.toInt64
      = (List.range (config.fileSize.toNat - config.blockSize.toNat + 1)).countP
          (fun raw => decide (offset.toNat ≤ raw ∧
            raw < offset.toNat + config.alignment.toNat)) := by
    simp only [OffsetGenerator.drawsTo, hmax]
    refine List.countP_congr ?_
    intro raw hraw
    have hlt := List.mem_range.mp hraw
    have hword : (UInt64.ofNat raw).toNat = raw := by
      rw [UInt64.toNat_ofNat']
      exact Nat.mod_eq_of_lt (by omega)
    rw [decide_eq_true_iff, decide_eq_true_iff,
      ← div_mul_eq_iff hv.alignment_pos ho.1]
    have hnext : ((OffsetGenerator.ofConfig config).next (UInt64.ofNat raw)).1
        = (UInt64.ofNat raw / config.alignment * config.alignment).toInt64 :=
      congrArg Prod.fst (next_random hp (UInt64.ofNat raw))
    rw [hnext]
    constructor
    · intro heq
      have hn := congrArg UInt64.toNat (toInt64_inj heq)
      rw [toNat_div_mul, hword] at hn
      exact hn
    · intro heq
      refine congrArg UInt64.toInt64 (UInt64.toNat_inj.mp ?_)
      rw [toNat_div_mul, hword]
      exact heq
  have hle := ho.2
  rw [hcount, countP_window]
  omega

/-- **Random access is uniform exactly when nothing is rounded**: every draw is
    an offset of its own, or there is a single offset. -/
theorem random_uniform_iff {config : JobConfig} (hv : validate config = .ok ())
    (hp : config.accessPattern = .kRandom) (raws : List UInt64) :
    Uniform config ((OffsetGenerator.ofConfig config).after raws) ↔
      config.alignment = 1 ∨ config.fileSize = config.blockSize := by
  have hval := validate_ok hv
  have hgen : (OffsetGenerator.ofConfig config).pattern = .kRandom := hp
  have hroom := hval.block_le_file
  have hlast := toNat_sub_of_le hroom
  rw [after_random hgen]
  constructor
  · intro huniform
    -- compare the first admissible offset with the last one
    have hzero : Admissible config 0 := ⟨Nat.dvd_zero _, Nat.zero_le _⟩
    have hend : Admissible config (config.fileSize - config.blockSize) := by
      refine ⟨?_, ?_⟩
      · rw [hlast]
        exact Nat.dvd_sub hval.file_aligned hval.block_aligned
      · rw [hlast]
    have heq := huniform _ _ hzero hend
    rw [drawsTo_admissible hval hp hzero, drawsTo_admissible hval hp hend, hlast,
      UInt64.toNat_zero] at heq
    have hpos := hval.alignment_pos
    by_cases hsingle : config.fileSize.toNat = config.blockSize.toNat
    · exact .inr (UInt64.toNat_inj.mp hsingle)
    · refine .inl (UInt64.toNat_inj.mp ?_)
      show config.alignment.toNat = 1
      omega
  · rintro (hone | hsame) a b ha hb
    · have hal : config.alignment.toNat = 1 := congrArg UInt64.toNat hone
      have hale := ha.2
      have hble := hb.2
      rw [drawsTo_admissible hval hp ha, drawsTo_admissible hval hp hb]
      omega
    · have hfile : config.fileSize.toNat = config.blockSize.toNat :=
        congrArg UInt64.toNat hsame
      have hale := ha.2
      have hble := hb.2
      have hab : a = b := UInt64.toNat_inj.mp (by omega)
      rw [hab]

/-- A job on a file of two blocks of two bytes. -/
def twoBlockJob : JobConfig :=
  { name := "skew", engine := "psync", rwMode := .kRandRead
    accessPattern := .kRandom, blockSize := 2, fileSize := 4, alignment := 2 }

/-- The equivalence at that job, after two draws. -/
theorem random_uniform_iff_twoBlockJob :
    Uniform twoBlockJob ((OffsetGenerator.ofConfig twoBlockJob).after [1, 2]) ↔
      twoBlockJob.alignment = 1 ∨ twoBlockJob.fileSize = twoBlockJob.blockSize :=
  @random_uniform_iff twoBlockJob rfl rfl [1, 2]

/-- There offset `0` has two draws and offset `2` has one. -/
theorem random_skewed :
    validate twoBlockJob = .ok () ∧ twoBlockJob.accessPattern = .kRandom ∧
      (OffsetGenerator.ofConfig twoBlockJob).drawsTo (UInt64.toInt64 0) = 2 ∧
      (OffsetGenerator.ofConfig twoBlockJob).drawsTo (UInt64.toInt64 2) = 1 ∧
      ¬ Uniform twoBlockJob (.ofConfig twoBlockJob) := by
  have hzero : Admissible twoBlockJob 0 := by
    simp only [Admissible]
    decide
  have htwo : Admissible twoBlockJob 2 := by
    simp only [Admissible]
    decide
  have h2 : (OffsetGenerator.ofConfig twoBlockJob).drawsTo (UInt64.toInt64 0) = 2 := by
    decide
  have h1 : (OffsetGenerator.ofConfig twoBlockJob).drawsTo (UInt64.toInt64 2) = 1 := by
    decide
  refine ⟨rfl, rfl, h2, h1, ?_⟩
  intro huniform
  have heq := huniform 0 2 hzero htwo
  rw [h2, h1] at heq
  exact absurd heq (by decide)

end CfioGenerators
