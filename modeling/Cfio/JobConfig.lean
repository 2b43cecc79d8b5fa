import Cfio.Checks
import Cfio.Types
import Cfio.Words

/-! # Job configuration and its validation

    `JobConfig` as the parsers fill it, the queue depth a job really uses, and
    the rules of `ConfigValidator` in the order the code checks them, each with
    its message.  `Validated` lists what a configuration that passed them has;
    everything downstream uses that structure and never unfolds a rule. -/

namespace CfioConfig

open CfioTypes Checks Words

/-- All configuration of a single benchmark job. -/
structure JobConfig where
  name : String := ""
  engine : String := ""
  rwMode : RWMode := .kRead
  accessPattern : AccessPattern := .kSequential
  blockSize : UInt64 := 0
  fileSize : UInt64 := 0
  iodepth : Int32 := 1
  direct : Bool := true
  rwmixread : Int32 := 50
  filename : String := ""
  alignment : UInt64 := 4096
  deriving DecidableEq, Repr

/-- The engines that use synchronous, blocking IO. -/
def isSynchronousEngine (engineName : String) : Bool :=
  ["sync", "psync"].contains engineName

/-- `EngineFactory::KnownEngines`. -/
def knownEngines : List String := ["psync", "sync", "libaio", "io_uring"]

/-- `EngineFactory::IsKnownEngine`. -/
def isKnownEngine (engineName : String) : Bool :=
  knownEngines.contains engineName

/-- The access pattern of a workload mode. -/
def deriveAccessPattern : RWMode → AccessPattern
  | .kRead => .kSequential
  | .kWrite => .kSequential
  | .kReadWrite => .kSequential
  | .kRandRead => .kRandom
  | .kRandWrite => .kRandom
  | .kRandRW => .kRandom

/-- The queue depth this job actually uses. -/
def JobConfig.effectiveIODepth (config : JobConfig) : Int32 :=
  if isSynchronousEngine config.engine then 1 else config.iodepth

/-! ## `ConfigValidator` -/

def validateAlignment (config : JobConfig) : Except Exn Unit :=
  if config.alignment = 0 ∨ config.alignment &&& (config.alignment - 1) ≠ 0 then
    .error (.runtimeError ("job '" ++ config.name ++ "': alignment ("
      ++ toString config.alignment ++ ") must be a positive power of 2"))
  else .ok ()

def validateBlockSize (config : JobConfig) : Except Exn Unit :=
  if config.blockSize = 0 then
    .error (.runtimeError ("job '" ++ config.name
      ++ "': block_size must be greater than 0"))
  else if config.blockSize % config.alignment ≠ 0 then
    .error (.runtimeError ("job '" ++ config.name ++ "': block_size ("
      ++ toString config.blockSize ++ ") must be a positive multiple of alignment ("
      ++ toString config.alignment ++ ")"))
  else .ok ()

def validateFileSize (config : JobConfig) : Except Exn Unit :=
  if config.fileSize < config.blockSize then
    .error (.runtimeError ("job '" ++ config.name ++ "': file_size ("
      ++ toString config.fileSize ++ ") must be >= block_size ("
      ++ toString config.blockSize ++ ")"))
  else if config.fileSize % config.alignment ≠ 0 then
    .error (.runtimeError ("job '" ++ config.name ++ "': file_size ("
      ++ toString config.fileSize ++ ") must be a multiple of alignment ("
      ++ toString config.alignment ++ ")"))
  else .ok ()

def validateEngine (config : JobConfig) : Except Exn Unit :=
  if isKnownEngine config.engine then .ok ()
  else .error (.runtimeError ("job '" ++ config.name ++ "': unknown engine '"
    ++ config.engine ++ "'"))

/-- The code lists the six modes and rejects any other enum value; the type has
    no other. -/
def validateRWMode (config : JobConfig) : Except Exn Unit :=
  match config.rwMode with
  | .kRead => .ok ()
  | .kWrite => .ok ()
  | .kRandRead => .ok ()
  | .kRandWrite => .ok ()
  | .kReadWrite => .ok ()
  | .kRandRW => .ok ()

def validateRWMixRead (config : JobConfig) : Except Exn Unit :=
  if config.rwmixread < 0 ∨ config.rwmixread > 100 then
    .error (.runtimeError ("job '" ++ config.name ++ "': rwmixread ("
      ++ toString config.rwmixread ++ ") must be in range 0-100"))
  else .ok ()

def validateIODepth (config : JobConfig) : Except Exn Unit :=
  if config.iodepth < 1 then
    .error (.runtimeError ("job '" ++ config.name ++ "': iodepth ("
      ++ toString config.iodepth ++ ") must be >= 1"))
  else .ok ()

/-- `ConfigValidator::Validate`. -/
def validate (config : JobConfig) : Except Exn Unit := do
  if config.name.isEmpty then
    throw (.runtimeError "job name must not be empty")
  validateAlignment config
  validateBlockSize config
  validateFileSize config
  validateEngine config
  validateRWMode config
  validateRWMixRead config
  validateIODepth config

/-- What a configuration that passed `validate` has. -/
structure Validated (config : JobConfig) : Prop where
  name : config.name.isEmpty = false
  alignment_pos : 0 < config.alignment.toNat
  alignment_pow : config.alignment &&& (config.alignment - 1) = 0
  block_pos : 0 < config.blockSize.toNat
  block_aligned : config.alignment.toNat ∣ config.blockSize.toNat
  block_le_file : config.blockSize.toNat ≤ config.fileSize.toNat
  file_aligned : config.alignment.toNat ∣ config.fileSize.toNat
  engine : isKnownEngine config.engine = true
  rwmixread_ge : 0 ≤ config.rwmixread
  rwmixread_le : config.rwmixread ≤ 100
  iodepth : 1 ≤ config.iodepth

/-! ### One lemma for each rule -/

theorem validateAlignment_ok {config : JobConfig}
    (h : validateAlignment config = .ok ()) :
    0 < config.alignment.toNat ∧
      config.alignment &&& (config.alignment - 1) = 0 := by
  obtain ⟨hb, -⟩ := guard_ok_iff.mp h
  rw [not_or, not_not] at hb
  exact ⟨toNat_pos_of_ne hb.1, hb.2⟩

theorem validateBlockSize_ok {config : JobConfig}
    (h : validateBlockSize config = .ok ()) :
    0 < config.blockSize.toNat ∧
      config.alignment.toNat ∣ config.blockSize.toNat := by
  obtain ⟨h0, h⟩ := guard_ok_iff.mp h
  obtain ⟨hm, -⟩ := guard_ok_iff.mp h
  exact ⟨toNat_pos_of_ne h0, dvd_of_mod_eq (not_not.mp hm)⟩

theorem validateFileSize_ok {config : JobConfig}
    (h : validateFileSize config = .ok ()) :
    config.blockSize.toNat ≤ config.fileSize.toNat ∧
      config.alignment.toNat ∣ config.fileSize.toNat := by
  obtain ⟨h0, h⟩ := guard_ok_iff.mp h
  obtain ⟨hm, -⟩ := guard_ok_iff.mp h
  rw [UInt64.lt_iff_toNat_lt] at h0
  exact ⟨Nat.le_of_not_lt h0, dvd_of_mod_eq (not_not.mp hm)⟩

theorem validateEngine_ok {config : JobConfig}
    (h : validateEngine config = .ok ()) : isKnownEngine config.engine = true := by
  simp only [validateEngine] at h
  by_cases hk : isKnownEngine config.engine = true
  · exact hk
  · rw [if_neg hk] at h
    exact nomatch h

theorem validateRWMixRead_ok {config : JobConfig}
    (h : validateRWMixRead config = .ok ()) :
    0 ≤ config.rwmixread ∧ config.rwmixread ≤ 100 := by
  obtain ⟨hb, -⟩ := guard_ok_iff.mp h
  rw [not_or] at hb
  exact ⟨Int32.not_lt.mp hb.1, Int32.not_lt.mp hb.2⟩

theorem validateIODepth_ok {config : JobConfig}
    (h : validateIODepth config = .ok ()) : 1 ≤ config.iodepth :=
  Int32.not_lt.mp (guard_ok_iff.mp h).1

/-- **What validation guarantees.** -/
theorem validate_ok {config : JobConfig} (h : validate config = .ok ()) :
    Validated config := by
  simp only [validate] at h
  cases hn : config.name.isEmpty with
  | true =>
      rw [hn] at h
      exact nomatch h
  | false =>
      rw [hn] at h
      obtain ⟨_, h1, h⟩ := bind_ok_iff.mp h
      obtain ⟨_, h2, h⟩ := bind_ok_iff.mp h
      obtain ⟨_, h3, h⟩ := bind_ok_iff.mp h
      obtain ⟨_, h4, h⟩ := bind_ok_iff.mp h
      obtain ⟨_, -, h⟩ := bind_ok_iff.mp h
      obtain ⟨_, h6, h7⟩ := bind_ok_iff.mp h
      obtain ⟨ha, hp⟩ := validateAlignment_ok h1
      obtain ⟨hb, hba⟩ := validateBlockSize_ok h2
      obtain ⟨hf, hfa⟩ := validateFileSize_ok h3
      obtain ⟨hr0, hr1⟩ := validateRWMixRead_ok h6
      exact ⟨hn, ha, hp, hb, hba, hf, hfa, validateEngine_ok h4, hr0, hr1,
        validateIODepth_ok h7⟩

/-- Nor does it reject anything else. -/
theorem validate_of_validated {config : JobConfig} (h : Validated config) :
    validate config = .ok () := by
  have hname : ¬ config.name.isEmpty = true := by
    rw [h.name]
    decide
  have halign : ¬ (config.alignment = 0 ∨
      config.alignment &&& (config.alignment - 1) ≠ 0) := by
    rintro (h0 | hpow)
    · exact ne_zero_of_toNat_pos h.alignment_pos h0
    · exact hpow h.alignment_pow
  have hmod : ∀ {x : UInt64}, config.alignment.toNat ∣ x.toNat →
      ¬ x % config.alignment ≠ 0 := by
    intro x hdvd
    rw [not_not]
    refine UInt64.toNat_inj.mp ?_
    rw [UInt64.toNat_mod]
    exact Nat.mod_eq_zero_of_dvd hdvd
  have hfile : ¬ config.fileSize < config.blockSize := by
    rw [UInt64.lt_iff_toNat_lt]
    exact Nat.not_lt.mpr h.block_le_file
  have hmix : ¬ (config.rwmixread < 0 ∨ config.rwmixread > 100) := by
    rintro (hlow | hhigh)
    · exact absurd hlow (Int32.not_lt.mpr h.rwmixread_ge)
    · exact absurd hhigh (Int32.not_lt.mpr h.rwmixread_le)
  have h1 : validateAlignment config = .ok () := if_neg halign
  have h2 : validateBlockSize config = .ok () :=
    (if_neg (ne_zero_of_toNat_pos h.block_pos)).trans (if_neg (hmod h.block_aligned))
  have h3 : validateFileSize config = .ok () :=
    (if_neg hfile).trans (if_neg (hmod h.file_aligned))
  have h4 : validateEngine config = .ok () := if_pos h.engine
  have h5 : validateRWMode config = .ok () := by
    rw [validateRWMode]
    cases config.rwMode <;> rfl
  have h6 : validateRWMixRead config = .ok () := if_neg hmix
  have h7 : validateIODepth config = .ok () := if_neg (Int32.not_lt.mpr h.iodepth)
  simp only [validate, if_neg hname, h1, h2, h3, h4, h5, h6, h7]
  rfl

/-! ### Lists of jobs -/

/-- `ConfigValidator::ValidateUniqueNames`, with the names seen so far. -/
def validateUniqueNames (seen : List String) : List JobConfig → Except Exn Unit
  | [] => .ok ()
  | config :: configs =>
      if seen.contains config.name then
        .error (.runtimeError ("duplicate job name: '" ++ config.name ++ "'"))
      else validateUniqueNames (config.name :: seen) configs

/-- `ConfigValidator::ValidateAll`. -/
def validateAll (configs : List JobConfig) : Except Exn Unit := do
  if configs.isEmpty then
    throw (.runtimeError "job list must not be empty")
  for config in configs do
    validate config
  validateUniqueNames [] configs

/-! ## The effective depth -/

/-- A validated job has an effective depth of at least one. -/
theorem Validated.effectiveIODepth_pos {config : JobConfig}
    (h : Validated config) : 1 ≤ config.effectiveIODepth := by
  simp only [JobConfig.effectiveIODepth]
  by_cases hs : isSynchronousEngine config.engine = true
  · rw [if_pos hs]
    exact Int32.le_refl 1
  · rw [if_neg hs]
    exact h.iodepth

end CfioConfig
