import Cfio.EngineUtils
import Cfio.Fallible
import Cfio.FileSystem

/-! # FilePreparator

    Benchmark files are created, filled with random data and synced by
    `createAndFill`, one job after the other.  A program here runs against a
    kernel whose answers are given: `CreateCalls` lists what the system calls of
    one `createAndFill` return, the interrupted and the short writes included.
    An answer no kernel gives, or a list of answers that does not match the
    calls that are made, is a run that does not return.

    `wlp_createAndFill` says everything a call can do; what the preparator
    guarantees follows from it. -/

namespace CfioFilePreparator

open CfioTypes CfioConfig CfioEngine Fallible FileSystem Words

/-! ## Writing random data -/

/-- Random data is written in chunks of 1 MiB. -/
def kChunkSize : UInt64 := (1 : UInt64) <<< 20

/-- What the `write`s of one `RetryOnEintr` return. -/
abbrev WriteCall := List SyscallOutcome

/-- `write(fd, buf, count)`.  No kernel transfers more than it was asked to. -/
def sysWrite (buf : Nat → UInt8) (count : UInt64) (outcome : SyscallOutcome) :
    Program Exn OpenFile Unit :=
  if outcome.result < 0 then pure ()
  else if outcome.result.toUInt64 ≤ count then
    modify (fun f => f.write ((List.range outcome.result.toUInt64.toNat).map buf))
  else stuck

/-- `WriteFully`, with `written` of the `len` bytes behind it. -/
def writeFully (buf : Nat → UInt8) (len : UInt64) :
    UInt64 → List WriteCall → Program Exn OpenFile Unit
  | written, [] => if written < len then stuck else pure ()
  | written, call :: calls =>
      if written < len then
        match retryOnEintr call with
        | none => stuck
        | some n => do
            sysWrite (fun i => buf (written.toNat + i)) (len - written) n
            if n.result < 0 then
              throw (.systemError n.errno "write during file fill failed")
            else writeFully buf len (written + n.result.toUInt64) calls
      else stuck

/-- `fallocate(fd, 0, 0, len)`. -/
def sysFallocate (len : Int64) (outcome : SyscallOutcome) :
    Program Exn OpenFile Unit :=
  if outcome.result = 0 then modify (fun f => f.allocate len.toInt.toNat)
  else pure ()

/-- `ReserveSpace`. -/
def reserveSpace (fileSize : UInt64) (pathStr : String) (outcome : SyscallOutcome) :
    Program Exn OpenFile Unit := do
  sysFallocate fileSize.toInt64 outcome
  if outcome.result = 0 then pure ()
  else if outcome.errno = EOPNOTSUPP ∨ outcome.errno = ENOSYS then pure ()
  else throw (.systemError outcome.errno ("fallocate failed for '" ++ pathStr ++ "'"))

/-- Words of the generator in one chunk. -/
def chunkWords : Nat := kChunkSize.toNat / 8

/-- Byte `k` of a sequence of words in memory, the low byte of a word first. -/
def byteOf (words : Nat → UInt64) (k : Nat) : UInt8 :=
  (words (k / 8) >>> UInt64.ofNat (8 * (k % 8))).toUInt8

/-- `FillRandom`, with `remaining` bytes to go and `drawn` words taken from the
    generator.  Each chunk is filled with fresh words. -/
def fillRandom (rng : Nat → UInt64) :
    UInt64 → Nat → List (List WriteCall) → Program Exn OpenFile Unit
  | remaining, _, [] => if 0 < remaining then stuck else pure ()
  | remaining, drawn, calls :: rest =>
      if 0 < remaining then do
        let toWrite := min kChunkSize remaining
        writeFully (byteOf (fun i => rng (drawn + i))) toWrite 0 calls
        fillRandom rng (remaining - toWrite) (drawn + chunkWords) rest
      else stuck

/-! ## The preparator -/

/-- One tracked file. -/
structure CreatedFile where
  path : String
  preExisted : Bool := false
  deriving DecidableEq, Repr

/-- Owns the lifecycle of benchmark test files. -/
structure FilePreparator where
  created : List CreatedFile := []
  keepFiles : Bool
  cleaned : Bool := false
  deriving DecidableEq, Repr

/-- A preparator and the files there are. -/
structure Preparation where
  files : Files String
  prep : FilePreparator

/-- What the system calls of one `createAndFill` return, and the words the
    freshly seeded generator yields. -/
structure CreateCalls where
  openCall : OpenOutcome
  fallocate : SyscallOutcome := { result := 0 }
  rng : Nat → UInt64
  writes : List (List WriteCall) := []
  fsync : SyscallOutcome := { result := 0 }

/-- Run a program on the file behind a descriptor that was just opened. -/
def onFile (path : String) (x : Program Exn OpenFile Unit) :
    Program Exn Preparation Unit :=
  zoom (fun s => { file := s.files.at path })
    (fun f s => { s with files := s.files.store path f.file }) x

/-- Creates a file and fills it with random data. -/
def createAndFill (config : JobConfig) (calls : CreateCalls) :
    Program Exn Preparation Unit := do
  let pathStr := config.filename
  let preExisted := (← get).files.exists config.filename
  if calls.openCall.fd < 0 then
    throw (.systemError calls.openCall.errno
      ("failed to create file '" ++ pathStr ++ "'"))
  else do
    modify (fun s => { s with files := s.files.create pathStr })
    -- an exception leaves this block with the descriptor closed
    onFile pathStr do
      reserveSpace config.fileSize pathStr calls.fallocate
      fillRandom calls.rng config.fileSize 0 calls.writes
      if calls.fsync.result = 0 then pure ()
      else throw (.systemError calls.fsync.errno
        ("fsync failed for '" ++ pathStr ++ "'"))
    -- a `close` that fails is logged and changes nothing
    modify (fun s => { s with prep := { s.prep with
      created := s.prep.created ++ [⟨config.filename, preExisted⟩] } })

/-- `BenchmarkOrchestrator::PrecreateFiles`. -/
def precreateFiles (jobs : List (JobConfig × CreateCalls)) :
    Program Exn Preparation Unit :=
  jobs.forM (fun job => createAndFill job.1 job.2)

/-! ## Which calls fail -/

/-- The `write` of this round failed. -/
def refused (call : WriteCall) : Bool :=
  (retryOnEintr call).any (fun n => n.result < 0)

/-- `fallocate` failed, and not because it is unsupported. -/
def CreateCalls.reserveFails (calls : CreateCalls) : Prop :=
  calls.fallocate.result ≠ 0 ∧
    ¬(calls.fallocate.errno = EOPNOTSUPP ∨ calls.fallocate.errno = ENOSYS)

/-- Some `write` failed. -/
def CreateCalls.writeFails (calls : CreateCalls) : Prop :=
  ∃ chunk ∈ calls.writes, ∃ call ∈ chunk, refused call = true

/-- A system call behind the `open` failed. -/
def CreateCalls.fillFails (calls : CreateCalls) : Prop :=
  calls.reserveFails ∨ calls.writeFails ∨ calls.fsync.result ≠ 0

/-- A system call failed. -/
def CreateCalls.fails (calls : CreateCalls) : Prop :=
  calls.openCall.fd < 0 ∨ calls.fillFails

/-! ## What each part of a fill does -/

section Fill

variable {base : File} {source : Nat → UInt8} {k first : Nat} {f : OpenFile}

/-- The bytes a `write` transferred are behind the position. -/
theorem wlp_sysWrite {written len : UInt64} {n : SyscallOutcome}
    {E : Exn → OpenFile → Prop}
    (hf : Appended base source (first + written.toNat) f) (hlt : written < len) :
    wlp (sysWrite (fun i => source (first + (written.toNat + i))) (len - written) n)
      (fun _ g =>
        (n.result < 0 ∧ Appended base source (first + written.toNat) g) ∨
        (¬ n.result < 0 ∧ written + n.result.toUInt64 ≤ len ∧
          Appended base source (first + (written + n.result.toUInt64).toNat) g))
      E f := by
  refine wlp_ite (fun hneg => wlp_pure.mpr (.inl ⟨hneg, hf⟩)) (fun hneg => ?_)
  refine wlp_ite (fun hle => wlp_modify.mpr (.inr ⟨hneg, ?_⟩)) (fun _ => wlp_stuck)
  have hlen := UInt64.toNat_lt len
  rw [UInt64.lt_iff_toNat_lt] at hlt
  rw [UInt64.le_iff_toNat_le, toNat_sub_of_le (Nat.le_of_lt hlt)] at hle
  have hadd : (written + n.result.toUInt64).toNat
      = written.toNat + n.result.toUInt64.toNat :=
    NoWrapAdd.toNat (show _ < _ by omega)
  constructor
  · rw [UInt64.le_iff_toNat_le, hadd]
    omega
  · have happ := hf.write n.result.toUInt64.toNat
    simp only [Nat.add_assoc] at happ
    rw [hadd]
    exact happ

/-- **`WriteFully` writes the buffer once, in order**, whatever the kernel does
    between the calls; it throws when a `write` fails. -/
theorem wlp_writeFully {len : UInt64} (calls : List WriteCall) (written : UInt64)
    (f : OpenFile) (hf : Appended base source (first + written.toNat) f)
    (hle : written ≤ len) :
    wlp (writeFully (fun i => source (first + i)) len written calls)
      (fun _ g => Appended base source (first + len.toNat) g ∧
        ∀ call ∈ calls, refused call = false)
      (fun _ g => (∃ k, Appended base source k g) ∧
        ∃ call ∈ calls, refused call = true) f := by
  induction calls generalizing written f with
  | nil =>
      refine wlp_ite (fun _ => wlp_stuck) (fun hnlt => wlp_pure.mpr ⟨?_, ?_⟩)
      · have heq : written = len := UInt64.le_antisymm hle (UInt64.not_lt.mp hnlt)
        rw [← heq]
        exact hf
      · intro call hcall
        exact nomatch hcall
  | cons call calls ih =>
      refine wlp_ite (fun hlt => ?_) (fun _ => wlp_stuck)
      cases hn : retryOnEintr call with
      | none => exact wlp_stuck
      | some n =>
          have hrefused : refused call = decide (n.result < 0) := by
            rw [refused, hn]
            rfl
          refine wlp_bind.mpr (wlp_mono (wlp_sysWrite hf hlt) ?_ (fun _ _ h => h))
          rintro _ g (⟨hneg, hg⟩ | ⟨hneg, hle', hg⟩)
          · rw [if_pos hneg]
            refine wlp_throw.mpr ⟨⟨_, hg⟩, call, List.mem_cons_self .., ?_⟩
            rw [hrefused]
            exact decide_eq_true hneg
          · rw [if_neg hneg]
            refine wlp_mono (ih _ g hg hle') ?_ ?_
            · rintro _ g' ⟨hg', hall⟩
              refine ⟨hg', ?_⟩
              intro c hc
              rcases List.mem_cons.mp hc with rfl | hc
              · rw [hrefused]
                exact decide_eq_false hneg
              · exact hall c hc
            · rintro _ g' ⟨hg', c, hc, href⟩
              exact ⟨hg', c, List.mem_cons_of_mem _ hc, href⟩

/-- Reserving space changes nothing that was written; it throws when `fallocate`
    fails for a reason of its own. -/
theorem wlp_reserveSpace {fileSize : UInt64} {pathStr : String}
    {calls : CreateCalls} (hf : Appended base source k f) :
    wlp (reserveSpace fileSize pathStr calls.fallocate)
      (fun _ g => Appended base source k g ∧ ¬ calls.reserveFails)
      (fun _ g => Appended base source k g ∧ calls.reserveFails) f := by
  refine wlp_bind.mpr (wlp_mono (Q := fun _ g => Appended base source k g)
    (E := fun _ _ => False) ?_ ?_ (fun _ _ h => h.elim))
  · exact wlp_ite (fun _ => wlp_modify.mpr (hf.allocate _))
      (fun _ => wlp_pure.mpr hf)
  · intro _ g hg
    refine wlp_ite (fun h0 => wlp_pure.mpr ⟨hg, fun h => h.1 h0⟩) (fun h0 => ?_)
    exact wlp_ite (fun hun => wlp_pure.mpr ⟨hg, fun h => h.2 hun⟩)
      (fun hun => wlp_throw.mpr ⟨hg, h0, hun⟩)

/-- The words of a chunk continue the stream where the chunk before ended. -/
theorem byteOf_drawn (rng : Nat → UInt64) (drawn i : Nat) :
    byteOf (fun j => rng (drawn + j)) i = byteOf rng (8 * drawn + i) := by
  have hdiv : (8 * drawn + i) / 8 = drawn + i / 8 := by omega
  have hmod : (8 * drawn + i) % 8 = i % 8 := by omega
  rw [byteOf, byteOf, hdiv, hmod]

/-- **`FillRandom` writes the stream of the generator to the first bytes of the
    file**, each byte once and in order; it throws when a `write` fails. -/
theorem wlp_fillRandom {rng : Nat → UInt64} (chunks : List (List WriteCall))
    (remaining : UInt64) (drawn : Nat) (f : OpenFile)
    (hf : Appended base (byteOf rng) k f)
    (hdrawn : 0 < remaining → k = 8 * drawn) :
    wlp (fillRandom rng remaining drawn chunks)
      (fun _ g => Appended base (byteOf rng) (k + remaining.toNat) g ∧
        ¬ ∃ chunk ∈ chunks, ∃ call ∈ chunk, refused call = true)
      (fun _ g => (∃ k, Appended base (byteOf rng) k g) ∧
        ∃ chunk ∈ chunks, ∃ call ∈ chunk, refused call = true) f := by
  induction chunks generalizing remaining drawn k f with
  | nil =>
      refine wlp_ite (fun _ => wlp_stuck) (fun hpos => wlp_pure.mpr ⟨?_, ?_⟩)
      · rw [UInt64.lt_iff_toNat_lt] at hpos
        have h0 : remaining.toNat = 0 := Nat.eq_zero_of_not_pos hpos
        rw [h0]
        exact hf
      · rintro ⟨chunk, hchunk, -⟩
        exact nomatch hchunk
  | cons calls rest ih =>
      refine wlp_ite (fun hpos => ?_) (fun _ => wlp_stuck)
      have hk := hdrawn hpos
      have hbuf : byteOf (fun i => rng (drawn + i)) = fun i => byteOf rng (k + i) := by
        funext i
        rw [byteOf_drawn, hk]
      have hle : 0 ≤ min kChunkSize remaining := UInt64.zero_le
      have hstart : Appended base (byteOf rng) (k + (0 : UInt64).toNat) f := hf
      have hwrite := wlp_writeFully calls 0 f hstart hle
      rw [← hbuf] at hwrite
      refine wlp_bind.mpr (wlp_mono hwrite ?_ ?_)
      · rintro _ g ⟨hg, hok⟩
        have hmin := toNat_min kChunkSize remaining
        have hchunk : kChunkSize.toNat = 8 * chunkWords := rfl
        have hrest : (remaining - min kChunkSize remaining).toNat
            = remaining.toNat - (min kChunkSize remaining).toNat :=
          toNat_sub_of_le (hmin ▸ Nat.min_le_right _ _)
        refine wlp_mono (ih _ (drawn + chunkWords) g hg ?_) ?_ ?_
        · -- only the last chunk is shorter than the buffer
          intro hmore
          rw [UInt64.lt_iff_toNat_lt, hrest] at hmore
          have h0 : (0 : UInt64).toNat = 0 := rfl
          omega
        · rintro _ g' ⟨hg', hall⟩
          constructor
          · have hsum : k + (min kChunkSize remaining).toNat
                + (remaining - min kChunkSize remaining).toNat
                = k + remaining.toNat := by
              omega
            rw [← hsum]
            exact hg'
          · rintro ⟨chunk, hchunk, c, hc, href⟩
            rcases List.mem_cons.mp hchunk with rfl | hchunk
            · rw [hok c hc] at href
              exact nomatch href
            · exact hall ⟨chunk, hchunk, c, hc, href⟩
        · rintro _ g' ⟨hg', chunk, hchunk, hc⟩
          exact ⟨hg', chunk, List.mem_cons_of_mem _ hchunk, hc⟩
      · rintro _ g ⟨hg, c, hc, href⟩
        exact ⟨hg, calls, List.mem_cons_self .., c, hc, href⟩

/-- What runs on the descriptor: reserve, fill and sync. -/
theorem wlp_fill {config : JobConfig} {calls : CreateCalls} (pathStr : String)
    (hf : Appended base (byteOf calls.rng) 0 f) :
    wlp (do
        reserveSpace config.fileSize pathStr calls.fallocate
        fillRandom calls.rng config.fileSize 0 calls.writes
        if calls.fsync.result = 0 then pure ()
        else throw (.systemError calls.fsync.errno
          ("fsync failed for '" ++ pathStr ++ "'")))
      (fun _ g => Appended base (byteOf calls.rng) config.fileSize.toNat g ∧
        ¬ calls.fillFails)
      (fun _ g => (∃ k, Appended base (byteOf calls.rng) k g) ∧ calls.fillFails) f := by
  refine wlp_bind.mpr (wlp_mono (wlp_reserveSpace hf) ?_ ?_)
  · rintro _ g ⟨hg, hreserve⟩
    refine wlp_bind.mpr (wlp_mono (wlp_fillRandom _ _ 0 g hg (fun _ => rfl)) ?_ ?_)
    · rintro _ g' ⟨hg', hwrite⟩
      rw [Nat.zero_add] at hg'
      refine wlp_ite (fun h0 => wlp_pure.mpr ⟨hg', ?_⟩)
        (fun h0 => wlp_throw.mpr ⟨⟨_, hg'⟩, .inr (.inr h0)⟩)
      rintro (h | h | h)
      · exact hreserve h
      · exact hwrite h
      · exact h h0
    · rintro _ g' ⟨hg', hwrite⟩
      exact ⟨hg', .inr (.inl hwrite)⟩
  · rintro _ g ⟨hg, hreserve⟩
    exact ⟨⟨0, hg⟩, .inl hreserve⟩

end Fill

/-! ## What one `createAndFill` does -/

/-- It returned: no system call failed, the file holds the stream of the
    generator, and the file is tracked with whether it had been there. -/
structure Filled (config : JobConfig) (calls : CreateCalls) (s t : Preparation) :
    Prop where
  noFailure : ¬ calls.fails
  file : ∃ f, t.files = s.files.store config.filename f.file ∧
    Appended (s.files.at config.filename) (byteOf calls.rng) config.fileSize.toNat f
  prep : t.prep = { s.prep with created := s.prep.created
    ++ [⟨config.filename, s.files.exists config.filename⟩] }

/-- It threw: nothing is tracked.  Either the `open` failed and nothing happened,
    or a later call did and the file is there, filled in part. -/
structure Abandoned (config : JobConfig) (calls : CreateCalls) (s t : Preparation) :
    Prop where
  prep : t.prep = s.prep
  files : (calls.openCall.fd < 0 ∧ t.files = s.files) ∨
    (¬ calls.openCall.fd < 0 ∧ calls.fillFails ∧
      ∃ f k, t.files = s.files.store config.filename f.file ∧
        Appended (s.files.at config.filename) (byteOf calls.rng) k f)

/-- **Everything one call can do.** -/
theorem wlp_createAndFill (config : JobConfig) (calls : CreateCalls)
    (s : Preparation) :
    wlp (createAndFill config calls) (fun _ t => Filled config calls s t)
      (fun _ t => Abandoned config calls s t) s := by
  refine wlp_bind.mpr (wlp_get.mpr (wlp_ite (fun hopen => ?_) (fun hopen => ?_)))
  · exact wlp_throw.mpr ⟨rfl, .inl ⟨hopen, rfl⟩⟩
  · refine wlp_bind.mpr (wlp_modify.mpr (wlp_bind.mpr (wlp_zoom ?_)))
    have hat : (s.files.create config.filename).at config.filename
        = s.files.at config.filename := by
      rw [Files.at, Files.create, Files.store_self]
      rfl
    rw [hat]
    refine wlp_mono (wlp_fill config.filename (Appended.start _ _)) ?_ ?_
    · rintro _ f ⟨hf, hok⟩
      refine wlp_modify.mpr ⟨?_, ⟨f, Files.store_store .., hf⟩, rfl⟩
      rintro (h | h)
      · exact hopen h
      · exact hok h
    · rintro _ f ⟨⟨k, hk⟩, hfail⟩
      exact ⟨rfl, .inr ⟨hopen, hfail, f, k, Files.store_store .., hk⟩⟩

/-- No call loses a file or makes one shorter. -/
theorem Filled.grows {config : JobConfig} {calls : CreateCalls} {s t : Preparation}
    (h : Filled config calls s t) : s.files.Grows t.files := by
  obtain ⟨f, ht, hf⟩ := h.file
  rw [ht]
  exact s.files.grows_store hf.extends

theorem Abandoned.grows {config : JobConfig} {calls : CreateCalls}
    {s t : Preparation} (h : Abandoned config calls s t) :
    s.files.Grows t.files := by
  rcases h.files with ⟨-, ht⟩ | ⟨-, -, f, k, ht, hf⟩
  · rw [ht]
    exact Files.Grows.refl _
  · rw [ht]
    exact s.files.grows_store hf.extends

/-! ## What the jobs find -/

/-- One call wrote the first `size` bytes of a file: each once, in order, and no
    others. -/
def WrittenOnce (s t : Preparation) (path : String) (size : Nat) : Prop :=
  ∃ f ws, t.files path = some f ∧ f.writes = (s.files.at path).writes ++ ws ∧
    positions ws = List.range size ∧ (payload ws).length = size

/-- The file of a job is large enough, and every byte the job may touch has been
    written. -/
def Prepared (s t : Preparation) (config : JobConfig) : Prop :=
  ∃ f ws, t.files config.filename = some f ∧
    f.writes = (s.files.at config.filename).writes ++ ws ∧
    config.fileSize.toNat ≤ f.length ∧
    ∀ k, k < config.fileSize.toNat → k ∈ positions ws

section Prepare

variable {config : JobConfig} {calls : CreateCalls} {s t u : Preparation}

theorem Filled.writtenOnce (h : Filled config calls s t) :
    WrittenOnce s t config.filename config.fileSize.toNat := by
  obtain ⟨f, ht, hf⟩ := h.file
  obtain ⟨ws, hws, hpos, hpay⟩ := hf.writes
  refine ⟨f.file, ws, ?_, hws, hpos, ?_⟩
  · rw [ht, Files.store_self]
  · rw [hpay, List.length_map, List.length_range]

/-- The file of the job, in terms of an earlier state. -/
theorem Filled.prepared (h : Filled config calls t u)
    (hgrows : s.files.Grows t.files) : Prepared s u config := by
  obtain ⟨f, hu, hf⟩ := h.file
  obtain ⟨ws, hws, hpos, -⟩ := hf.writes
  obtain ⟨earlier, hearlier⟩ : (s.files.at config.filename).writes
      <+: (t.files.at config.filename).writes := by
    cases hs : s.files config.filename with
    | none =>
        rw [Files.at, hs]
        exact List.nil_prefix
    | some f₀ =>
        obtain ⟨g, hg, hext⟩ := hgrows _ f₀ hs
        rw [Files.at, Files.at, hs, hg]
        exact hext.writes
  refine ⟨f.file, earlier ++ ws, ?_, ?_, hf.length, ?_⟩
  · rw [hu, Files.store_self]
  · rw [hws, ← hearlier, List.append_assoc]
  · intro k hk
    rw [positions, List.flatMap_append, ← positions, ← positions, hpos]
    exact List.mem_append_right _ (List.mem_range.mpr hk)

/-- What has been prepared stays so while the files grow. -/
theorem Prepared.grows (h : Prepared s t config) (hgrows : t.files.Grows u.files) :
    Prepared s u config := by
  obtain ⟨f, ws, hf, hws, hlen, hcover⟩ := h
  obtain ⟨g, hg, hext⟩ := hgrows _ f hf
  obtain ⟨later, hlater⟩ := hext.writes
  refine ⟨g, ws ++ later, hg, ?_, Nat.le_trans hlen hext.length, ?_⟩
  · rw [← hlater, hws, List.append_assoc]
  · intro k hk
    rw [positions, List.flatMap_append, ← positions]
    exact List.mem_append_left _ (hcover k hk)

/-- The jobs done so far are prepared, and nothing has been lost. -/
theorem wlp_precreateFiles (jobs : List (JobConfig × CreateCalls))
    (s : Preparation) :
    wlp (precreateFiles jobs)
      (fun _ t => s.files.Grows t.files ∧ ∀ job ∈ jobs, Prepared s t job.1)
      (fun _ t => s.files.Grows t.files) s := by
  refine wlp_forM (I := fun (done : List (JobConfig × CreateCalls)) t =>
    s.files.Grows t.files ∧ ∀ job ∈ done, Prepared s t job.1) ?_ ?_
  · rintro done job rest t - ⟨hgrows, hdone⟩
    refine wlp_mono (wlp_createAndFill job.1 job.2 t) ?_ ?_
    · rintro _ u hfilled
      refine ⟨hgrows.trans hfilled.grows, ?_⟩
      intro job' hjob'
      rcases List.mem_append.mp hjob' with hold | hnew
      · exact (hdone job' hold).grows hfilled.grows
      · rw [List.mem_singleton.mp hnew]
        exact hfilled.prepared hgrows
    · rintro _ u habandoned
      exact hgrows.trans habandoned.grows
  · exact ⟨Files.Grows.refl _, fun job hjob => nomatch hjob⟩

end Prepare

/-- **Prepared files are large enough for every job.**  A call that returns wrote
    its range once and in order.  A preparation that returns leaves each job a
    file of the size it asked for with every byte written, whatever files there
    were, whichever jobs share one, and however the kernel splits and interrupts
    the writes.  No file is shorter afterwards; a failure may strike at any
    system call, so this holds in between as well. -/
theorem precreateFiles_prepares (jobs : List (JobConfig × CreateCalls))
    (s : Preparation) :
    (∀ config calls s t, exec (createAndFill config calls) s = some (.ok ⟨⟩, t) →
      WrittenOnce s t config.filename config.fileSize.toNat) ∧
    (∀ r t, exec (precreateFiles jobs) s = some (r, t) →
      s.files.Grows t.files ∧
      (r = .ok ⟨⟩ → ∀ job ∈ jobs, Prepared s t job.1)) := by
  constructor
  · intro config calls s t h
    have hfilled : Filled config calls s t := wlp_createAndFill config calls s _ h
    exact hfilled.writtenOnce
  · intro r t h
    have hpost := wlp_precreateFiles jobs s (r, t) h
    cases r with
    | ok _ => exact ⟨hpost.1, fun _ => hpost.2⟩
    | error _ => exact ⟨hpost, fun hok => nomatch hok⟩

/-- A job whose file is filled without `fallocate`, by an interrupted write and
    two short ones. -/
def interruptedJob : JobConfig × CreateCalls :=
  ({ filename := "data", fileSize := 5 },
    { openCall := { fd := 3 }
      fallocate := { result := -1, errno := EOPNOTSUPP }
      rng := fun i => UInt64.ofNat i
      writes := [[[{ result := -1, errno := EINTR }, { result := 2 }],
        [{ result := 3 }]]] })

/-- A smaller job on the same file. -/
def sharedJobs : List (JobConfig × CreateCalls) :=
  [interruptedJob,
   ({ filename := "data", fileSize := 4 },
    { openCall := { fd := 3 }
      rng := fun _ => 7
      writes := [[[{ result := 4 }]]] })]

/-- The file is there already, three bytes long. -/
def sharedStart : Preparation :=
  { files := fun path => if path = "data" then some { length := 3 } else none
    prep := { keepFiles := false } }

theorem precreateFiles_prepares_shared :
    (∃ t, exec (createAndFill interruptedJob.1 interruptedJob.2) sharedStart
        = some (.ok ⟨⟩, t) ∧ WrittenOnce sharedStart t "data" 5) ∧
    (∃ t, exec (precreateFiles sharedJobs) sharedStart = some (.ok ⟨⟩, t) ∧
      (t.files "data").map File.length = some 5 ∧
      ∀ job ∈ sharedJobs, Prepared sharedStart t job.1) := by
  obtain ⟨honce, hprepared⟩ := precreateFiles_prepares sharedJobs sharedStart
  constructor
  · have h : (exec (createAndFill interruptedJob.1 interruptedJob.2)
        sharedStart).map Prod.fst = some (.ok ⟨⟩) := rfl
    obtain ⟨⟨r, t⟩, hrun, rfl⟩ := Option.map_eq_some_iff.mp h
    exact ⟨t, hrun, honce _ _ _ _ hrun⟩
  · have h : (exec (precreateFiles sharedJobs) sharedStart).map
        (fun r => (r.1, (r.2.files "data").map File.length)) =
          some (.ok ⟨⟩, some 5) := rfl
    obtain ⟨⟨r, t⟩, hrun, hr⟩ := Option.map_eq_some_iff.mp h
    obtain ⟨rfl, hlen⟩ := Prod.mk.inj hr
    exact ⟨t, hrun, hlen, (hprepared _ t hrun).2 rfl⟩

end CfioFilePreparator
