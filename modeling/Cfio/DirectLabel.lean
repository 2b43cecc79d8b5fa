import Cfio.ConfigSoundness

/-! # The header of a display and what the engines opened

    `MakeDisplayContext` derives the labels of a display's header from the command line
    and the job list.  Whether O_DIRECT is in effect is decided later, job by job, when
    a worker opens its engine: a file system may refuse it, and the file is then opened
    without.

    `direct_label_iff` compares the two: over the direct jobs alone, the label is right
    as long as the file system grants O_DIRECT to all of them, or to one of them if
    there are other jobs too. -/

namespace CfioDisplayContext

open CfioTypes CfioConfig CfioBufferPool CfioWorkerThread CfioEngine Checks

/-! ## The command line -/

/-- The overrides among the parsed command-line arguments. -/
structure CliOptions where
  directOverride : Option Bool := none
  engineOverride : Option String := none
  deriving DecidableEq, Repr

/-- What `main` makes of a job that was parsed. -/
def CliOptions.override (options : CliOptions) (job : JobConfig) : JobConfig :=
  { job with
    direct := options.directOverride.getD job.direct
    engine := options.engineOverride.getD job.engine }

/-- The job list of the run. -/
def CliOptions.overrideAll (options : CliOptions) (jobs : List JobConfig) : List JobConfig :=
  jobs.map options.override

/-! ## The header -/

/-- Run data shown in the display. -/
structure DisplayContext where
  engineLabel : String := ""
  directLabel : String := ""
  logPath : String := ""
  deriving DecidableEq, Repr

/-- Label naming the engine used by the run. -/
def deriveEngineLabel (options : CliOptions) (jobs : List JobConfig) : String :=
  match options.engineOverride with
  | some engine => engine
  | none =>
      match jobs with
      | [] => ""
      | front :: _ =>
          if jobs.any (fun job => job.engine ≠ front.engine) then "mixed" else front.engine

/-- Label describing whether O_DIRECT is active. -/
def deriveDirectLabel (options : CliOptions) (jobs : List JobConfig) : String :=
  match options.directOverride with
  | some direct => if direct then "ON" else "OFF"
  | none =>
      match jobs with
      | [] => "OFF"
      | front :: _ =>
          if jobs.any (fun job => job.direct ≠ front.direct) then "mixed"
          else if front.direct then "ON" else "OFF"

/-- Assemble the display header metadata. -/
def makeDisplayContext (options : CliOptions) (jobs : List JobConfig) (logPath : String) :
    DisplayContext :=
  { engineLabel := deriveEngineLabel options jobs
    directLabel := deriveDirectLabel options jobs
    logPath := logPath }

/-! ## The workers -/

/-- What `EngineFactory::Create` makes. -/
inductive EngineKind where
  | psync
  | sync
  | libaio
  | ioUring
  deriving DecidableEq, Repr

/-- `EngineFactory::Create`. -/
def createEngine (engineName : String) : Except Exn EngineKind :=
  if isKnownEngine engineName = false then
    .error (.runtimeError ("unknown engine '" ++ engineName ++ "'"))
  else if engineName = "psync" then .ok .psync
  else if engineName = "io_uring" then .ok .ioUring
  else if engineName = "libaio" then .ok .libaio
  else if engineName = "sync" then .ok .sync
  else .error (.runtimeError ("engine '" ++ engineName ++ "' not yet implemented"))

/-- What the system answers while an engine is opened: to the one or two `open` calls, and
    to `io_setup` or `io_uring_queue_init`. -/
structure OpenAnswers where
  first : OpenOutcome
  second : OpenOutcome := ⟨-1, 0⟩
  setupRet : Int32 := 0
  deriving DecidableEq, Repr

/-- `Open` of a new engine, and then `IsDirectEnabled`. -/
def EngineKind.opened (config : JobConfig) (answers : OpenAnswers) :
    EngineKind → Except Exn Bool
  | .psync =>
      (CfioSyncEngines.BlockingEngine.openEngine "PsyncEngine" config answers.first
        answers.second {}).map CfioSyncEngines.BlockingEngine.directEffective
  | .sync =>
      (CfioSyncEngines.BlockingEngine.openEngine "SyncEngine" config answers.first
        answers.second {}).map CfioSyncEngines.BlockingEngine.directEffective
  | .libaio =>
      (CfioLibaio.LibaioEngine.openEngine config answers.first answers.second
        answers.setupRet {}).map CfioLibaio.LibaioEngine.directEffective
  | .ioUring =>
      (CfioIoUring.IoUringEngine.openEngine config answers.first answers.second
        answers.setupRet {}).map CfioIoUring.IoUringEngine.directEffective

/-- `BenchmarkOrchestrator::CreateWorkers`, with what the system answers for each job. -/
def createWorkers (alloc : Allocator) :
    List (JobConfig × OpenAnswers) → Except Exn (List WorkerThread)
  | [] => .ok []
  | (job, answers) :: calls => do
      let engine ← createEngine job.engine
      let worker ← WorkerThread.new alloc job (engine.opened job answers)
      let workers ← createWorkers alloc calls
      return worker :: workers

/-! ## What is in effect -/

/-- Was O_DIRECT granted to the job, if it asked for it? -/
def granted (call : JobConfig × OpenAnswers) : Bool :=
  call.1.direct && decide (0 ≤ call.2.first.fd)

section Opened

variable {config : JobConfig} {answers : OpenAnswers}

/-- O_DIRECT is in effect when it was asked for and the first `open` succeeded. -/
theorem openFile_direct {filePath : String} {direct : Bool} {first second : OpenOutcome}
    {result : OpenResult}
    (h : openFileWithDirectFallback filePath direct first second = .ok result) :
    result.directEffective = (direct && decide (0 ≤ first.fd)) := by
  cases direct with
  | false =>
      obtain ⟨-, hresult⟩ := guard_ok_iff.mp h
      rw [← Except.ok.inj hresult]
      rfl
  | true =>
      rw [Bool.true_and]
      rcases ite_eq_iff.mp h with ⟨hdirect, h⟩ | ⟨hdirect, -⟩
      · rcases ite_eq_iff.mp h with ⟨hrefused, h⟩ | ⟨hopened, h⟩
        · -- refused: whatever comes next is not O_DIRECT
          obtain ⟨hretry, h⟩ : (first.errno = EINVAL ∨ first.errno = EOPNOTSUPP) ∧ _ := by
            rcases ite_eq_iff.mp h with ⟨hretry, h⟩ | ⟨-, h⟩
            · exact ⟨hretry, h⟩
            · cases h
          obtain ⟨-, hresult⟩ := guard_ok_iff.mp h
          rw [← Except.ok.inj hresult, decide_eq_false (Int32.not_le.mpr hrefused)]
        · rw [← Except.ok.inj h, decide_eq_true (Int32.not_lt.mp hopened)]
      · exact absurd rfl hdirect

theorem blocking_opened {className : String} {direct : Bool}
    (h : (CfioSyncEngines.BlockingEngine.openEngine className config answers.first
      answers.second {}).map CfioSyncEngines.BlockingEngine.directEffective = .ok direct) :
    direct = granted (config, answers) := by
  obtain ⟨engine, hopen, hdirect⟩ := map_ok_iff.mp h
  obtain ⟨-, hopen⟩ := guard_ok_iff.mp hopen
  obtain ⟨result, hfile, hopen⟩ := bind_ok_iff.mp hopen
  rw [← hdirect, ← Except.ok.inj hopen]
  exact openFile_direct hfile

/-- Whatever the engine, what it says after `Open` is what the file system granted. -/
theorem opened_granted {kind : EngineKind} {direct : Bool}
    (h : kind.opened config answers = .ok direct) : direct = granted (config, answers) := by
  cases kind with
  | psync => exact blocking_opened h
  | sync => exact blocking_opened h
  | libaio =>
      obtain ⟨engine, hopen, hdirect⟩ := map_ok_iff.mp h
      obtain ⟨-, hopen⟩ := guard_ok_iff.mp hopen
      obtain ⟨-, hopen⟩ := guard_ok_iff.mp hopen
      obtain ⟨result, hfile, hopen⟩ := bind_ok_iff.mp hopen
      rcases ite_eq_iff.mp hopen with ⟨-, hfailed⟩ | ⟨-, hopen⟩
      · cases (guard_ok_iff.mp hfailed).2
      · rw [← hdirect, ← Except.ok.inj hopen]
        exact openFile_direct hfile
  | ioUring =>
      obtain ⟨engine, hopen, hdirect⟩ := map_ok_iff.mp h
      obtain ⟨-, hopen⟩ := guard_ok_iff.mp hopen
      obtain ⟨-, hopen⟩ := guard_ok_iff.mp hopen
      obtain ⟨result, hfile, hopen⟩ := bind_ok_iff.mp hopen
      obtain ⟨-, hopen⟩ := guard_ok_iff.mp hopen
      rw [← hdirect, ← Except.ok.inj hopen]
      exact openFile_direct hfile

end Opened

/-- The workers, in the order of the jobs, have what was granted to their jobs. -/
theorem createWorkers_granted {alloc : Allocator} {calls : List (JobConfig × OpenAnswers)}
    {workers : List WorkerThread} (h : createWorkers alloc calls = .ok workers) :
    workers.map WorkerThread.directEffective = calls.map granted := by
  induction calls generalizing workers with
  | nil =>
      rw [← Except.ok.inj h]
      rfl
  | cons call calls ih =>
      obtain ⟨job, answers⟩ := call
      obtain ⟨engine, -, h⟩ := bind_ok_iff.mp h
      obtain ⟨worker, hworker, h⟩ := bind_ok_iff.mp h
      obtain ⟨rest, hrest, h⟩ := bind_ok_iff.mp h
      obtain ⟨pool, -, hworker⟩ := bind_ok_iff.mp hworker
      obtain ⟨direct, hopened, hworker⟩ := bind_ok_iff.mp hworker
      rw [← Except.ok.inj h, List.map_cons, List.map_cons, ih hrest,
        ← Except.ok.inj hworker, opened_granted hopened]

/-! ## The label of a list of flags -/

/-- What a label says of some flags, of which there is at least one. -/
structure Describes (label : String) (flags : List Bool) : Prop where
  on : label = "ON" ↔ ∀ flag ∈ flags, flag = true
  off : label = "OFF" ↔ ∀ flag ∈ flags, flag = false
  mixed : label = "mixed" ↔ true ∈ flags ∧ false ∈ flags

section Describes

variable {label : String} {flags : List Bool}

/-- Flags that are all the same. -/
theorem describes_all {b : Bool} (h : ∀ flag ∈ flags, flag = b) (hne : flags ≠ []) :
    Describes label flags ↔ label = if b then "ON" else "OFF" := by
  have hmem : b ∈ flags := by
    obtain ⟨flag, hflag⟩ := List.exists_mem_of_ne_nil flags hne
    rwa [← h flag hflag]
  have hall (c : Bool) : (∀ flag ∈ flags, flag = c) ↔ c = b := by
    refine ⟨fun hc => (hc b hmem).symm, ?_⟩
    rintro rfl
    exact h
  have hboth : ¬ (true ∈ flags ∧ false ∈ flags) := by
    rintro ⟨htrue, hfalse⟩
    exact absurd ((h true htrue).trans (h false hfalse).symm) (by decide)
  constructor
  · intro hd
    cases b with
    | true => exact hd.on.mpr h
    | false => exact hd.off.mpr h
  · rintro rfl
    refine ⟨?_, ?_, iff_of_false ?_ hboth⟩
    · rw [hall]
      cases b <;> decide
    · rw [hall]
      cases b <;> decide
    · cases b <;> decide

theorem describes_mixed (htrue : true ∈ flags) (hfalse : false ∈ flags) :
    Describes label flags ↔ label = "mixed" := by
  constructor
  · intro hd
    exact hd.mixed.mpr ⟨htrue, hfalse⟩
  · rintro rfl
    refine ⟨iff_of_false (by decide) ?_, iff_of_false (by decide) ?_,
      iff_of_true rfl ⟨htrue, hfalse⟩⟩
    · intro hall
      exact absurd (hall false hfalse) (by decide)
    · intro hall
      exact absurd (hall true htrue) (by decide)

/-- Some flags agree or do not. -/
theorem flags_cases (flags : List Bool) :
    (∀ flag ∈ flags, flag = true) ∨ (∀ flag ∈ flags, flag = false)
      ∨ (true ∈ flags ∧ false ∈ flags) := by
  by_cases htrue : true ∈ flags
  · by_cases hfalse : false ∈ flags
    · exact Or.inr (Or.inr ⟨htrue, hfalse⟩)
    · refine Or.inl (fun flag hflag => ?_)
      cases flag with
      | false => exact absurd hflag hfalse
      | true => rfl
  · refine Or.inr (Or.inl (fun flag hflag => ?_))
    cases flag with
    | false => rfl
    | true => exact absurd hflag htrue

end Describes

/-! ## The label and the workers -/

section Label

variable {options : CliOptions} {jobs : List JobConfig}

theorem override_direct {direct : Bool} (h : options.directOverride = some direct)
    (job : JobConfig) : (options.override job).direct = direct := by
  rw [CliOptions.override, h]
  rfl

/-- No job differs from the first when all flags are the same. -/
theorem not_any_differs {front : JobConfig} {flag : Bool} (hmem : front ∈ jobs)
    (h : ∀ other ∈ jobs.map JobConfig.direct, other = flag) :
    ¬ jobs.any (fun job => job.direct ≠ front.direct) = true := by
  intro hany
  obtain ⟨job, hjob, hdiffers⟩ := List.any_eq_true.mp hany
  refine of_decide_eq_true hdiffers ?_
  rw [h _ (List.mem_map_of_mem hjob), h _ (List.mem_map_of_mem hmem)]

/-- Some job differs from the first when there are both flags. -/
theorem any_differs (front : JobConfig) (htrue : true ∈ jobs.map JobConfig.direct)
    (hfalse : false ∈ jobs.map JobConfig.direct) :
    jobs.any (fun job => job.direct ≠ front.direct) = true := by
  obtain ⟨on, hon, hdirect⟩ := List.mem_map.mp htrue
  obtain ⟨off, hoff, hbuffered⟩ := List.mem_map.mp hfalse
  rw [List.any_eq_true]
  cases hfront : front.direct with
  | true => exact ⟨off, hoff, by rw [hbuffered]; decide⟩
  | false => exact ⟨on, hon, by rw [hdirect]; decide⟩

/-- The label describes the direct flags of the jobs that the run is started with. -/
theorem deriveDirectLabel_describes (hne : options.overrideAll jobs ≠ []) :
    Describes (deriveDirectLabel options (options.overrideAll jobs))
      ((options.overrideAll jobs).map JobConfig.direct) := by
  have hflags : (options.overrideAll jobs).map JobConfig.direct ≠ [] :=
    fun h => hne (List.map_eq_nil_iff.mp h)
  cases hoverride : options.directOverride with
  | some direct =>
      -- an override is what every job has
      have hall : ∀ flag ∈ (options.overrideAll jobs).map JobConfig.direct,
          flag = direct := by
        intro flag hflag
        obtain ⟨job', hjob', rfl⟩ := List.mem_map.mp hflag
        obtain ⟨job, -, rfl⟩ := List.mem_map.mp hjob'
        exact override_direct hoverride job
      simp only [deriveDirectLabel, hoverride]
      exact (describes_all hall hflags).mpr rfl
  | none =>
      simp only [deriveDirectLabel, hoverride]
      cases hjobs : options.overrideAll jobs with
      | nil => exact absurd hjobs hne
      | cons front rest =>
          rw [hjobs] at hflags
          have hfront : front ∈ front :: rest := List.mem_cons_self ..
          dsimp only
          rcases flags_cases ((front :: rest).map JobConfig.direct) with
            hall | hall | ⟨htrue, hfalse⟩
          · rw [if_neg (not_any_differs hfront hall), if_pos (hall _ (List.mem_map_of_mem hfront))]
            exact (describes_all hall hflags).mpr rfl
          · have hoff : front.direct = false := hall _ (List.mem_map_of_mem hfront)
            rw [if_neg (not_any_differs hfront hall), if_neg (by rw [hoff]; decide)]
            exact (describes_all hall hflags).mpr rfl
          · rw [if_pos (any_differs front htrue hfalse)]
            exact (describes_mixed htrue hfalse).mpr rfl

/-- A label that describes some flags describes others just when these are of the same
    kind. -/
theorem describes_iff_of_describes {label : String} {flags flags' : List Bool}
    (h : Describes label flags) (hne' : flags' ≠ []) :
    Describes label flags' ↔
      ((∀ flag ∈ flags, flag = true) ↔ ∀ flag ∈ flags', flag = true)
        ∧ ((∀ flag ∈ flags, flag = false) ↔ ∀ flag ∈ flags', flag = false) := by
  constructor
  · intro h'
    exact ⟨h.on.symm.trans h'.on, h.off.symm.trans h'.off⟩
  · rintro ⟨hon, hoff⟩
    rcases flags_cases flags' with hall | hall | ⟨htrue, hfalse⟩
    · exact (describes_all hall hne').mpr (h.on.mpr (hon.mpr hall))
    · exact (describes_all hall hne').mpr (h.off.mpr (hoff.mpr hall))
    · refine (describes_mixed htrue hfalse).mpr (h.mixed.mpr ?_)
      rcases flags_cases flags with hall | hall | hboth
      · exact absurd (hon.mp hall false hfalse) (by decide)
      · exact absurd (hoff.mp hall true htrue) (by decide)
      · exact hboth

end Label

/-! ## When the label is right -/

/-- What the file system grants: O_DIRECT to every job, if every job asks for it; and to
    at least one, if some jobs ask for it and others do not. -/
structure Grants (calls : List (JobConfig × OpenAnswers)) : Prop where
  all : (∀ call ∈ calls, call.1.direct = true) → ∀ call ∈ calls, 0 ≤ call.2.first.fd
  some : (∃ call ∈ calls, call.1.direct = true) → (∃ call ∈ calls, call.1.direct = false) →
    ∃ call ∈ calls, call.1.direct = true ∧ 0 ≤ call.2.first.fd

/-- The label of the header tells which of the workers' files are open with O_DIRECT. -/
def TellsTruth (context : DisplayContext) (workers : List WorkerThread) : Prop :=
  Describes context.directLabel (workers.map WorkerThread.directEffective)

theorem granted_eq_true {call : JobConfig × OpenAnswers} :
    granted call = true ↔ call.1.direct = true ∧ 0 ≤ call.2.first.fd := by
  rw [granted, Bool.and_eq_true, decide_eq_true_iff]

theorem granted_eq_false {call : JobConfig × OpenAnswers} :
    granted call = false ↔ (call.1.direct = true → ¬ 0 ≤ call.2.first.fd) := by
  rw [← Bool.not_eq_true, granted_eq_true, not_and]

theorem grants_iff {calls : List (JobConfig × OpenAnswers)} (hne : calls ≠ []) :
    Grants calls ↔
      ((∀ flag ∈ calls.map (fun call => call.1.direct), flag = true)
          ↔ ∀ flag ∈ calls.map granted, flag = true)
        ∧ ((∀ flag ∈ calls.map (fun call => call.1.direct), flag = false)
          ↔ ∀ flag ∈ calls.map granted, flag = false) := by
  simp only [List.forall_mem_map, granted_eq_true, granted_eq_false]
  obtain ⟨front, hfront⟩ := List.exists_mem_of_ne_nil calls hne
  constructor
  · rintro ⟨hall, hsome⟩
    refine ⟨⟨fun h call hcall => ⟨h call hcall, hall h call hcall⟩,
      fun h call hcall => (h call hcall).1⟩, ?_, ?_⟩
    · intro h call hcall hdirect
      rw [h call hcall] at hdirect
      cases hdirect
    · intro h call hcall
      -- a direct job, and none granted
      by_contra hdirect
      rw [Bool.not_eq_false] at hdirect
      by_cases hother : ∃ call ∈ calls, call.1.direct = false
      · obtain ⟨lucky, hlucky, hdirect', hfd⟩ := hsome ⟨call, hcall, hdirect⟩ hother
        exact h lucky hlucky hdirect' hfd
      · have heach : ∀ call ∈ calls, call.1.direct = true := by
          intro call hcall
          by_contra hd
          exact hother ⟨call, hcall, Bool.eq_false_iff.mpr hd⟩
        exact h call hcall hdirect (hall heach call hcall)
  · rintro ⟨hon, hoff⟩
    refine ⟨fun h call hcall => (hon.mp h call hcall).2, ?_⟩
    rintro ⟨call, hcall, hdirect⟩ -
    by_contra hnone
    have hquiet := hoff.mpr (fun call hcall hd hfd => hnone ⟨call, hcall, hd, hfd⟩) call hcall
    rw [hdirect] at hquiet
    cases hquiet

/-- **When the label is right**: for every validated job list, every override and every
    outcome of the engines' `Open`, the label tells the truth about the workers exactly
    when the file system grants O_DIRECT as `Grants` says. -/
theorem direct_label_iff {options : CliOptions} {jobs : List JobConfig}
    {answers : List OpenAnswers} {alloc : Allocator} {workers : List WorkerThread}
    (hvalid : validateAll (options.overrideAll jobs) = .ok ())
    (hlength : answers.length = jobs.length)
    (hcreated : createWorkers alloc ((options.overrideAll jobs).zip answers) = .ok workers)
    (logPath : String) :
    TellsTruth (makeDisplayContext options (options.overrideAll jobs) logPath) workers
      ↔ Grants ((options.overrideAll jobs).zip answers) := by
  have hne : options.overrideAll jobs ≠ [] := by
    intro hnil
    rw [hnil] at hvalid
    cases hvalid
  have hfst : ((options.overrideAll jobs).zip answers).map Prod.fst
      = options.overrideAll jobs := by
    refine List.map_fst_zip ?_
    rw [hlength, CliOptions.overrideAll, List.length_map]
  have hcalls : (options.overrideAll jobs).zip answers ≠ [] := by
    intro hnil
    rw [hnil] at hfst
    exact hne hfst.symm
  have hflags : (options.overrideAll jobs).map JobConfig.direct
      = ((options.overrideAll jobs).zip answers).map (fun call => call.1.direct) := by
    conv_lhs => rw [← hfst, List.map_map]
    rfl
  have hdescribes := deriveDirectLabel_describes hne
  rw [hflags] at hdescribes
  have hgranted : ((options.overrideAll jobs).zip answers).map granted ≠ [] :=
    fun h => hcalls (List.map_eq_nil_iff.mp h)
  rw [TellsTruth, createWorkers_granted hcreated, grants_iff hcalls]
  exact describes_iff_of_describes hdescribes hgranted

/-- A job that asks for O_DIRECT. -/
def directJob : JobConfig :=
  { name := "d", engine := "psync", blockSize := 4096, fileSize := 4096, filename := "data" }

/-- A job that does not. -/
def bufferedJob : JobConfig :=
  { directJob with name := "b", engine := "libaio", iodepth := 4, direct := false }

/-- A job whose file is on a file system that refuses it. -/
def refusedJob : JobConfig := { directJob with name := "r", filename := "other" }

/-- The opens of the three jobs. -/
def mixedAnswers : List OpenAnswers :=
  [{ first := ⟨3, 0⟩ }, { first := ⟨4, 0⟩ }, { first := ⟨-1, EINVAL⟩, second := ⟨5, 0⟩ }]

/-- One of two jobs that ask for it is granted O_DIRECT, so `mixed` is the truth. -/
theorem direct_label_iff_mixed :
    ∃ workers, createWorkers CfioConfigSoundness.grantAlloc
        ((({} : CliOptions).overrideAll [directJob, bufferedJob, refusedJob]).zip mixedAnswers)
          = .ok workers
      ∧ workers.map WorkerThread.directEffective = [true, false, false]
      ∧ TellsTruth (makeDisplayContext {} [directJob, bufferedJob, refusedJob] "cfio.log")
          workers := by
  refine ⟨_, rfl, rfl, ?_⟩
  refine (@direct_label_iff {} [directJob, bufferedJob, refusedJob] mixedAnswers
    CfioConfigSoundness.grantAlloc _ rfl rfl rfl "cfio.log").mpr ⟨?_, ?_⟩
  · intro hall
    exact absurd (hall (bufferedJob, { first := ⟨4, 0⟩ })
      (List.mem_cons_of_mem _ (List.mem_cons_self ..))) (by decide)
  · rintro - -
    exact ⟨(directJob, { first := ⟨3, 0⟩ }), List.mem_cons_self .., by decide⟩

/-- The file system refuses O_DIRECT and the file is opened without: the header of the
    display says `ON`, and the worker's file is not direct. -/
theorem direct_label_lies :
    validateAll (({} : CliOptions).overrideAll [directJob]) = .ok ()
      ∧ ∃ workers, createWorkers CfioConfigSoundness.grantAlloc
            [(directJob, { first := ⟨-1, EINVAL⟩, second := ⟨3, 0⟩ })] = .ok workers
        ∧ (makeDisplayContext {} [directJob] "cfio.log").directLabel = "ON"
        ∧ workers.map WorkerThread.directEffective = [false]
        ∧ ¬ TellsTruth (makeDisplayContext {} [directJob] "cfio.log") workers := by
  refine ⟨rfl, _, rfl, rfl, rfl, ?_⟩
  intro htruth
  exact absurd (htruth.on.mp rfl false (List.mem_singleton_self false)) (by decide)

end CfioDisplayContext
