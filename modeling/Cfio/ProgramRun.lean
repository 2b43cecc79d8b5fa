import Cfio.ConfigDocuments
import Cfio.FileCleanup
import Cfio.RunTeardown
import Cfio.SummaryJson

/-! # The program

    `main` behind the command line, and `BenchmarkOrchestrator::Run`: a configuration file
    in, test files made and removed, a run, two documents out, and an exit code.

    Everything the program is answered from outside is in `Answers`.  The run itself is a
    run of `benchmarkStep` up to `BuildResults` (`CompletedRun`), or left by an exception.

    `wlp_main` is everything the program can do: each way it can end, with what it has
    done by then. -/

namespace CfioProgram

open CfioTypes CfioConfig CfioDisplayContext CfioFilePreparator CfioWorkerThread
open CfioHistogram CfioOrchestrator CfioMetrics CfioReporting Fallible FileSystem Transition Checks

/-! ## What comes from outside -/

/-- The command line, as far as it decides anything. -/
structure CommandLine where
  configPath : String
  runtimeSeconds : Int32 := 10
  outputDir : String := ""
  uiBackend : String := "terminal"
  overrides : CliOptions := {}
  keepFiles : Bool := false

/-- `RunBenchmark` up to the point where it has built the results. -/
structure CompletedRun (workers : List WorkerThread) where
  {σ κ : Fin workers.length → Type}
  engines : ∀ i, Engine (σ i) (κ i)
  opened : ∀ i, σ i
  steps : List (BenchmarkAct κ)
  final : BenchmarkRun σ
  ran : run (benchmarkStep engines) (BenchmarkRun.init workers.get opened) steps = some final
  building : final.main = .building
  interrupted : Bool
  timestamp : String
  startTime : TimePoint
  endTime : TimePoint
  now : TimePoint
  timeSeries : List MetricsSnapshot
  /-- a clock reads a non-negative number of nanoseconds in 64 bits -/
  clock : ∀ time ∈ [startTime, endTime, now], 0 ≤ time ∧ time < 2 ^ 63

/-- The workers when they have been joined. -/
def CompletedRun.joined {workers : List WorkerThread} (r : CompletedRun workers) :
    List WorkerThread :=
  List.ofFn fun i => (r.final.workers i).thread

/-- What `BuildResults` returns, and whether the run was interrupted. -/
def CompletedRun.results {workers : List WorkerThread} (r : CompletedRun workers)
    (command : CommandLine) : BenchmarkResults :=
  { buildResults exactRank command.overrides r.timestamp command.runtimeSeconds r.startTime
      r.endTime r.now r.joined r.timeSeries with
    interrupted := r.interrupted }

/-- How `RunBenchmark` ends.  An exception may leave workers behind that can never be
    joined. -/
inductive BenchmarkEnd (workers : List WorkerThread) where
  | completed (r : CompletedRun workers)
  | threw (e : Exn) (canTearDown : Bool)

/-- The answers of the system and of the libraries. -/
structure Answers where
  texts : LibraryTexts
  config : ConfigFile
  /-- why a log file cannot be opened: in the working directory, in the output directory -/
  mainLog : Option Exn := none
  runLog : Option Exn := none
  localTimestamp : String
  createDirectories : Option Exn := none
  createCalls : List CreateCalls
  alloc : CfioBufferPool.Allocator
  opens : List OpenAnswers
  benchmark : ∀ workers, BenchmarkEnd workers
  dump : OrderedJson → String
  summaryFile : OutputFile := ⟨true, true⟩
  timeSeriesFile : OutputFile := ⟨true, true⟩
  refused : String → Bool := fun _ => false

/-- Files the program writes of its own: its logs and its documents.  What is in the logs is
    left out, and the texts of the documents are kept apart. -/
def makeFiles (paths : List String) (s : Preparation) : Preparation :=
  { s with files := s.files.truncate paths }

/-- The process: the files and the preparator, the logger, the fields of the orchestrator
    that are read later, the texts that have been written to the output directory, and the
    standard error.  Directories are not among the files. -/
structure Process where
  prep : Preparation
  logger : Bool := false
  loggingReady : Bool := false
  anyWorkerFailed : Bool := false
  canTearDown : Bool := true
  summary : Option String := none
  timeSeries : Option String := none
  stderr : List String := []

def Process.start (files : Files String) : Process :=
  { prep := ⟨files, FilePreparator.new false⟩ }

abbrev Prog := Program Exn Process

def EXIT_SUCCESS : Int32 := 0
def EXIT_FAILURE : Int32 := 1

/-! ## The logger -/

def kLogName : String := "cfio.log"

/-- `Logger::Init`.  A log file that is there is written anew. -/
def loggerInit (logPath : String) (unopened : Option Exn) : Prog Unit := do
  if (← get).logger then
    throw (.runtimeError "Logger::Init() multiple calls not allowed")
  match unopened with
  | some e => throw e
  | none => modify fun s => { s with prep := makeFiles [logPath] s.prep, logger := true }

/-- `Logger::Get`. -/
def loggerGet : Prog Unit := do
  if !(← get).logger then
    throw (.runtimeError "Logger::Get() not allowed before init")

/-- `Logger::Shutdown`. -/
def loggerShutdown : Prog Unit := modify fun s => { s with logger := false }

/-! ## The display -/

/-- What the factory makes: a display that was registered, or the terminal's. -/
inductive DisplayBackend where
  | registered (name : String)
  | terminal
  deriving DecidableEq, Repr

/-- `DisplayFactory::Create`. -/
def createDisplay (registry : List String) (uiBackend : String) : Except Exn DisplayBackend :=
  if registry.contains uiBackend then .ok (.registered uiBackend)
  else if uiBackend = "terminal" then .ok .terminal
  else if uiBackend = "tui" then
    .error (.runtimeError "tui backend not compiled in, rebuild with -DCFIO_ENABLE_TUI=ON")
  else if uiBackend = "qt" then
    .error (.runtimeError "qt backend not compiled in, rebuild with -DCFIO_ENABLE_QT=ON")
  else .error (.runtimeError ("unknown display backend '" ++ uiBackend ++ "'"))

/-! ## `BenchmarkOrchestrator` -/

section Run

variable (command : CommandLine) (answers : Answers)

/-- The directory the results go to. -/
def outputDirectory (jobs : List JobConfig) : String :=
  if command.outputDir.isEmpty then
    joinPath "cfio-results"
      ((jobs.head?.elim "" JobConfig.name) ++ "-" ++ answers.localTimestamp)
  else command.outputDir

/-- `SetupOutputDirectory`.  The directories it makes are not among the files. -/
def setupOutputDirectory (jobs : List JobConfig) : Prog String :=
  match answers.createDirectories with
  | some e => throw e
  | none => pure (outputDirectory command answers jobs)

/-- `InitLogging`. -/
def initLogging (outputDir : String) : Prog Unit := do
  loggerShutdown
  loggerInit (joinPath outputDir kLogName) answers.runLog
  modify fun s => { s with loggingReady := true }

/-- Work on the files. -/
def onPreparation {α : Type} (x : Program Exn Preparation α) : Prog α :=
  zoom Process.prep (fun prep s => { s with prep := prep }) x

/-- There are the answers of one `CreateAndFill` for each job. -/
def prepareFiles (jobs : List JobConfig) : Prog Unit := do
  loggerGet
  if answers.createCalls.length = jobs.length then
    onPreparation (precreateFiles (jobs.zip answers.createCalls))
  else stuck

def makeWorkers (jobs : List JobConfig) : Prog (List WorkerThread) := do
  loggerGet
  if answers.opens.length = jobs.length then
    ofExcept (createWorkers answers.alloc (jobs.zip answers.opens))
  else stuck

/-- `RunBenchmark`. -/
def runBenchmark (workers : List WorkerThread) : Prog BenchmarkResults := do
  loggerGet
  let _ ← ofExcept (createDisplay [] command.uiBackend)
  match answers.benchmark workers with
  | .completed r => do
      modify fun s => { s with anyWorkerFailed := r.joined.any WorkerThread.failed }
      pure (r.results command)
  | .threw e canTearDown => do
      modify fun s => { s with canTearDown := canTearDown }
      throw e

/-- The files there are when a stream was opened on one. -/
def openOutput (out : OutputFile) (path : String) : Prog Unit :=
  modify fun s => { s with prep := makeFiles (if out.isOpen then [path] else []) s.prep }

/-- `ExportResults`.  A document that is there is written anew. -/
def exportResults (results : BenchmarkResults) (outputDir : String) : Prog Unit := do
  openOutput answers.summaryFile (joinPath outputDir "summary.json")
  let summary ← ofExcept (exportJson answers.dump answers.summaryFile results outputDir)
  modify fun s => { s with summary := some summary }
  loggerGet
  openOutput answers.timeSeriesFile (joinPath outputDir "timeseries.csv")
  let timeSeries ← ofExcept (exportCsv answers.timeSeriesFile results.timeSeries outputDir)
  modify fun s => { s with timeSeries := some timeSeries }
  loggerGet

/-- Does `Cleanup` log anything?  It does for a file it keeps, and for one it cannot
    remove. -/
def cleanupLogs (refused : String → Bool) (prep : FilePreparator) : Bool :=
  !prep.cleaned &&
    prep.created.any fun file => prep.keepFiles || (!file.preExisted && refused file.path)

def cleanupFiles : Prog Unit := do
  if cleanupLogs answers.refused (← get).prep.prep then loggerGet
  onPreparation (modify (cleanup answers.refused))

/-- `Run` without its handler. -/
def runPhases (jobs : List JobConfig) : Prog Int32 := do
  let outputDir ← setupOutputDirectory command answers jobs
  initLogging answers outputDir
  loggerGet
  prepareFiles answers jobs
  let workers ← makeWorkers answers jobs
  let results ← runBenchmark command answers workers
  exportResults answers results outputDir
  cleanupFiles answers
  return if (← get).anyWorkerFailed then EXIT_FAILURE else EXIT_SUCCESS

/-- A handler of `std::exception` that reports it. -/
def reportError (e : Exn) (also : Prog Unit) : Prog Int32 :=
  match e.what with
  | none => throw e
  | some what => do
      modify fun s => { s with stderr := s.stderr ++ ["C-FIO: error: " ++ what ++ "\n"] }
      also
      return EXIT_FAILURE

/-- `BenchmarkOrchestrator::Run`. -/
def orchestratorRun (jobs : List JobConfig) : Prog Int32 :=
  tryCatch (runPhases command answers jobs) fun e =>
    reportError e do
      if (← get).loggingReady then loggerGet

/-- `main` behind the command line. -/
def main : Prog Int32 := do
  loggerInit kLogName answers.mainLog
  loggerGet
  match loadJobs answers.texts command.configPath command.overrides answers.config with
  | .error e => reportError e loggerShutdown
  | .ok jobs => do
      modify fun s => { s with prep := { s.prep with prep := .new command.keepFiles } }
      let rc ← orchestratorRun command answers jobs
      loggerShutdown
      -- the orchestrator is destroyed: the workers are joined, then the files removed
      if !(← get).canTearDown then stuck
      onPreparation (modify (destroy answers.refused))
      return rc

end Run

/-! ## Rules -/

theorem wlp_exec {ε σ α : Type} (x : Program ε σ α) (s : σ) :
    wlp x (fun a t => exec x s = some (.ok a, t)) (fun e t => exec x s = some (.error e, t)) s := by
  rintro ⟨r, t⟩ hr
  cases r with
  | ok a => exact hr
  | error e => exact hr

section Rules

variable {Q : Unit → Process → Prop} {E : Exn → Process → Prop} {s : Process}

/-- A logger that is there is found. -/
theorem wlp_loggerGet (hlogger : s.logger = true) (h : Q () s) : wlp loggerGet Q E s := by
  refine wlp_bind.mpr (wlp_get.mpr (wlp_ite (fun hno => ?_) (fun _ => wlp_pure.mpr h)))
  rw [hlogger] at hno
  exact nomatch hno

/-- A logger is made where there is none, if its file can be opened. -/
theorem wlp_loggerInit {logPath : String} {unopened : Option Exn} (hlogger : s.logger = false)
    (hok : unopened = none → Q () { s with prep := makeFiles [logPath] s.prep, logger := true })
    (herror : ∀ e, unopened = some e → E e s) : wlp (loggerInit logPath unopened) Q E s := by
  refine wlp_bind.mpr (wlp_get.mpr (wlp_ite (fun hyes => ?_) (fun _ => ?_)))
  · rw [hlogger] at hyes
    exact nomatch hyes
  · cases unopened with
    | none => exact wlp_modify.mpr (hok rfl)
    | some e => exact wlp_throw.mpr (herror e rfl)

/-- The preparation sees no more of the process than its own part. -/
theorem wlp_onPreparation {α : Type} {x : Program Exn Preparation α} {Q : α → Process → Prop}
    (h : wlp x (fun a prep => Q a { s with prep := prep })
      (fun e prep => E e { s with prep := prep }) s.prep) : wlp (onPreparation x) Q E s :=
  wlp_zoom h

end Rules
/-! ## The phases -/

section Phases

variable {command : CommandLine} {answers : Answers} {jobs : List JobConfig} {s : Process}

section Rules

variable {E : Exn → Process → Prop}

/-- The directory is made, or the system refuses. -/
theorem wlp_setupOutputDirectory {Q : String → Process → Prop}
    (hok : Q (outputDirectory command answers jobs) s)
    (herror : ∀ e, answers.createDirectories = some e → E e s) :
    wlp (setupOutputDirectory command answers jobs) Q E s := by
  rw [setupOutputDirectory]
  cases hdir : answers.createDirectories with
  | some e => exact wlp_throw.mpr (herror e hdir)
  | none => exact wlp_pure.mpr hok

/-- The logger is shut down before it is made again. -/
theorem wlp_initLogging {Q : Unit → Process → Prop} {outputDir : String}
    (hok : Q () { s with
      prep := makeFiles [joinPath outputDir kLogName] s.prep
      logger := true
      loggingReady := true })
    (herror : ∀ e, answers.runLog = some e → E e { s with logger := false }) :
    wlp (initLogging answers outputDir) Q E s := by
  refine wlp_bind.mpr (wlp_modify.mpr (wlp_bind.mpr (wlp_loggerInit rfl (fun _ => ?_) herror)))
  exact wlp_modify.mpr hok

/-- The files are made, or the first failure is thrown. -/
theorem wlp_prepareFiles {Q : Unit → Process → Prop} (hlogger : s.logger = true)
    (hok : ∀ prep, exec (precreateFiles (jobs.zip answers.createCalls)) s.prep
      = some (.ok (), prep) → Q () { s with prep := prep })
    (herror : ∀ e prep, exec (precreateFiles (jobs.zip answers.createCalls)) s.prep
      = some (.error e, prep) → E e { s with prep := prep }) :
    wlp (prepareFiles answers jobs) Q E s := by
  refine wlp_bind.mpr (wlp_loggerGet hlogger (wlp_ite (fun _ => ?_) (fun _ => wlp_stuck)))
  exact wlp_onPreparation (wlp_mono (wlp_exec _ _) (fun _ => hok) herror)

/-- There is a worker for each job, or the first failure is thrown. -/
theorem wlp_makeWorkers {Q : List WorkerThread → Process → Prop} (hlogger : s.logger = true)
    (hok : ∀ workers, answers.opens.length = jobs.length →
      createWorkers answers.alloc (jobs.zip answers.opens) = .ok workers → Q workers s)
    (herror : ∀ e, createWorkers answers.alloc (jobs.zip answers.opens) = .error e → E e s) :
    wlp (makeWorkers answers jobs) Q E s := by
  refine wlp_bind.mpr (wlp_loggerGet hlogger (wlp_ite (fun hopens => ?_) (fun _ => wlp_stuck)))
  exact wlp_ofExcept.mpr ⟨fun workers => hok workers hopens, herror⟩

/-- The benchmark runs to its end, or throws. -/
theorem wlp_runBenchmark {Q : BenchmarkResults → Process → Prop} {workers : List WorkerThread}
    (hlogger : s.logger = true)
    (hok : ∀ r, answers.benchmark workers = .completed r → Q (r.results command)
      { s with anyWorkerFailed := r.joined.any WorkerThread.failed })
    (hdisplay : ∀ e, createDisplay [] command.uiBackend = .error e → E e s)
    (herror : ∀ e canTearDown, answers.benchmark workers = .threw e canTearDown →
      E e { s with canTearDown := canTearDown }) :
    wlp (runBenchmark command answers workers) Q E s := by
  refine wlp_bind.mpr (wlp_loggerGet hlogger (wlp_bind.mpr (wlp_ofExcept.mpr
    ⟨fun _ _ => ?_, hdisplay⟩)))
  cases hbench : answers.benchmark workers with
  | completed r => exact wlp_bind.mpr (wlp_modify.mpr (wlp_pure.mpr (hok r hbench)))
  | threw e canTearDown =>
      exact wlp_bind.mpr (wlp_modify.mpr (wlp_throw.mpr (herror e canTearDown hbench)))

/-- The documents in a directory. -/
def documents (outputDir : String) : List String :=
  [joinPath outputDir "summary.json", joinPath outputDir "timeseries.csv"]

/-- A stream that is open has made its file. -/
theorem made_subset (out : OutputFile) (path : String) :
    (if out.isOpen then [path] else []) ⊆ [path] := by
  cases out.isOpen with
  | true => exact List.Subset.refl _
  | false => exact List.nil_subset _

/-- A summary that was written had its file opened. -/
theorem isOpen_of_exportJson {dump : OrderedJson → String} {out : OutputFile}
    {results : BenchmarkResults} {outputDir text : String}
    (h : exportJson dump out results outputDir = .ok text) : out.isOpen = true := by
  obtain ⟨hopen, -⟩ := guard_ok_iff.mp h
  rw [Bool.not_eq_true', Bool.not_eq_false] at hopen
  exact hopen

/-- A time series that was written had its file opened. -/
theorem isOpen_of_exportCsv {out : OutputFile} {timeSeries : List MetricsSnapshot}
    {outputDir text : String} (h : exportCsv out timeSeries outputDir = .ok text) :
    out.isOpen = true := by
  obtain ⟨hopen, -⟩ := guard_ok_iff.mp h
  rw [Bool.not_eq_true', Bool.not_eq_false] at hopen
  exact hopen

/-- An export that throws may have made its file already. -/
theorem wlp_exportResults {Q : Unit → Process → Prop} {results : BenchmarkResults}
    {outputDir : String} (hlogger : s.logger = true)
    (hok : ∀ summary timeSeries,
      exportJson answers.dump answers.summaryFile results outputDir = .ok summary →
      exportCsv answers.timeSeriesFile results.timeSeries outputDir = .ok timeSeries →
      Q () { s with
        prep := makeFiles (documents outputDir) s.prep
        summary := some summary
        timeSeries := some timeSeries })
    (hsummary : ∀ e made, made ⊆ documents outputDir →
      exportJson answers.dump answers.summaryFile results outputDir = .error e →
      E e { s with prep := makeFiles made s.prep })
    (htimeSeries : ∀ e made summary, made ⊆ documents outputDir →
      exportCsv answers.timeSeriesFile results.timeSeries outputDir = .error e →
      E e { s with prep := makeFiles made s.prep, summary := some summary }) :
    wlp (exportResults answers results outputDir) Q E s := by
  refine wlp_bind.mpr (wlp_modify.mpr (wlp_bind.mpr (wlp_ofExcept.mpr
    ⟨fun summary hjson => ?_, fun e he => hsummary e _ ?_ he⟩)))
  · rw [if_pos (isOpen_of_exportJson hjson)]
    refine wlp_bind.mpr (wlp_modify.mpr (wlp_bind.mpr (wlp_loggerGet hlogger ?_)))
    refine wlp_bind.mpr (wlp_modify.mpr (wlp_bind.mpr (wlp_ofExcept.mpr
      ⟨fun timeSeries hcsv => ?_, fun e he => ?_⟩)))
    · rw [if_pos (isOpen_of_exportCsv hcsv)]
      exact wlp_bind.mpr (wlp_modify.mpr (wlp_loggerGet hlogger
        (hok summary timeSeries hjson hcsv)))
    · refine htimeSeries e (joinPath outputDir "summary.json" :: _) summary ?_ he
      exact List.cons_subset_cons _ (made_subset answers.timeSeriesFile _)
  · exact List.Subset.trans (made_subset _ _) (List.cons_subset_cons _ (List.nil_subset _))

/-- What may be removed is. -/
theorem wlp_cleanupFiles {Q : Unit → Process → Prop} (hlogger : s.logger = true)
    (hok : Q () { s with prep := cleanup answers.refused s.prep }) :
    wlp (cleanupFiles answers) Q E s := by
  have hrest : wlp (onPreparation (modify (cleanup answers.refused))) Q E s :=
    wlp_onPreparation (wlp_modify.mpr hok)
  refine wlp_bind.mpr (wlp_get.mpr (wlp_ite (fun _ => ?_) (fun _ => hrest)))
  exact wlp_bind.mpr (wlp_loggerGet hlogger hrest)

end Rules

/-! ## How a run of the orchestrator ends -/

/-- Why `Run` can stop.  No use of the logger is among the reasons. -/
inductive Reason (command : CommandLine) (answers : Answers) (jobs : List JobConfig)
    (e : Exn) : Prop
  | directory (h : answers.createDirectories = some e)
  | log (h : answers.runLog = some e)
  | file (h : ∃ job ∈ jobs.zip answers.createCalls, job.2.fails)
  | workers (h : createWorkers answers.alloc (jobs.zip answers.opens) = .error e)
  | display (h : createDisplay [] command.uiBackend = .error e)
  | benchmark (workers : List WorkerThread) (canTearDown : Bool)
      (h : answers.benchmark workers = .threw e canTearDown)
  | summary (results : BenchmarkResults)
      (h : exportJson answers.dump answers.summaryFile results
        (outputDirectory command answers jobs) = .error e)
  | timeSeries (results : BenchmarkResults)
      (h : exportCsv answers.timeSeriesFile results.timeSeries
        (outputDirectory command answers jobs) = .error e)

/-- The log of the run is made before the files of the jobs are. -/
def logged (command : CommandLine) (answers : Answers) (jobs : List JobConfig)
    (before : Preparation) : Preparation :=
  makeFiles [joinPath (outputDirectory command answers jobs) kLogName] before

/-- The files as a part of the run has left them: nothing was done, or the preparation was
    abandoned, or it went through and documents may have been written. -/
inductive Touched (command : CommandLine) (answers : Answers) (jobs : List JobConfig)
    (before : Preparation) : Preparation → Prop
  | untouched : Touched command answers jobs before before
  | abandoned {e : Exn} {after : Preparation}
      (h : exec (precreateFiles (jobs.zip answers.createCalls))
        (logged command answers jobs before) = some (.error e, after)) :
      Touched command answers jobs before after
  | prepared {mid : Preparation} (made : List String)
      (h : exec (precreateFiles (jobs.zip answers.createCalls))
        (logged command answers jobs before) = some (.ok (), mid))
      (hmade : made ⊆ documents (outputDirectory command answers jobs)) :
      Touched command answers jobs before (makeFiles made mid)

/-- `Run` was stopped by an exception. -/
structure Stopped (command : CommandLine) (answers : Answers) (jobs : List JobConfig)
    (s : Process) (e : Exn) (t : Process) : Prop where
  reason : Reason command answers jobs e
  stderr : t.stderr = s.stderr
  logging : t.loggingReady = true → t.logger = true
  unfinished : t.timeSeries = s.timeSeries
  touched : Touched command answers jobs s.prep t.prep

/-- `Run` went through. -/
structure Ran (command : CommandLine) (answers : Answers) (jobs : List JobConfig)
    (s : Process) (workers : List WorkerThread) (r : CompletedRun workers) (rc : Int32)
    (t : Process) : Prop where
  opens : answers.opens.length = jobs.length
  created : createWorkers answers.alloc (jobs.zip answers.opens) = .ok workers
  benchmark : answers.benchmark workers = .completed r
  failed : t.anyWorkerFailed = r.joined.any WorkerThread.failed
  code : rc = if t.anyWorkerFailed then EXIT_FAILURE else EXIT_SUCCESS
  stderr : t.stderr = s.stderr
  prepared : ∃ prep, exec (precreateFiles (jobs.zip answers.createCalls))
      (logged command answers jobs s.prep) = some (.ok (), prep) ∧
    t.prep = cleanup answers.refused
      (makeFiles (documents (outputDirectory command answers jobs)) prep)
  summary : ∃ text, t.summary = some text ∧ exportJson answers.dump answers.summaryFile
    (r.results command) (outputDirectory command answers jobs) = .ok text
  timeSeries : ∃ text, t.timeSeries = some text ∧ exportCsv answers.timeSeriesFile
    (r.results command).timeSeries (outputDirectory command answers jobs) = .ok text

/-- A job is to blame when the preparation throws. -/
theorem fails_of_precreate_error {pairs : List (JobConfig × CreateCalls)} {e : Exn}
    {s t : Preparation} (h : exec (precreateFiles pairs) s = some (.error e, t)) :
    ∃ job ∈ pairs, job.2.fails := by
  have hwlp : wlp (precreateFiles pairs) (fun _ _ => True)
      (fun _ _ => ∃ job ∈ pairs, job.2.fails) s := by
    refine wlp_forM (I := fun _ _ => True) (fun done job rest u hpairs _ => ?_) trivial
    refine wlp_mono (wlp_createAndFill job.1 job.2 u) (fun _ _ _ => trivial) ?_
    intro _ v habandoned
    refine ⟨job, hpairs ▸ List.mem_append_right _ (List.mem_cons_self ..), ?_⟩
    rcases habandoned.files with ⟨hopen, -⟩ | ⟨-, hfill, -⟩
    · exact .inl hopen
    · exact .inr hfill
  exact hwlp _ h

/-- **Everything `Run` can do** before its handler. -/
theorem wlp_runPhases (hready : s.loggingReady = false) :
    wlp (runPhases command answers jobs)
      (fun rc t => ∃ workers r, Ran command answers jobs s workers r rc t)
      (fun e t => Stopped command answers jobs s e t) s := by
  have hnotReady {p : Prop} (h : s.loggingReady = true) : p := nomatch hready.symm.trans h
  refine wlp_bind.mpr (wlp_setupOutputDirectory ?_ fun e he =>
    ⟨.directory he, rfl, hnotReady, rfl, .untouched⟩)
  refine wlp_bind.mpr (wlp_initLogging ?_ fun e he => ⟨.log he, rfl, hnotReady, rfl, .untouched⟩)
  -- from here on there is a logger
  refine wlp_bind.mpr (wlp_loggerGet rfl (wlp_bind.mpr ?_))
  refine wlp_prepareFiles rfl (fun prep hprep => ?_) fun e prep hprep =>
    ⟨.file (fails_of_precreate_error hprep), rfl, fun _ => rfl, rfl, .abandoned hprep⟩
  have hprepared : Touched command answers jobs _ _ := .prepared [] hprep (List.nil_subset _)
  refine wlp_bind.mpr (wlp_makeWorkers rfl (fun workers hopens hworkers => ?_) fun e he =>
    ⟨.workers he, rfl, fun _ => rfl, rfl, hprepared⟩)
  refine wlp_bind.mpr (wlp_runBenchmark rfl (fun r hbench => ?_)
    (fun e he => ⟨.display he, rfl, fun _ => rfl, rfl, hprepared⟩)
    fun e c he => ⟨.benchmark workers c he, rfl, fun _ => rfl, rfl, hprepared⟩)
  refine wlp_bind.mpr (wlp_exportResults rfl (fun summary timeSeries hjson hcsv => ?_)
    (fun e made hmade he => ⟨.summary _ he, rfl, fun _ => rfl, rfl, .prepared made hprep hmade⟩)
    fun e made _ hmade he =>
      ⟨.timeSeries _ he, rfl, fun _ => rfl, rfl, .prepared made hprep hmade⟩)
  refine wlp_bind.mpr (wlp_cleanupFiles rfl (wlp_bind.mpr (wlp_get.mpr (wlp_pure.mpr ?_))))
  exact ⟨workers, r, hopens, hworkers, hbench, rfl, rfl, rfl, ⟨prep, hprep, rfl⟩,
    ⟨summary, rfl, hjson⟩, ⟨timeSeries, rfl, hcsv⟩⟩

end Phases

/-! ## How the program ends -/

section Main

variable {command : CommandLine} {answers : Answers} {files : Files String} {t : Process}

/-- The line on the standard error. -/
def errorLine (what : String) : String := "C-FIO: error: " ++ what ++ "\n"

/-- The handler writes its line, and fails on what is no `std::exception`. -/
theorem wlp_reportError {Q : Int32 → Process → Prop} {E : Exn → Process → Prop} {s : Process}
    {e : Exn} {also : Prog Unit}
    (hok : ∀ what, e.what = some what → wlp also (fun _ => Q EXIT_FAILURE) E
      { s with stderr := s.stderr ++ [errorLine what] })
    (herror : e.what = none → E e s) : wlp (reportError e also) Q E s := by
  rw [reportError]
  cases hwhat : e.what with
  | none => exact wlp_throw.mpr (herror hwhat)
  | some what =>
      refine wlp_bind.mpr (wlp_modify.mpr (wlp_bind.mpr ?_))
      exact wlp_mono (hok what hwhat) (fun _ _ h => wlp_pure.mpr h) (fun _ _ h => h)

/-- An exception that reached the handler of `Run`. -/
structure Handled (command : CommandLine) (answers : Answers) (jobs : List JobConfig)
    (s : Process) (t : Process) (e : Exn) (what : String) (u : Process) : Prop where
  stopped : Stopped command answers jobs s e u
  text : e.what = some what
  state : t = { u with stderr := u.stderr ++ [errorLine what] }

/-- `Run` goes through, or handles the exception. -/
theorem wlp_orchestratorRun {jobs : List JobConfig} {s : Process}
    (hready : s.loggingReady = false) :
    wlp (orchestratorRun command answers jobs)
      (fun rc t => (∃ workers r, Ran command answers jobs s workers r rc t) ∨
        (rc = EXIT_FAILURE ∧ ∃ e what u, Handled command answers jobs s t e what u))
      (fun e _ => e.what = none) s := by
  refine wlp_tryCatch (wlp_mono (wlp_runPhases hready) (fun _ _ h => .inl h) ?_)
  intro e u hstopped
  refine wlp_reportError (fun what hwhat => ?_) id
  refine wlp_bind.mpr (wlp_get.mpr (wlp_ite (fun hlogging => ?_) (fun _ => ?_)))
  · refine wlp_loggerGet (hstopped.logging hlogging) (.inr ⟨rfl, e, what, u, ?_⟩)
    exact ⟨hstopped, hwhat, rfl⟩
  · exact wlp_pure.mpr (.inr ⟨rfl, e, what, u, hstopped, hwhat, rfl⟩)

/-- The process as `main` hands it to the orchestrator. -/
def Process.started (command : CommandLine) (files : Files String) : Process :=
  { prep := makeFiles [kLogName] ⟨files, .new command.keepFiles⟩, logger := true }

/-- What is left when the orchestrator has been destroyed. -/
def Process.destroyed (answers : Answers) (s : Process) : Process :=
  { s with logger := false, prep := destroy answers.refused s.prep }

/-- The process has come to an end. -/
inductive Ended (command : CommandLine) (answers : Answers) (files : Files String)
    (rc : Int32) (t : Process) : Prop
  /-- the configuration was rejected, and nothing done but to make a log -/
  | rejected {e : Exn} {what : String}
      (hload : loadJobs answers.texts command.configPath command.overrides answers.config
        = .error e)
      (hwhat : e.what = some what)
      (hcode : rc = EXIT_FAILURE)
      (hstate : t = { Process.start files with
        prep := makeFiles [kLogName] (Process.start files).prep
        stderr := [errorLine what] })
  /-- `Run` was stopped -/
  | stopped {jobs : List JobConfig} {e : Exn} {what : String} {u v : Process}
      (hload : loadJobs answers.texts command.configPath command.overrides answers.config
        = .ok jobs)
      (hhandled : Handled command answers jobs (.started command files) v e what u)
      (hcode : rc = EXIT_FAILURE)
      (hstate : t = v.destroyed answers)
  /-- `Run` went through -/
  | ran {jobs : List JobConfig} {workers : List WorkerThread} {r : CompletedRun workers}
      {u : Process}
      (hload : loadJobs answers.texts command.configPath command.overrides answers.config
        = .ok jobs)
      (hran : Ran command answers jobs (.started command files) workers r rc u)
      (hstate : t = u.destroyed answers)

/-- **Everything the program can do.** -/
theorem wlp_main :
    wlp (main command answers) (Ended command answers files)
      (fun e _ => answers.mainLog = some e ∨ e.what = none) (Process.start files) := by
  refine wlp_bind.mpr (wlp_loggerInit rfl (fun _ => ?_) (fun e he => .inl he))
  refine wlp_bind.mpr (wlp_loggerGet rfl ?_)
  cases hload : loadJobs answers.texts command.configPath command.overrides answers.config with
  | error e =>
      refine wlp_reportError (fun what hwhat => wlp_modify.mpr ?_) .inr
      exact .rejected hload hwhat rfl rfl
  | ok jobs =>
      refine wlp_bind.mpr (wlp_modify.mpr (wlp_bind.mpr ?_))
      refine wlp_mono (wlp_orchestratorRun rfl) ?_ (fun _ _ h => .inr h)
      intro rc u hend
      refine wlp_bind.mpr (wlp_modify.mpr (wlp_bind.mpr (wlp_get.mpr (wlp_ite
        (fun _ => wlp_bind.mpr wlp_stuck) (fun _ => ?_)))))
      refine wlp_bind.mpr (wlp_onPreparation (wlp_modify.mpr (wlp_pure.mpr ?_)))
      rcases hend with ⟨workers, r, hran⟩ | ⟨hcode, e, what, v, hhandled⟩
      · exact .ran hload hran rfl
      · exact .stopped hload hhandled hcode rfl

end Main

/-! ## A small run -/

/-- A job that reads one byte. -/
def tinyJson : JsonObject := fun key =>
  [("name", JsonValue.string "tiny"), ("engine", .string "psync"), ("rw", .string "read"),
    ("bs", .string "1"), ("size", .string "1"), ("align", .string "1")].lookup key

/-- A job that writes to a file of the user. -/
def dataJson : JsonObject := fun key =>
  [("name", JsonValue.string "second"), ("engine", .string "psync"), ("rw", .string "write"),
    ("bs", .string "2"), ("size", .string "4"), ("align", .string "1"),
    ("filename", .string "data")].lookup key

/-- A step of a worker with nothing of note from outside. -/
def tinyWork (i : Fin 2) : BenchmarkAct (fun _ : Fin 2 => List CfioEngine.SyscallOutcome) :=
  .work i { kernel := [] }

/-- The workers of a run are through the barrier, and the user stops the run. -/
def tinySteps : List (BenchmarkAct (fun _ : Fin 2 => List CfioEngine.SyscallOutcome)) :=
  [.proceed false false, .arrive ⟨0, Nat.two_pos⟩, .proceed false false,
    .arrive ⟨1, Nat.one_lt_two⟩, .proceed false false, .proceed true false, .proceed true false,
    tinyWork ⟨0, Nat.two_pos⟩, tinyWork ⟨1, Nat.one_lt_two⟩, tinyWork ⟨1, Nat.one_lt_two⟩,
    tinyWork ⟨0, Nat.two_pos⟩, .proceed false false, .proceed false false, .proceed false false,
    .proceed false false]

/-- That run, for two workers. -/
def tinyBenchmark : ∀ workers, BenchmarkEnd workers
  | [first, second] =>
      match hrun : run (benchmarkStep fun _ : Fin 2 => CfioSyncEngines.psyncEngine)
          (BenchmarkRun.init [first, second].get fun _ => {}) tinySteps with
      | some final =>
          if hmain : final.main = .building then
            .completed {
              engines := fun _ => CfioSyncEngines.psyncEngine
              opened := fun _ => {}
              steps := tinySteps
              final := final
              ran := hrun
              building := hmain
              interrupted := true
              timestamp := "2026-01-01T00:00:00Z"
              startTime := 0
              endTime := 1000000000
              now := 0
              timeSeries := []
              clock := by decide }
          else .threw .badAlloc true
      | none => .threw .badAlloc true
  | _ => .threw .badAlloc true

/-- What the system answers to it.  The file of the user is not opened with O_DIRECT. -/
def tinyAnswers : Answers where
  texts := ⟨fun _ => "", "", fun _ => ""⟩
  config := ⟨.document (.object (some (.array [.object tinyJson, .object dataJson]))),
    .unopened ""⟩
  localTimestamp := "20260101T000000"
  createCalls :=
    [{ openCall := { fd := 3 }, rng := fun _ => 0, writes := [[[{ result := 1 }]]] },
      { openCall := { fd := 3 }, rng := fun _ => 0
        writes := [[[{ result := 3 }], [{ result := 1 }]]] }]
  alloc := CfioBufferPool.arenaAlloc
  opens := [{ first := ⟨3, 0⟩ }, { first := ⟨-1, EINVAL⟩, second := ⟨4, 0⟩ }]
  benchmark := tinyBenchmark
  dump := dumpIndented

def tinyCommand : CommandLine := { configPath := "tiny.json" }

/-- The file of the user. -/
def dataFile : Files String := fun path => if path = "data" then some {} else none

/-- Two jobs run to success, and the file that was made for the first is gone. -/
theorem tiny_succeeds :
    ∃ t, exec (main tinyCommand tinyAnswers) (Process.start dataFile)
      = some (.ok EXIT_SUCCESS, t) ∧ t.stderr = []
        ∧ t.prep.files.exists "./cfio-tiny.dat" = false := by
  have h : (exec (main tinyCommand tinyAnswers) (Process.start dataFile)).map
      (fun r => (r.1, r.2.stderr, r.2.prep.files.exists "./cfio-tiny.dat"))
        = some (.ok EXIT_SUCCESS, [], false) := by
    decide +kernel
  obtain ⟨⟨r, t⟩, hr, hat⟩ := Option.map_eq_some_iff.mp h
  simp only [Prod.mk.injEq] at hat
  obtain ⟨rfl, hstderr, hremoved⟩ := hat
  exact ⟨t, hr, hstderr, hremoved⟩

end CfioProgram
