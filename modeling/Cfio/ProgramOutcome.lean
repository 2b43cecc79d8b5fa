import Cfio.ProgramRun

/-! # What comes of a run of the program

    Three things a user relies on, whatever is in the configuration file and whatever the
    system answers.  The exit code and the one line on the standard error say what happened
    (`main_exits`).  A run that succeeds has left a summary of the jobs that the
    configuration file describes (`main_reports`).  And the files of the user are still
    there, with no others beside them but the logs and the documents unless something went
    wrong (`main_files`). -/

namespace CfioProgram

open CfioTypes CfioConfig CfioDisplayContext CfioFilePreparator CfioWorkerThread
open CfioHistogram CfioOrchestrator CfioMetrics CfioReporting Fallible FileSystem Transition Checks

/-! ## What the user can tell -/

section Report

variable {command : CommandLine} {answers : Answers} {files : Files String} {t : Process}

/-- What an exit code and the standard error say. -/
structure Report (command : CommandLine) (answers : Answers) (rc : Int32) (t : Process) :
    Prop where
  /-- a run without an error line that no worker failed in, and only that, is a success -/
  code : rc = if t.stderr = [] ∧ t.anyWorkerFailed = false then EXIT_SUCCESS else EXIT_FAILURE
  /-- there is no error line just when both documents were written -/
  silent : t.stderr = [] ↔ t.summary.isSome = true ∧ t.timeSeries.isSome = true
  /-- there is one line at most, with the text of what went wrong -/
  line : t.stderr ≠ [] → ∃ e what, t.stderr = [errorLine what] ∧ e.what = some what ∧
    (loadJobs answers.texts command.configPath command.overrides answers.config = .error e ∨
      ∃ jobs, loadJobs answers.texts command.configPath command.overrides answers.config
        = .ok jobs ∧ Reason command answers jobs e)
  /-- the log has been flushed and closed -/
  logger : t.logger = false

theorem Ended.report {rc : Int32} (h : Ended command answers files rc t) :
    Report command answers rc t := by
  cases h with
  | @rejected e what hload hwhat hcode hstate =>
      subst hstate
      refine ⟨?_, ?_, fun _ => ⟨e, what, rfl, hwhat, .inl hload⟩, rfl⟩
      · rw [hcode, if_neg (fun h => List.cons_ne_nil _ _ h.1)]
      · exact ⟨nofun, nofun⟩
  | @stopped jobs e what u v hload hhandled hcode hstate =>
      have hv := hhandled.state
      have hstopped := hhandled.stopped
      have hstderr : t.stderr = [errorLine what] := by
        rw [hstate, hv]
        show u.stderr ++ [errorLine what] = _
        rw [hstopped.stderr]
        rfl
      have htimeSeries : t.timeSeries = none := by
        rw [hstate, hv]
        exact hstopped.unfinished
      refine ⟨?_, ?_, fun _ => ⟨e, what, hstderr, hhandled.text, .inr ⟨jobs, hload,
        hstopped.reason⟩⟩, by rw [hstate]; rfl⟩
      · rw [hcode, hstderr, if_neg (fun h => List.cons_ne_nil _ _ h.1)]
      · rw [hstderr, htimeSeries]
        exact ⟨nofun, nofun⟩
  | @ran jobs workers r u hload hran hstate =>
      obtain ⟨summary, hsummary, -⟩ := hran.summary
      obtain ⟨timeSeries, htimeSeries, -⟩ := hran.timeSeries
      have hstderr : t.stderr = [] := by
        rw [hstate]
        exact hran.stderr
      have hboth : t.summary.isSome = true ∧ t.timeSeries.isSome = true := by
        rw [hstate]
        exact ⟨congrArg Option.isSome hsummary, congrArg Option.isSome htimeSeries⟩
      refine ⟨?_, ⟨fun _ => hboth, fun _ => hstderr⟩, fun hne => absurd hstderr hne,
        by rw [hstate]; rfl⟩
      have hfailed : t.anyWorkerFailed = u.anyWorkerFailed := by
        rw [hstate]
        rfl
      rw [hran.code, hstderr, hfailed]
      cases u.anyWorkerFailed <;> rfl

end Report

/-! ## What a successful run leaves -/

section Reports

variable {command : CommandLine} {answers : Answers} {files : Files String} {t : Process}
variable {workers : List WorkerThread}

/-- The workers have the jobs they were made for. -/
theorem createWorkers_config {alloc : CfioBufferPool.Allocator}
    {calls : List (JobConfig × OpenAnswers)} (h : createWorkers alloc calls = .ok workers) :
    workers.map WorkerThread.config = calls.map Prod.fst := by
  induction calls generalizing workers with
  | nil =>
      rw [← Except.ok.inj h]
      rfl
  | cons call calls ih =>
      obtain ⟨job, answers⟩ := call
      obtain ⟨engine, -, h⟩ := bind_ok_iff.mp h
      obtain ⟨worker, hworker, h⟩ := bind_ok_iff.mp h
      obtain ⟨rest, hrest, h⟩ := bind_ok_iff.mp h
      obtain ⟨pool, -, hworker⟩ := bind_ok_iff.mp hworker
      obtain ⟨direct, -, hworker⟩ := bind_ok_iff.mp hworker
      rw [← Except.ok.inj h, List.map_cons, List.map_cons, ih hrest, ← Except.ok.inj hworker]

/-- A worker keeps what its engine said after `Open`. -/
theorem effect_direct {σ κ : Type*} {E : Engine σ κ} {running running' : Bool}
    {w w' : Worker σ} {env : Env κ} {direct : Bool} (hi : w.thread.directEffective = direct)
    (h : Effect E running w env running' w') : w'.thread.directEffective = direct := by
  cases h with
  | accepted next request thread engine hs hgen hsub =>
      obtain ⟨slot, rest, -, -, rfl⟩ := generate_cases hgen
      exact hi
  | rejected next request thread engine e hs hgen hsub =>
      obtain ⟨slot, rest, -, -, rfl⟩ := generate_cases hgen
      exact hi
  | _ => exact hi

/-- What every worker keeps is the same when they have been joined. -/
theorem CompletedRun.joined_map (r : CompletedRun workers) {α : Type} (f : WorkerThread → α)
    (hkeeps : ∀ i, f (r.final.workers i).thread = f (workers.get i)) :
    r.joined.map f = workers.map f := by
  rw [CompletedRun.joined, List.map_ofFn]
  conv_rhs => rw [← List.ofFn_get workers, List.map_ofFn]
  exact congrArg List.ofFn (funext hkeeps)

theorem CompletedRun.joined_config (r : CompletedRun workers) :
    r.joined.map WorkerThread.config = workers.map WorkerThread.config :=
  r.joined_map _ (benchmark_workers (I := fun i w => w.thread.config = (workers.get i).config)
    (fun _ _ _ _ _ _ hw he => effect_config hw he) r.ran (fun _ => rfl))

theorem CompletedRun.joined_direct (r : CompletedRun workers) :
    r.joined.map WorkerThread.directEffective = workers.map WorkerThread.directEffective :=
  r.joined_map _ (benchmark_workers
    (I := fun i w => w.thread.directEffective = (workers.get i).directEffective)
    (fun _ _ _ _ _ _ hw he => effect_direct hw he) r.ran (fun _ => rfl))

/-- No clock measures longer than its range. -/
theorem CompletedRun.elapsed_mem (r : CompletedRun workers) (command : CommandLine) :
    0 ≤ (r.results command).elapsedSeconds ∧
      (r.results command).elapsedSeconds ≤ kMaxElapsed := by
  have hspan (time : TimePoint) (htime : time ∈ [r.startTime, r.endTime, r.now]) :
      CfioMetrics.elapsedSeconds r.startTime time ≤ kMaxElapsed := by
    have hstart := (r.clock r.startTime (List.mem_cons_self ..)).1
    have hend := (r.clock time htime).2
    have hdiff : ((time - r.startTime : Int) : ℚ) ≤ ((2 ^ 63 : Int) : ℚ) :=
      Int.cast_le.mpr (Int.le_trans (Int.sub_le_self time hstart) (Int.le_of_lt hend))
    rw [CfioMetrics.elapsedSeconds, kMaxElapsed, kMinElapsed]
    refine max_le ?_ (by norm_num)
    push_cast at hdiff ⊢
    linarith
  have hresults : (r.results command).elapsedSeconds
      = CfioMetrics.elapsedSeconds r.startTime
          (if r.endTime > r.startTime then r.endTime else r.now) := rfl
  rw [hresults]
  constructor
  · exact le_trans (by norm_num [kMinElapsed]) (le_max_right _ _)
  · refine hspan _ ?_
    split <;> simp

/-- The summary tells of these jobs: their names, what they were to do, whether their files
    were opened with O_DIRECT, and that none failed; and of the command line. -/
structure Tells (command : CommandLine) (jobs : List JobConfig) (opens : List OpenAnswers)
    (summary : Summary) : Prop where
  names : summary.jobs.map JobSummary.name = jobs.map JobConfig.name
  configs : summary.jobs.map JobSummary.config = jobs.map configSummary
  direct : summary.jobs.map (fun job => job.results.directEffective)
    = (jobs.zip opens).map granted
  failed : ∀ job ∈ summary.jobs, job.results.failed = false
  runtime : summary.runtimeSeconds = command.runtimeSeconds.toInt
  engineOverride : summary.engineOverride = command.overrides.engineOverride
  directOverride : summary.directOverride = command.overrides.directOverride

theorem tells_of_ran {jobs : List JobConfig} {s : Process} {r : CompletedRun workers}
    {rc : Int32} (h : Ran command answers jobs s workers r rc t)
    (hfailed : t.anyWorkerFailed = false) :
    Tells command jobs answers.opens (summaryOf (r.results command)) := by
  have hjobs : (jobs.zip answers.opens).map Prod.fst = jobs :=
    List.map_fst_zip (Nat.le_of_eq h.opens.symm)
  have hconfig : r.joined.map WorkerThread.config = jobs := by
    rw [r.joined_config, createWorkers_config h.created, hjobs]
  have hdirect : r.joined.map WorkerThread.directEffective
      = (jobs.zip answers.opens).map granted := by
    rw [r.joined_direct, createWorkers_granted h.created]
  have hsummary : (summaryOf (r.results command)).jobs = r.joined.map (fun worker =>
      jobSummary (jobResults exactRank (r.results command).elapsedSeconds worker)) :=
    List.map_map
  refine ⟨?_, ?_, ?_, ?_, rfl, rfl, rfl⟩
  · rw [hsummary, List.map_map, ← hconfig, List.map_map]
    rfl
  · rw [hsummary, List.map_map, ← hconfig, List.map_map]
    rfl
  · rw [hsummary, List.map_map, ← hdirect]
    rfl
  · intro job hjob
    rw [hsummary] at hjob
    obtain ⟨worker, hworker, rfl⟩ := List.mem_map.mp hjob
    rw [h.failed, List.any_eq_false] at hfailed
    exact Bool.eq_false_iff.mpr (hfailed worker hworker)

end Reports

/-! ## What happens to the files -/

section FilesAfter

variable {command : CommandLine} {answers : Answers} {files : Files String} {t : Process}
variable {jobs : List JobConfig} {pairs : List (JobConfig × CreateCalls)}
variable {before after s : Preparation} {path : String}

/-- The files a run with these jobs writes of its own: a log in the working directory, and in
    the output directory a log and the documents. -/
def ownPaths (command : CommandLine) (answers : Answers) (jobs : List JobConfig) : List String :=
  kLogName :: joinPath (outputDirectory command answers jobs) kLogName
    :: documents (outputDirectory command answers jobs)

/-- The files the program writes of its own; just the first log if it has no jobs to run. -/
def ownFiles (command : CommandLine) (answers : Answers) : List String :=
  match loadJobs answers.texts command.configPath command.overrides answers.config with
  | .error _ => [kLogName]
  | .ok jobs => ownPaths command answers jobs

theorem exists_makeFiles {paths : List String} :
    (makeFiles paths s).files.exists path = true ↔
      path ∈ paths ∨ s.files.exists path = true :=
  Files.exists_truncate s.files paths path

/-- The preparation, whatever comes of it, keeps what the call for each job keeps. -/
theorem precreate_keeps {I : Preparation → Prop} {r : Except Exn Unit}
    (hstep : ∀ job ∈ pairs, ∀ s u, I s →
      prepStep s (.createAndFill job.1 job.2) = some u → I u)
    (hbefore : I before) (h : exec (precreateFiles pairs) before = some (r, after)) : I after := by
  have hwlp : wlp (precreateFiles pairs) (fun _ u => I u) (fun _ u => I u) before := by
    refine wlp_forM (I := fun _ u => I u) (fun done job rest s hpairs hs => ?_) hbefore
    rintro ⟨q, u⟩ hq
    have hjob : job ∈ pairs := hpairs ▸ List.mem_append_right _ (List.mem_cons_self ..)
    have hu : I u := hstep job hjob s u hs (congrArg (Option.map Prod.snd) hq)
    cases q with
    | ok _ => exact hu
    | error _ => exact hu
  have hafter := hwlp (r, after) h
  cases r with
  | ok _ => exact hafter
  | error _ => exact hafter

/-! ### The files of the user -/

theorem safe_makeFiles {paths : List String} (h : UserFilesSafe files s) :
    UserFilesSafe files (makeFiles paths s) :=
  ⟨fun path hpath => exists_makeFiles.mpr (.inr (h.present path hpath)), h.tracked⟩

/-- A part of the run keeps the files of the user safe. -/
theorem Touched.safe (h : Touched command answers jobs before after)
    (hbefore : UserFilesSafe files before) : UserFilesSafe files after := by
  have hrun {r : Except Exn Unit} {mid : Preparation}
      (hexec : exec (precreateFiles (jobs.zip answers.createCalls))
        (logged command answers jobs before) = some (r, mid)) : UserFilesSafe files mid :=
    precreate_keeps (fun job _ s u hs hu => prepStep_safe hs hu) (safe_makeFiles hbefore) hexec
  cases h with
  | untouched => exact hbefore
  | abandoned hexec => exact hrun hexec
  | prepared made hexec hmade => exact safe_makeFiles (hrun hexec)

/-- The files of the user are there when the process ends. -/
theorem Ended.safe {rc : Int32} (h : Ended command answers files rc t) :
    UserFilesSafe files t.prep := by
  have hstart {keepFiles : Bool} : UserFilesSafe files ⟨files, .new keepFiles⟩ :=
    ⟨fun _ hp => hp, fun _ hp => nomatch hp⟩
  cases h with
  | rejected hload hwhat hcode hstate =>
      rw [hstate]
      exact safe_makeFiles hstart
  | @stopped jobs e what u v hload hhandled hcode hstate =>
      have hu : UserFilesSafe files u.prep :=
        hhandled.stopped.touched.safe (safe_makeFiles hstart)
      rw [hstate, hhandled.state]
      exact @prepStep_safe files _ _ (.destroy answers.refused) hu rfl
  | @ran jobs workers r u hload hran hstate =>
      obtain ⟨prep, hprep, hu⟩ := hran.prepared
      have htouched : Touched command answers jobs _ _ :=
        .prepared _ hprep (List.Subset.refl _)
      have hmid : UserFilesSafe files _ := htouched.safe (safe_makeFiles hstart)
      have hclean := @prepStep_safe files _ _ (.cleanup answers.refused) hmid rfl
      rw [← hu] at hclean
      rw [hstate]
      exact @prepStep_safe files _ _ (.destroy answers.refused) hclean rfl

/-! ### What is left -/

/-- What a failed preparation leaves is the file of the job that failed. -/
theorem left_of_abandoned {done : List (JobConfig × CreateCalls)} {job : JobConfig × CreateCalls}
    (h : AllTracked files done before) (ha : Abandoned job.1 job.2 before after)
    (hpath : (destroy (fun _ => false) after).files.exists path = true) :
    files.exists path = true ∨ (job.2.fillFails ∧ job.1.filename = path) := by
  have hkeep : after.prep.keepFiles = false := by
    rw [ha.prep]
    exact h.keepFiles
  have hclean : after.prep.cleaned = false := by
    rw [ha.prep]
    exact h.cleaned
  rw [destroy_exists hkeep hclean, ha.prep] at hpath
  obtain ⟨hexists, huntracked⟩ := hpath
  have hold (hbefore : before.files.exists path = true) : files.exists path = true := by
    refine h.nothingLeft path ?_
    rw [destroy_exists h.keepFiles h.cleaned]
    exact ⟨hbefore, huntracked⟩
  rcases ha.files with ⟨-, hsame⟩ | ⟨-, hfill, f, k, hstore, -⟩
  · rw [hsame] at hexists
    exact .inl (hold hexists)
  · rw [hstore, Files.exists_store] at hexists
    rcases hexists with rfl | hbefore
    · exact .inr ⟨hfill, rfl⟩
    · exact .inl (hold hbefore)

/-- What a complete preparation leaves, when files were made behind it, is these files. -/
theorem left_of_tracked {done : List (JobConfig × CreateCalls)} {made : List String}
    (h : AllTracked files done s)
    (hpath : (destroy (fun _ => false) (makeFiles made s)).files.exists path = true) :
    path ∈ made ∨ files.exists path = true := by
  have hkeep : (makeFiles made s).prep.keepFiles = false := h.keepFiles
  have hclean : (makeFiles made s).prep.cleaned = false := h.cleaned
  rw [destroy_exists hkeep hclean, exists_makeFiles] at hpath
  obtain ⟨hmade | hexists, huntracked⟩ := hpath
  · exact .inl hmade
  · refine .inr (h.nothingLeft path ?_)
    rw [destroy_exists h.keepFiles h.cleaned]
    exact ⟨hexists, huntracked⟩

/-- The files there are before the first job is prepared. -/
theorem exists_logged (h : (logged command answers jobs
    (makeFiles [kLogName] ⟨files, .new false⟩)).files.exists path = true) :
    files.exists path = true ∨ path ∈ ownPaths command answers jobs := by
  rw [logged, exists_makeFiles, exists_makeFiles, List.mem_singleton, List.mem_singleton] at h
  rcases h with rfl | rfl | hold
  · exact .inr (List.mem_cons_of_mem _ (List.mem_cons_self ..))
  · exact .inr (List.mem_cons_self ..)
  · exact .inl hold

/-- What a run with a complete preparation leaves. -/
theorem left_of_prepared {mid : Preparation} {made : List String}
    (h : exec (precreateFiles (jobs.zip answers.createCalls)) (logged command answers jobs
      (makeFiles [kLogName] ⟨files, .new false⟩)) = some (.ok (), mid))
    (hmade : made ⊆ documents (outputDirectory command answers jobs))
    (hpath : (destroy (fun _ => false) (makeFiles made mid)).files.exists path = true) :
    files.exists path = true ∨ path ∈ ownPaths command answers jobs := by
  have htracked : AllTracked _ _ mid := wlp_precreateFiles_tracked _ _ _ h
  rcases left_of_tracked htracked hpath with hnew | hold
  · exact .inr (List.mem_cons_of_mem _ (List.mem_cons_of_mem _ (hmade hnew)))
  · exact exists_logged hold

/-- What a part of the run leaves when the preparator has been destroyed: the files that had
    been there, its own, and maybe that of a job that could not be prepared. -/
theorem Touched.left
    (h : Touched command answers jobs (makeFiles [kLogName] ⟨files, .new false⟩) after)
    (hpath : (destroy (fun _ => false) after).files.exists path = true) :
    files.exists path = true ∨ path ∈ ownPaths command answers jobs ∨
      ∃ job ∈ answers.createCalls, job.fillFails := by
  cases h with
  | untouched =>
      rw [destroy_exists rfl rfl, exists_makeFiles, List.mem_singleton] at hpath
      rcases hpath.1 with rfl | hold
      · exact .inr (.inl (List.mem_cons_self ..))
      · exact .inl hold
  | abandoned hexec =>
      obtain ⟨done, job, rest, mid, hpairs, htracked, habandoned⟩ :=
        wlp_precreateFiles_tracked _ _ _ hexec
      rcases left_of_abandoned htracked habandoned hpath with hold | ⟨hfill, -⟩
      · exact (exists_logged hold).imp_right .inl
      · have hjob : job ∈ jobs.zip answers.createCalls := by
          rw [hpairs]
          exact List.mem_append_right _ (List.mem_cons_self ..)
        exact .inr (.inr ⟨job.2, (List.of_mem_zip hjob).2, hfill⟩)
  | prepared made hexec hmade => exact (left_of_prepared hexec hmade hpath).imp_right .inl

/-- What is left when nothing is to be kept and every removal succeeds. -/
theorem Ended.left {rc : Int32} (hkeep : command.keepFiles = false)
    (hrefused : answers.refused = fun _ => false) (h : Ended command answers files rc t)
    (hpath : t.prep.files.exists path = true) :
    files.exists path = true ∨ path ∈ ownFiles command answers ∨
      (t.stderr ≠ [] ∧ ∃ job ∈ answers.createCalls, job.fillFails) := by
  cases h with
  | rejected hload hwhat hcode hstate =>
      rw [hstate] at hpath
      rw [ownFiles, hload]
      rcases exists_makeFiles.mp hpath with hlog | hold
      · exact .inr (.inl hlog)
      · exact .inl hold
  | @stopped jobs e what u v hload hhandled hcode hstate =>
      have hstderr : t.stderr ≠ [] := by
        rw [hstate, hhandled.state]
        exact List.append_ne_nil_of_right_ne_nil _ (List.cons_ne_nil _ _)
      have hdestroy : t.prep = destroy (fun _ => false) u.prep := by
        rw [hstate, hhandled.state, ← hrefused]
        rfl
      have htouched := hhandled.stopped.touched
      rw [Process.started, hkeep] at htouched
      rw [hdestroy] at hpath
      rw [ownFiles, hload]
      rcases htouched.left hpath with hold | hown | hfill
      · exact .inl hold
      · exact .inr (.inl hown)
      · exact .inr (.inr ⟨hstderr, hfill⟩)
  | @ran jobs workers r u hload hran hstate =>
      obtain ⟨prep, hprep, hu⟩ := hran.prepared
      rw [Process.started, hkeep] at hprep
      have htracked : AllTracked _ _ prep := wlp_precreateFiles_tracked _ _ _ hprep
      have hdestroy : t.prep.files = (destroy (fun _ => false)
          (makeFiles (documents (outputDirectory command answers jobs)) prep)).files := by
        have hcleanup := destroy_cleanup (t := makeFiles
          (documents (outputDirectory command answers jobs)) prep) htracked.keepFiles
          htracked.cleaned answers.refused
        rw [← hrefused, ← hcleanup, ← hu, hstate]
        rfl
      rw [hdestroy] at hpath
      rw [ownFiles, hload]
      exact (left_of_prepared hprep (List.Subset.refl _) hpath).imp_right .inl

/-! ### The files of its own -/

/-- A file that is there and tracked for no job stays. -/
theorem exists_destroy_cleanup {refused : String → Bool} (h : s.files.exists path = true)
    (huntracked : ∀ file ∈ s.prep.created, file.path ≠ path) :
    (destroy refused (cleanup refused s)).files.exists path = true := by
  have hcleanup := cleanup_removes refused s
  have hdestroy := destroy_removes refused (cleanup refused s)
  rcases hcleanup.exists_or path h with hmid | ⟨-, htracked⟩
  · rcases hdestroy.exists_or path hmid with hend | ⟨-, htracked⟩
    · exact hend
    · rw [hcleanup.created] at htracked
      exact absurd rfl (huntracked _ htracked)
  · exact absurd rfl (huntracked _ htracked)

/-- The preparation loses no file. -/
theorem exists_of_precreate {r : Except Exn Unit} (hbefore : before.files.exists path = true)
    (h : exec (precreateFiles pairs) before = some (r, after)) :
    after.files.exists path = true := by
  refine precreate_keeps (I := fun u => u.files.exists path = true) ?_ hbefore h
  intro job _ s u hs hstep
  rcases createAndFill_cases hstep with hfilled | habandoned
  · exact hfilled.grows.exists hs
  · exact habandoned.grows.exists hs

/-- What it tracks are files of the jobs. -/
theorem untracked_of_precreate {r : Except Exn Unit}
    (hjobs : ∀ job ∈ pairs, job.1.filename ≠ path)
    (hbefore : ∀ file ∈ before.prep.created, file.path ≠ path)
    (h : exec (precreateFiles pairs) before = some (r, after)) :
    ∀ file ∈ after.prep.created, file.path ≠ path := by
  refine precreate_keeps (I := fun u => ∀ file ∈ u.prep.created, file.path ≠ path) ?_ hbefore h
  intro job hjob s u hs hstep
  rcases createAndFill_cases hstep with hfilled | habandoned
  · rw [hfilled.prep]
    exact List.forall_mem_append.mpr ⟨hs, List.forall_mem_singleton.mpr (hjobs job hjob)⟩
  · rw [habandoned.prep]
    exact hs

/-- A run that went through leaves the files of its own, unless they are a job's. -/
theorem Ran.own {workers : List WorkerThread} {r : CompletedRun workers} {rc : Int32}
    {u : Process} (h : Ran command answers jobs (.started command files) workers r rc u)
    (hpath : path ∈ ownPaths command answers jobs)
    (hjobs : ∀ job ∈ jobs, job.filename ≠ path) :
    (u.destroyed answers).prep.files.exists path = true := by
  obtain ⟨prep, hprep, hu⟩ := h.prepared
  have huntracked : ∀ file ∈ prep.prep.created, file.path ≠ path :=
    untracked_of_precreate (fun job hjob => hjobs job.1 (List.of_mem_zip hjob).1)
      (List.forall_mem_nil _) hprep
  have hmade : (makeFiles (documents (outputDirectory command answers jobs)) prep).files.exists
      path = true := by
    rw [exists_makeFiles]
    rcases List.mem_cons.mp hpath with rfl | hpath
    · refine .inr (exists_of_precreate ?_ hprep)
      exact exists_makeFiles.mpr (.inr (exists_makeFiles.mpr (.inl (List.mem_singleton_self _))))
    · rcases List.mem_cons.mp hpath with rfl | hdocument
      · refine .inr (exists_of_precreate ?_ hprep)
        exact exists_makeFiles.mpr (.inl (List.mem_singleton_self _))
      · exact .inl hdocument
  show (destroy answers.refused u.prep).files.exists path = true
  rw [hu]
  exact exists_destroy_cleanup hmade huntracked

/-- There is no error line only when the run went through. -/
theorem Ended.own {rc : Int32} (h : Ended command answers files rc t) (hsilent : t.stderr = [])
    (hpath : path ∈ ownFiles command answers)
    (hjobs : ∀ jobs, loadJobs answers.texts command.configPath command.overrides answers.config
      = .ok jobs → ∀ job ∈ jobs, job.filename ≠ path) : t.prep.files.exists path = true := by
  cases h with
  | rejected hload hwhat hcode hstate =>
      rw [hstate] at hsilent
      cases hsilent
  | @stopped jobs e what u v hload hhandled hcode hstate =>
      rw [hstate, hhandled.state] at hsilent
      exact absurd hsilent (List.append_ne_nil_of_right_ne_nil _ (List.cons_ne_nil _ _))
  | @ran jobs workers r u hload hran hstate =>
      rw [ownFiles, hload] at hpath
      rw [hstate]
      exact hran.own hpath (hjobs jobs hload)

/-! ### All that happens to them -/

/-- The files when the process has ended. -/
structure FilesAfter (command : CommandLine) (answers : Answers) (files : Files String)
    (t : Process) : Prop where
  /-- those of the user are there -/
  kept : ∀ path, files.exists path = true → t.prep.files.exists path = true
  /-- without an error line, so are the logs and the documents, but for one that is the file
      of a job as well -/
  own : t.stderr = [] → ∀ path ∈ ownFiles command answers,
    (∀ jobs, loadJobs answers.texts command.configPath command.overrides answers.config
      = .ok jobs → ∀ job ∈ jobs, job.filename ≠ path) → t.prep.files.exists path = true
  /-- and no others, unless they are to be kept, or cannot be removed, or there is an error
      line and some file could not be filled -/
  removed : command.keepFiles = false → (answers.refused = fun _ => false) →
    (t.stderr = [] ∨ ∀ job ∈ answers.createCalls, ¬ job.fillFails) →
    ∀ path, t.prep.files.exists path = true →
      files.exists path = true ∨ path ∈ ownFiles command answers

/-- **What a run does to the files**, however it ends. -/
theorem main_files {rc : Int32}
    (h : exec (main command answers) (Process.start files) = some (.ok rc, t)) :
    FilesAfter command answers files t := by
  have hend : Ended command answers files rc t := wlp_main (.ok rc, t) h
  refine ⟨hend.safe.present, fun hsilent path hpath hjobs => hend.own hsilent hpath hjobs,
    fun hkeep hrefused hfine path hpath => ?_⟩
  rcases hend.left hkeep hrefused hpath with hold | hown | ⟨hline, job, hjob, hfill⟩
  · exact .inl hold
  · exact .inr hown
  · rcases hfine with hsilent | hfilled
    · exact absurd hsilent hline
    · exact absurd hfill (hfilled job hjob)

/-- The file of the user is still there and that of the first job is not; and besides there
    are the logs and the documents only. -/
theorem main_files_tiny :
    ∃ t, exec (main tinyCommand tinyAnswers) (Process.start dataFile)
        = some (.ok EXIT_SUCCESS, t)
      ∧ FilesAfter tinyCommand tinyAnswers dataFile t
      ∧ t.prep.files.exists "data" = true ∧ t.prep.files.exists "./cfio-tiny.dat" = false
      ∧ ∀ path, t.prep.files.exists path = true →
        dataFile.exists path = true ∨ path ∈ ownFiles tinyCommand tinyAnswers := by
  obtain ⟨t, ht, hsilent, hremoved⟩ := tiny_succeeds
  have hfiles : FilesAfter tinyCommand tinyAnswers dataFile t := main_files ht
  exact ⟨t, ht, hfiles, hfiles.kept "data" (by decide), hremoved,
    hfiles.removed rfl rfl (.inl hsilent)⟩

end FilesAfter

end CfioProgram
