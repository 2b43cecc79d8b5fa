import Cfio.FilePreparator
import Cfio.Transition

/-! # Cleaning up

    `Cleanup` and the destructor remove the tracked files that had not been there
    when they were tracked.  Two questions are settled: whether a file of the
    user can be among them, over any history of calls, and whether a file the
    preparator brought into existence can escape them, at the end of the
    orchestrator's run.  The system may refuse to remove a path; `refused` says
    which. -/

namespace CfioFilePreparator

open CfioTypes CfioConfig CfioEngine Fallible FileSystem Transition

/-- `std::filesystem::remove`, which may fail. -/
def removeFile (refused : String → Bool) (files : Files String) (path : String) :
    Files String :=
  if refused path then files else files.remove path

/-- The body of the loop in `Cleanup`. -/
def cleanupFile (keepFiles : Bool) (refused : String → Bool) (files : Files String)
    (file : CreatedFile) : Files String :=
  if keepFiles then files
  else if file.preExisted then files
  else removeFile refused files file.path

/-- `FilePreparator::Cleanup`. -/
def cleanup (refused : String → Bool) (s : Preparation) : Preparation :=
  if s.prep.cleaned then s
  else
    { files := s.prep.created.foldl (cleanupFile s.prep.keepFiles refused) s.files
      prep := { s.prep with cleaned := true } }

/-- The body of the loop in the destructor. -/
def destroyFile (refused : String → Bool) (files : Files String)
    (file : CreatedFile) : Files String :=
  if !file.preExisted then removeFile refused files file.path else files

/-- `FilePreparator::~FilePreparator`. -/
def destroy (refused : String → Bool) (s : Preparation) : Preparation :=
  if s.prep.cleaned ∨ s.prep.keepFiles then s
  else { s with files := s.prep.created.foldl (destroyFile refused) s.files }

/-- The two loops remove the same files. -/
theorem cleanupFile_not_keeping :
    cleanupFile false = destroyFile := by
  funext refused files file
  cases h : file.preExisted <;> simp [cleanupFile, destroyFile, h]

/-- What a loop of removals leaves. -/
theorem exists_foldl_destroyFile (refused : String → Bool) (created : List CreatedFile)
    (files : Files String) (path : String) :
    (created.foldl (destroyFile refused) files).exists path = true ↔
      files.exists path = true ∧
        ¬ (refused path = false ∧ ⟨path, false⟩ ∈ created) := by
  induction created generalizing files with
  | nil => simp
  | cons file created ih =>
      rw [List.foldl_cons, ih]
      obtain ⟨p, preExisted⟩ := file
      cases preExisted with
      | true => simp [destroyFile]
      | false =>
          by_cases hp : path = p
          · subst hp
            cases hr : refused path <;>
              simp [destroyFile, removeFile, hr, Files.exists_remove]
          · cases hr : refused p <;>
              simp [destroyFile, removeFile, hr, hp, Files.exists_remove]

/-! ## Any history of calls -/

/-- What can be called on a preparator. -/
inductive PrepCall where
  | createAndFill (config : JobConfig) (calls : CreateCalls)
  | cleanup (refused : String → Bool)
  | destroy (refused : String → Bool)

/-- One call.  A caller may go on after an exception. -/
def prepStep (s : Preparation) : PrepCall → Option Preparation
  | .createAndFill config calls => (exec (createAndFill config calls) s).map Prod.snd
  | .cleanup refused => some (cleanup refused s)
  | .destroy refused => some (destroy refused s)

/-- Removals with nothing refused that keeping files forbids. -/
theorem foldl_cleanupFile_keeping (refused : String → Bool)
    (created : List CreatedFile) (files : Files String) :
    created.foldl (cleanupFile true refused) files = files := by
  induction created with
  | nil => rfl
  | cons file created ih => exact ih

/-- What a removal of tracked files may take away. -/
structure Removes (s t : Preparation) : Prop where
  created : t.prep.created = s.prep.created
  keepFiles : t.prep.keepFiles = s.prep.keepFiles
  exists_or : ∀ path, s.files.exists path = true → t.files.exists path = true ∨
    (s.prep.keepFiles = false ∧ ⟨path, false⟩ ∈ s.prep.created)

theorem Removes.refl (s : Preparation) : Removes s s :=
  ⟨rfl, rfl, fun _ h => .inl h⟩

/-- A loop of removals, run when files are not to be kept. -/
theorem foldl_destroyFile_or (refused : String → Bool) (created : List CreatedFile)
    {files : Files String} {path : String} (h : files.exists path = true) :
    (created.foldl (destroyFile refused) files).exists path = true ∨
      ⟨path, false⟩ ∈ created := by
  by_cases hmem : ⟨path, false⟩ ∈ created
  · exact .inr hmem
  · exact .inl ((exists_foldl_destroyFile refused created files path).mpr
      ⟨h, fun hrem => hmem hrem.2⟩)

/-- A cleanup only removes. -/
theorem cleanup_removes (refused : String → Bool) (s : Preparation) :
    Removes s (cleanup refused s) := by
  rw [cleanup]
  by_cases hc : s.prep.cleaned = true
  · rw [if_pos hc]
    exact Removes.refl s
  · rw [if_neg hc]
    refine ⟨rfl, rfl, fun path hpath => ?_⟩
    cases hk : s.prep.keepFiles with
    | true =>
        left
        show (s.prep.created.foldl (cleanupFile true refused) s.files).exists path = true
        rw [foldl_cleanupFile_keeping]
        exact hpath
    | false =>
        rcases foldl_destroyFile_or refused s.prep.created hpath with h | h
        · left
          show (s.prep.created.foldl (cleanupFile false refused) s.files).exists path
            = true
          rw [cleanupFile_not_keeping]
          exact h
        · exact .inr ⟨rfl, h⟩

/-- The destruction only removes. -/
theorem destroy_removes (refused : String → Bool) (s : Preparation) :
    Removes s (destroy refused s) := by
  rw [destroy]
  by_cases hc : s.prep.cleaned = true ∨ s.prep.keepFiles = true
  · rw [if_pos hc]
    exact Removes.refl s
  · rw [if_neg hc]
    rw [not_or, Bool.not_eq_true, Bool.not_eq_true] at hc
    refine ⟨rfl, rfl, fun path hpath => ?_⟩
    rcases foldl_destroyFile_or refused s.prep.created hpath with h | h
    · exact .inl h
    · exact .inr ⟨hc.2, h⟩

/-- A fill has returned or thrown. -/
theorem createAndFill_cases {s t : Preparation} {config : JobConfig} {calls : CreateCalls}
    (h : prepStep s (.createAndFill config calls) = some t) :
    Filled config calls s t ∨ Abandoned config calls s t := by
  obtain ⟨⟨r, u⟩, hr, hu⟩ := Option.map_eq_some_iff.mp h
  have hpost := wlp_createAndFill config calls s (r, u) hr
  rw [← hu]
  cases r with
  | ok _ => exact .inl hpost
  | error _ => exact .inr hpost

/-- **What one call does**: a fill that returned or threw, or a removal. -/
theorem prepStep_cases {s t : Preparation} {call : PrepCall}
    (h : prepStep s call = some t) :
    (∃ config calls, Filled config calls s t) ∨
      (∃ config calls, Abandoned config calls s t) ∨ Removes s t := by
  cases call with
  | createAndFill config calls =>
      rcases createAndFill_cases h with hfilled | habandoned
      · exact .inl ⟨config, calls, hfilled⟩
      · exact .inr (.inl ⟨config, calls, habandoned⟩)
  | cleanup refused =>
      rw [← Option.some.inj h]
      exact .inr (.inr (cleanup_removes refused s))
  | destroy refused =>
      rw [← Option.some.inj h]
      exact .inr (.inr (destroy_removes refused s))

/-- The files of the user are there, and none of them is tracked as a file that
    had not been there. -/
structure UserFilesSafe (files : Files String) (s : Preparation) : Prop where
  present : ∀ path, files.exists path = true → s.files.exists path = true
  tracked : ∀ path, ⟨path, false⟩ ∈ s.prep.created → files.exists path = false

/-- Every call keeps the files of the user safe. -/
theorem prepStep_safe {files : Files String} {s t : Preparation} {call : PrepCall}
    (hs : UserFilesSafe files s) (h : prepStep s call = some t) :
    UserFilesSafe files t := by
  rcases prepStep_cases h with ⟨config, calls, hf⟩ | ⟨config, calls, ha⟩ | hr
  · refine ⟨fun path hp => hf.grows.exists (hs.present path hp), ?_⟩
    intro path hp
    rw [hf.prep] at hp
    rcases List.mem_append.mp hp with hold | hnew
    · exact hs.tracked path hold
    · -- the flag was sampled while every file of the user was there
      obtain ⟨rfl, hflag⟩ := CreatedFile.mk.inj (List.mem_singleton.mp hnew)
      by_contra hex
      rw [hs.present _ (Bool.not_eq_false _ ▸ hex)] at hflag
      exact nomatch hflag
  · refine ⟨fun path hp => ha.grows.exists (hs.present path hp), ?_⟩
    rw [ha.prep]
    exact hs.tracked
  · refine ⟨fun path hp => ?_, hr.created ▸ hs.tracked⟩
    rcases hr.exists_or path (hs.present path hp) with h | ⟨-, hmem⟩
    · exact h
    · rw [hs.tracked path hmem] at hp
      exact nomatch hp

/-- When files are to be kept, no call deletes any. -/
theorem prepStep_keeps (mid : Preparation) {s t : Preparation} {call : PrepCall}
    (hs : s.prep.keepFiles = true ∧
      ∀ path, mid.files.exists path = true → s.files.exists path = true)
    (h : prepStep s call = some t) :
    t.prep.keepFiles = true ∧
      ∀ path, mid.files.exists path = true → t.files.exists path = true := by
  obtain ⟨hkeep, hmid⟩ := hs
  rcases prepStep_cases h with ⟨config, calls, hf⟩ | ⟨config, calls, ha⟩ | hr
  · exact ⟨by rw [hf.prep]; exact hkeep, fun path hp => hf.grows.exists (hmid path hp)⟩
  · exact ⟨by rw [ha.prep]; exact hkeep, fun path hp => ha.grows.exists (hmid path hp)⟩
  · refine ⟨by rw [hr.keepFiles]; exact hkeep, fun path hp => ?_⟩
    rcases hr.exists_or path (hmid path hp) with h | ⟨hdel, -⟩
    · exact h
    · rw [hkeep] at hdel
      exact nomatch hdel

/-- A preparator that was just constructed. -/
def FilePreparator.new (keepFiles : Bool) : FilePreparator := { keepFiles := keepFiles }

/-- **Clean-up never deletes a file of the user**: whatever is called in which
    order, and whatever fails, the files there were at the start are there at the
    end; and when files are to be kept, a file that is there at any point stays. -/
theorem cleanup_keeps_user_files {files : Files String} {keepFiles : Bool}
    {before after : List PrepCall} {s t : Preparation}
    (hs : run prepStep ⟨files, FilePreparator.new keepFiles⟩ before = some s)
    (ht : run prepStep s after = some t) :
    (∀ path, files.exists path = true → t.files.exists path = true) ∧
      (keepFiles = true →
        ∀ path, s.files.exists path = true → t.files.exists path = true) := by
  constructor
  · have hsafe : UserFilesSafe files t :=
      run_invariant (I := UserFilesSafe files)
        (fun _ _ _ hI hstep => prepStep_safe hI hstep) (run_append hs ht)
        ⟨fun _ hp => hp, fun _ hp => nomatch hp⟩
    exact hsafe.present
  · intro hkeep
    have hkept : s.prep.keepFiles = true ∧
        ∀ path, files.exists path = true → s.files.exists path = true :=
      run_invariant (fun _ _ _ hI hstep =>
        prepStep_keeps ⟨files, FilePreparator.new keepFiles⟩ hI hstep) hs
        ⟨hkeep, fun _ hp => hp⟩
    exact (run_invariant (fun _ _ _ hI hstep => prepStep_keeps s hI hstep) ht
      ⟨hkept.1, fun _ hp => hp⟩).2

/-- A file of the user and a new one are filled, both by two jobs; one of the
    fills fails halfway. -/
def twoFiles : List PrepCall :=
  [.createAndFill { filename := "user" } { openCall := { fd := 3 }, rng := fun _ => 0 },
   .createAndFill { filename := "new" }
     { openCall := { fd := 3 }, rng := fun _ => 0
       fsync := { result := -1, errno := CfioTypes.EIO } },
   .createAndFill { filename := "new" } { openCall := { fd := 3 }, rng := fun _ => 0 }]

/-- Clean-up is called twice, then the preparator is destroyed. -/
def cleanUpTwice : List PrepCall :=
  [.cleanup (fun _ => false), .cleanup (fun _ => false), .destroy (fun _ => false)]

/-- The file of the user, and nothing else. -/
def userFiles : Files String := fun path => if path = "user" then some {} else none

/-- A file of the user and a new one, with files kept and not. -/
theorem cleanup_keeps_user_files_two :
    (∃ s t, run prepStep ⟨userFiles, FilePreparator.new false⟩ twoFiles = some s ∧
      run prepStep s cleanUpTwice = some t ∧ t.files.exists "user" = true) ∧
    (∃ s t, run prepStep ⟨userFiles, FilePreparator.new true⟩ twoFiles = some s ∧
      run prepStep s cleanUpTwice = some t ∧ t.files.exists "new" = true) := by
  constructor
  · have hs : (run prepStep ⟨userFiles, FilePreparator.new false⟩ twoFiles).isSome :=
      rfl
    obtain ⟨s, hs⟩ := Option.isSome_iff_exists.mp hs
    obtain ⟨t, ht⟩ : ∃ t, run prepStep s cleanUpTwice = some t := ⟨_, rfl⟩
    exact ⟨s, t, hs, ht, (cleanup_keeps_user_files hs ht).1 "user" rfl⟩
  · have hs : (run prepStep ⟨userFiles, FilePreparator.new true⟩ twoFiles).map
        (fun s => s.files.exists "new") = some true := rfl
    obtain ⟨s, hs, hnew⟩ := Option.map_eq_some_iff.mp hs
    obtain ⟨t, ht⟩ : ∃ t, run prepStep s cleanUpTwice = some t := ⟨_, rfl⟩
    exact ⟨s, t, hs, ht, (cleanup_keeps_user_files hs ht).2 rfl "new" hnew⟩

/-! ## The run of the orchestrator -/

/-- `BenchmarkOrchestrator::Run` as far as files go: the files are prepared, the
    rest of the run follows and may throw, `CleanupFiles` is last.  The
    preparator is destroyed with the orchestrator in any case. -/
def filePhase (jobs : List (JobConfig × CreateCalls)) (laterThrows : Bool)
    (refused : String → Bool) (s : Preparation) : Option Preparation :=
  (exec (precreateFiles jobs) s).map (fun
    | (.error _, t) => destroy refused t
    | (.ok _, t) =>
        if laterThrows then destroy refused t
        else destroy refused (cleanup refused t))

/-- No file is left that was not there at the start. -/
def NothingLeft (files : Files String) (t : Preparation) : Prop :=
  ∀ path, t.files.exists path = true → files.exists path = true

/-- When a job fails behind its `open`, its file had been there at the start or an
    earlier job had made it. -/
def FailuresTracked (files : Files String) (jobs : List (JobConfig × CreateCalls)) :
    Prop :=
  ∀ before job after, jobs = before ++ job :: after →
    (∀ j ∈ before, ¬ j.2.fails) → ¬ job.2.openCall.fd < 0 → job.2.fillFails →
    files.exists job.1.filename = true ∨
      ∃ j ∈ before, j.1.filename = job.1.filename

/-- The jobs in `done` have been prepared, and nothing else happened. -/
structure AllTracked (files : Files String) (done : List (JobConfig × CreateCalls))
    (t : Preparation) : Prop where
  keepFiles : t.prep.keepFiles = false
  cleaned : t.prep.cleaned = false
  noFailure : ∀ j ∈ done, ¬ j.2.fails
  exists_iff : ∀ path, t.files.exists path = true ↔
    files.exists path = true ∨ ∃ j ∈ done, j.1.filename = path
  tracked_iff : ∀ path, ⟨path, false⟩ ∈ t.prep.created ↔
    files.exists path = false ∧ ∃ j ∈ done, j.1.filename = path

section Phase

variable {files : Files String} {jobs done : List (JobConfig × CreateCalls)}
variable {job : JobConfig × CreateCalls} {t u : Preparation}

/-- One more job. -/
theorem AllTracked.filled (h : AllTracked files done t)
    (hf : Filled job.1 job.2 t u) : AllTracked files (done ++ [job]) u := by
  have hmem : ∀ path, (∃ j ∈ done ++ [job], j.1.filename = path) ↔
      (∃ j ∈ done, j.1.filename = path) ∨ job.1.filename = path := by
    intro path
    simp only [List.mem_append, List.mem_singleton, or_and_right, exists_or,
      exists_eq_left]
  obtain ⟨f, hu, -⟩ := hf.file
  refine ⟨?_, ?_, ?_, fun path => ?_, fun path => ?_⟩
  · rw [hf.prep]
    exact h.keepFiles
  · rw [hf.prep]
    exact h.cleaned
  · intro j hj
    rcases List.mem_append.mp hj with hold | hnew
    · exact h.noFailure j hold
    · rw [List.mem_singleton.mp hnew]
      exact hf.noFailure
  · rw [hu, Files.exists_store, h.exists_iff, hmem, eq_comm (a := path), or_comm,
      or_assoc]
  · have hcreated : ⟨path, false⟩ ∈ u.prep.created ↔
        ⟨path, false⟩ ∈ t.prep.created ∨
          (job.1.filename = path ∧ t.files.exists job.1.filename = false) := by
      rw [hf.prep]
      simp only [List.mem_append, List.mem_singleton, CreatedFile.mk.injEq,
        eq_comm (a := path), eq_comm (a := false)]
    rw [hcreated, h.tracked_iff, hmem, ← Bool.not_eq_true (t.files.exists _),
      h.exists_iff, ← Bool.not_eq_true (files.exists path)]
    constructor
    · rintro (⟨hn, hj⟩ | ⟨rfl, hn⟩)
      · exact ⟨hn, .inl hj⟩
      · exact ⟨fun hp => hn (.inl hp), .inr rfl⟩
    · rintro ⟨hn, hj | rfl⟩
      · exact .inl ⟨hn, hj⟩
      · by_cases hj : ∃ j ∈ done, j.1.filename = job.1.filename
        · exact .inl ⟨hn, hj⟩
        · refine .inr ⟨rfl, ?_⟩
          rintro (hp | hj')
          · exact hn hp
          · exact hj hj'

/-- The preparation tracks every job it finished; if it throws, one job was
    abandoned, the first that failed. -/
theorem wlp_precreateFiles_tracked (files : Files String)
    (jobs : List (JobConfig × CreateCalls)) :
    wlp (precreateFiles jobs) (fun _ t => AllTracked files jobs t)
      (fun _ t => ∃ before job after u, jobs = before ++ job :: after ∧
        AllTracked files before u ∧ Abandoned job.1 job.2 u t)
      ⟨files, FilePreparator.new false⟩ := by
  refine wlp_forM (I := fun done t => AllTracked files done t) ?_ ?_
  · intro done job rest t hjobs hdone
    refine wlp_mono (wlp_createAndFill job.1 job.2 t) ?_ ?_
    · intro _ u hfilled
      exact hdone.filled hfilled
    · intro _ u habandoned
      exact ⟨done, job, rest, t, hjobs, hdone, habandoned⟩
  · refine ⟨rfl, rfl, (fun _ hj => nomatch hj), fun path => ?_, fun path => ?_⟩
    · simp
    · simp [FilePreparator.new]

/-- Destroying a preparator that is to keep nothing and has not been cleaned up. -/
theorem destroy_exists (hkeep : t.prep.keepFiles = false)
    (hclean : t.prep.cleaned = false) (path : String) :
    (destroy (fun _ => false) t).files.exists path = true ↔
      t.files.exists path = true ∧ ¬ ⟨path, false⟩ ∈ t.prep.created := by
  rw [destroy, if_neg (by simp [hkeep, hclean])]
  show (t.prep.created.foldl (destroyFile fun _ => false) t.files).exists path = true ↔ _
  rw [exists_foldl_destroyFile]
  simp

/-- Cleaning up first makes no difference. -/
theorem destroy_cleanup (hkeep : t.prep.keepFiles = false)
    (hclean : t.prep.cleaned = false) (refused : String → Bool) :
    (destroy refused (cleanup refused t)).files = (destroy refused t).files := by
  have hdestroy : (destroy refused t).files
      = t.prep.created.foldl (destroyFile refused) t.files := by
    rw [destroy, if_neg (by simp [hkeep, hclean])]
  have hcleanup : cleanup refused t =
      { files := t.prep.created.foldl (destroyFile refused) t.files
        prep := { t.prep with cleaned := true } } := by
    rw [cleanup, if_neg (by simp [hclean]), hkeep, cleanupFile_not_keeping]
  rw [hdestroy, hcleanup, destroy, if_pos (.inl rfl)]

/-- Everything that was tracked goes. -/
theorem AllTracked.nothingLeft (h : AllTracked files done t) :
    NothingLeft files (destroy (fun _ => false) t) := by
  intro path hpath
  rw [destroy_exists h.keepFiles h.cleaned, h.exists_iff, h.tracked_iff] at hpath
  obtain ⟨hold | hnew, hnot⟩ := hpath
  · exact hold
  · by_contra hex
    exact hnot ⟨Bool.not_eq_true _ ▸ hex, hnew⟩

/-- A job that failed halfway leaves its file exactly when no earlier job made it
    and it had not been there. -/
theorem AllTracked.abandoned (h : AllTracked files done t)
    (ha : Abandoned job.1 job.2 t u) :
    NothingLeft files (destroy (fun _ => false) u) ↔
      (¬ job.2.openCall.fd < 0 → job.2.fillFails →
        files.exists job.1.filename = true ∨
          ∃ j ∈ done, j.1.filename = job.1.filename) := by
  have hkeep : u.prep.keepFiles = false := by
    rw [ha.prep]
    exact h.keepFiles
  have hclean : u.prep.cleaned = false := by
    rw [ha.prep]
    exact h.cleaned
  have hleft : ∀ path, (destroy (fun _ => false) u).files.exists path = true ↔
      u.files.exists path = true ∧
        ¬ (files.exists path = false ∧ ∃ j ∈ done, j.1.filename = path) := by
    intro path
    rw [destroy_exists hkeep hclean, ha.prep, h.tracked_iff]
  rcases ha.files with ⟨hopen, hu⟩ | ⟨hopen, hfill, f, k, hu, -⟩
  · constructor
    · intro _ hopen'
      exact absurd hopen hopen'
    · intro _ path hpath
      refine h.nothingLeft path ?_
      rw [destroy_exists h.keepFiles h.cleaned, h.tracked_iff]
      rw [hleft, hu] at hpath
      exact hpath
  · have hexists : ∀ path, u.files.exists path = true ↔
        path = job.1.filename ∨ files.exists path = true ∨
          ∃ j ∈ done, j.1.filename = path := by
      intro path
      rw [hu, Files.exists_store, h.exists_iff]
    constructor
    · intro hnothing _ _
      by_contra hnot
      rw [not_or] at hnot
      refine hnot.1 (hnothing job.1.filename ?_)
      rw [hleft, hexists]
      exact ⟨.inl rfl, fun htracked => hnot.2 htracked.2⟩
    · intro hcond path hpath
      rw [hleft, hexists] at hpath
      by_contra hex
      have hold : files.exists path = false := Bool.not_eq_true _ ▸ hex
      obtain ⟨rfl | hp | hj, hnot⟩ := hpath
      · rcases hcond hopen hfill with hp | hj
        · exact hex hp
        · exact hnot ⟨hold, hj⟩
      · exact hex hp
      · exact hnot ⟨hold, hj⟩

/-- The first failing job decides. -/
theorem failuresTracked_iff {before after : List (JobConfig × CreateCalls)}
    (hbefore : ∀ j ∈ before, ¬ j.2.fails) (hfails : job.2.fails) :
    FailuresTracked files (before ++ job :: after) ↔
      (¬ job.2.openCall.fd < 0 → job.2.fillFails →
        files.exists job.1.filename = true ∨
          ∃ j ∈ before, j.1.filename = job.1.filename) := by
  constructor
  · intro h
    exact h before job after rfl hbefore
  · intro h before' job' after' hjobs hbefore' hopen hfill
    rcases List.append_eq_append_iff.mp hjobs with ⟨mid, hmid, hrest⟩ | ⟨mid, hmid, hrest⟩
    · cases mid with
      | nil =>
          rw [List.append_nil] at hmid
          obtain ⟨rfl, -⟩ := List.cons.inj hrest
          rw [hmid]
          exact h hopen hfill
      | cons j mid =>
          obtain ⟨rfl, -⟩ := List.cons.inj hrest
          refine absurd hfails (hbefore' job ?_)
          rw [hmid]
          exact List.mem_append_right _ (List.mem_cons_self ..)
    · cases mid with
      | nil =>
          rw [List.append_nil] at hmid
          obtain ⟨rfl, -⟩ := List.cons.inj hrest
          rw [← hmid]
          exact h hopen hfill
      | cons j mid =>
          obtain ⟨rfl, -⟩ := List.cons.inj hrest
          refine absurd (Or.inr hfill) (hbefore job' ?_)
          rw [hmid]
          exact List.mem_append_right _ (List.mem_cons_self ..)

end Phase

/-- **When no file is left behind**: for any jobs and any pattern of failing
    calls, however the run ends, exactly when no job fails behind an `open` that
    made the file. -/
theorem filePhase_nothingLeft_iff {files : Files String}
    {jobs : List (JobConfig × CreateCalls)} {laterThrows : Bool} {t : Preparation}
    (h : filePhase jobs laterThrows (fun _ => false)
      ⟨files, FilePreparator.new false⟩ = some t) :
    NothingLeft files t ↔ FailuresTracked files jobs := by
  obtain ⟨⟨r, u⟩, hr, hu⟩ := Option.map_eq_some_iff.mp h
  have hpost := wlp_precreateFiles_tracked files jobs (r, u) hr
  cases r with
  | ok _ =>
      have htracked : AllTracked files jobs u := hpost
      have ht : t.files = (destroy (fun _ => false) u).files := by
        cases laterThrows with
        | true => exact (congrArg Preparation.files hu).symm
        | false =>
            rw [← destroy_cleanup htracked.keepFiles htracked.cleaned]
            exact (congrArg Preparation.files hu).symm
      constructor
      · intro _ before job after hjobs _ _ hfill
        refine absurd (Or.inr hfill) (htracked.noFailure job ?_)
        rw [hjobs]
        exact List.mem_append_right _ (List.mem_cons_self ..)
      · intro _ path hpath
        rw [ht] at hpath
        exact htracked.nothingLeft path hpath
  | error _ =>
      obtain ⟨before, job, after, v, hjobs, htracked, habandoned⟩ := hpost
      have hfails : job.2.fails := by
        rcases habandoned.files with ⟨hopen, -⟩ | ⟨-, hfill, -⟩
        · exact .inl hopen
        · exact .inr hfill
      have ht : t = destroy (fun _ => false) u := hu.symm
      rw [ht, htracked.abandoned habandoned, hjobs,
        failuresTracked_iff htracked.noFailure hfails]

/-- A new file, and a disk that has no room for it. -/
def diskFull : List (JobConfig × CreateCalls) :=
  [({ filename := "big", fileSize := 4096 },
    { openCall := { fd := 3 }, rng := fun _ => 0
      fallocate := { result := -1, errno := 28 } })]

/-- The file stays behind. -/
theorem filePhase_diskFull_leaves :
    ∃ t, filePhase diskFull false (fun _ => false)
        ⟨fun _ => none, FilePreparator.new false⟩ = some t ∧
      ¬ NothingLeft (fun _ => none) t := by
  refine ⟨_, rfl, fun h => ?_⟩
  exact nomatch h "big" rfl

/-- Two jobs share a new file, and the second runs out of space. -/
def diskFullLater : List (JobConfig × CreateCalls) :=
  ({ filename := "big" }, { openCall := { fd := 3 }, rng := fun _ => 0 }) :: diskFull

theorem filePhase_nothingLeft_iff_later :
    ∃ t, filePhase diskFullLater false (fun _ => false)
        ⟨fun _ => none, FilePreparator.new false⟩ = some t ∧
      (NothingLeft (fun _ => none) t ↔
        FailuresTracked (fun _ => none) diskFullLater) := by
  obtain ⟨t, ht⟩ : ∃ t, filePhase diskFullLater false (fun _ => false)
      ⟨fun _ => none, FilePreparator.new false⟩ = some t := ⟨_, rfl⟩
  exact ⟨t, ht, filePhase_nothingLeft_iff ht⟩

end CfioFilePreparator
