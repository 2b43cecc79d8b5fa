import Cfio.RunMailbox

/-! # The samples of a run in the window

    `OnTick` reads the sequence and, if it changed, the sample, in two steps: the two
    may belong to different publications.  Three things come out of it.

    * No sample is missed: the sequence read says how many publications are complete,
      and the sample read after it is at least as new.  The sequence has 64 bits, so
      this is lost when a multiple of 2^64 publications lies between two ticks.
    * The samples come in order and whole.
    * A sample can come twice: the one that was stored between the two reads is drawn,
      and its own change of the sequence has it drawn again by the next tick.  So can
      the one before the results, whose change of the sequence brings no sample. -/

namespace CfioDisplay

open CfioMetrics Transition

variable {Context Results : Type} {view : ResultsView Results}

/-! ## The number of a sample -/

/-- The sample with a number; zero is the empty one, before any is stored. -/
inductive SampleOf (published : List MetricsSnapshot) : Nat → MetricsSnapshot → Prop where
  | empty : SampleOf published 0 {}
  | stored {i x} (h : published[i]? = some x) : SampleOf published (i + 1) x

/-- A later sample does not change which one the `k`-th is. -/
theorem SampleOf.append {published : List MetricsSnapshot} {k : Nat} {x : MetricsSnapshot}
    (h : SampleOf published k x) (y : MetricsSnapshot) : SampleOf (published ++ [y]) k x := by
  cases h with
  | empty => exact .empty
  | stored h =>
      have hlt := (List.getElem?_eq_some_iff.mp h).1
      exact .stored ((List.getElem?_append_left hlt).trans h)

/-- The one just published is the newest. -/
theorem sampleOf_newest (published : List MetricsSnapshot) (y : MetricsSnapshot) :
    SampleOf (published ++ [y]) (published ++ [y]).length y := by
  rw [List.length_append]
  exact .stored List.getElem?_concat_length

theorem SampleOf.le_length {published : List MetricsSnapshot} {k : Nat}
    {x : MetricsSnapshot} (h : SampleOf published k x) : k ≤ published.length := by
  cases h with
  | empty => exact Nat.zero_le _
  | stored h => exact (List.getElem?_eq_some_iff.mp h).1

/-! ## The invariant -/

/-- One for a sample that is stored but not counted yet. -/
def uncounted : Option (WriterCall Context Results) → Nat
  | some (.publishSnapshot _) => 1
  | _ => 0

/-- What is read and what was applied, in terms of what was published. -/
structure Sampled (view : ResultsView Results) (s : GuiRun Context Results) : Prop where
  newest : SampleOf s.past.published s.past.published.length s.mailbox.latest
  stored : s.past.published.length = s.past.completed + uncounted s.advancing
  sequence : s.mailbox.sequence = UInt64.ofNat s.past.publications
  remembered : s.window.lastSequence = UInt64.ofNat s.past.publicationsRead
  read_le : s.past.completedRead ≤ s.past.completed
  /-- since the last `Sequence()`, no more samples than publications -/
  drift : s.past.completed + s.past.publicationsRead
    ≤ s.past.completedRead + s.past.publications
  whole : ∀ p ∈ s.past.applied, SampleOf s.past.published p.1 p.2
  ordered : s.past.applied.Pairwise (fun p q => p.1 ≤ q.1)
  /-- the graphs show just that, until results with samples of their own replace it -/
  shown : (∀ r, some r ∈ s.past.outcomes → view.timeSeries r = []) →
    s.window.history = s.past.applied.map Prod.snd

theorem sampled_init (view : ResultsView Results) (context : Context)
    (script : List (WriterCall Context Results)) : Sampled view (GuiRun.init context script) where
  newest := .empty
  stored := rfl
  sequence := rfl
  remembered := rfl
  read_le := Nat.le_refl _
  drift := Nat.le_refl _
  whole := by
    intro p hp
    cases hp
  ordered := List.Pairwise.nil
  shown := fun _ => rfl

section Moves

variable {s : GuiRun Context Results}

/-- With the sequence a sample is complete. -/
theorem Sampled.advance {call : WriterCall Context Results} (h : Sampled view s)
    (hadv : s.advancing = some call) : Sampled view (s.advance call) := by
  have hsequence : s.mailbox.sequence + 1 = UInt64.ofNat (s.past.publications + 1) := by
    rw [h.sequence, UInt64.ofNat_add]
    rfl
  have hstored := h.stored
  have hdrift := h.drift
  have hread := h.read_le
  rw [hadv] at hstored
  cases call with
  | publishSnapshot snapshot =>
      refine { h with stored := hstored, sequence := hsequence, read_le := ?_, drift := ?_ }
      · show s.past.completedRead ≤ s.past.completed + 1
        omega
      · show s.past.completed + 1 + s.past.publicationsRead
          ≤ s.past.completedRead + (s.past.publications + 1)
        omega
  | setRuntime | publishContext | publishResults | markShutdown =>
      refine { h with stored := hstored, sequence := hsequence, drift := ?_ }
      show s.past.completed + s.past.publicationsRead
        ≤ s.past.completedRead + (s.past.publications + 1)
      omega

/-- A sample is stored before the sequence tells of it. -/
theorem Sampled.store {call : WriterCall Context Results}
    {rest : List (WriterCall Context Results)} (h : Sampled view s)
    (hadv : s.advancing = none) : Sampled view (s.store call rest) := by
  have hstored := h.stored
  rw [hadv] at hstored
  cases call with
  | publishSnapshot snapshot =>
      exact { h with
        newest := sampleOf_newest _ snapshot
        stored := by
          show (s.past.published ++ [snapshot]).length = s.past.completed + 1
          rw [List.length_append, hstored]
          rfl
        whole := fun p hp => (h.whole p hp).append snapshot }
  | setRuntime | publishContext | publishResults | markShutdown =>
      exact { h with stored := hstored }

/-- A read of the sequence settles what was complete by then. -/
theorem Sampled.noteSequence (h : Sampled view s) (phase : Phase) :
    Sampled view (s.noteSequence phase) :=
  { h with
    remembered := h.sequence
    read_le := Nat.le_refl _
    drift := Nat.le_refl _ }

/-- Where the sequence has not moved, nothing is read. -/
theorem Sampled.keepSequence (h : Sampled view s) (phase : Phase)
    (hseq : s.mailbox.sequence = s.window.lastSequence) :
    Sampled view (s.keepSequence phase) :=
  { h with
    remembered := hseq.symm.trans h.sequence
    read_le := Nat.le_refl _
    drift := Nat.le_refl _ }

/-- What is read is the newest sample that was stored. -/
theorem Sampled.readLatest (h : Sampled view s) (phase : Phase) :
    Sampled view (s.readLatest phase) :=
  { h with
    whole := by
      intro p hp
      rcases List.mem_append.mp hp with hp | hp
      · exact h.whole p hp
      · rw [List.mem_singleton.mp hp]
        exact h.newest
    ordered := by
      refine List.pairwise_append.mpr ⟨h.ordered, List.pairwise_singleton .., ?_⟩
      intro p hp q hq
      rw [List.mem_singleton.mp hq]
      exact (h.whole p hp).le_length
    shown := by
      intro hr
      show s.window.history ++ [s.mailbox.latest]
        = (s.past.applied ++ [(s.past.published.length, s.mailbox.latest)]).map Prod.snd
      rw [h.shown hr, List.map_append]
      rfl }

theorem Sampled.takeResults (h : Sampled view s) : Sampled view (s.takeResults view) := by
  cases hres : s.mailbox.results with
  | none =>
      rw [GuiRun.takeResults]
      rw [hres]
      exact { h with
        shown := fun hr => h.shown (fun r hmem => hr r (List.mem_append_left _ hmem)) }
  | some results =>
      rw [GuiRun.takeResults]
      rw [hres]
      refine { h with shown := fun hr => ?_ }
      have hempty : view.timeSeries results = [] :=
        hr results (List.mem_append_right _ (List.mem_singleton_self _))
      show (if view.timeSeries results ≠ [] then view.timeSeries results
        else s.window.history) = _
      rw [if_neg (not_not.mpr hempty)]
      exact h.shown (fun r hmem => hr r (List.mem_append_left _ hmem))

end Moves

/-- Every step keeps the books of the mailbox. -/
theorem sampled_step (s : GuiRun Context Results) (a : GuiAct) (t : GuiRun Context Results)
    (h : Sampled view s) (hstep : mailboxStep view s a = some t) : Sampled view t := by
  cases mailboxStep_move hstep with
  | advance hadv => exact h.advance hadv
  | store hadv hscript => exact h.store hadv
  | readPhase | takeContext | requestStop => exact { h with }
  | noteSequence => exact h.noteSequence _
  | keepSequence htick hseq => exact h.keepSequence _ hseq
  | readLatest => exact h.readLatest _
  | takeResults => exact h.takeResults

theorem sampled_run {context : Context} {script : List (WriterCall Context Results)}
    {as : List GuiAct} {s : GuiRun Context Results}
    (h : run (mailboxStep view) (GuiRun.init context script) as = some s) : Sampled view s :=
  run_invariant sampled_step h (sampled_init view context script)

/-! ## The newest sample -/

/-- The number of the sample drawn last. -/
def GuiHistory.lastApplied (past : GuiHistory Results) : Nat :=
  (past.applied.getLast?.map Prod.fst).getD 0

theorem lastApplied_append (past : GuiHistory Results) (p : Nat × MetricsSnapshot) :
    ({ past with applied := past.applied ++ [p] } : GuiHistory Results).lastApplied = p.1 := by
  rw [GuiHistory.lastApplied]
  rw [List.getLast?_concat]
  rfl

/-- Of two reads of the sequence in a row, the second tells whether there was a
    publication in between: their number is not a multiple of 2^64. -/
def SequenceTells (s : GuiRun Context Results) : GuiAct → Prop
  | .gui => ∀ phase, s.tick = .atSequence phase →
      2 ^ 64 ∣ s.past.publications - s.past.publicationsRead →
        s.past.publications = s.past.publicationsRead
  | _ => True

/-- Unless the sample is read next, it is as new as the last `Sequence()` asked. -/
def CaughtUp (s : GuiRun Context Results) : Prop :=
  (∀ phase, s.tick ≠ .atLatest phase) → s.past.completedRead ≤ s.past.lastApplied

/-- Counts that look the same in 64 bits differ by whole rounds. -/
theorem ofNat_eq_ofNat {m n : Nat} (h : UInt64.ofNat n = UInt64.ofNat m) :
    2 ^ 64 ∣ n - m := by
  have hmod : n % 2 ^ 64 = m % 2 ^ 64 := by
    have htoNat := congrArg UInt64.toNat h
    rwa [UInt64.toNat_ofNat', UInt64.toNat_ofNat'] at htoNat
  exact Nat.dvd_of_mod_eq_zero (Nat.sub_mod_eq_zero_of_mod_eq hmod)

/-- An unchanged sequence: no sample was completed since it was read last. -/
theorem completed_of_sequence_eq {s : GuiRun Context Results} (h : Sampled view s)
    (htells : 2 ^ 64 ∣ s.past.publications - s.past.publicationsRead →
      s.past.publications = s.past.publicationsRead)
    (heq : s.mailbox.sequence = s.window.lastSequence) :
    s.past.completed = s.past.completedRead := by
  have hread := h.read_le
  have hdrift := h.drift
  rw [h.sequence, h.remembered] at heq
  have hpub := htells (ofNat_eq_ofNat heq)
  omega

/-- Where the sequence tells of publications, a step leaves no complete sample behind. -/
theorem caughtUp_step (s : GuiRun Context Results) (a : GuiAct) (t : GuiRun Context Results)
    (h : Sampled view s ∧ CaughtUp s) (htells : SequenceTells s a)
    (hstep : mailboxStep view s a = some t) : Sampled view t ∧ CaughtUp t := by
  obtain ⟨hs, hcaught⟩ := h
  refine ⟨sampled_step s a t hs hstep, ?_⟩
  cases mailboxStep_move hstep with
  | @advance call =>
      intro hloc
      cases call with
      | _ => exact hcaught hloc
  | @store call =>
      intro hloc
      cases call with
      | _ => exact hcaught hloc
  | readPhase hadv htick =>
      intro _
      exact hcaught (fun phase hp => nomatch htick.symm.trans hp)
  | takeContext hadv htick =>
      intro _
      exact hcaught (fun phase hp => nomatch htick.symm.trans hp)
  | @noteSequence phase htick =>
      intro hloc
      exact absurd rfl (hloc phase)
  | @keepSequence phase htick hseq =>
      intro _
      show s.past.completed ≤ s.past.lastApplied
      rw [completed_of_sequence_eq hs (htells phase htick) hseq]
      exact hcaught (fun phase' hp => nomatch htick.symm.trans hp)
  | @readLatest phase hadv htick =>
      intro _
      show s.past.completedRead ≤ _
      have hstored := hs.stored
      have hread := hs.read_le
      rw [GuiRun.readLatest]
      rw [lastApplied_append]
      show s.past.completedRead ≤ s.past.published.length
      omega
  | takeResults hadv htick =>
      intro _
      exact hcaught (fun phase hp => nomatch htick.symm.trans hp)
  | requestStop => exact hcaught

/-- **The newest sample is never missed**, if the sequence tells.  `completedRead`
    publications were complete at the last `Sequence()`. -/
theorem newest_sample_applied {context : Context} {script : List (WriterCall Context Results)}
    {as : List GuiAct} {s : GuiRun Context Results}
    (h : run (mailboxStep view) (GuiRun.init context script) as = some s) :
    (Meets (mailboxStep view) SequenceTells (GuiRun.init context script) as →
      (∀ phase, s.tick ≠ .atLatest phase) →
        ∀ k, 1 ≤ k → k ≤ s.past.completedRead →
          ∃ p ∈ s.past.applied.getLast?, k ≤ p.1) ∧
    s.past.applied.Pairwise (fun p q => p.1 ≤ q.1) ∧
    (∀ p ∈ s.past.applied, SampleOf s.past.published p.1 p.2) ∧
    ((∀ r, some r ∈ s.past.outcomes → view.timeSeries r = []) →
      s.window.history = s.past.applied.map Prod.snd) := by
  have hs := sampled_run h
  refine ⟨fun hmeets hloc k hk hread => ?_, hs.ordered, hs.whole, hs.shown⟩
  have hcaught : s.past.completedRead ≤ s.past.lastApplied :=
    (run_invariant_of_meets caughtUp_step h hmeets
      ⟨sampled_init view context script, fun _ => Nat.le_refl _⟩).2 hloc
  rw [GuiHistory.lastApplied] at hcaught
  cases hlast : s.past.applied.getLast? with
  | none =>
      rw [hlast] at hcaught
      exact absurd (hk.trans (hread.trans hcaught)) (Nat.not_succ_le_zero 0)
  | some p =>
      rw [hlast] at hcaught
      exact ⟨p, rfl, hread.trans hcaught⟩

/-- Every publication is a call of the script. -/
def ScriptBounds (n : Nat) (s : GuiRun Context Results) : Prop :=
  s.past.publications + (if s.advancing.isSome then 1 else 0) + s.script.length ≤ n

theorem scriptBounds_step {n : Nat} (s : GuiRun Context Results) (a : GuiAct)
    (t : GuiRun Context Results) (h : ScriptBounds n s)
    (hstep : mailboxStep view s a = some t) : ScriptBounds n t := by
  cases mailboxStep_move hstep with
  | @advance call hadv =>
      rw [ScriptBounds] at h
      rw [hadv] at h
      cases call with
      | _ => exact h
  | @store call rest hadv hscript =>
      rw [ScriptBounds] at h
      rw [hadv, hscript] at h
      replace h : s.past.publications + 0 + (rest.length + 1) ≤ n := h
      cases call with
      | publishSnapshot | publishResults =>
          show s.past.publications + 1 + rest.length ≤ n
          omega
      | setRuntime | publishContext | markShutdown =>
          show s.past.publications + 0 + rest.length ≤ n
          omega
  | readPhase | takeContext | noteSequence | keepSequence | readLatest | takeResults
  | requestStop => exact h

/-- So it is when the run publishes fewer than 2^64 times. -/
theorem sequenceTells_of_length {context : Context} {script : List (WriterCall Context Results)}
    (hscript : script.length < 2 ^ 64) (as : List GuiAct) :
    Meets (mailboxStep view) SequenceTells (GuiRun.init context script) as := by
  refine Meets.mono (P := fun _ _ => True)
    (I := fun s => Sampled view s ∧ ScriptBounds script.length s) ?_ ?_
    (meets_of_forall (fun _ _ => trivial) _ as)
    ⟨sampled_init view context script, by
      show 0 + 0 + script.length ≤ script.length
      omega⟩
  · intro s a t hs _ hstep
    exact ⟨sampled_step s a t hs.1 hstep, scriptBounds_step s a t hs.2 hstep⟩
  · rintro s a ⟨hs, hbound⟩ _
    cases a with
    | gui =>
        intro phase _ hdvd
        rw [ScriptBounds] at hbound
        have hread := hs.read_le
        have hdrift := hs.drift
        have hlt : s.past.publications - s.past.publicationsRead < 2 ^ 64 := by omega
        have hzero := Nat.eq_zero_of_dvd_of_lt hdvd hlt
        omega
    | writer | requestStop => trivial

/-- A window on results without samples. -/
def plainView : ResultsView Unit := { timeSeries := fun _ => [], summary := fun _ => "" }

/-- A run that publishes three samples. -/
def threeSamples : GuiRun Unit Unit :=
  GuiRun.init () [.publishSnapshot { elapsedSeconds := 1 },
    .publishSnapshot { elapsedSeconds := 2 }, .publishSnapshot { elapsedSeconds := 3 }]

/-- The third sample is stored between the two reads of the second tick. -/
def overtakenTick : List GuiAct :=
  [.writer, .writer, .gui, .gui, .gui, .gui, .writer, .writer, .gui, .gui, .gui,
    .writer, .writer, .gui]

/-- The second tick knows of two samples, and draws the third. -/
theorem newest_sample_applied_overtaken :
    ∃ s : GuiRun Unit Unit, run (mailboxStep plainView) threeSamples overtakenTick = some s ∧
      s.past.completedRead = 2 ∧ s.past.applied.map Prod.fst = [1, 3] ∧
      ∃ p ∈ s.past.applied.getLast?, 2 ≤ p.1 := by
  have h : (run (mailboxStep plainView) threeSamples overtakenTick).map
      (fun s : GuiRun Unit Unit => (s.tick, s.past.completedRead, s.past.applied.map Prod.fst))
        = some (.idle, 2, [1, 3]) := by
    decide +kernel
  obtain ⟨s, hs, hat⟩ := Option.map_eq_some_iff.mp h
  simp only [Prod.mk.injEq] at hat
  obtain ⟨htick, hread, happlied⟩ := hat
  have hmeets : Meets (mailboxStep plainView) SequenceTells threeSamples overtakenTick :=
    sequenceTells_of_length (by decide) _
  refine ⟨s, hs, hread, happlied, (newest_sample_applied hs).1 hmeets ?_ 2 (by decide)
    (Nat.le_of_eq hread.symm)⟩
  intro phase hp
  cases htick.symm.trans hp

/-- The benchmark thread alone. -/
theorem publish_run (view : ResultsView Results) (snapshot : MetricsSnapshot) (n : Nat)
    {s : GuiRun Context Results} (hadv : s.advancing = none)
    (hscript : s.script = List.replicate n (.publishSnapshot snapshot)) :
    ∃ t, run (mailboxStep view) s (List.replicate n [GuiAct.writer, .writer]).flatten = some t ∧
      t.advancing = none ∧ t.tick = s.tick ∧ t.window = s.window ∧
      t.mailbox.phase = s.mailbox.phase ∧ t.past.applied = s.past.applied ∧
      t.past.completed = s.past.completed + n ∧
      t.past.publications = s.past.publications + n := by
  induction n generalizing s with
  | zero => exact ⟨s, rfl, hadv, rfl, rfl, rfl, rfl, rfl, rfl⟩
  | succ n ih =>
      let stored := s.store (.publishSnapshot snapshot)
        (List.replicate n (.publishSnapshot snapshot))
      have hstore : mailboxStep view s .writer = some stored :=
        mailboxStep_of_move (.store hadv hscript)
      have hadvance : mailboxStep view stored .writer
          = some (stored.advance (.publishSnapshot snapshot)) :=
        mailboxStep_of_move (.advance rfl)
      obtain ⟨t, hrun, hadv', htick, hwindow, hphase, happlied, hcompleted, hpublications⟩ :=
        ih (s := stored.advance (.publishSnapshot snapshot)) rfl rfl
      refine ⟨t, ?_, hadv', htick, hwindow, hphase, happlied, ?_, ?_⟩
      · exact run_cons_iff.mpr ⟨_, hstore, run_cons_iff.mpr ⟨_, hadvance, hrun⟩⟩
      · rw [hcompleted]
        exact Nat.add_right_comm ..
      · rw [hpublications]
        exact Nat.add_right_comm ..

/-- Nothing is drawn when the sequence is back at its start. -/
theorem missed_of_wrap (view : ResultsView Results) {n : Nat} (hn : UInt64.ofNat n = 0)
    (context : Context) :
    ∃ s, run (mailboxStep view)
        (GuiRun.init context (List.replicate n (.publishSnapshot {})))
        ((List.replicate n [GuiAct.writer, .writer]).flatten ++ [.gui, .gui, .gui]) = some s ∧
      s.tick = .idle ∧ s.past.completedRead = n ∧ s.past.applied = [] := by
  obtain ⟨t, hrun, hadv, htick, hwindow, hphase, happlied, hcompleted, hpublications⟩ :=
    publish_run view {} n
      (s := GuiRun.init context (List.replicate n (.publishSnapshot {}))) rfl rfl
  have hsequence : t.mailbox.sequence = t.window.lastSequence := by
    rw [(sampled_run hrun).sequence, hpublications, hwindow]
    show UInt64.ofNat (0 + n) = 0
    rw [Nat.zero_add, hn]
  have hfin : t.window.finished = false := by
    rw [hwindow]
    rfl
  have hread : mailboxStep view t .gui = some t.readPhase :=
    mailboxStep_of_move (.readPhase hadv htick hfin)
  have hcontext : mailboxStep view t.readPhase .gui
      = some (t.readPhase.takeContext t.mailbox.phase) :=
    mailboxStep_of_move (.takeContext hadv rfl)
  have hkeep : mailboxStep view (t.readPhase.takeContext t.mailbox.phase) .gui
      = some ((t.readPhase.takeContext t.mailbox.phase).keepSequence t.mailbox.phase) :=
    mailboxStep_of_move (.keepSequence rfl hsequence)
  refine ⟨_, run_append hrun (run_cons_iff.mpr ⟨_, hread, run_cons_iff.mpr
    ⟨_, hcontext, run_cons_iff.mpr ⟨_, hkeep, rfl⟩⟩⟩), ?_, ?_, happlied⟩
  · show TickLoc.afterSample t.mailbox.phase = .idle
    rw [hphase]
    rfl
  · show t.past.completed = n
    rw [hcompleted]
    exact Nat.zero_add n

/-- 2^64 samples between two ticks: the sequence has come round, and not one of them is
    drawn. -/
theorem newest_sample_missed :
    ¬ ∀ (view : ResultsView Unit) (context : Unit) (script : List (WriterCall Unit Unit))
      (as : List GuiAct) (s : GuiRun Unit Unit),
      run (mailboxStep view) (GuiRun.init context script) as = some s →
        (∀ phase, s.tick ≠ .atLatest phase) →
          ∀ k, 1 ≤ k → k ≤ s.past.completedRead →
            ∃ p ∈ s.past.applied.getLast?, k ≤ p.1 := by
  intro hall
  obtain ⟨s, hrun, htick, hread, happlied⟩ :=
    missed_of_wrap plainView (n := 2 ^ 64) (by decide) ()
  obtain ⟨p, hp, -⟩ := hall _ _ _ _ s hrun (fun phase hp => nomatch htick.symm.trans hp) 1
    (Nat.le_refl _) (by rw [hread]; decide)
  rw [happlied] at hp
  cases hp

/-! ## Each sample once -/

/-- Each sample was drawn once at most, in the order of publication, and nothing but
    samples that were published. -/
def HistoryOnce (s : GuiRun Context Results) : Prop :=
  s.past.applied.Pairwise (fun p q => p.1 < q.1) ∧
    ∀ p ∈ s.past.applied, 1 ≤ p.1 ∧ SampleOf s.past.published p.1 p.2

/-- Where the sample is read, one was stored since it was read last. -/
def FindsNewSample (s : GuiRun Context Results) : GuiAct → Prop
  | .gui => ∀ phase, s.tick = .atLatest phase →
      s.past.lastApplied < s.past.published.length
  | _ => True

/-- Where no sample is read, there is nothing to find. -/
theorem findsNewSample_of_tick {s : GuiRun Context Results} (a : GuiAct)
    (htick : ∀ phase, s.tick ≠ .atLatest phase) : FindsNewSample s a := by
  cases a with
  | gui => exact fun phase hp => absurd hp (htick phase)
  | writer | requestStop => trivial

/-- The sample drawn last has the highest number. -/
theorem le_lastApplied {s : GuiRun Context Results} (h : Sampled view s)
    {p : Nat × MetricsSnapshot} (hp : p ∈ s.past.applied) : p.1 ≤ s.past.lastApplied := by
  have hordered := h.ordered
  rw [GuiHistory.lastApplied]
  rcases List.eq_nil_or_concat s.past.applied with hnil | ⟨front, last, hfront⟩
  · rw [hnil] at hp
    cases hp
  · rw [List.concat_eq_append] at hfront
    rw [hfront] at hp hordered ⊢
    rw [List.getLast?_concat]
    rcases List.mem_append.mp hp with hp | hp
    · exact (List.pairwise_append.mp hordered).2.2 p hp last (List.mem_singleton_self last)
    · rw [List.mem_singleton.mp hp]
      exact Nat.le_refl _

/-- A number above the last is above all. -/
theorem lastApplied_lt_iff {s : GuiRun Context Results} (h : Sampled view s) {n : Nat} :
    s.past.lastApplied < n ↔ (∀ p ∈ s.past.applied, p.1 < n) ∧ 1 ≤ n := by
  constructor
  · intro hlt
    exact ⟨fun p hp => Nat.lt_of_le_of_lt (le_lastApplied h hp) hlt, Nat.one_le_of_lt hlt⟩
  · rintro ⟨hall, hn⟩
    rw [GuiHistory.lastApplied]
    cases hlast : s.past.applied.getLast? with
    | none => exact hn
    | some p => exact hall p (List.mem_of_getLast? hlast)

/-- A step that draws nothing. -/
theorem historyOnce_iff_of_applied {s t : GuiRun Context Results} (hs : Sampled view s)
    (ht : Sampled view t) (h : t.past.applied = s.past.applied) :
    HistoryOnce t ↔ HistoryOnce s := by
  have hwhole := ht.whole
  rw [HistoryOnce]
  rw [h] at hwhole ⊢
  constructor
  · rintro ⟨hordered, hnumbers⟩
    exact ⟨hordered, fun p hp => ⟨(hnumbers p hp).1, hs.whole p hp⟩⟩
  · rintro ⟨hordered, hnumbers⟩
    exact ⟨hordered, fun p hp => ⟨(hnumbers p hp).1, hwhole p hp⟩⟩

/-- A sample drawn is one more, and in order, just when it is a new one. -/
theorem historyOnce_readLatest {s : GuiRun Context Results} (h : Sampled view s)
    (phase : Phase) :
    HistoryOnce (s.readLatest phase) ↔
      HistoryOnce s ∧ s.past.lastApplied < s.past.published.length := by
  rw [lastApplied_lt_iff h]
  constructor
  · rintro ⟨hordered, hnumbers⟩
    obtain ⟨hbefore, -, hlast⟩ := List.pairwise_append.mp hordered
    refine ⟨⟨hbefore, fun p hp => hnumbers p (List.mem_append_left _ hp)⟩, ?_, ?_⟩
    · exact fun p hp => hlast p hp _ (List.mem_singleton_self _)
    · exact (hnumbers _ (List.mem_append_right _ (List.mem_singleton_self _))).1
  · rintro ⟨⟨hordered, hnumbers⟩, hlast, hone⟩
    refine ⟨List.pairwise_append.mpr ⟨hordered, List.pairwise_singleton .., ?_⟩, ?_⟩
    · intro p hp q hq
      rw [List.mem_singleton.mp hq]
      exact hlast p hp
    · intro p hp
      rcases List.mem_append.mp hp with hp | hp
      · exact hnumbers p hp
      · rw [List.mem_singleton.mp hp]
        exact ⟨hone, h.newest⟩

/-- The history stays free of repetitions just when the tick finds a new sample. -/
theorem historyOnce_step (s : GuiRun Context Results) (a : GuiAct)
    (t : GuiRun Context Results) (h : Sampled view s)
    (hstep : mailboxStep view s a = some t) :
    HistoryOnce t ↔ HistoryOnce s ∧ FindsNewSample s a := by
  have ht := sampled_step s a t h hstep
  -- every step but one leaves what was applied, and is not the one the condition is on
  have hother : t.past.applied = s.past.applied → FindsNewSample s a →
      (HistoryOnce t ↔ HistoryOnce s ∧ FindsNewSample s a) := by
    intro happlied hfinds
    rw [historyOnce_iff_of_applied h ht happlied]
    exact (and_iff_left hfinds).symm
  cases mailboxStep_move hstep with
  | @advance call =>
      cases call with
      | _ => exact hother rfl trivial
  | @store call =>
      cases call with
      | _ => exact hother rfl trivial
  | requestStop => exact hother rfl trivial
  | readPhase hadv htick | takeContext hadv htick | noteSequence htick | keepSequence htick
  | takeResults hadv htick =>
      exact hother rfl (findsNewSample_of_tick _ (fun _ hp => nomatch htick.symm.trans hp))
  | @readLatest phase hadv htick =>
      rw [historyOnce_readLatest h]
      refine and_congr_right (fun _ => ⟨fun hlt _ _ => hlt, fun hfinds => hfinds phase htick⟩)

/-- **No duplicates in the graphs**, just when every sample that is read is new. -/
theorem history_once_iff {context : Context} {script : List (WriterCall Context Results)}
    {as : List GuiAct} {s : GuiRun Context Results}
    (h : run (mailboxStep view) (GuiRun.init context script) as = some s) :
    ((∀ r, some r ∈ s.past.outcomes → view.timeSeries r = []) →
      s.window.history = s.past.applied.map Prod.snd) ∧
    (HistoryOnce s ↔
      Meets (mailboxStep view) FindsNewSample (GuiRun.init context script) as) := by
  refine ⟨(sampled_run h).shown, ?_⟩
  have hinit : HistoryOnce (GuiRun.init context script) := ⟨List.Pairwise.nil, nofun⟩
  rw [run_iff_meets sampled_step historyOnce_step h (sampled_init view context script)]
  exact and_iff_right hinit

/-- Two samples come before the second tick, and none before the third. -/
def undisturbedTicks : List GuiAct :=
  [.writer, .writer, .gui, .gui, .gui, .gui, .writer, .writer, .writer, .writer,
    .gui, .gui, .gui, .gui, .gui, .gui, .gui]

/-- The first sample is drawn and the third, each once. -/
theorem history_once_iff_three :
    ∃ s : GuiRun Unit Unit, run (mailboxStep plainView) threeSamples undisturbedTicks = some s ∧
      s.window.history = [{ elapsedSeconds := 1 }, { elapsedSeconds := 3 }] ∧
      Meets (mailboxStep plainView) FindsNewSample threeSamples undisturbedTicks := by
  have h : (run (mailboxStep plainView) threeSamples undisturbedTicks).map
      (fun s : GuiRun Unit Unit => (s.past.applied, s.past.outcomes))
        = some ([(1, { elapsedSeconds := 1 }), (3, { elapsedSeconds := 3 })], []) := by
    decide +kernel
  obtain ⟨s, hs, hat⟩ := Option.map_eq_some_iff.mp h
  obtain ⟨happlied, houtcomes⟩ := Prod.mk.injEq .. ▸ hat
  have honce : HistoryOnce s := by
    have hwhole := (sampled_run hs).whole
    rw [HistoryOnce]
    rw [happlied] at hwhole ⊢
    refine ⟨List.pairwise_pair.mpr (by decide), fun p hp => ⟨?_, hwhole p hp⟩⟩
    rcases List.mem_pair.mp hp with rfl | rfl
    · decide
    · decide
  refine ⟨s, hs, ?_, (history_once_iff hs).2.mp honce⟩
  rw [(history_once_iff hs).1 (by rw [houtcomes]; exact nofun), happlied]
  rfl

/-- The second sample is stored between the two reads of the first tick: that tick draws
    it, and the next tick draws it again. -/
theorem sample_drawn_twice :
    ∃ s : GuiRun Unit Unit,
      run (mailboxStep plainView)
        (GuiRun.init () [.publishSnapshot { elapsedSeconds := 1 },
          .publishSnapshot { elapsedSeconds := 2 }, .publishResults ()])
        [.writer, .writer, .gui, .gui, .gui, .writer, .writer, .gui, .gui, .gui, .gui, .gui]
        = some s ∧
      s.past.outcomes = [] ∧
      s.window.history = [{ elapsedSeconds := 2 }, { elapsedSeconds := 2 }] ∧
      ¬ HistoryOnce s := by
  have h : (run (mailboxStep plainView)
      (GuiRun.init () [.publishSnapshot { elapsedSeconds := 1 },
        .publishSnapshot { elapsedSeconds := 2 }, .publishResults ()])
      [.writer, .writer, .gui, .gui, .gui, .writer, .writer, .gui, .gui, .gui, .gui, .gui]).map
      (fun s : GuiRun Unit Unit =>
        (s.past.outcomes, s.window.history, s.past.applied.map Prod.fst))
        = some ([], [{ elapsedSeconds := 2 }, { elapsedSeconds := 2 }], [2, 2]) := by
    decide +kernel
  obtain ⟨s, hs, hat⟩ := Option.map_eq_some_iff.mp h
  simp only [Prod.mk.injEq] at hat
  obtain ⟨houtcomes, hhistory, hnumbers⟩ := hat
  refine ⟨s, hs, houtcomes, hhistory, ?_⟩
  rintro ⟨hordered, -⟩
  have hlt := List.pairwise_map.mpr hordered
  rw [hnumbers] at hlt
  exact absurd hlt (by decide)

/-! ## Where nothing comes between the reads -/

/-- Only samples were published since the sequence was read last, and none is stored
    between the two reads of a tick. -/
def Undisturbed (s : GuiRun Context Results) : GuiAct → Prop
  | .gui => ∀ phase,
      (s.tick = .atSequence phase →
        s.past.completed + s.past.publicationsRead
          = s.past.completedRead + s.past.publications) ∧
      (s.tick = .atLatest phase → s.past.published.length = s.past.completedRead)
  | _ => True

/-- The samples drawn are among those that were complete at the last `Sequence()`, and
    where the sample is read next, there is one more. -/
def BehindSequence (s : GuiRun Context Results) : Prop :=
  s.past.lastApplied ≤ s.past.completedRead ∧
    ∀ phase, s.tick = .atLatest phase → s.past.lastApplied < s.past.completedRead

theorem afterSample_ne_atLatest (p phase : Phase) : TickLoc.afterSample p ≠ .atLatest phase := by
  rw [TickLoc.afterSample]
  split
  · exact nofun
  · exact nofun

/-- An undisturbed step draws nothing that was not complete at the last `Sequence()`. -/
theorem behindSequence_step (s : GuiRun Context Results) (a : GuiAct)
    (t : GuiRun Context Results) (h : Sampled view s ∧ BehindSequence s)
    (hundisturbed : Undisturbed s a) (hstep : mailboxStep view s a = some t) :
    Sampled view t ∧ BehindSequence t := by
  obtain ⟨hs, hle, hlt⟩ := h
  refine ⟨sampled_step s a t hs hstep, ?_⟩
  cases mailboxStep_move hstep with
  | @advance call =>
      cases call with
      | _ => exact ⟨hle, hlt⟩
  | @store call =>
      cases call with
      | _ => exact ⟨hle, hlt⟩
  | requestStop => exact ⟨hle, hlt⟩
  | readPhase | takeContext | takeResults => exact ⟨hle, nofun⟩
  | @noteSequence phase htick hseq =>
      have honly := (hundisturbed phase).1 htick
      have hread := hs.read_le
      have hnew : s.past.publications ≠ s.past.publicationsRead := by
        intro heq
        refine hseq ?_
        rw [hs.sequence, hs.remembered, heq]
      have hmore : s.past.lastApplied < s.past.completed := by omega
      exact ⟨Nat.le_of_lt hmore, fun _ _ => hmore⟩
  | @keepSequence phase htick =>
      exact ⟨hle.trans hs.read_le, fun phase' hp => absurd hp (afterSample_ne_atLatest _ _)⟩
  | @readLatest phase hadv htick =>
      refine ⟨?_, fun phase' hp => absurd hp (afterSample_ne_atLatest _ _)⟩
      rw [GuiRun.readLatest]
      rw [lastApplied_append]
      exact Nat.le_of_eq ((hundisturbed phase).2 htick)

/-- **Ticks that nothing disturbs draw each sample once.** -/
theorem history_once_of_undisturbed {context : Context}
    {script : List (WriterCall Context Results)} {as : List GuiAct}
    {s : GuiRun Context Results}
    (h : run (mailboxStep view) (GuiRun.init context script) as = some s)
    (hundisturbed : Meets (mailboxStep view) Undisturbed (GuiRun.init context script) as) :
    HistoryOnce s := by
  refine (run_iff_meets sampled_step historyOnce_step h
    (sampled_init view context script)).mpr ⟨⟨List.Pairwise.nil, nofun⟩, ?_⟩
  refine hundisturbed.mono (I := fun s => Sampled view s ∧ BehindSequence s)
    behindSequence_step ?_
    ⟨sampled_init view context script, Nat.le_refl _, nofun⟩
  rintro s a ⟨hs, hle, hlt⟩ hmeets
  cases a with
  | gui =>
      intro phase htick
      rw [(hmeets phase).2 htick]
      exact hlt phase htick
  | writer | requestStop => trivial

end CfioDisplay
