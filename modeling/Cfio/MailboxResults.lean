import Cfio.RunMailbox

/-! # The results of a run in the window

    `OnTick` reads the phase first and takes the results last, in two calls.  The
    writer stores the results and the phase under one lock, so a tick that read the end
    of a run with results finds them; and a tick that read the phase before the end
    leaves them to the next one.

    A run is either not over, and then nobody has seen its end, or it is over, and then
    the results still wait or the tick that took them has stopped the polling. -/

namespace CfioDisplay

open CfioMetrics Transition

variable {Context Results : Type} {view : ResultsView Results}

/-! ## The calls of a run -/

/-- A call that does not end the run. -/
def WriterCall.isEarly : WriterCall Context Results → Bool
  | .setRuntime _ => true
  | .publishContext _ => true
  | .publishSnapshot _ => true
  | _ => false

/-- The calls of a run with the results it hands over, if any: the context, the runtime
    and samples, then the results unless it was aborted, then `MarkShutdown`, which may
    come from the display and from the program around it. -/
inductive RunScript : Option Results → List (WriterCall Context Results) → Prop where
  | aborted (more : Nat) : RunScript none (List.replicate (more + 1) .markShutdown)
  | completed (results : Results) (more : Nat) :
      RunScript (some results)
        (.publishResults results :: List.replicate (more + 1) .markShutdown)
  | early {outcome call rest} (hcall : WriterCall.isEarly call = true)
      (hrest : RunScript outcome rest) : RunScript outcome (call :: rest)

/-- Early calls may come before. -/
theorem RunScript.append_early {outcome : Option Results}
    {calls rest : List (WriterCall Context Results)} (hcalls : ∀ c ∈ calls, c.isEarly = true)
    (hrest : RunScript outcome rest) : RunScript outcome (calls ++ rest) := by
  induction calls with
  | nil => exact hrest
  | cons call calls ih =>
      exact .early (hcalls call (List.mem_cons_self ..))
        (ih (fun c hc => hcalls c (List.mem_cons_of_mem _ hc)))

/-- What `QtDisplay` does: `Init`, then `Update` for each sample. -/
def displayCalls (context : Context) (runtimeSeconds : Int32)
    (snapshots : List MetricsSnapshot) : List (WriterCall Context Results) :=
  .publishContext context :: .setRuntime runtimeSeconds :: snapshots.map .publishSnapshot

/-- What the display is told before the end does not end the run. -/
theorem displayCalls_early (context : Context) (runtimeSeconds : Int32)
    (snapshots : List MetricsSnapshot) :
    ∀ c ∈ (displayCalls context runtimeSeconds snapshots : List (WriterCall Context Results)),
      c.isEarly = true := by
  intro c hc
  rcases List.mem_cons.mp hc with rfl | hc
  · rfl
  · rcases List.mem_cons.mp hc with rfl | hc
    · rfl
    · obtain ⟨snapshot, -, rfl⟩ := List.mem_map.mp hc
      rfl

/-- A run that is not cut short. -/
theorem runScript_completed (context : Context) (runtimeSeconds : Int32)
    (snapshots : List MetricsSnapshot) (results : Results) (more : Nat) :
    RunScript (some results)
      (displayCalls context runtimeSeconds snapshots ++
        .publishResults results :: List.replicate (more + 1) .markShutdown) :=
  (RunScript.completed results more).append_early
    (displayCalls_early context runtimeSeconds snapshots)

/-- A run cut short anywhere before its results. -/
theorem runScript_aborted {context : Context} {runtimeSeconds : Int32}
    {snapshots : List MetricsSnapshot} {calls : List (WriterCall Context Results)}
    (hcut : calls <+: displayCalls context runtimeSeconds snapshots) (more : Nat) :
    RunScript none (calls ++ List.replicate (more + 1) .markShutdown) :=
  (RunScript.aborted more).append_early (fun c hc =>
    displayCalls_early context runtimeSeconds snapshots c (hcut.subset hc))

/-! ## The invariant -/

/-- The phase the tick under way began with. -/
def TickLoc.began : TickLoc → Option Phase
  | .idle => none
  | .atContext phase => some phase
  | .atSequence phase => some phase
  | .atLatest phase => some phase
  | .atResults => some .kFinished

/-- A tick that found the run finished goes on as one that did. -/
theorem began_afterSample (phase : Phase) :
    (TickLoc.afterSample phase).began = some .kFinished ↔ phase = .kFinished := by
  cases phase with
  | _ => decide

/-- The status line of a run that is over. -/
def endStatus (view : ResultsView Results) : Option Results → String
  | some results => view.summary results
  | none => "run ended without results, see log"

/-- The run goes on, and no tick has seen its end. -/
structure Running (outcome : Option Results) (s : GuiRun Context Results) : Prop where
  script : RunScript outcome s.script
  phase : s.mailbox.phase ≠ .kFinished
  results : s.mailbox.results = none
  handedOver : s.past.handedOver = none
  shutdowns : s.past.shutdowns = 0
  outcomes : s.past.outcomes = []
  finished : s.window.finished = false
  began : s.tick.began ≠ some .kFinished

/-- The run is over: only `MarkShutdown` is still to come. -/
structure Over (outcome : Option Results) (s : GuiRun Context Results) : Prop where
  script : ∀ call ∈ s.script, call = .markShutdown
  phase : s.mailbox.phase = .kFinished
  handedOver : s.past.handedOver = outcome

/-- No tick has taken the results yet. -/
structure Waiting (outcome : Option Results) (s : GuiRun Context Results) : Prop where
  results : s.mailbox.results = outcome
  outcomes : s.past.outcomes = []
  finished : s.window.finished = false

/-- A tick has taken the results, and no tick will begin. -/
structure Taken (view : ResultsView Results) (outcome : Option Results)
    (s : GuiRun Context Results) : Prop where
  outcomes : s.past.outcomes = [outcome]
  finished : s.window.finished = true
  status : s.window.status = endStatus view outcome
  history : ∀ r, outcome = some r → view.timeSeries r ≠ [] →
    s.window.history = view.timeSeries r
  tick : s.tick = .idle

/-- Where a run is with its results. -/
inductive Handover (view : ResultsView Results) (outcome : Option Results)
    (s : GuiRun Context Results) : Prop where
  | running (h : Running outcome s)
  | waiting (hover : Over outcome s) (h : Waiting outcome s)
  | taken (hover : Over outcome s) (h : Taken view outcome s)

theorem handover_init (context : Context) {outcome : Option Results}
    {script : List (WriterCall Context Results)} (h : RunScript outcome script) :
    Handover view outcome (GuiRun.init context script) :=
  .running {
    script := h
    phase := nofun
    results := rfl
    handedOver := rfl
    shutdowns := rfl
    outcomes := rfl
    finished := rfl
    began := nofun }

section Moves

variable {outcome : Option Results} {s : GuiRun Context Results}

/-- The call that ends the run leaves its results behind. -/
theorem Running.store (h : Running outcome s) {call : WriterCall Context Results}
    {rest : List (WriterCall Context Results)} (hscript : s.script = call :: rest) :
    Handover view outcome (s.store call rest) := by
  have hrun := h.script
  rw [hscript] at hrun
  cases hrun with
  | aborted more =>
      exact .waiting
        { script := fun c hc => List.eq_of_mem_replicate hc
          phase := rfl
          handedOver := h.handedOver }
        { results := h.results
          outcomes := h.outcomes
          finished := h.finished }
  | completed results more =>
      exact .waiting
        { script := fun c hc => List.eq_of_mem_replicate hc
          phase := rfl
          handedOver := rfl }
        { results := rfl
          outcomes := h.outcomes
          finished := h.finished }
  | early hcall hrest =>
      cases call with
      | setRuntime => exact .running { h with script := hrest, phase := nofun }
      | publishContext | publishSnapshot => exact .running { h with script := hrest }
      | publishResults | markShutdown => cases hcall

/-- Once the run is over the only call left is `MarkShutdown`. -/
theorem Over.store (h : Over outcome s) {call : WriterCall Context Results}
    {rest : List (WriterCall Context Results)} (hscript : s.script = call :: rest) :
    call = .markShutdown ∧ Over outcome (s.store call rest) := by
  have hcalls := h.script
  rw [hscript] at hcalls
  obtain rfl := hcalls call (List.mem_cons_self ..)
  exact ⟨rfl,
    { script := fun c hc => hcalls c (List.mem_cons_of_mem _ hc)
      phase := rfl
      handedOver := h.handedOver }⟩

/-- The tick that takes the results shows them. -/
theorem Waiting.takeResults (h : Waiting outcome s) :
    Taken view outcome (s.takeResults view) where
  outcomes := by
    show s.past.outcomes ++ [s.mailbox.results] = [outcome]
    rw [h.outcomes, h.results]
    rfl
  finished := rfl
  status := by
    rw [GuiRun.takeResults]
    rw [h.results]
    cases outcome with
    | _ => rfl
  history := by
    intro r hr hsamples
    rw [GuiRun.takeResults]
    rw [h.results, hr]
    exact if_pos hsamples
  tick := rfl

end Moves

/-! ## Steps -/

section Steps

variable {outcome : Option Results} {s t : GuiRun Context Results} {a : GuiAct}

/-- A step of a run that is on leaves it on, or ends it. -/
theorem Running.step (h : Running outcome s) (hstep : mailboxStep view s a = some t) :
    Handover view outcome t := by
  cases mailboxStep_move hstep with
  | @advance call =>
      cases call with
      | _ => exact .running { h with }
  | store _ hscript => exact h.store hscript
  | readPhase =>
      exact .running { h with began := fun hp => h.phase (Option.some.inj hp) }
  | takeContext _ htick | noteSequence htick =>
      have hbegan := h.began
      rw [htick] at hbegan
      exact .running { h with began := hbegan }
  | keepSequence htick | readLatest _ htick =>
      have hbegan := h.began
      rw [htick] at hbegan
      exact .running { h with
        began := fun hp => hbegan (congrArg some ((began_afterSample _).mp hp)) }
  | takeResults _ htick =>
      have hbegan := h.began
      rw [htick] at hbegan
      exact absurd rfl hbegan
  | requestStop => exact .running { h with }

/-- The run stays over. -/
theorem Over.step (h : Over outcome s) (hstep : mailboxStep view s a = some t) :
    Over outcome t := by
  cases mailboxStep_move hstep with
  | @advance call =>
      cases call with
      | _ => exact { h with }
  | store _ hscript => exact (h.store hscript).2
  | readPhase | takeContext | noteSequence | keepSequence | readLatest | takeResults
  | requestStop => exact { h with }

/-- The results wait for the tick that began after the end. -/
theorem Waiting.step (hover : Over outcome s) (h : Waiting outcome s)
    (hstep : mailboxStep view s a = some t) :
    (Waiting outcome t ∧ (s.tick.began = some .kFinished → t.tick.began = some .kFinished)) ∨
      Taken view outcome t := by
  cases mailboxStep_move hstep with
  | @advance call =>
      cases call with
      | _ => exact .inl ⟨{ h with }, id⟩
  | store _ hscript =>
      obtain ⟨rfl, -⟩ := hover.store hscript
      exact .inl ⟨{ h with }, id⟩
  | readPhase _ htick =>
      rw [htick]
      exact .inl ⟨{ h with }, nofun⟩
  | takeContext _ htick | noteSequence htick =>
      rw [htick]
      exact .inl ⟨{ h with }, id⟩
  | keepSequence htick | readLatest _ htick =>
      rw [htick]
      exact .inl ⟨{ h with },
        fun hp => (began_afterSample _).mpr (Option.some.inj hp)⟩
  | takeResults => exact .inr h.takeResults
  | requestStop => exact .inl ⟨{ h with }, id⟩

/-- No tick begins any more. -/
theorem Taken.step (hover : Over outcome s) (h : Taken view outcome s)
    (hstep : mailboxStep view s a = some t) : Taken view outcome t := by
  cases mailboxStep_move hstep with
  | @advance call =>
      cases call with
      | _ => exact { h with }
  | store _ hscript =>
      obtain ⟨rfl, -⟩ := hover.store hscript
      exact { h with }
  | requestStop => exact { h with }
  | readPhase _ _ hfin => exact nomatch hfin.symm.trans h.finished
  | takeContext _ htick | noteSequence htick | keepSequence htick | readLatest _ htick
  | takeResults _ htick => exact nomatch htick.symm.trans h.tick

end Steps

/-- Every step keeps to the stages of the handover. -/
theorem handover_step {outcome : Option Results} (s : GuiRun Context Results) (a : GuiAct)
    (t : GuiRun Context Results) (h : Handover view outcome s)
    (hstep : mailboxStep view s a = some t) : Handover view outcome t := by
  cases h with
  | running h => exact h.step hstep
  | waiting hover h =>
      rcases h.step hover hstep with ⟨ht, -⟩ | ht
      · exact .waiting (hover.step hstep) ht
      · exact .taken (hover.step hstep) ht
  | taken hover h => exact .taken (hover.step hstep) (h.step hover hstep)

theorem handover_run {context : Context} {outcome : Option Results}
    {script : List (WriterCall Context Results)} (hscript : RunScript outcome script)
    {as : List GuiAct} {s : GuiRun Context Results}
    (h : run (mailboxStep view) (GuiRun.init context script) as = some s) :
    Handover view outcome s :=
  run_invariant handover_step h (handover_init context hscript)

/-! ## What the invariant says -/

section Handover

variable {outcome : Option Results} {s : GuiRun Context Results}

/-- At most one tick found the run over, and what it found is what was handed over. -/
theorem Handover.outcomes (h : Handover view outcome s) :
    s.past.outcomes = [] ∨ s.past.outcomes = [outcome] := by
  cases h with
  | running h => exact .inl h.outcomes
  | waiting _ h => exact .inl h.outcomes
  | taken _ h => exact .inr h.outcomes

/-- The polling ends with it. -/
theorem Handover.finished_iff (h : Handover view outcome s) :
    s.window.finished = true ↔ s.past.outcomes = [outcome] := by
  cases h with
  | running h =>
      rw [h.finished, h.outcomes]
      exact ⟨nofun, nofun⟩
  | waiting _ h =>
      rw [h.finished, h.outcomes]
      exact ⟨nofun, nofun⟩
  | taken _ h =>
      rw [h.finished, h.outcomes]
      exact ⟨fun _ => rfl, fun _ => rfl⟩

/-- A mailbox that says the run is finished has it over. -/
theorem Handover.over_of_phase (h : Handover view outcome s)
    (hphase : s.mailbox.phase = .kFinished) : Over outcome s := by
  cases h with
  | running h => exact absurd hphase h.phase
  | waiting hover _ => exact hover
  | taken hover _ => exact hover

/-- The results were stored, or `MarkShutdown` was called: the run is over. -/
theorem Handover.over_of_ended (h : Handover view outcome s)
    (hended : s.past.handedOver ≠ none ∨ 0 < s.past.shutdowns) : Over outcome s := by
  cases h with
  | running h =>
      rcases hended with hhanded | hshut
      · exact absurd h.handedOver hhanded
      · exact absurd h.shutdowns (Nat.ne_of_gt hshut)
  | waiting hover _ => exact hover
  | taken hover _ => exact hover

end Handover

/-! ## A tick ends -/

section TickEnds

variable {s t : GuiRun Context Results}

/-- The window comes to the end of its tick by itself in so many steps. -/
def EndsWithin (view : ResultsView Results) (k : Nat) (s : GuiRun Context Results) : Prop :=
  ∃ n ≤ k, ∃ t, run (mailboxStep view) s (List.replicate n .gui) = some t ∧ t.tick = .idle

theorem endsWithin_of_step {k : Nat} (hstep : mailboxStep view s .gui = some t)
    (h : EndsWithin view k t) : EndsWithin view (k + 1) s := by
  obtain ⟨n, hn, u, hrun, hidle⟩ := h
  exact ⟨n + 1, Nat.succ_le_succ hn, u, run_cons_iff.mpr ⟨t, hstep, hrun⟩, hidle⟩

/-- Where the results are taken next, the tick ends at once. -/
theorem endsWithin_of_results (hadv : s.advancing = none) (htick : s.tick = .atResults) :
    EndsWithin view 1 s :=
  endsWithin_of_step (mailboxStep_of_move (.takeResults hadv htick))
    ⟨0, Nat.le_refl 0, _, rfl, rfl⟩

/-- Behind the sample. -/
theorem endsWithin_of_afterSample {phase : Phase} (hadv : s.advancing = none)
    (htick : s.tick = .afterSample phase) : EndsWithin view 1 s := by
  rw [TickLoc.afterSample] at htick
  by_cases hphase : phase ≠ .kFinished
  · rw [if_pos hphase] at htick
    exact ⟨0, Nat.zero_le 1, s, rfl, htick⟩
  · rw [if_neg hphase] at htick
    exact endsWithin_of_results hadv htick

/-- Where the sequence is read next, three polls are enough. -/
theorem endsWithin_of_sequence {phase : Phase} (hadv : s.advancing = none)
    (htick : s.tick = .atSequence phase) : EndsWithin view 3 s := by
  by_cases hseq : s.mailbox.sequence = s.window.lastSequence
  · obtain ⟨n, hn, hends⟩ : EndsWithin view 2 s :=
      endsWithin_of_step (mailboxStep_of_move (.keepSequence htick hseq))
        (endsWithin_of_afterSample hadv rfl)
    exact ⟨n, Nat.le_succ_of_le hn, hends⟩
  · exact endsWithin_of_step (mailboxStep_of_move (.noteSequence htick hseq))
      (endsWithin_of_step (mailboxStep_of_move (.readLatest hadv rfl))
        (endsWithin_of_afterSample hadv rfl))

/-- **A tick that can begin comes to its end**: nothing but the mutex holds it up, and a
    call that has the mutex is one step from giving it back. -/
theorem tick_ends (hadv : s.advancing = none) (htick : s.tick = .idle)
    (hfin : s.window.finished = false) :
    ∃ n ≤ 4, ∃ t, run (mailboxStep view) s (.gui :: List.replicate n .gui) = some t ∧
      t.tick = .idle := by
  have hends : EndsWithin view 4 s.readPhase :=
    endsWithin_of_step (mailboxStep_of_move (.takeContext hadv rfl))
      (endsWithin_of_sequence hadv rfl)
  obtain ⟨n, hn, t, hrun, hidle⟩ := hends
  have hbegin : mailboxStep view s .gui = some s.readPhase :=
    mailboxStep_of_move (.readPhase hadv htick hfin)
  exact ⟨n, hn, t, run_cons_iff.mpr ⟨_, hbegin, hrun⟩, hidle⟩

end TickEnds

/-- A tick that began after the end is under way, or has taken the results. -/
inductive Ending (view : ResultsView Results) (outcome : Option Results)
    (s : GuiRun Context Results) : Prop where
  | underWay (h : Waiting outcome s) (hbegan : s.tick.began = some .kFinished)
  | taken (h : Taken view outcome s)

/-- A step keeps a tick that must end the run on its way. -/
theorem ending_step {outcome : Option Results} (s : GuiRun Context Results) (a : GuiAct)
    (t : GuiRun Context Results) (h : Over outcome s ∧ Ending view outcome s)
    (hstep : mailboxStep view s a = some t) : Over outcome t ∧ Ending view outcome t := by
  obtain ⟨hover, h⟩ := h
  refine ⟨hover.step hstep, ?_⟩
  cases h with
  | underWay h hbegan =>
      rcases h.step hover hstep with ⟨ht, htick⟩ | ht
      · exact .underWay ht (htick hbegan)
      · exact .taken ht
  | taken h => exact .taken (h.step hover hstep)

/-- The tick that begins in a run that is over takes the results. -/
theorem taken_of_tick {outcome : Option Results} {s t : GuiRun Context Results}
    {bs : List GuiAct} (hs : Handover view outcome s) (hover : Over outcome s)
    (htick : s.tick = .idle) (h : run (mailboxStep view) s (.gui :: bs) = some t)
    (hend : t.tick = .idle) : s.past.outcomes = [] ∧ Taken view outcome t := by
  obtain ⟨u, hu, hrest⟩ := run_cons_iff.mp h
  -- a tick can begin, so nobody has taken the results
  have hwaiting : Waiting outcome s := by
    cases hs with
    | running hrunning => exact absurd hover.phase hrunning.phase
    | waiting _ hwaiting => exact hwaiting
    | taken _ htaken =>
        cases mailboxStep_move hu with
        | readPhase _ _ hfin => exact nomatch hfin.symm.trans htaken.finished
        | takeContext _ hloc | noteSequence hloc | keepSequence hloc | readLatest _ hloc
        | takeResults _ hloc => exact nomatch hloc.symm.trans htick
  have hbegan : u.tick.began = some .kFinished := by
    cases mailboxStep_move hu with
    | readPhase => exact congrArg some hover.phase
    | takeContext _ hloc | noteSequence hloc | keepSequence hloc | readLatest _ hloc
    | takeResults _ hloc => exact nomatch hloc.symm.trans htick
  have hending : Ending view outcome u := by
    rcases hwaiting.step hover hu with ⟨hu', -⟩ | hu'
    · exact .underWay hu' hbegan
    · exact .taken hu'
  refine ⟨hwaiting.outcomes, ?_⟩
  cases (run_invariant ending_step hrest ⟨hover.step hu, hending⟩).2 with
  | underWay _ ht =>
      rw [hend] at ht
      cases ht
  | taken ht => exact ht

/-- **The results reach the window exactly once.** -/
theorem results_handed_over_once {context : Context} {outcome : Option Results}
    {script : List (WriterCall Context Results)} (hscript : RunScript outcome script)
    {as : List GuiAct} {s : GuiRun Context Results}
    (h : run (mailboxStep view) (GuiRun.init context script) as = some s) :
    (s.past.outcomes = [] ∨ s.past.outcomes = [outcome]) ∧
    (s.window.finished = true ↔ s.past.outcomes = [outcome]) ∧
    (s.tick = .idle → s.past.handedOver ≠ none ∨ 0 < s.past.shutdowns →
      ∀ bs t, run (mailboxStep view) s (.gui :: bs) = some t → t.tick = .idle →
        s.past.outcomes = [] ∧ t.past.outcomes = [outcome] ∧ t.window.finished = true ∧
          t.window.status = endStatus view outcome ∧
          ∀ r, outcome = some r → view.timeSeries r ≠ [] →
            t.window.history = view.timeSeries r) ∧
    (s.advancing = none → s.tick = .idle → s.window.finished = false →
      ∃ n ≤ 4, ∃ t, run (mailboxStep view) s (.gui :: List.replicate n .gui) = some t ∧
        t.tick = .idle) ∧
    (s.mailbox.phase = .kFinished →
      ∀ bs t, run (mailboxStep view) s bs = some t → t.mailbox.phase = .kFinished) := by
  have hs := handover_run hscript h
  refine ⟨hs.outcomes, hs.finished_iff, ?_, tick_ends, ?_⟩
  · intro htick hended bs t hrun hend
    obtain ⟨hnone, ht⟩ := taken_of_tick hs (hs.over_of_ended hended) htick hrun hend
    exact ⟨hnone, ht.outcomes, ht.finished, ht.status, ht.history⟩
  · intro hphase bs t hrun
    exact (run_invariant (fun s a t hover hstep => hover.step hstep) hrun
      (hs.over_of_phase hphase)).phase

/-- A completed run with one sample, and the tick after it. -/
theorem results_handed_over_once_completed :
    ∃ s t : GuiRun Unit Nat,
      run (mailboxStep { timeSeries := fun _ => [], summary := fun _ => "done" })
        (GuiRun.init () (displayCalls () 5 [{ elapsedSeconds := 1 }] ++
          .publishResults 7 :: List.replicate 1 .markShutdown))
        (List.replicate 7 .writer) = some s ∧
      run (mailboxStep { timeSeries := fun _ => [], summary := fun _ => "done" }) s
        [.gui, .gui, .gui, .gui, .gui] = some t ∧
      t.past.outcomes = [some 7] ∧ t.window.finished = true ∧ t.window.status = "done" := by
  have h : (run (mailboxStep { timeSeries := fun _ => [], summary := fun _ => "done" })
      (GuiRun.init () (displayCalls () 5 [{ elapsedSeconds := 1 }] ++
        .publishResults 7 :: List.replicate 1 .markShutdown))
      (List.replicate 7 .writer)).bind
      (fun s : GuiRun Unit Nat =>
        (run (mailboxStep { timeSeries := fun _ => [], summary := fun _ => "done" }) s
          [.gui, .gui, .gui, .gui, .gui]).map
          (fun t => (s.tick, s.past.shutdowns, t.tick))) = some (.idle, 1, .idle) := by
    decide +kernel
  obtain ⟨s, hs, h⟩ := Option.bind_eq_some_iff.mp h
  obtain ⟨t, ht, h⟩ := Option.map_eq_some_iff.mp h
  simp only [Prod.mk.injEq] at h
  obtain ⟨htick, hshutdowns, hend⟩ := h
  obtain ⟨-, -, hfirst, -⟩ := results_handed_over_once
    (runScript_completed () 5 [{ elapsedSeconds := 1 }] 7 0) hs
  obtain ⟨-, houtcomes, hfin, hstatus, -⟩ := hfirst htick
    (.inr (by rw [hshutdowns]; decide)) _ t ht hend
  exact ⟨s, t, hs, ht, houtcomes, hfin, hstatus⟩

end CfioDisplay
