import Cfio.MetricsSnapshot
import Cfio.Transition

/-! # The mailbox between the benchmark and the window

    The benchmark thread writes into the mailbox, the window polls it.  All members
    are guarded by a mutex but for the sequence number, which the window reads without
    it: between the store of a publication and the number it gets, the writer holds
    the mutex and the old number can be read.

    Both threads are steps of one system.  `GuiHistory` is what happened so far, which
    the code does not keep. -/

namespace CfioDisplay

open CfioMetrics

/-! ## RunMailbox -/

/-- Stage of the run as seen by the GUI. -/
inductive Phase where
  | kIdle
  | kRunning
  | kFinished
  deriving DecidableEq, Repr

/-- The cell holding the newest metrics for the GUI. -/
structure RunMailbox (Context Results : Type) where
  latest : MetricsSnapshot := {}
  context : Option Context := none
  results : Option Results := none
  phase : Phase := .kIdle
  runtimeSeconds : Int32 := 0
  sequence : UInt64 := 0
  stopRequested : Bool := false

/-- The calls of the benchmark thread. -/
inductive WriterCall (Context Results : Type) where
  | setRuntime (runtimeSeconds : Int32)
  | publishContext (context : Context)
  | publishSnapshot (snapshot : MetricsSnapshot)
  | publishResults (results : Results)
  | markShutdown

variable {Context Results : Type}

/-- What a call stores under the mutex. -/
def WriterCall.store : WriterCall Context Results → RunMailbox Context Results →
    RunMailbox Context Results
  | .setRuntime runtimeSeconds, m =>
      { m with runtimeSeconds := runtimeSeconds, phase := .kRunning }
  | .publishContext context, m => { m with context := some context }
  | .publishSnapshot snapshot, m => { m with latest := snapshot }
  | .publishResults results, m => { m with results := some results, phase := .kFinished }
  | .markShutdown, m => { m with phase := .kFinished }

/-- Does it advance the sequence, still under the mutex? -/
def WriterCall.advances : WriterCall Context Results → Bool
  | .publishSnapshot _ => true
  | .publishResults _ => true
  | _ => false

/-! ## QtMainWindow -/

/-- What the window shows of the results: their samples, and their summary line. -/
structure ResultsView (Results : Type) where
  timeSeries : Results → List MetricsSnapshot
  summary : Results → String

/-- The members `OnTick` uses.  The graphs show `history`. -/
structure QtMainWindow (Context : Type) where
  context : Context
  history : List MetricsSnapshot := []
  lastSequence : UInt64 := 0
  clockValid : Bool := false
  table : Option MetricsSnapshot := none
  status : String := ""
  finished : Bool := false

def QtMainWindow.applySnapshot (w : QtMainWindow Context) (snapshot : MetricsSnapshot) :
    QtMainWindow Context :=
  { w with history := w.history ++ [snapshot], table := some snapshot }

def QtMainWindow.applyResults (view : ResultsView Results) (w : QtMainWindow Context)
    (results : Results) : QtMainWindow Context :=
  let history := if view.timeSeries results ≠ [] then view.timeSeries results else w.history
  { w with
    history := history
    table := if history ≠ [] then history.getLast? else w.table
    status := view.summary results }

/-- The timer is stopped as well: no tick begins any more. -/
def QtMainWindow.markFinished (w : QtMainWindow Context) : QtMainWindow Context :=
  { w with finished := true }

/-- Where the window is in `OnTick`, with the phase it read first. -/
inductive TickLoc where
  | idle
  | atContext (phase : Phase)
  | atSequence (phase : Phase)
  | atLatest (phase : Phase)
  | atResults
  deriving DecidableEq, Repr

/-- Behind the sample: the tick is over unless it began after the run. -/
def TickLoc.afterSample (phase : Phase) : TickLoc :=
  if phase ≠ .kFinished then .idle else .atResults

/-! ## The system -/

/-- What happened so far.  Samples are numbered from one, in the order in which
    `PublishSnapshot` stores them. -/
structure GuiHistory (Results : Type) where
  /-- every sample that was stored -/
  published : List MetricsSnapshot := []
  /-- how many `PublishSnapshot` calls are complete, and how many calls that advance the
      sequence -/
  completed : Nat := 0
  publications : Nat := 0
  /-- the same at the last `Sequence()` of the window -/
  completedRead : Nat := 0
  publicationsRead : Nat := 0
  /-- what `ApplySnapshot` was called with, and the number of the last sample stored by
      then -/
  applied : List (Nat × MetricsSnapshot) := []
  /-- how the ticks that found the run over ended: with results or without -/
  outcomes : List (Option Results) := []
  /-- the results that were stored, and how often `MarkShutdown` was called -/
  handedOver : Option Results := none
  shutdowns : Nat := 0

/-- A call stores. -/
def GuiHistory.stored (past : GuiHistory Results) :
    WriterCall Context Results → GuiHistory Results
  | .publishSnapshot snapshot => { past with published := past.published ++ [snapshot] }
  | .publishResults results => { past with handedOver := some results }
  | .markShutdown => { past with shutdowns := past.shutdowns + 1 }
  | _ => past

/-- A publication is complete. -/
def GuiHistory.complete (past : GuiHistory Results) :
    WriterCall Context Results → GuiHistory Results
  | .publishSnapshot _ =>
      { past with completed := past.completed + 1, publications := past.publications + 1 }
  | _ => { past with publications := past.publications + 1 }

/-- The window reads the sequence. -/
def GuiHistory.sequenceRead (past : GuiHistory Results) : GuiHistory Results :=
  { past with completedRead := past.completed, publicationsRead := past.publications }

/-- The mailbox, the benchmark thread with the calls it has yet to make, and the
    window.  `advancing` is the publication that is stored but has not advanced the
    sequence; while there is one, the mutex is taken. -/
structure GuiRun (Context Results : Type) where
  mailbox : RunMailbox Context Results := {}
  script : List (WriterCall Context Results)
  advancing : Option (WriterCall Context Results) := none
  window : QtMainWindow Context
  tick : TickLoc := .idle
  past : GuiHistory Results := {}

def GuiRun.init (context : Context) (script : List (WriterCall Context Results)) :
    GuiRun Context Results :=
  { script := script, window := { context := context } }

/-- The mutex is free again, the sequence one further. -/
def GuiRun.advance (s : GuiRun Context Results) (call : WriterCall Context Results) :
    GuiRun Context Results :=
  { s with
    mailbox := { s.mailbox with sequence := s.mailbox.sequence + 1 }
    advancing := none
    past := s.past.complete call }

/-- The next call stores, and keeps the mutex if it has to advance the sequence. -/
def GuiRun.store (s : GuiRun Context Results) (call : WriterCall Context Results)
    (rest : List (WriterCall Context Results)) : GuiRun Context Results :=
  { s with
    mailbox := call.store s.mailbox
    script := rest
    advancing := if call.advances then some call else none
    past := s.past.stored call }

/-- `CurrentPhase()`. -/
def GuiRun.readPhase (s : GuiRun Context Results) : GuiRun Context Results :=
  let phase := s.mailbox.phase
  { s with
    window := { s.window with clockValid := s.window.clockValid || decide (phase ≠ .kIdle) }
    tick := .atContext phase }

/-- `TakeContext()`. -/
def GuiRun.takeContext (s : GuiRun Context Results) (phase : Phase) :
    GuiRun Context Results :=
  { s with
    mailbox := { s.mailbox with context := none }
    window := { s.window with context := s.mailbox.context.getD s.window.context }
    tick := .atSequence phase }

/-- `Sequence()` changed: there is something to draw. -/
def GuiRun.noteSequence (s : GuiRun Context Results) (phase : Phase) :
    GuiRun Context Results :=
  { s with
    window := { s.window with lastSequence := s.mailbox.sequence }
    tick := .atLatest phase
    past := s.past.sequenceRead }

/-- `Sequence()` is the one remembered. -/
def GuiRun.keepSequence (s : GuiRun Context Results) (phase : Phase) :
    GuiRun Context Results :=
  { s with tick := .afterSample phase, past := s.past.sequenceRead }

/-- `LatestSnapshot()`. -/
def GuiRun.readLatest (s : GuiRun Context Results) (phase : Phase) :
    GuiRun Context Results :=
  let snapshot := s.mailbox.latest
  { s with
    window := s.window.applySnapshot snapshot
    tick := .afterSample phase
    past :=
      { s.past with applied := s.past.applied ++ [(s.past.published.length, snapshot)] } }

/-- `TakeResults()`. -/
def GuiRun.takeResults (view : ResultsView Results) (s : GuiRun Context Results) :
    GuiRun Context Results :=
  let window := match s.mailbox.results with
    | some results => s.window.applyResults view results
    | none => { s.window with status := "run ended without results, see log" }
  { s with
    mailbox := { s.mailbox with results := none }
    window := window.markFinished
    tick := .idle
    past := { s.past with outcomes := s.past.outcomes ++ [s.mailbox.results] } }

/-- Whose step is next. -/
inductive GuiAct where
  | writer
  | gui
  | requestStop
  deriving DecidableEq, Repr

/-- The next step of the benchmark thread. -/
def writerStep (s : GuiRun Context Results) : Option (GuiRun Context Results) :=
  match s.advancing, s.script with
  | some call, _ => some (s.advance call)
  | none, [] => none
  | none, call :: rest => some (s.store call rest)

/-- The next step of the window, where it has the mutex. -/
def lockedGuiStep (view : ResultsView Results) (s : GuiRun Context Results) :
    Option (GuiRun Context Results) :=
  match s.tick with
  | .idle => if s.window.finished then none else some s.readPhase
  | .atContext phase => some (s.takeContext phase)
  | .atSequence _ => none
  | .atLatest phase => some (s.readLatest phase)
  | .atResults => some (s.takeResults view)

/-- The next step of the window.  Only the sequence is read without the mutex. -/
def guiStep (view : ResultsView Results) (s : GuiRun Context Results) :
    Option (GuiRun Context Results) :=
  match s.tick with
  | .atSequence phase =>
      if s.mailbox.sequence ≠ s.window.lastSequence then some (s.noteSequence phase)
      else some (s.keepSequence phase)
  | _ => if s.advancing.isSome then none else lockedGuiStep view s

/-- One step. -/
def mailboxStep (view : ResultsView Results) (s : GuiRun Context Results) :
    GuiAct → Option (GuiRun Context Results)
  | .writer => writerStep s
  | .gui => guiStep view s
  | .requestStop => some { s with mailbox := { s.mailbox with stopRequested := true } }

/-! ## What a step does -/

/-- All a step can do, and when. -/
inductive MailboxMove (view : ResultsView Results) (s : GuiRun Context Results) :
    GuiAct → GuiRun Context Results → Prop where
  | advance {call} (hadv : s.advancing = some call) :
      MailboxMove view s .writer (s.advance call)
  | store {call rest} (hadv : s.advancing = none) (hscript : s.script = call :: rest) :
      MailboxMove view s .writer (s.store call rest)
  | readPhase (hadv : s.advancing = none) (htick : s.tick = .idle)
      (hfin : s.window.finished = false) : MailboxMove view s .gui s.readPhase
  | takeContext {phase} (hadv : s.advancing = none) (htick : s.tick = .atContext phase) :
      MailboxMove view s .gui (s.takeContext phase)
  | noteSequence {phase} (htick : s.tick = .atSequence phase)
      (hseq : s.mailbox.sequence ≠ s.window.lastSequence) :
      MailboxMove view s .gui (s.noteSequence phase)
  | keepSequence {phase} (htick : s.tick = .atSequence phase)
      (hseq : s.mailbox.sequence = s.window.lastSequence) :
      MailboxMove view s .gui (s.keepSequence phase)
  | readLatest {phase} (hadv : s.advancing = none) (htick : s.tick = .atLatest phase) :
      MailboxMove view s .gui (s.readLatest phase)
  | takeResults (hadv : s.advancing = none) (htick : s.tick = .atResults) :
      MailboxMove view s .gui (s.takeResults view)
  | requestStop :
      MailboxMove view s .requestStop
        { s with mailbox := { s.mailbox with stopRequested := true } }

variable {view : ResultsView Results}

theorem lockedGuiStep_move {s t : GuiRun Context Results} (hadv : s.advancing = none)
    (h : lockedGuiStep view s = some t) : MailboxMove view s .gui t := by
  rw [lockedGuiStep] at h
  split at h
  case h_1 htick =>
      by_cases hfin : s.window.finished = true
      · rw [if_pos hfin] at h
        cases h
      · rw [if_neg hfin] at h
        cases h
        exact .readPhase hadv htick (Bool.not_eq_true _ ▸ hfin)
  case h_2 phase htick =>
      cases h
      exact .takeContext hadv htick
  case h_3 => cases h
  case h_4 phase htick =>
      cases h
      exact .readLatest hadv htick
  case h_5 htick =>
      cases h
      exact .takeResults hadv htick

theorem guiStep_move {s t : GuiRun Context Results} (h : guiStep view s = some t) :
    MailboxMove view s .gui t := by
  rw [guiStep] at h
  split at h
  case h_1 phase htick =>
      by_cases hseq : s.mailbox.sequence = s.window.lastSequence
      · rw [if_neg (not_not.mpr hseq)] at h
        cases h
        exact .keepSequence htick hseq
      · rw [if_pos hseq] at h
        cases h
        exact .noteSequence htick hseq
  case h_2 =>
      by_cases hadv : s.advancing.isSome = true
      · rw [if_pos hadv] at h
        cases h
      · rw [if_neg hadv] at h
        exact lockedGuiStep_move (Option.not_isSome_iff_eq_none.mp hadv) h

/-- **Every step is one of the moves.** -/
theorem mailboxStep_move {s t : GuiRun Context Results} {a : GuiAct}
    (h : mailboxStep view s a = some t) : MailboxMove view s a t := by
  cases a with
  | writer =>
      replace h : writerStep s = some t := h
      rw [writerStep] at h
      split at h
      case h_1 call hadv =>
          cases h
          exact .advance hadv
      case h_2 => cases h
      case h_3 call rest hadv hscript =>
          cases h
          exact .store hadv hscript
  | gui => exact guiStep_move h
  | requestStop =>
      cases h
      exact .requestStop

/-- Every move can be made. -/
theorem mailboxStep_of_move {s t : GuiRun Context Results} {a : GuiAct}
    (h : MailboxMove view s a t) : mailboxStep view s a = some t := by
  cases h with
  | advance hadv =>
      show writerStep s = _
      simp only [writerStep, hadv]
  | store hadv hscript =>
      show writerStep s = _
      simp only [writerStep, hadv, hscript]
  | readPhase hadv htick hfin =>
      show guiStep view s = _
      simp [guiStep, lockedGuiStep, hadv, htick, hfin]
  | noteSequence htick hseq =>
      show guiStep view s = _
      simp only [guiStep, htick]
      exact if_pos hseq
  | keepSequence htick hseq =>
      show guiStep view s = _
      simp only [guiStep, htick]
      exact if_neg (not_not.mpr hseq)
  | takeContext hadv htick | readLatest hadv htick | takeResults hadv htick =>
      show guiStep view s = _
      simp [guiStep, lockedGuiStep, hadv, htick]
  | requestStop => rfl

end CfioDisplay
