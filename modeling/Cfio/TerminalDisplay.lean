import Cfio.AnsiTerminal
import Cfio.BenchmarkResults
import Cfio.MetricFormat
import Cfio.ProgressBar
import Cfio.SizeFormat
import Cfio.SummaryJson

/-! # The terminal display

    `TerminalDisplay` paints the live view on the alternate screen of the terminal, over and
    over at the same place, and prints the summary on the primary one.  What it sends is
    text; what becomes of it is the terminal's matter (`AnsiTerminal`). -/

namespace CfioDisplay

open CfioTypes CfioConfig CfioMetrics CfioDisplayContext AnsiTerminal LinearScale

/-! ## Glyphs and columns -/

def kVert : String := "│"
def kCross : String := "┼"
def kHoriz : Char := '─'
def kDouble : Char := '═'
def kDash : String := "—"

def kColJob : Nat := 16
def kColIops : Nat := 19
def kColBw : Nat := 18
def kColLat : Nat := 16

def kRowWidth : Nat := 1 + kColJob + 3 + kColIops + 3 + kColBw + 3 + kColLat

def kBarWidth : Int := 40

def formatIopsCell (instant average : UInt64) : String :=
  formatCount instant ++ " / " ++ formatCount average

def formatBwCell (instant average : UInt64) : String :=
  (rateMiB instant).toNat.repr ++ "/" ++ (rateMiB average).toNat.repr ++ " MB/s"

def formatLatCell (p50 p95 p99 : UInt64) : String :=
  (latencyUs p50).toNat.repr ++ "/" ++ (latencyUs p95).toNat.repr ++ "/"
    ++ (latencyUs p99).toNat.repr ++ " " ++ kMicroSign ++ "s"

section Views

-- the width the formatting library takes a text to have
variable (width : String → Nat)

/-- `{:<n}`: at least so wide. -/
def padRight (s : String) (n : Nat) : String :=
  s ++ String.ofList (List.replicate (n - width s) ' ')

def dataRow (job iops bw lat : String) : String :=
  " " ++ padRight width job kColJob ++ " " ++ kVert ++ " " ++ padRight width iops kColIops
    ++ " " ++ kVert ++ " " ++ padRight width bw kColBw ++ " " ++ kVert ++ " " ++ lat

def separatorRow : String :=
  repeatGlyph kHoriz (kColJob + 2) ++ kCross ++ repeatGlyph kHoriz (kColIops + 2) ++ kCross
    ++ repeatGlyph kHoriz (kColBw + 2) ++ kCross ++ repeatGlyph kHoriz (kColLat + 1)

def formatJobConfig (config : JobConfig) : String :=
  CfioReporting.rwModeToString config.rwMode ++ " bs=" ++ CfioConfig.format config.blockSize
    ++ " iodepth=" ++ config.iodepth.toInt.repr

def anyJobFailed (results : BenchmarkResults) : Bool := results.jobs.any (·.failed)

/-! ## The live view -/

/-- The row of a job. -/
def jobRow (job : PerJobMetrics) : String :=
  dataRow width job.jobName (formatIopsCell job.iopsInstant job.iopsCumulative)
    (formatBwCell job.bwInstant job.bwCumulative)
    (formatLatCell job.latP50Ns job.latP95Ns job.latP99Ns)

/-- The lines of the live view. -/
def liveViewLines (context : DisplayContext) (runtimeSeconds : Int32)
    (snapshot : MetricsSnapshot) (elapsedSeconds : Int32) : List String :=
  let agg := snapshot.aggregate
  ["C-FIO Benchmark " ++ kDash ++ " Running [" ++ formatDuration elapsedSeconds ++ " / "
      ++ formatDuration runtimeSeconds ++ "]    Engine: " ++ context.engineLabel
      ++ "    Direct: " ++ context.directLabel,
    formatProgressBar elapsedSeconds runtimeSeconds kBarWidth,
    repeatGlyph kDouble kRowWidth,
    dataRow width "Job" "IOPS (inst/avg)" "BW (inst/avg)" "Lat P50/P95/P99",
    separatorRow]
  ++ snapshot.jobs.map (jobRow width)
  ++ [separatorRow,
    dataRow width "TOTAL" (formatIopsCell agg.iopsInstant agg.iopsCumulative)
      (formatBwCell agg.bwInstant agg.bwCumulative) "",
    repeatGlyph kDouble kRowWidth,
    " Errors: R:" ++ agg.readErrors.toNat.repr ++ " W:" ++ agg.writeErrors.toNat.repr ++ "  "
      ++ kVert ++ "  Log: " ++ context.logPath]

/-- The lambda `add_line` of the live view. -/
def addLine (frame content : String) : String :=
  (if frame = "" then frame else frame ++ "\n") ++ content ++ String.ofList clearLine

/-- Build the full live frame. -/
def renderLiveView (context : DisplayContext) (runtimeSeconds : Int32)
    (snapshot : MetricsSnapshot) (elapsedSeconds : Int32) : String :=
  (liveViewLines width context runtimeSeconds snapshot elapsedSeconds).foldl addLine ""
    ++ String.ofList clearBelow

end Views

/-! ## The summary -/

/-- What both summaries add up over the jobs. -/
structure SummaryTotals where
  iops : UInt64 := 0
  bw : UInt64 := 0
  bytes : UInt64 := 0
  readErrors : UInt64 := 0
  writeErrors : UInt64 := 0
  deriving DecidableEq, Repr

def SummaryTotals.add (totals : SummaryTotals) (job : JobResults) : SummaryTotals :=
  { iops := totals.iops + job.iopsAvg
    bw := totals.bw + job.bwAvgBytes
    bytes := totals.bytes + job.totalBytes
    readErrors := totals.readErrors + job.readErrors
    writeErrors := totals.writeErrors + job.writeErrors }

def summaryTotals (jobs : List JobResults) : SummaryTotals := jobs.foldl SummaryTotals.add {}

/-- The lines of one job. -/
def summaryJobLines (job : JobResults) : List String :=
  [" " ++ job.name ++ "    " ++ formatJobConfig job.config,
    "   IOPS " ++ formatCount job.iopsAvg ++ "   BW " ++ (rateMiB job.bwAvgBytes).toNat.repr
      ++ " MB/s   IO " ++ formatBytes job.totalBytes ++ " (" ++ formatCount job.totalIos
      ++ " ops)",
    "   Lat " ++ kMicroSign ++ "s  min " ++ formatCount (latencyUs job.latMinNs) ++ " p50 "
      ++ formatCount (latencyUs job.latP50Ns) ++ " p95 " ++ formatCount (latencyUs job.latP95Ns)
      ++ " p99 " ++ formatCount (latencyUs job.latP99Ns) ++ " max "
      ++ formatCount (latencyUs job.latMaxNs) ++ "   Err R:" ++ job.readErrors.toNat.repr
      ++ " W:" ++ job.writeErrors.toNat.repr]
  ++ (if job.failed then ["   FAILED: " ++ job.errorMessage] else [])

/-- The lines of all jobs, with rules between them. -/
def summaryJobsLines : List JobResults → List String
  | [] => []
  | [job] => summaryJobLines job
  | job :: rest => summaryJobLines job ++ repeatGlyph kHoriz kRowWidth :: summaryJobsLines rest

/-- How the run ended, in the heading. -/
def stopLabel (results : BenchmarkResults) : String :=
  if anyJobFailed results then " (aborted: job failure)"
  else if results.interrupted then " (interrupted)"
  else ""

/-- The line of the totals. -/
def totalLine (results : BenchmarkResults) : String :=
  let totals := summaryTotals results.jobs
  " TOTAL   IOPS " ++ formatCount totals.iops ++ "   BW " ++ (rateMiB totals.bw).toNat.repr
    ++ " MB/s   IO " ++ formatBytes totals.bytes ++ "   Err R:" ++ totals.readErrors.toNat.repr
    ++ " W:" ++ totals.writeErrors.toNat.repr

def summaryLines (context : DisplayContext) (results : BenchmarkResults) : List String :=
  let elapsed := Int32.ofInt (truncate results.elapsedSeconds)
  let runtime :=
    if results.interrupted then
      formatDuration elapsed ++ " of " ++ formatDuration results.runtimeSeconds
    else formatDuration elapsed
  ["C-FIO Benchmark " ++ kDash ++ " Complete" ++ stopLabel results,
    " Runtime " ++ runtime ++ "   Engine " ++ context.engineLabel ++ "   Direct "
      ++ context.directLabel,
    repeatGlyph kDouble kRowWidth]
  ++ summaryJobsLines results.jobs
  ++ [repeatGlyph kDouble kRowWidth, totalLine results, " Log: " ++ context.logPath]

/-- Build the summary. -/
def renderSummary (context : DisplayContext) (results : BenchmarkResults) : String :=
  (summaryLines context results).foldl (fun frame content => frame ++ content ++ "\n") ""

/-! ## The backend -/

/-- The members of `TerminalDisplay`, less its stream. -/
structure TerminalDisplay where
  context : DisplayContext
  ansi : Bool
  altActive : Bool := false
  runtimeSeconds : Int32 := 0
  start : TimePoint := 0
  deriving DecidableEq, Repr

/-- The calls of `IDisplay`, with the time of the call where the clock is read. -/
inductive DisplayCall where
  | init (runtimeSeconds : Int32) (now : TimePoint)
  | update (snapshot : MetricsSnapshot) (now : TimePoint)
  | showSummary (results : BenchmarkResults)
  | shutdown

section Backend

variable (width : String → Nat)

def TerminalDisplay.leaveAltScreen (d : TerminalDisplay) : TerminalDisplay × String :=
  if d.altActive then
    ({ d with altActive := false }, String.ofList showCursor ++ String.ofList leaveAlt)
  else (d, "")

def TerminalDisplay.init (runtimeSeconds : Int32) (now : TimePoint) (d : TerminalDisplay) :
    TerminalDisplay × String :=
  let d := { d with runtimeSeconds := runtimeSeconds, start := now }
  if d.ansi then
    ({ d with altActive := true },
      String.ofList enterAlt ++ String.ofList clearScreen ++ String.ofList cursorHome
        ++ String.ofList hideCursor ++ renderLiveView width d.context d.runtimeSeconds {} 0)
  else (d, "")

/-- The elapsed time a view shows. -/
def TerminalDisplay.elapsed (d : TerminalDisplay) (now : TimePoint) : Int32 :=
  let delta := (now - d.start).tdiv 1000000000
  Int32.ofInt (clamp delta 0 d.runtimeSeconds.toInt)

def TerminalDisplay.update (snapshot : MetricsSnapshot) (now : TimePoint)
    (d : TerminalDisplay) : TerminalDisplay × String :=
  if d.ansi then
    (d, String.ofList cursorHome
      ++ renderLiveView width d.context d.runtimeSeconds snapshot (d.elapsed now))
  else (d, "")

def TerminalDisplay.showSummary (results : BenchmarkResults) (d : TerminalDisplay) :
    TerminalDisplay × String :=
  let left := d.leaveAltScreen
  (left.1, left.2 ++ renderSummary d.context results)

def TerminalDisplay.shutdown (d : TerminalDisplay) : TerminalDisplay × String :=
  d.leaveAltScreen

/-- One call: what it leaves of the display, and what it writes. -/
def TerminalDisplay.call (d : TerminalDisplay) : DisplayCall → TerminalDisplay × String
  | .init runtimeSeconds now => d.init width runtimeSeconds now
  | .update snapshot now => d.update width snapshot now
  | .showSummary results => d.showSummary results
  | .shutdown => d.shutdown

/-- One call at a terminal. -/
def displayStep (size : Size) (s : TerminalDisplay × Terminal) (call : DisplayCall) :
    TerminalDisplay × Terminal :=
  let r := s.1.call width call
  (r.1, s.2.feed size r.2.toList)

/-- Calls at a terminal, one after another. -/
def displaySession (size : Size) (s : TerminalDisplay × Terminal) (calls : List DisplayCall) :
    TerminalDisplay × Terminal :=
  calls.foldl (displayStep width size) s

end Backend

/-! ## What is sent is lines -/

section Frames

variable {width : String → Nat} {context : DisplayContext} {runtimeSeconds elapsed : Int32}
variable {snapshot : MetricsSnapshot} {results : BenchmarkResults}

/-- A frame is not empty once a line is in it. -/
theorem addLine_ne (frame content : String) : addLine frame content ≠ "" := by
  intro h
  have hlength := congrArg String.length h
  have hthree : clearLine.length = 3 := rfl
  rw [addLine, String.length_append, String.length_ofList, hthree, String.length_empty]
    at hlength
  omega

/-- By induction on the lines: they follow one another, each on its own line. -/
theorem foldl_addLine {frame : String} (h : frame ≠ "") (lines : List String) :
    (lines.foldl addLine frame).toList
      = frame.toList
        ++ (if lines = [] then [] else '\n' :: linesText (lines.map String.toList)) := by
  induction lines generalizing frame with
  | nil => exact (List.append_nil _).symm
  | cons line rest ih =>
      rw [List.foldl_cons, ih (addLine_ne frame line), addLine, if_neg h,
        if_neg (List.cons_ne_nil line rest), List.map_cons, linesText]
      simp only [String.toList_append, String.toList_ofList, List.append_assoc,
        List.map_eq_nil_iff]
      rfl

/-- **A frame is its lines**, each erased to its end, and an erasure of all below. -/
theorem renderLiveView_toList :
    (renderLiveView width context runtimeSeconds snapshot elapsed).toList
      = linesText ((liveViewLines width context runtimeSeconds snapshot elapsed).map
          String.toList) ++ clearBelow := by
  rw [renderLiveView, String.toList_append, String.toList_ofList]
  refine congrArg (· ++ clearBelow) ?_
  generalize liveViewLines width context runtimeSeconds snapshot elapsed = lines
  cases lines with
  | nil => rfl
  | cons line rest =>
      rw [List.foldl_cons, foldl_addLine (addLine_ne "" line), addLine, if_pos rfl,
        List.map_cons, linesText]
      simp only [String.toList_append, String.toList_ofList, List.map_eq_nil_iff,
        String.toList_empty, List.nil_append]

end Frames

/-! ## Texts without an escape character -/

/-- A text that has no escape character in it. -/
def Clean (s : String) : Prop := Unescaped s.toList

instance (s : String) : Decidable (Clean s) := inferInstanceAs (Decidable (Unescaped _))

section Clean

variable {s t : String}

/-- A text is clean if its parts are. -/
@[simp] theorem clean_append : Clean (s ++ t) ↔ Clean s ∧ Clean t := by
  simp only [Clean, Unescaped, String.toList_append, List.forall_mem_append]

/-- No digit is an escape character. -/
theorem unescaped_digits {digits : List Char} (h : ∀ c ∈ digits, c.isDigit = true) :
    Unescaped digits := by
  rintro c hc rfl
  exact absurd (h esc hc) (by decide)

/-- No escape character is in the text of a natural number. -/
@[simp] theorem clean_repr (n : Nat) : Clean n.repr :=
  unescaped_digits (fun _ hc => IntegerText.isDigit_of_mem_repr hc)

/-- No escape character is in the text of an integer. -/
@[simp] theorem clean_intRepr (i : Int) : Clean i.repr := by
  rw [Int.repr_eq_if]
  by_cases h : 0 ≤ i
  · rw [if_pos h]
    exact clean_repr _
  · rw [if_neg h, clean_append]
    exact ⟨by decide, clean_repr _⟩

/-- The commas between digits bring no escape character. -/
theorem unescaped_groupDigits {digits : List Char} (h : Unescaped digits) (i : Nat) :
    Unescaped (groupDigits i digits) := by
  induction digits generalizing i with
  | nil => exact h
  | cons digit rest ih =>
      have hrest := ih (fun c hc => h c (List.mem_cons_of_mem _ hc)) (i + 1)
      have hdigit := h digit (List.mem_cons_self ..)
      rw [groupDigits]
      split
      · exact List.forall_mem_cons.mpr ⟨by decide, List.forall_mem_cons.mpr ⟨hdigit, hrest⟩⟩
      · exact List.forall_mem_cons.mpr ⟨hdigit, hrest⟩

/-- The text of a count is clean. -/
@[simp] theorem clean_formatCount (value : UInt64) : Clean (formatCount value) := by
  rw [Clean, formatCount, String.toList_ofList]
  exact unescaped_groupDigits (clean_repr _) 0

/-- A text that is chosen from two clean ones is clean. -/
theorem clean_ite {p : Prop} [Decidable p] (hs : Clean s) (ht : Clean t) :
    Clean (if p then s else t) := by
  split
  · exact hs
  · exact ht

/-- A glyph that is repeated is clean if the glyph is. -/
@[simp] theorem clean_replicate (n : Nat) {c : Char} (h : c ≠ esc) :
    Clean (String.ofList (List.replicate n c)) := by
  rw [Clean, String.toList_ofList]
  intro d hd
  rw [(List.mem_replicate.mp hd).2]
  exact h

@[simp] theorem clean_repeatGlyph {glyph : Char} (h : glyph ≠ esc) (count : Int) :
    Clean (repeatGlyph glyph count) :=
  clean_ite (by decide) (clean_replicate _ h)

/-- The text of a duration is clean. -/
@[simp] theorem clean_formatDuration (seconds : Int32) : Clean (formatDuration seconds) := by
  have htwo (n : Nat) : Clean (twoDigits n) :=
    clean_append.mpr ⟨clean_ite (by decide) (by decide), clean_repr n⟩
  rw [formatDuration]
  simp only [clean_append, htwo, true_and, and_true]
  decide

/-- The text of a size is clean. -/
@[simp] theorem clean_formatBytes (bytes : UInt64) : Clean (formatBytes bytes) := by
  have hone (value : ℚ) : Clean (oneDecimal value) :=
    clean_append.mpr ⟨clean_append.mpr ⟨clean_repr _, by decide⟩, clean_repr _⟩
  have hwith {s : String} (hs : Clean s) {t : String} (ht : Clean t) : Clean (s ++ t) :=
    clean_append.mpr ⟨hs, ht⟩
  exact clean_ite (hwith (hone _) (by decide)) (clean_ite (hwith (hone _) (by decide))
    (clean_ite (hwith (hone _) (by decide)) (hwith (clean_repr _) (by decide))))

end Clean

/-! ## What the display is given -/

/-- The labels of the header. -/
structure CleanContext (context : DisplayContext) : Prop where
  engineLabel : Clean context.engineLabel
  directLabel : Clean context.directLabel
  logPath : Clean context.logPath

/-- The names and messages of a call. -/
def DisplayCall.CleanTexts : DisplayCall → Prop
  | .update snapshot _ => ∀ job ∈ snapshot.jobs, Clean job.jobName
  | .showSummary results => ∀ job ∈ results.jobs, Clean job.name ∧ Clean job.errorMessage
  | _ => True

instance (call : DisplayCall) : Decidable call.CleanTexts := by
  cases call <;> unfold DisplayCall.CleanTexts <;> infer_instance

section Lines

variable {width : String → Nat} {context : DisplayContext} {runtimeSeconds elapsed : Int32}
variable {snapshot : MetricsSnapshot} {results : BenchmarkResults} {job : JobResults}

/-- A row of the table is clean if its cells are; the padding is blanks. -/
theorem clean_dataRow {name iops bw lat : String} (hname : Clean name) (hiops : Clean iops)
    (hbw : Clean bw) (hlat : Clean lat) : Clean (dataRow width name iops bw lat) := by
  have hpad {s : String} (hs : Clean s) (n : Nat) : Clean (padRight width s n) :=
    clean_append.mpr ⟨hs, clean_replicate _ (by decide)⟩
  have hfirst := hpad hname kColJob
  have hsecond := hpad hiops kColIops
  have hthird := hpad hbw kColBw
  unfold dataRow
  generalize padRight width name kColJob = first at hfirst ⊢
  generalize padRight width iops kColIops = second at hsecond ⊢
  generalize padRight width bw kColBw = third at hthird ⊢
  simp only [clean_append, hfirst, hsecond, hthird, hlat, and_true]
  decide

/-- The line below the titles is drawn with glyphs. -/
theorem clean_separatorRow : Clean separatorRow := by
  have hrule (n : Int) : Clean (repeatGlyph kHoriz n) := clean_repeatGlyph (by decide) n
  simp only [separatorRow, clean_append, hrule, true_and, and_true]
  decide

/-- The bar is glyphs and a percentage. -/
theorem clean_progressBar (total : Int32) (barWidth : Int) :
    Clean (formatProgressBar elapsed total barWidth) := by
  have hfull (n : Int) : Clean (repeatGlyph kBarFull n) := clean_repeatGlyph (by decide) n
  have hempty (n : Int) : Clean (repeatGlyph kBarEmpty n) := clean_repeatGlyph (by decide) n
  have hspace (n : Int) : Clean (repeatGlyph ' ' n) := clean_repeatGlyph (by decide) n
  simp only [formatProgressBar, clean_append, clean_intRepr, hfull, hempty, hspace, and_true]
  decide

/-- The cell of the operations is two counts. -/
theorem clean_iopsCell (instant average : UInt64) : Clean (formatIopsCell instant average) := by
  simp only [formatIopsCell, clean_append, clean_formatCount, true_and, and_true]
  decide

/-- The cell of the bandwidth is numbers with their unit. -/
theorem clean_bwCell (instant average : UInt64) : Clean (formatBwCell instant average) := by
  simp only [formatBwCell, clean_append, clean_repr, true_and, and_true]
  decide

/-- The cell of the latencies is numbers with their unit. -/
theorem clean_latCell (p50 p95 p99 : UInt64) : Clean (formatLatCell p50 p95 p99) := by
  simp only [formatLatCell, clean_append, clean_repr, true_and, and_true]
  decide

/-- The lines of a view are as clean as the names and labels in them. -/
theorem clean_liveViewLines (hcontext : CleanContext context)
    (hnames : ∀ job ∈ snapshot.jobs, Clean job.jobName) :
    ∀ line ∈ liveViewLines width context runtimeSeconds snapshot elapsed, Clean line := by
  have hdouble (n : Int) : Clean (repeatGlyph kDouble n) := clean_repeatGlyph (by decide) n
  simp only [liveViewLines, List.forall_mem_append, List.forall_mem_cons, List.forall_mem_map,
    clean_append, clean_formatDuration, clean_repr, hcontext.engineLabel, hcontext.directLabel,
    hcontext.logPath, hdouble, clean_separatorRow, clean_progressBar, true_and, and_true]
  refine ⟨⟨⟨by decide, ?_, by decide⟩, fun job hjob => ?_⟩, ?_, by decide, by decide⟩
  · exact clean_dataRow (by decide) (by decide) (by decide) (by decide)
  · exact clean_dataRow (hnames job hjob) (clean_iopsCell _ _) (clean_bwCell _ _)
      (clean_latCell _ _ _)
  · exact clean_dataRow (by decide) (clean_iopsCell _ _) (clean_bwCell _ _) (by decide)

/-- A size as the configuration writes it. -/
theorem clean_format (n : UInt64) : Clean (CfioConfig.format n) := by
  have hunit {unit : String} (h : Clean unit) (m : UInt64) : Clean (m.toNat.repr ++ unit) :=
    clean_append.mpr ⟨clean_repr _, h⟩
  exact clean_ite (by decide) (clean_ite (hunit (by decide) _) (clean_ite (hunit (by decide) _)
    (clean_ite (hunit (by decide) _) (clean_repr _))))

/-- What the summary says of a job is clean if its name and its message are. -/
theorem clean_summaryJobLines (hname : Clean job.name) (hmessage : Clean job.errorMessage) :
    ∀ line ∈ summaryJobLines job, Clean line := by
  have hmode : Clean (CfioReporting.rwModeToString job.config.rwMode) := by
    cases job.config.rwMode <;> decide
  have hfailed : ∀ line ∈ (if job.failed then ["   FAILED: " ++ job.errorMessage] else []),
      Clean line := by
    split
    · exact List.forall_mem_singleton.mpr (clean_append.mpr ⟨by decide, hmessage⟩)
    · exact List.forall_mem_nil _
  refine List.forall_mem_append.mpr ⟨?_, hfailed⟩
  simp only [List.forall_mem_cons, formatJobConfig, clean_append, clean_formatCount,
    clean_formatBytes, clean_repr, clean_intRepr, clean_format, hname, hmode, true_and, and_true]
  decide

/-- What the summary says of the jobs is clean if their names and messages are. -/
theorem clean_summaryJobsLines {jobs : List JobResults}
    (hjobs : ∀ job ∈ jobs, Clean job.name ∧ Clean job.errorMessage) :
    ∀ line ∈ summaryJobsLines jobs, Clean line := by
  have hrule (n : Int) : Clean (repeatGlyph kHoriz n) := clean_repeatGlyph (by decide) n
  induction jobs using summaryJobsLines.induct with
  | case1 => exact List.forall_mem_nil _
  | case2 job =>
      have hjob := hjobs job (List.mem_singleton_self job)
      exact clean_summaryJobLines hjob.1 hjob.2
  | case3 job rest hrest ih =>
      have hjob := hjobs job (List.mem_cons_self ..)
      rw [summaryJobsLines]
      · exact List.forall_mem_append.mpr ⟨clean_summaryJobLines hjob.1 hjob.2,
          List.forall_mem_cons.mpr ⟨hrule _, ih (fun j hj => hjobs j (List.mem_cons_of_mem _ hj))⟩⟩
      · exact hrest

/-- The label is one of two words. -/
theorem clean_stopLabel (results : BenchmarkResults) : Clean (stopLabel results) :=
  clean_ite (by decide) (clean_ite (by decide) (by decide))

/-- The totals are numbers. -/
theorem clean_totalLine (results : BenchmarkResults) : Clean (totalLine results) := by
  unfold totalLine
  simp only [clean_append, clean_formatCount, clean_formatBytes, clean_repr, and_true]
  decide

/-- The summary is clean if what it is given is. -/
theorem clean_summaryLines (hcontext : CleanContext context)
    (hjobs : ∀ job ∈ results.jobs, Clean job.name ∧ Clean job.errorMessage) :
    ∀ line ∈ summaryLines context results, Clean line := by
  have hdouble (n : Int) : Clean (repeatGlyph kDouble n) := clean_repeatGlyph (by decide) n
  have hruntime (a b : Int32) : Clean (if results.interrupted then
      formatDuration a ++ " of " ++ formatDuration b else formatDuration a) :=
    clean_ite (clean_append.mpr ⟨clean_append.mpr ⟨clean_formatDuration a, by decide⟩,
      clean_formatDuration b⟩) (clean_formatDuration a)
  refine List.forall_mem_append.mpr ⟨List.forall_mem_append.mpr ⟨?_,
    clean_summaryJobsLines hjobs⟩, ?_⟩
  · simp only [List.forall_mem_cons, clean_append, clean_stopLabel, hruntime, hdouble,
      hcontext.engineLabel, hcontext.directLabel, and_true, true_and]
    decide
  · simp only [List.forall_mem_cons, clean_append, clean_totalLine, hdouble, hcontext.logPath,
      and_true, true_and]
    decide

/-- A summary is its lines. -/
theorem clean_renderSummary (hcontext : CleanContext context)
    (hjobs : ∀ job ∈ results.jobs, Clean job.name ∧ Clean job.errorMessage) :
    Clean (renderSummary context results) := by
  have hfold {lines : List String} (hlines : ∀ line ∈ lines, Clean line) {frame : String}
      (hframe : Clean frame) :
      Clean (lines.foldl (fun frame content => frame ++ content ++ "\n") frame) := by
    induction lines generalizing frame with
    | nil => exact hframe
    | cons line rest ih =>
        refine ih (fun l hl => hlines l (List.mem_cons_of_mem _ hl)) ?_
        exact clean_append.mpr ⟨clean_append.mpr ⟨hframe, hlines line (List.mem_cons_self ..)⟩,
          by decide⟩
  have hempty : Clean "" := by decide
  exact hfold (clean_summaryLines hcontext hjobs) hempty

end Lines

/-! ## The display at its terminal -/

/-- The display knows which screen its terminal shows. -/
structure InStep (s : TerminalDisplay × Terminal) : Prop where
  context : CleanContext s.1.context
  mode : s.2.mode = .ground
  screen : s.2.onAlternate = s.1.altActive
  cursor : s.2.cursorVisible = !s.1.altActive

/-- The lines of a view, as a terminal takes them. -/
def viewLines (width : String → Nat) (d : TerminalDisplay) (snapshot : MetricsSnapshot)
    (elapsed : Int32) : List (List Char) :=
  (liveViewLines width d.context d.runtimeSeconds snapshot elapsed).map String.toList

/-- A screen a view was drawn on. -/
def drawView (width : String → Nat) (size : Size) (d : TerminalDisplay)
    (snapshot : MetricsSnapshot) (elapsed : Int32) (screen : Screen) : Screen :=
  (screen.home.drawLines size (viewLines width d snapshot elapsed)).eraseBelow size

section Session

variable {width : String → Nat} {size : Size} {display d : TerminalDisplay} {t : Terminal}
variable {s : TerminalDisplay × Terminal} {runtimeSeconds elapsed : Int32} {now : TimePoint}
variable {snapshot : MetricsSnapshot} {results : BenchmarkResults}
variable {views : List (MetricsSnapshot × TimePoint)}

/-- **A view sent to the terminal** is drawn on the screen it shows. -/
theorem feed_view (hmode : t.mode = .ground) (hcontext : CleanContext d.context)
    (hnames : ∀ job ∈ snapshot.jobs, Clean job.jobName) :
    t.feed size (cursorHome
        ++ (renderLiveView width d.context d.runtimeSeconds snapshot elapsed).toList)
      = t.onScreen (drawView width size d snapshot elapsed) := by
  rw [renderLiveView_toList, feed_append, feed_append, feed_cursorHome hmode,
    feed_linesText (by rw [onScreen_mode, hmode])
      (List.forall_mem_map.mpr (clean_liveViewLines hcontext hnames)),
    feed_clearBelow (by rw [onScreen_mode, onScreen_mode, hmode]), onScreen_onScreen,
    onScreen_onScreen]
  rfl

/-- The display after `Init`. -/
def TerminalDisplay.initialised (d : TerminalDisplay) (runtimeSeconds : Int32)
    (now : TimePoint) : TerminalDisplay :=
  { d with altActive := true, runtimeSeconds := runtimeSeconds, start := now }

/-- A terminal that shows this on its alternate screen. -/
def onAlternateScreen (t : Terminal) (screen : Screen) : Terminal :=
  { t with alternate := screen, onAlternate := true, cursorVisible := false }

/-- `Init` enters the alternate screen, hides the cursor and draws a view without jobs. -/
theorem init_step (h : InStep (d, t)) (hansi : d.ansi = true) :
    displayStep width size (d, t) (.init runtimeSeconds now)
      = (d.initialised runtimeSeconds now,
          onAlternateScreen t
            (drawView width size (d.initialised runtimeSeconds now) {} 0 ({} : Screen).clear)) := by
  have hmode : t.mode = .ground := h.mode
  have hview : (onAlternateScreen t ({} : Screen).clear).feed size (cursorHome
        ++ (renderLiveView width d.context runtimeSeconds {} 0).toList)
      = (onAlternateScreen t ({} : Screen).clear).onScreen
          (drawView width size (d.initialised runtimeSeconds now) {} 0) :=
    feed_view (d := d.initialised runtimeSeconds now) hmode h.context (List.forall_mem_nil _)
  have hfeed : t.feed size (enterAlt ++ clearScreen ++ cursorHome ++ hideCursor
        ++ (renderLiveView width d.context runtimeSeconds {} 0).toList)
      = onAlternateScreen t
          (drawView width size (d.initialised runtimeSeconds now) {} 0 ({} : Screen).clear) := by
    -- the cursor is hidden between going home and drawing, which makes no difference
    rw [feed_append, feed_cursorHome (by exact hmode)] at hview
    rw [feed_append, feed_append, feed_append, feed_append, feed_enterAlt hmode,
      feed_clearScreen (by exact hmode), feed_cursorHome (by exact hmode),
      feed_hideCursor (by exact hmode)]
    exact hview
  have hcall : displayStep width size (d, t) (.init runtimeSeconds now)
      = (d.initialised runtimeSeconds now,
          t.feed size (enterAlt ++ clearScreen ++ cursorHome ++ hideCursor
            ++ (renderLiveView width d.context runtimeSeconds {} 0).toList)) := by
    simp only [displayStep, TerminalDisplay.call, TerminalDisplay.init, hansi, if_true,
      String.toList_append, String.toList_ofList, TerminalDisplay.initialised]
  rw [hcall, hfeed]

/-- `Update` draws the view over whatever is there. -/
theorem update_step (hcontext : CleanContext d.context) (hansi : d.ansi = true)
    (hmode : t.mode = .ground) (hnames : ∀ job ∈ snapshot.jobs, Clean job.jobName) :
    displayStep width size (d, t) (.update snapshot now)
      = (d, t.onScreen (drawView width size d snapshot (d.elapsed now))) := by
  rw [← feed_view hmode hcontext hnames, ← String.toList_ofList (l := cursorHome),
    ← String.toList_append]
  simp only [displayStep, TerminalDisplay.call, TerminalDisplay.update, hansi, if_true]

variable (size) in
/-- **Leaving the live view** shows the primary screen and the cursor, or nothing was left. -/
theorem leave_feed (h : InStep (d, t)) :
    t.feed size d.leaveAltScreen.2.toList
        = { t with onAlternate := false, cursorVisible := true }
      ∧ d.leaveAltScreen.1 = { d with altActive := false } := by
  have hmode : t.mode = .ground := h.mode
  rw [TerminalDisplay.leaveAltScreen]
  by_cases hactive : d.altActive = true
  · rw [if_pos hactive, String.toList_append, String.toList_ofList, String.toList_ofList,
      feed_append, feed_showCursor hmode, feed_leaveAlt (by exact hmode)]
    exact ⟨rfl, rfl⟩
  · have hscreen : t.onAlternate = false := h.screen.trans (Bool.eq_false_of_not_eq_true hactive)
    have hcursor : t.cursorVisible = true := by
      rw [show t.cursorVisible = !d.altActive from h.cursor,
        Bool.eq_false_of_not_eq_true hactive]
      rfl
    rw [if_neg hactive]
    obtain ⟨primary, alternate, onAlternate, visible, mode⟩ := t
    obtain ⟨context, ansi, active, runtime, start⟩ := d
    cases hscreen
    cases hcursor
    cases Bool.eq_false_of_not_eq_true hactive
    exact ⟨rfl, rfl⟩

/-- `Shutdown` goes back to the primary screen and shows the cursor. -/
theorem shutdown_step (h : InStep (d, t)) :
    displayStep width size (d, t) .shutdown
      = ({ d with altActive := false },
        { t with onAlternate := false, cursorVisible := true }) := by
  obtain ⟨hfeed, hleft⟩ := leave_feed size h
  rw [← hfeed, ← hleft]
  rfl

/-- A screen the summary was written on. -/
def writeSummary (size : Size) (d : TerminalDisplay) (results : BenchmarkResults)
    (screen : Screen) : Screen :=
  screen.write size (renderSummary d.context results).toList

/-- `ShowSummary` leaves the alternate screen first, and writes on the primary one. -/
theorem showSummary_step (h : InStep (d, t))
    (hjobs : ∀ job ∈ results.jobs, Clean job.name ∧ Clean job.errorMessage) :
    displayStep width size (d, t) (.showSummary results)
      = ({ d with altActive := false },
          { t with
            primary := writeSummary size d results t.primary
            onAlternate := false
            cursorVisible := true }) := by
  obtain ⟨hfeed, hleft⟩ := leave_feed size h
  have hcall : displayStep width size (d, t) (.showSummary results)
      = (d.leaveAltScreen.1,
          (t.feed size d.leaveAltScreen.2.toList).feed size
            (renderSummary d.context results).toList) := by
    rw [← feed_append, ← String.toList_append]
    rfl
  rw [hcall, hfeed, hleft,
    feed_plain (by exact h.mode) (clean_renderSummary h.context hjobs)]
  rfl

/-- **Every call keeps the display in step.** -/
theorem inStep_call (h : InStep s) {call : DisplayCall} (hcall : call.CleanTexts) :
    InStep (displayStep width size s call) := by
  obtain ⟨d, t⟩ := s
  cases call with
  | init runtimeSeconds now =>
      by_cases hansi : d.ansi = true
      · rw [init_step h hansi]
        exact ⟨h.context, h.mode, rfl, rfl⟩
      · simp only [displayStep, TerminalDisplay.call, TerminalDisplay.init, if_neg hansi]
        exact ⟨h.context, h.mode, h.screen, h.cursor⟩
  | update snapshot now =>
      by_cases hansi : d.ansi = true
      · rw [update_step h.context hansi h.mode hcall]
        refine ⟨h.context, ?_, ?_, ?_⟩
        · exact (onScreen_mode _).trans h.mode
        · exact (onScreen_onAlternate _).trans h.screen
        · exact (onScreen_cursorVisible _).trans h.cursor
      · simp only [displayStep, TerminalDisplay.call, TerminalDisplay.update, if_neg hansi]
        exact ⟨h.context, h.mode, h.screen, h.cursor⟩
  | showSummary results =>
      rw [showSummary_step h hcall]
      exact ⟨h.context, h.mode, rfl, rfl⟩
  | shutdown =>
      rw [shutdown_step h]
      exact ⟨h.context, h.mode, rfl, rfl⟩

variable (width size) in
/-- By induction on the calls: the display keeps in step. -/
theorem inStep_session (h : InStep s) {calls : List DisplayCall}
    (hcalls : ∀ call ∈ calls, call.CleanTexts) : InStep (displaySession width size s calls) := by
  induction calls generalizing s with
  | nil => exact h
  | cons call rest ih =>
      obtain ⟨hcall, hrest⟩ := List.forall_mem_cons.mp hcalls
      exact ih (inStep_call h hcall) hrest

/-! ### The live view -/

/-- The calls of a run before its end. -/
def liveCalls (runtimeSeconds : Int32) (now : TimePoint)
    (views : List (MetricsSnapshot × TimePoint)) : List DisplayCall :=
  .init runtimeSeconds now :: views.map (fun view => .update view.1 view.2)

/-- The lines of the last view. -/
def lastViewLines (width : String → Nat) (d : TerminalDisplay)
    (views : List (MetricsSnapshot × TimePoint)) : List (List Char) :=
  match views.getLast? with
  | none => viewLines width d {} 0
  | some view => viewLines width d view.1 (d.elapsed view.2)

variable (width size) in
/-- As long as views follow one another, the primary screen is left alone. -/
theorem updates_session {screen : Screen} (hcontext : CleanContext d.context)
    (hansi : d.ansi = true) (hmode : t.mode = .ground)
    (hnames : ∀ view ∈ views, ∀ job ∈ view.1.jobs, Clean job.jobName) :
    ∃ screen', displaySession width size (d, onAlternateScreen t screen)
        (views.map (fun view => .update view.1 view.2)) = (d, onAlternateScreen t screen') := by
  induction views generalizing screen with
  | nil => exact ⟨screen, rfl⟩
  | cons view rest ih =>
      obtain ⟨hview, hrest⟩ := List.forall_mem_cons.mp hnames
      have hstep : displayStep width size (d, onAlternateScreen t screen)
          (.update view.1 view.2)
          = (d, onAlternateScreen t (drawView width size d view.1 (d.elapsed view.2) screen)) :=
        update_step hcontext hansi hmode hview
      rw [List.map_cons, displaySession, List.foldl_cons, hstep]
      exact ih hrest

variable (width size views) in
/-- Without control sequences nothing is written but the summary. -/
theorem plain_session (hansi : ¬ d.ansi = true) :
    displaySession width size (d, t) (views.map (fun view => .update view.1 view.2)) = (d, t) := by
  induction views with
  | nil => rfl
  | cons view rest ih =>
      have hstep : displayStep width size (d, t) (.update view.1 view.2) = (d, t) := by
        simp only [displayStep, TerminalDisplay.call, TerminalDisplay.update, if_neg hansi]
        rfl
      rw [List.map_cons, displaySession, List.foldl_cons, hstep]
      exact ih

variable (width size runtimeSeconds now) in
/-- **The live view is not on the primary screen.** -/
theorem live_primary (h : InStep (d, t))
    (hnames : ∀ view ∈ views, ∀ job ∈ view.1.jobs, Clean job.jobName) :
    (displaySession width size (d, t) (liveCalls runtimeSeconds now views)).1.context = d.context
      ∧ (displaySession width size (d, t) (liveCalls runtimeSeconds now views)).2.primary
        = t.primary := by
  rw [liveCalls, displaySession, List.foldl_cons]
  by_cases hansi : d.ansi = true
  · rw [init_step h hansi]
    obtain ⟨screen, hscreen⟩ := updates_session width size
      (d := d.initialised runtimeSeconds now) h.context hansi h.mode hnames
    rw [displaySession] at hscreen
    rw [hscreen]
    exact ⟨rfl, rfl⟩
  · have hinit : displayStep width size (d, t) (.init runtimeSeconds now)
        = ({ d with runtimeSeconds := runtimeSeconds, start := now }, t) := by
      simp only [displayStep, TerminalDisplay.call, TerminalDisplay.init, if_neg hansi]
      rfl
    have hplain := plain_session width size (t := t)
      (d := { d with runtimeSeconds := runtimeSeconds, start := now }) views hansi
    rw [displaySession] at hplain
    rw [hinit, hplain]
    exact ⟨rfl, rfl⟩

/-- A view that fits is what its screen shows, whatever was on it. -/
theorem drawView_shows {screen : Screen} (hfits : Fits size (viewLines width d snapshot elapsed)) :
    (drawView width size d snapshot elapsed screen).Shows (viewLines width d snapshot elapsed) :=
  drawn_shows (List.cons_ne_nil _ _) hfits rfl rfl

/-- The display and the terminal after the live view. -/
theorem live_session (h : InStep (d, t))
    (hclean : ∀ call ∈ liveCalls runtimeSeconds now views, call.CleanTexts) :
    ∃ d' t', displaySession width size (d, t) (liveCalls runtimeSeconds now views) = (d', t')
      ∧ InStep (d', t') ∧ d'.context = d.context ∧ t'.primary = t.primary ∧ t'.mode = t.mode := by
  have hnames : ∀ view ∈ views, ∀ job ∈ view.1.jobs, Clean job.jobName := fun view hview =>
    hclean _ (List.mem_cons_of_mem _ (List.mem_map_of_mem hview))
  obtain ⟨hcontext, hprimary⟩ := live_primary width size runtimeSeconds now h hnames
  have hstep := inStep_session width size h hclean
  exact ⟨_, _, rfl, hstep, hcontext, hprimary, hstep.mode.trans h.mode.symm⟩

/-- A display for tests. -/
def syncDisplay : TerminalDisplay := { context := { engineLabel := "sync" }, ansi := true }

end Session

end CfioDisplay
