import Cfio.TerminalDisplay

/-! # The table of the window

    `BuildJobTableRows` makes the texts of the table, one row for each job and one for all of
    them, and `SetSnapshot` puts them into the items of the widget.  Items stay from one
    snapshot to the next while the number of rows does, so what an item shows is what its
    last writer left, for each of its properties.

    `table_shows_last` says that nothing is left over.  The status line of a run that is over
    is the line of totals that the terminal prints (`runSummary_eq`). -/

namespace CfioDisplay

open CfioMetrics CfioDisplayContext

/-! ## The texts -/

/-- Column order of the live metrics table. -/
inductive JobTableColumn where
  | kJob
  | kIopsInstant
  | kIopsAverage
  | kBwInstant
  | kBwAverage
  | kLatP50
  | kLatP95
  | kLatP99
  | kErrors
  deriving DecidableEq, Repr

def kJobTableColumnCount : Nat := 9

def kJobColumn : Nat := JobTableColumn.kJob.ctorIdx

def kErrorsColumn : Nat := JobTableColumn.kErrors.ctorIdx

def kTotalRowName : String := "TOTAL"

def kJobTableNoValue : String := "-"

/-- One rendered table row. -/
structure JobTableRow where
  cells : List String
  errorDetail : String
  isTotal : Bool
  deriving DecidableEq, Repr

def makeRow (job : PerJobMetrics) (isTotal : Bool) : JobTableRow :=
  { isTotal := isTotal
    cells :=
      [if isTotal then kTotalRowName else job.jobName, formatCount job.iopsInstant,
        formatCount job.iopsCumulative, formatRate job.bwInstant, formatRate job.bwCumulative]
      ++ (if isTotal then [kJobTableNoValue, kJobTableNoValue, kJobTableNoValue]
        else [formatLatencyUs job.latP50Ns, formatLatencyUs job.latP95Ns,
          formatLatencyUs job.latP99Ns])
      ++ [formatCount (job.readErrors + job.writeErrors)]
    errorDetail :=
      "R:" ++ job.readErrors.toNat.repr ++ " W:" ++ job.writeErrors.toNat.repr }

/-- Build one row per job plus the aggregate row. -/
def buildJobTableRows (snapshot : MetricsSnapshot) : List JobTableRow :=
  snapshot.jobs.map (makeRow · false) ++ [makeRow snapshot.aggregate true]

/-- Build the totals line shown once a run finished. -/
def buildRunSummary (results : BenchmarkResults) : String :=
  let totals := summaryTotals results.jobs
  kTotalRowName ++ "   IOPS " ++ formatCount totals.iops ++ "   BW "
    ++ (rateMiB totals.bw).toNat.repr ++ " MB/s   IO " ++ formatBytes totals.bytes
    ++ "   Err R:" ++ totals.readErrors.toNat.repr ++ " W:" ++ totals.writeErrors.toNat.repr
    ++ stopLabel results

/-- **Both displays add up the same**: the status line of the window is the line of totals at
    the terminal, and the label that the heading has there. -/
theorem runSummary_eq (results : BenchmarkResults) :
    " " ++ buildRunSummary results = totalLine results ++ stopLabel results := by
  have hhead : " TOTAL   IOPS " = " " ++ (kTotalRowName ++ "   IOPS ") := by decide
  have hjoin (iops bw bytes reads writes label : String) :
      " " ++ (kTotalRowName ++ "   IOPS " ++ iops ++ "   BW " ++ bw ++ " MB/s   IO " ++ bytes
        ++ "   Err R:" ++ reads ++ " W:" ++ writes ++ label)
      = " TOTAL   IOPS " ++ iops ++ "   BW " ++ bw ++ " MB/s   IO " ++ bytes
        ++ "   Err R:" ++ reads ++ " W:" ++ writes ++ label := by
    simp only [hhead, String.append_assoc]
  exact hjoin _ _ _ _ _ _

/-- A row has a text for each column. -/
theorem length_cells (job : PerJobMetrics) (isTotal : Bool) :
    (makeRow job isTotal).cells.length = kJobTableColumnCount := by
  cases isTotal with
  | _ => rfl

/-! ## The widget -/

/-- An item of the table.  Its text is black unless it is red. -/
structure TableItem where
  alignLeft : Bool
  text : String := ""
  bold : Bool := false
  red : Bool := false
  toolTip : String := ""
  deriving DecidableEq, Repr

/-- The rows of items. -/
structure JobTableWidget where
  items : List (List TableItem) := []
  deriving DecidableEq, Repr

/-- The items of a row that was added. -/
def newRow : List TableItem :=
  (List.range kJobTableColumnCount).map (fun column => { alignLeft := column == kJobColumn })

/-- What is written into one item. -/
def showCell (source : JobTableRow) (column : Nat) (item : TableItem) : TableItem :=
  let item := { item with text := source.cells.getD column "", bold := source.isTotal }
  if column = kErrorsColumn then
    { item with
      red := decide (source.cells.getD kErrorsColumn "" ≠ "0")
      toolTip := source.errorDetail }
  else item

def showRow (source : JobTableRow) (items : List TableItem) : List TableItem :=
  items.mapIdx (showCell source)

/-- Show a sample. -/
def JobTableWidget.setSnapshot (table : JobTableWidget) (snapshot : MetricsSnapshot) :
    JobTableWidget :=
  let rows := buildJobTableRows snapshot
  -- all rows get new items when their number changes
  let items := if table.items.length ≠ rows.length then rows.map (fun _ => newRow)
    else table.items
  { items := List.zipWith showRow rows items }

/-- The table after some samples. -/
def shownTable (snapshots : List MetricsSnapshot) : JobTableWidget :=
  snapshots.foldl JobTableWidget.setSnapshot {}

/-! ## What is left over from a row -/

/-- A row that can be written over: what writing leaves alone is as in a new row. -/
structure Reusable (items : List TableItem) : Prop where
  length : items.length = kJobTableColumnCount
  aligned : ∀ column (h : column < items.length),
    items[column].alignLeft = (column == kJobColumn)
  plain : ∀ column (h : column < items.length), column ≠ kErrorsColumn →
    items[column].red = false ∧ items[column].toolTip = ""

theorem reusable_newRow : Reusable newRow where
  length := by rw [newRow, List.length_map, List.length_range]
  aligned := fun column h => by simp only [newRow, List.getElem_map, List.getElem_range]
  plain := fun column h _ => by simp [newRow]

section Row

variable {items : List TableItem} {source : JobTableRow}

/-- A row that was filled can be filled again. -/
theorem Reusable.showRow (h : Reusable items) : Reusable (showRow source items) where
  length := (List.length_mapIdx ..).trans h.length
  aligned := by
    intro column hcolumn
    have haligned := h.aligned column (by simpa [CfioDisplay.showRow] using hcolumn)
    simp only [CfioDisplay.showRow, List.getElem_mapIdx, showCell]
    split
    · exact haligned
    · exact haligned
  plain := by
    intro column hcolumn hother
    have hplain := h.plain column (by simpa [CfioDisplay.showRow] using hcolumn) hother
    simp only [CfioDisplay.showRow, List.getElem_mapIdx, showCell, if_neg hother]
    exact hplain

/-- **Nothing shows through**: a row written over is like a new one. -/
theorem Reusable.showRow_eq (h : Reusable items) :
    CfioDisplay.showRow source items = CfioDisplay.showRow source newRow := by
  have hnew := reusable_newRow
  refine List.ext_getElem ?_ (fun column hleft hright => ?_)
  · simp only [CfioDisplay.showRow, List.length_mapIdx, h.length, hnew.length]
  · have hold : column < items.length := by simpa [CfioDisplay.showRow] using hleft
    have hfresh : column < newRow.length := by simpa [CfioDisplay.showRow] using hright
    have haligned := (h.aligned column hold).trans (hnew.aligned column hfresh).symm
    simp only [CfioDisplay.showRow, List.getElem_mapIdx, showCell]
    by_cases herrors : column = kErrorsColumn
    · -- writing sets all there is but the alignment
      simp only [if_pos herrors, haligned]
    · obtain ⟨hred, htip⟩ := h.plain column hold herrors
      obtain ⟨hred', htip'⟩ := hnew.plain column hfresh herrors
      simp only [if_neg herrors, haligned, hred, hred', htip, htip']

end Row

/-- A table of such rows. -/
def JobTableWidget.AllReusable (table : JobTableWidget) : Prop :=
  ∀ items ∈ table.items, Reusable items

/-- Whatever a table showed, its rows are those of the sample, as if they were new. -/
theorem setSnapshot_items {table : JobTableWidget} (h : table.AllReusable)
    (snapshot : MetricsSnapshot) :
    (table.setSnapshot snapshot).items
      = (buildJobTableRows snapshot).map (showRow · newRow) := by
  have hzip : ∀ (rows : List JobTableRow) (items : List (List TableItem)),
      items.length = rows.length → (∀ row ∈ items, Reusable row) →
      List.zipWith showRow rows items = rows.map (showRow · newRow) := by
    intro rows
    induction rows with
    | nil => intro items _ _; rfl
    | cons source rows ih =>
        intro items hlength hreusable
        cases items with
        | nil => cases hlength
        | cons row items =>
            have hrow := hreusable row (List.mem_cons_self ..)
            have hrest := ih items (Nat.succ.inj hlength)
              (fun r hr => hreusable r (List.mem_cons_of_mem _ hr))
            rw [List.zipWith_cons_cons, List.map_cons, hrow.showRow_eq, hrest]
  rw [JobTableWidget.setSnapshot]
  by_cases hcount : table.items.length = (buildJobTableRows snapshot).length
  · simp only [if_neg (not_not.mpr hcount)]
    exact hzip _ _ hcount h
  · simp only [if_pos hcount]
    refine hzip _ _ (List.length_map ..) (fun row hrow => ?_)
    obtain ⟨_, -, rfl⟩ := List.mem_map.mp hrow
    exact reusable_newRow

/-- A table that was filled can be filled again. -/
theorem allReusable_setSnapshot {table : JobTableWidget} (h : table.AllReusable)
    (snapshot : MetricsSnapshot) : (table.setSnapshot snapshot).AllReusable := by
  intro row hrow
  rw [setSnapshot_items h] at hrow
  obtain ⟨source, -, rfl⟩ := List.mem_map.mp hrow
  exact reusable_newRow.showRow

theorem allReusable_shown (snapshots : List MetricsSnapshot) :
    (shownTable snapshots).AllReusable := by
  have hfold : ∀ (snapshots : List MetricsSnapshot) (table : JobTableWidget),
      table.AllReusable → (snapshots.foldl JobTableWidget.setSnapshot table).AllReusable := by
    intro snapshots
    induction snapshots with
    | nil => intro table h; exact h
    | cons snapshot snapshots ih =>
        intro table h
        exact ih _ (allReusable_setSnapshot h snapshot)
  exact hfold snapshots {} (fun items hitems => by cases hitems)

/-- Only the last sample counts. -/
theorem shownTable_items (snapshots : List MetricsSnapshot) (last : MetricsSnapshot) :
    (shownTable (snapshots ++ [last])).items
      = (buildJobTableRows last).map (showRow · newRow) := by
  rw [shownTable, List.foldl_append]
  exact setSnapshot_items (allReusable_shown snapshots) last

/-! ## What it shows -/

/-- The text of zero is that of no other count. -/
theorem formatCount_eq_zero_iff {count : UInt64} : formatCount count = "0" ↔ count = 0 := by
  have hzero : formatCount 0 = "0" := by decide
  constructor
  · intro h
    exact formatCount_inj (h.trans hzero.symm)
  · rintro rfl
    exact hzero

/-- A row of the table, in the texts and the looks of its items. -/
structure ShowsRow (job : PerJobMetrics) (isTotal : Bool) (items : List TableItem) : Prop where
  texts : items.map TableItem.text = (makeRow job isTotal).cells
  bold : ∀ item ∈ items, item.bold = isTotal
  /-- red is the count of errors, if there are any -/
  red : ∀ column (h : column < items.length),
    items[column].red = true ↔ column = kErrorsColumn ∧ job.readErrors + job.writeErrors ≠ 0
  toolTip : ∀ h : kErrorsColumn < items.length,
    items[kErrorsColumn].toolTip = (makeRow job isTotal).errorDetail

/-- The cell of the errors has their sum. -/
@[simp] theorem errors_cell (job : PerJobMetrics) (isTotal : Bool) :
    (makeRow job isTotal).cells[kErrorsColumn]?.getD ""
      = formatCount (job.readErrors + job.writeErrors) := by
  cases isTotal with
  | _ => rfl

/-- A new row shows what it is filled with. -/
theorem showsRow_newRow (job : PerJobMetrics) (isTotal : Bool) :
    ShowsRow job isTotal (showRow (makeRow job isTotal) newRow) where
  texts := by
    have hlength := reusable_newRow.length
    refine List.ext_getElem ?_ (fun column hleft hright => ?_)
    · simp [showRow, hlength, length_cells]
    · simp [showRow, showCell, apply_ite TableItem.text, hright]
  bold := by
    intro item hitem
    obtain ⟨column, hcolumn, rfl⟩ := List.mem_iff_getElem.mp hitem
    simp [showRow, showCell, apply_ite TableItem.bold, makeRow]
  red := by
    intro column hcolumn
    have hnew : column < newRow.length := by simpa [showRow] using hcolumn
    by_cases herrors : column = kErrorsColumn
    · subst herrors
      simp [showRow, showCell, formatCount_eq_zero_iff]
    · have hred := (reusable_newRow.plain column hnew herrors).1
      simp [showRow, showCell, herrors, hred]
  toolTip := by
    intro hcolumn
    simp [showRow, showCell]

/-! ## No less than the terminal -/

/-- Where `f` tells enough, lists that look the same under it look the same under `g`. -/
theorem map_eq_of_map_eq {α β γ : Type*} {f : α → β} {g : α → γ}
    (h : ∀ x y, f x = f y → g x = g y) {xs ys : List α} (hmap : xs.map f = ys.map f) :
    xs.map g = ys.map g := by
  rw [← List.forall₂_eq_eq_eq, List.forall₂_map_left_iff, List.forall₂_map_right_iff] at hmap ⊢
  exact hmap.imp h

/-- What the terminal shows of a job can be told from its row in the table. -/
theorem jobRow_of_makeRow {width : String → Nat} {job job' : PerJobMetrics}
    (h : makeRow job false = makeRow job' false) : jobRow width job = jobRow width job' := by
  simp only [makeRow, Bool.false_eq_true, if_false, JobTableRow.mk.injEq, List.cons_append,
    List.nil_append, List.cons.injEq] at h
  obtain ⟨⟨hname, hiops, hiopsAvg, hbw, hbwAvg, hp50, hp95, hp99, -⟩, -⟩ := h
  rw [jobRow, jobRow, formatIopsCell, formatIopsCell, formatBwCell, formatBwCell, formatLatCell,
    formatLatCell, hname, hiops, hiopsAvg, formatRate_inj hbw, formatRate_inj hbwAvg,
    formatLatencyUs_inj hp50, formatLatencyUs_inj hp95, formatLatencyUs_inj hp99]

/-- The line of the totals, and the one below the table. -/
theorem totalRow_of_makeRow {width : String → Nat} {agg agg' : PerJobMetrics}
    (h : makeRow agg true = makeRow agg' true) :
    dataRow width "TOTAL" (formatIopsCell agg.iopsInstant agg.iopsCumulative)
        (formatBwCell agg.bwInstant agg.bwCumulative) ""
      = dataRow width "TOTAL" (formatIopsCell agg'.iopsInstant agg'.iopsCumulative)
        (formatBwCell agg'.bwInstant agg'.bwCumulative) ""
    ∧ "R:" ++ agg.readErrors.toNat.repr ++ " W:" ++ agg.writeErrors.toNat.repr
      = "R:" ++ agg'.readErrors.toNat.repr ++ " W:" ++ agg'.writeErrors.toNat.repr := by
  simp only [makeRow, if_true, JobTableRow.mk.injEq, List.cons_append, List.nil_append,
    List.cons.injEq] at h
  obtain ⟨⟨-, hiops, hiopsAvg, hbw, hbwAvg, -⟩, hdetail, -⟩ := h
  refine ⟨?_, hdetail⟩
  rw [formatIopsCell, formatIopsCell, formatBwCell, formatBwCell, hiops, hiopsAvg,
    formatRate_inj hbw, formatRate_inj hbwAvg]

/-- The terminal's view of a sample is told by the rows of the table. -/
theorem liveView_of_rows {width : String → Nat} {context : DisplayContext}
    {runtimeSeconds elapsed : Int32} {snapshot snapshot' : MetricsSnapshot}
    (h : buildJobTableRows snapshot = buildJobTableRows snapshot') :
    liveViewLines width context runtimeSeconds snapshot elapsed
      = liveViewLines width context runtimeSeconds snapshot' elapsed := by
  obtain ⟨hjobs, htotal⟩ := List.append_inj' h rfl
  obtain ⟨hline, hdetail⟩ := @totalRow_of_makeRow width _ _ (List.cons.inj htotal).1
  have herrors (reads writes : String) :
      " Errors: R:" ++ reads ++ " W:" ++ writes
        = " Errors: " ++ ("R:" ++ reads ++ " W:" ++ writes) := by
    have hhead : " Errors: R:" = " Errors: " ++ "R:" := by decide
    simp only [hhead, String.append_assoc]
  have hrows := map_eq_of_map_eq (fun _ _ => @jobRow_of_makeRow width _ _) hjobs
  simp only [liveViewLines, hrows, hline, herrors, hdetail]

/-- A row of the table tells the texts it was made from. -/
theorem makeRow_of_showRow {job job' : PerJobMetrics} {isTotal isTotal' : Bool}
    (h : showRow (makeRow job isTotal) newRow = showRow (makeRow job' isTotal') newRow) :
    makeRow job isTotal = makeRow job' isTotal' := by
  have hleft := showsRow_newRow job isTotal
  have hright := showsRow_newRow job' isTotal'
  rw [← h] at hright
  have hlength : kErrorsColumn < (showRow (makeRow job isTotal) newRow).length := by
    simp [showRow, reusable_newRow.length, kErrorsColumn, kJobTableColumnCount,
      JobTableColumn.ctorIdx]
  have hcells := hleft.texts.symm.trans hright.texts
  have hdetail := (hleft.toolTip hlength).symm.trans (hright.toolTip hlength)
  have hbold := (hleft.bold _ (List.getElem_mem hlength)).symm.trans
    (hright.bold _ (List.getElem_mem hlength))
  subst hbold
  exact JobTableRow.mk.injEq .. ▸ ⟨hcells, hdetail, rfl⟩

/-- The rows of a table, each with what it is about. -/
def tableRows (snapshot : MetricsSnapshot) : List (PerJobMetrics × Bool) :=
  snapshot.jobs.map (fun job => (job, false)) ++ [(snapshot.aggregate, true)]

/-- The rows are those of the jobs, and one for the total. -/
theorem buildJobTableRows_eq (snapshot : MetricsSnapshot) :
    buildJobTableRows snapshot = (tableRows snapshot).map (fun row => makeRow row.1 row.2) := by
  simp [buildJobTableRows, tableRows]

/-- **The table shows the last sample and nothing else**, whatever was shown before: a row for
    each job and one for all, with the texts of this sample, red only where there are errors.
    It shows no less than the terminal: samples that look the same in it look the same there. -/
theorem table_shows_last (snapshots : List MetricsSnapshot) (last : MetricsSnapshot) :
    List.Forall₂ (fun row items => ShowsRow row.1 row.2 items) (tableRows last)
      (shownTable (snapshots ++ [last])).items
    ∧ ∀ snapshots' last', shownTable (snapshots ++ [last]) = shownTable (snapshots' ++ [last']) →
      ∀ width context runtimeSeconds elapsed,
        liveViewLines width context runtimeSeconds last elapsed
          = liveViewLines width context runtimeSeconds last' elapsed := by
  constructor
  · rw [shownTable_items, buildJobTableRows_eq, List.map_map, List.forall₂_map_right_iff]
    exact List.forall₂_same.mpr (fun row _ => showsRow_newRow row.1 row.2)
  · intro snapshots' last' h width context runtimeSeconds elapsed
    have hitems := congrArg JobTableWidget.items h
    rw [shownTable_items, shownTable_items] at hitems
    refine liveView_of_rows ?_
    rw [buildJobTableRows_eq, buildJobTableRows_eq] at hitems ⊢
    rw [List.map_map, List.map_map] at hitems
    exact map_eq_of_map_eq (fun _ _ => makeRow_of_showRow) hitems

end CfioDisplay
