import Cfio.Checks
import Cfio.CsvText
import Cfio.IntegerText
import Cfio.MetricsSnapshot

/-! # Exporting the time series

    `ExportCsv` writes one line per sample and job, with the job's name between
    its commas as it is.  `exportCsv_read_iff` says for which names a reader of comma
    separated values gets the rows back. -/

namespace CfioReporting

open CfioTypes CfioMetrics CsvText IntegerText Checks

/-- What becomes of the output file: whether it can be opened, and whether what is
    written reaches it. -/
structure OutputFile where
  isOpen : Bool
  good : Bool

/-- `std::filesystem::path::operator/`, for a relative name. -/
def joinPath (dir name : String) : String :=
  if dir.toList.getLast?.all (· = '/') then dir ++ name else dir ++ "/" ++ name

def csvHeader : String :=
  "timestamp_s,job_name,iops,bw_bytes,lat_p50_ns,lat_p95_ns,lat_p99_ns,errors\n"

/-- The line of one job. -/
def csvRow (second : Int) (job : PerJobMetrics) : String :=
  toString second ++ "," ++ job.jobName ++ "," ++ toString job.iopsInstant ++ ","
    ++ toString job.bwInstant ++ "," ++ toString job.latP50Ns ++ ","
    ++ toString job.latP95Ns ++ "," ++ toString job.latP99Ns ++ ","
    ++ toString (job.readErrors + job.writeErrors) ++ "\n"

/-- The lines of one sample. -/
def csvRows (sample : MetricsSnapshot) : List String :=
  let second := llround sample.elapsedSeconds
  sample.jobs.map (csvRow second)

/-- Write timeseries: what the file holds afterwards. -/
def exportCsv (out : OutputFile) (timeSeries : List MetricsSnapshot)
    (outputDir : String) : Except Exn String :=
  let outPath := joinPath outputDir "timeseries.csv"
  if !out.isOpen then
    throw (.runtimeError ("cannot open output file: '" ++ outPath ++ "'"))
  else
    let text := csvHeader ++ String.join (timeSeries.flatMap csvRows)
    if !out.good then
      throw (.runtimeError ("failed writing output file: '" ++ outPath ++ "'"))
    else return text

/-! ## The table -/

/-- The names of the columns. -/
def columns : List String :=
  ["timestamp_s", "job_name", "iops", "bw_bytes", "lat_p50_ns", "lat_p95_ns",
    "lat_p99_ns", "errors"]

/-- The record of one job. -/
def jobRecord (second : Int) (job : PerJobMetrics) : List String :=
  [toString second, job.jobName, toString job.iopsInstant, toString job.bwInstant,
    toString job.latP50Ns, toString job.latP95Ns, toString job.latP99Ns,
    toString (job.readErrors + job.writeErrors)]

/-- The records the time series stands for. -/
def timeSeriesRecords (timeSeries : List MetricsSnapshot) : List (List String) :=
  timeSeries.flatMap (fun sample =>
    sample.jobs.map (jobRecord (llround sample.elapsedSeconds)))

/-- The characters of a table. -/
def chars (rows : List (List String)) : Table := rows.map (·.map String.toList)

/-- A line is the record, its fields as they are. -/
theorem csvRow_toList (second : Int) (job : PerJobMetrics) :
    (csvRow second job).toList = writeRecord ((jobRecord second job).map String.toList) := by
  delta csvRow
  simp only [String.toList_append, List.append_assoc]
  rfl

theorem csvHeader_toList : csvHeader.toList = writeRecord (columns.map String.toList) := by
  simp [csvHeader, columns, writeRecord]

/-- The lines of a sample are its records. -/
theorem csvRows_toList (sample : MetricsSnapshot) :
    (csvRows sample).flatMap String.toList
      = write (chars (sample.jobs.map (jobRecord (llround sample.elapsedSeconds)))) := by
  simp only [csvRows, chars, write, List.flatMap_map]
  exact List.flatMap_congr (fun job _ => csvRow_toList _ job)

/-- **The file is the table**, its fields as they are. -/
theorem exportCsv_eq_write {out : OutputFile} {timeSeries : List MetricsSnapshot}
    {outputDir text : String} (h : exportCsv out timeSeries outputDir = .ok text) :
    text.toList = write (chars (columns :: timeSeriesRecords timeSeries)) := by
  obtain ⟨-, h⟩ := guard_ok_iff.mp h
  obtain ⟨-, h⟩ := guard_ok_iff.mp h
  rw [← Except.ok.inj h, String.toList_append, String.toList_join, csvHeader_toList,
    List.flatMap_assoc]
  show _ = writeRecord (columns.map String.toList) ++ write (chars (timeSeriesRecords timeSeries))
  congr 1
  simp only [timeSeriesRecords, write, chars, List.map_flatMap, List.flatMap_assoc]
  exact List.flatMap_congr (fun sample _ => csvRows_toList sample)

/-! ## Reading it back -/

/-- A digit has no meaning of its own. -/
theorem plainChar_of_isDigit {c : Char} (h : c.isDigit = true) : PlainChar c := by
  have hne (d : Char) (hd : d.isDigit = false) : c ≠ d := by
    rintro rfl
    exact absurd h (by rw [hd]; decide)
  exact ⟨hne ',' (by decide), hne '\"' (by decide), hne '\n' (by decide), hne '\r' (by decide)⟩

theorem plain_nat (n : Nat) : Plain (toString n).toList :=
  fun _ hc => plainChar_of_isDigit (isDigit_of_mem_repr hc)

theorem plain_int (i : Int) : Plain (toString i).toList := by
  show Plain i.repr.toList
  rw [Int.repr_eq_if]
  by_cases h : 0 ≤ i
  · rw [if_pos h]
    exact plain_nat i.toNat
  · rw [if_neg h, String.toList_append]
    exact List.forall_mem_cons.mpr ⟨by decide, plain_nat (-i).toNat⟩

/-- Of a record, only the job's name may have characters with a meaning. -/
theorem plain_jobRecord_iff {second : Int} {job : PerJobMetrics} :
    (∀ f ∈ (jobRecord second job).map String.toList, Plain f) ↔ Plain job.jobName.toList := by
  simp only [jobRecord, List.map_cons, List.map_nil, List.forall_mem_cons]
  constructor
  · rintro ⟨-, h, -⟩
    exact h
  · intro h
    exact ⟨plain_int second, h, plain_nat _, plain_nat _, plain_nat _, plain_nat _,
      plain_nat _, plain_nat _, nofun⟩

theorem plain_columns : ∀ f ∈ columns.map String.toList, Plain f := by
  simp [columns, Plain, PlainChar]

/-- A name the CSV can hold as it is. -/
def PlainName (name : String) : Prop := Plain name.toList

instance (name : String) : Decidable (PlainName name) :=
  inferInstanceAs (Decidable (Plain name.toList))

/-- Every job in the time series has such a name. -/
def PlainNames (timeSeries : List MetricsSnapshot) : Prop :=
  ∀ sample ∈ timeSeries, ∀ job ∈ sample.jobs, PlainName job.jobName

instance (timeSeries : List MetricsSnapshot) : Decidable (PlainNames timeSeries) :=
  inferInstanceAs (Decidable (∀ sample ∈ timeSeries, ∀ job ∈ sample.jobs, _))

/-- No record of the table is empty. -/
theorem record_ne_nil {timeSeries : List MetricsSnapshot} {r : List (List Char)}
    (h : r ∈ chars (columns :: timeSeriesRecords timeSeries)) : r ≠ [] := by
  obtain ⟨record, hrecord, rfl⟩ := List.mem_map.mp h
  rcases List.mem_cons.mp hrecord with rfl | hrecord
  · exact nofun
  · obtain ⟨sample, -, hrecord⟩ := List.mem_flatMap.mp hrecord
    obtain ⟨job, -, rfl⟩ := List.mem_map.mp hrecord
    exact nofun

/-- The table is plain if and only if the names are. -/
theorem plain_table_iff {timeSeries : List MetricsSnapshot} :
    (∀ r ∈ chars (columns :: timeSeriesRecords timeSeries), ∀ f ∈ r, Plain f)
      ↔ PlainNames timeSeries := by
  constructor
  · intro h sample hsample job hjob
    have hrecord : jobRecord (llround sample.elapsedSeconds) job
        ∈ timeSeriesRecords timeSeries :=
      List.mem_flatMap.mpr ⟨sample, hsample, List.mem_map_of_mem hjob⟩
    exact plain_jobRecord_iff.mp
      (h _ (List.mem_map_of_mem (List.mem_cons_of_mem _ hrecord)))
  · intro h r hr
    obtain ⟨record, hrecord, rfl⟩ := List.mem_map.mp hr
    rcases List.mem_cons.mp hrecord with rfl | hrecord
    · exact plain_columns
    · obtain ⟨sample, hsample, hrecord⟩ := List.mem_flatMap.mp hrecord
      obtain ⟨job, hjob, rfl⟩ := List.mem_map.mp hrecord
      exact plain_jobRecord_iff.mpr (h sample hsample job hjob)

/-- **Quotes would be enough**: between them every field of every time series is read back. -/
theorem read_quoted (timeSeries : List MetricsSnapshot) :
    read (write ((chars (columns :: timeSeriesRecords timeSeries)).map (·.map quoteField)))
      = some (chars (columns :: timeSeriesRecords timeSeries)) :=
  read_write_quoteField (fun _ => record_ne_nil)

/-- **The file is read back as its table** if and only if no job's name has a comma, a
    double quote, a CR or a LF in it. -/
theorem exportCsv_read_iff {out : OutputFile} {timeSeries : List MetricsSnapshot}
    {outputDir text : String} (h : exportCsv out timeSeries outputDir = .ok text) :
    read text.toList = some (chars (columns :: timeSeriesRecords timeSeries))
      ↔ PlainNames timeSeries := by
  rw [exportCsv_eq_write h, read_write_iff (fun _ => record_ne_nil)]
  exact plain_table_iff

/-- A second of a run with one job. -/
def seconds (name : String) : List MetricsSnapshot :=
  [{ elapsedSeconds := 3 / 2
     jobs := [{ jobName := name, iopsInstant := 1000, bwInstant := 4096000
                latP50Ns := 8000, latP95Ns := 32000, latP99Ns := 45000
                readErrors := 3, writeErrors := 7 }] }]

theorem exportCsv_read_iff_job :
    read (csvHeader ++ "2,job,1000,4096000,8000,32000,45000,10\n").toList
        = some (chars (columns :: timeSeriesRecords (seconds "job")))
      ↔ PlainNames (seconds "job") := by
  have h : exportCsv ⟨true, true⟩ (seconds "job") "out"
      = .ok (csvHeader ++ "2,job,1000,4096000,8000,32000,45000,10\n") := by decide +kernel
  exact exportCsv_read_iff h

/-- A name with a comma becomes two fields, and the record has nine. -/
theorem exportCsv_comma :
    ∃ text rows, exportCsv ⟨true, true⟩ (seconds "read,write") "out" = .ok text
      ∧ read text.toList = some (chars rows)
      ∧ rows = [columns, ["2", "read", "write", "1000", "4096000", "8000", "32000", "45000",
          "10"]]
      ∧ chars rows ≠ chars (columns :: timeSeriesRecords (seconds "read,write")) :=
  ⟨csvHeader ++ "2,read,write,1000,4096000,8000,32000,45000,10\n", _,
    by decide +kernel, by decide +kernel, rfl, by decide +kernel⟩

end CfioReporting
