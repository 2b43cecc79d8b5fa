import Cfio.BenchmarkResults
import Cfio.ConfigParsers
import Cfio.JsonPrinter
import Cfio.ResultsExporter

/-! # Exporting the summary

    `ExportJson` builds an ordered JSON value of the results and writes what the JSON library
    dumps of it.  The library is not part of the program: `dump` is a parameter, and what is
    documented of it is that its text stands for the value (`DumpsDocuments`).

    `Summary` says what a reader of the file wants to know.  Whatever the results, a reader of
    JSON gets the file back as the summary of these results (`exportJson_read`). -/

namespace CfioReporting

open CfioTypes CfioConfig CfioMetrics CfioDisplayContext JsonText Checks

/-! ## Values of the JSON library -/

/-- `nlohmann::ordered_json`. -/
inductive OrderedJson where
  | null
  | boolean (b : Bool)
  | numberUnsigned (n : UInt64)
  | numberInteger (i : Int32)
  | numberFloat (q : ℚ)
  | string (s : String)
  | array (elements : List OrderedJson)
  | object (members : List (String × OrderedJson))

mutual

/-- The JSON value it holds. -/
def OrderedJson.value : OrderedJson → Value
  | .null => .null
  | .boolean b => .bool b
  | .numberUnsigned n => .number n.toNat
  | .numberInteger i => .number i.toInt
  | .numberFloat q => .number q
  | .string s => .string s
  | .array elements => .array (elementValues elements)
  | .object members => .object (memberValues members)

def elementValues : List OrderedJson → List Value
  | [] => []
  | j :: js => j.value :: elementValues js

def memberValues : List (String × OrderedJson) → List (String × Value)
  | [] => []
  | (key, j) :: js => (key, j.value) :: memberValues js

end

/-- The elements of an array, one by one. -/
theorem elementValues_eq_map (js : List OrderedJson) :
    elementValues js = js.map OrderedJson.value := by
  induction js with
  | nil => rfl
  | cons j js ih => rw [elementValues, ih, List.map_cons]

/-- The numbers `dump` is known to write exactly: integers of any size, and decimals of at
    most fifteen digits, three of them behind the point. -/
def DumpedExactly (q : ℚ) : Prop :=
  (∃ i : Int, q = i) ∨ ∃ m : Int, m.natAbs < 10 ^ 15 ∧ q = m / 1000

/-- What is documented of `dump`. -/
def DumpsDocuments (dump : OrderedJson → String) : Prop :=
  ∀ j : OrderedJson, j.value.AllNumbers DumpedExactly → Document j.value (dump j).toList

/-! ## The exporter -/

/-- `JobConfig::ToString` of a workload mode. -/
def rwModeToString : RWMode → String
  | .kRead => "read"
  | .kWrite => "write"
  | .kRandRead => "randread"
  | .kRandWrite => "randwrite"
  | .kReadWrite => "readwrite"
  | .kRandRW => "randrw"

def kSecondsScale : ℚ := 1000

/-- Round a duration to three decimals.  The number is taken as exact; as a `double` a half
    millisecond can lie on either side. -/
def roundSeconds (seconds : ℚ) : ℚ := (llround (seconds * kSecondsScale) : ℚ) / kSecondsScale

def jobConfigToJson (config : JobConfig) : OrderedJson :=
  .object
    [("engine", .string config.engine),
      ("rw", .string (rwModeToString config.rwMode)),
      ("bs", .numberUnsigned config.blockSize),
      ("size", .numberUnsigned config.fileSize),
      ("iodepth", .numberInteger config.iodepth)]

def jobResultsToJson (results : JobResults) : OrderedJson :=
  let errors := OrderedJson.object
    [("read", .numberUnsigned results.readErrors), ("write", .numberUnsigned results.writeErrors)]
  .object
    [("iops_avg", .numberUnsigned results.iopsAvg),
      ("bw_avg_bytes", .numberUnsigned results.bwAvgBytes),
      ("lat_min_ns", .numberUnsigned results.latMinNs),
      ("lat_max_ns", .numberUnsigned results.latMaxNs),
      ("lat_p50_ns", .numberUnsigned results.latP50Ns),
      ("lat_p95_ns", .numberUnsigned results.latP95Ns),
      ("lat_p99_ns", .numberUnsigned results.latP99Ns),
      ("total_ios", .numberUnsigned results.totalIos),
      ("total_bytes", .numberUnsigned results.totalBytes),
      ("direct_effective", .boolean results.directEffective),
      ("failed", .boolean results.failed),
      ("error", if results.errorMessage = "" then .null else .string results.errorMessage),
      ("errors", errors)]

def globalConfigToJson (opts : CliOptions) : OrderedJson :=
  .object
    [("engine_override", match opts.engineOverride with
        | some engine => .string engine
        | none => .null),
      ("direct", match opts.directOverride with
        | some direct => .boolean direct
        | none => .null)]

/-- The entry of a job. -/
def jobToJson (job : JobResults) : OrderedJson :=
  .object
    [("name", .string job.name), ("config", jobConfigToJson job.config),
      ("results", jobResultsToJson job)]

/-- The value `ExportJson` builds. -/
def resultsToJson (results : BenchmarkResults) : OrderedJson :=
  .object
    [("cfio_version", .string results.cfioVersion),
      ("timestamp", .string results.timestamp),
      ("runtime_seconds", .numberInteger results.runtimeSeconds),
      ("elapsed_seconds", .numberFloat (roundSeconds results.elapsedSeconds)),
      ("interrupted", .boolean results.interrupted),
      ("global_config", globalConfigToJson results.globalConfig),
      ("jobs", .array (results.jobs.map jobToJson))]

/-- Write the summary: what the file holds afterwards. -/
def exportJson (dump : OrderedJson → String) (out : OutputFile) (results : BenchmarkResults)
    (outputDir : String) : Except Exn String :=
  let outPath := joinPath outputDir "summary.json"
  if !out.isOpen then
    throw (.runtimeError ("cannot open output file: '" ++ outPath ++ "'"))
  else
    let text := dump (resultsToJson results) ++ "\n"
    if !out.good then
      throw (.runtimeError ("failed writing output file: '" ++ outPath ++ "'"))
    else return text

/-! ## What a reader wants to know -/

/-- What a job was to do. -/
structure ConfigSummary where
  engine : String
  rwMode : RWMode
  blockSize : Nat
  fileSize : Nat
  iodepth : Int
  deriving DecidableEq

/-- What became of it. -/
structure ResultsSummary where
  iopsAvg : Nat
  bwAvgBytes : Nat
  latMinNs : Nat
  latMaxNs : Nat
  latP50Ns : Nat
  latP95Ns : Nat
  latP99Ns : Nat
  totalIos : Nat
  totalBytes : Nat
  directEffective : Bool
  failed : Bool
  error : Option String
  readErrors : Nat
  writeErrors : Nat
  deriving DecidableEq

/-- A job in the summary. -/
structure JobSummary where
  name : String
  config : ConfigSummary
  results : ResultsSummary
  deriving DecidableEq

/-- The summary of a run.  The elapsed time is in milliseconds. -/
structure Summary where
  cfioVersion : String
  timestamp : String
  runtimeSeconds : Int
  elapsedMs : Int
  interrupted : Bool
  engineOverride : Option String
  directOverride : Option Bool
  jobs : List JobSummary
  deriving DecidableEq

def configSummary (config : JobConfig) : ConfigSummary :=
  { engine := config.engine
    rwMode := config.rwMode
    blockSize := config.blockSize.toNat
    fileSize := config.fileSize.toNat
    iodepth := config.iodepth.toInt }

def resultsSummary (job : JobResults) : ResultsSummary :=
  { iopsAvg := job.iopsAvg.toNat
    bwAvgBytes := job.bwAvgBytes.toNat
    latMinNs := job.latMinNs.toNat
    latMaxNs := job.latMaxNs.toNat
    latP50Ns := job.latP50Ns.toNat
    latP95Ns := job.latP95Ns.toNat
    latP99Ns := job.latP99Ns.toNat
    totalIos := job.totalIos.toNat
    totalBytes := job.totalBytes.toNat
    directEffective := job.directEffective
    failed := job.failed
    error := if job.errorMessage = "" then none else some job.errorMessage
    readErrors := job.readErrors.toNat
    writeErrors := job.writeErrors.toNat }

def jobSummary (job : JobResults) : JobSummary :=
  { name := job.name, config := configSummary job.config, results := resultsSummary job }

def summaryOf (results : BenchmarkResults) : Summary :=
  { cfioVersion := results.cfioVersion
    timestamp := results.timestamp
    runtimeSeconds := results.runtimeSeconds.toInt
    elapsedMs := llround (results.elapsedSeconds * 1000)
    interrupted := results.interrupted
    engineOverride := results.globalConfig.engineOverride
    directOverride := results.globalConfig.directOverride
    jobs := results.jobs.map jobSummary }

/-! ## Reading it -/

def readRWMode (v : Value) : Option RWMode :=
  v.asString.bind (fun s => (parseRWMode s).toOption)

def readConfig (v : Value) : Option ConfigSummary := do
  let engine ← v.field "engine" Value.asString
  let rwMode ← v.field "rw" readRWMode
  let blockSize ← v.field "bs" Value.asNat
  let fileSize ← v.field "size" Value.asNat
  let iodepth ← v.field "iodepth" Value.asInt
  return { engine, rwMode, blockSize, fileSize, iodepth }

def readResults (v : Value) : Option ResultsSummary := do
  let iopsAvg ← v.field "iops_avg" Value.asNat
  let bwAvgBytes ← v.field "bw_avg_bytes" Value.asNat
  let latMinNs ← v.field "lat_min_ns" Value.asNat
  let latMaxNs ← v.field "lat_max_ns" Value.asNat
  let latP50Ns ← v.field "lat_p50_ns" Value.asNat
  let latP95Ns ← v.field "lat_p95_ns" Value.asNat
  let latP99Ns ← v.field "lat_p99_ns" Value.asNat
  let totalIos ← v.field "total_ios" Value.asNat
  let totalBytes ← v.field "total_bytes" Value.asNat
  let directEffective ← v.field "direct_effective" Value.asBool
  let failed ← v.field "failed" Value.asBool
  let error ← v.field "error" (Value.asOptional Value.asString)
  let readErrors ← v.field "errors" (fun errors => errors.field "read" Value.asNat)
  let writeErrors ← v.field "errors" (fun errors => errors.field "write" Value.asNat)
  return {
    iopsAvg, bwAvgBytes, latMinNs, latMaxNs, latP50Ns, latP95Ns, latP99Ns, totalIos, totalBytes
    directEffective, failed, error, readErrors, writeErrors }

/-- A job, from its entry. -/
def readJob (v : Value) : Option JobSummary := do
  let name ← v.field "name" Value.asString
  let config ← v.field "config" readConfig
  let results ← v.field "results" readResults
  return { name, config, results }

/-- The summary, from the whole value. -/
def readSummary (v : Value) : Option Summary := do
  let cfioVersion ← v.field "cfio_version" Value.asString
  let timestamp ← v.field "timestamp" Value.asString
  let runtimeSeconds ← v.field "runtime_seconds" Value.asInt
  let elapsedMs ← v.field "elapsed_seconds" (Value.asUnits 1000)
  let interrupted ← v.field "interrupted" Value.asBool
  let engineOverride ← v.field "global_config" (fun config =>
    config.field "engine_override" (Value.asOptional Value.asString))
  let directOverride ← v.field "global_config" (fun config =>
    config.field "direct" (Value.asOptional Value.asBool))
  let jobs ← v.field "jobs" (Value.asList readJob)
  return {
    cfioVersion, timestamp, runtimeSeconds, elapsedMs, interrupted, engineOverride
    directOverride, jobs }

/-- The parser knows every mode by the text the exporter gives it. -/
theorem parseRWMode_toString (mode : RWMode) : parseRWMode (rwModeToString mode) = .ok mode := by
  cases mode <;> rfl

/-- The configuration of a job is read back. -/
theorem readConfig_value (config : JobConfig) :
    readConfig (jobConfigToJson config).value = some (configSummary config) := by
  have hmode : readRWMode (.string (rwModeToString config.rwMode)) = some config.rwMode := by
    rw [readRWMode, Value.asString, Option.bind_some, parseRWMode_toString]
    rfl
  simp [readConfig, jobConfigToJson, OrderedJson.value, memberValues, field_cons, hmode,
    asNat_number, asInt_number, Value.asString, configSummary]

/-- The results of a job are read back. -/
theorem readResults_value (job : JobResults) :
    readResults (jobResultsToJson job).value = some (resultsSummary job) := by
  have herror : (if job.errorMessage = "" then OrderedJson.null
      else .string job.errorMessage).value.asOptional Value.asString
      = some (resultsSummary job).error := by
    by_cases h : job.errorMessage = ""
    · simp only [resultsSummary, if_pos h]
      rfl
    · simp only [resultsSummary, if_neg h]
      rfl
  simp [readResults, jobResultsToJson, OrderedJson.value, memberValues, field_cons, herror,
    asNat_number, Value.asBool]
  rfl

theorem readJob_value (job : JobResults) :
    readJob (jobToJson job).value = some (jobSummary job) := by
  simp [readJob, jobToJson, OrderedJson.value, memberValues, field_cons, readConfig_value,
    readResults_value, Value.asString, jobSummary]

/-- **The value holds the summary.** -/
theorem readSummary_value (results : BenchmarkResults) :
    readSummary (resultsToJson results).value = some (summaryOf results) := by
  have hjobs : (OrderedJson.array (results.jobs.map jobToJson)).value.asList readJob
      = some (results.jobs.map jobSummary) := by
    rw [OrderedJson.value, elementValues_eq_map, List.map_map]
    exact asList_map readJob_value results.jobs
  have helapsed : (OrderedJson.numberFloat (roundSeconds results.elapsedSeconds)).value.asUnits
      1000 = some (llround (results.elapsedSeconds * 1000)) :=
    asUnits_div (by decide)
  have hengine : (match results.globalConfig.engineOverride with
      | some engine => OrderedJson.string engine
      | none => .null).value.asOptional Value.asString
      = some results.globalConfig.engineOverride := by
    cases results.globalConfig.engineOverride <;> rfl
  have hdirect : (match results.globalConfig.directOverride with
      | some direct => OrderedJson.boolean direct
      | none => .null).value.asOptional Value.asBool
      = some results.globalConfig.directOverride := by
    cases results.globalConfig.directOverride <;> rfl
  simp only [OrderedJson.value] at hjobs helapsed
  simp [readSummary, resultsToJson, globalConfigToJson, OrderedJson.value, memberValues,
    field_cons, hjobs, helapsed, hengine, hdirect, asInt_number, Value.asString, Value.asBool,
    summaryOf]

/-! ## The file -/

/-- A steady clock measures no longer span. -/
def kMaxElapsed : ℚ := 2 ^ 63 / 10 ^ 9

/-- A count is written exactly. -/
theorem dumpedExactly_nat (n : Nat) : DumpedExactly n := .inl ⟨n, by push_cast; rfl⟩

/-- An integer is written exactly. -/
theorem dumpedExactly_int (i : Int) : DumpedExactly i := .inl ⟨i, rfl⟩

/-- A span of the clock has no more digits than are written exactly. -/
theorem dumpedExactly_elapsed {seconds : ℚ} (h0 : 0 ≤ seconds) (h1 : seconds ≤ kMaxElapsed) :
    DumpedExactly (roundSeconds seconds) := by
  refine .inr ⟨llround (seconds * kSecondsScale), ?_, rfl⟩
  have hpos : 0 ≤ seconds * kSecondsScale := mul_nonneg h0 (by norm_num [kSecondsScale])
  have hsmall : seconds * kSecondsScale + 1 / 2 < ((10 ^ 15 : Int) : ℚ) := by
    norm_num [kMaxElapsed, kSecondsScale] at h1 ⊢
    linarith
  have hlow : 0 ≤ llround (seconds * kSecondsScale) := by
    rw [llround_of_nonneg hpos]
    exact Int.floor_nonneg.mpr (by linarith)
  have hhigh : llround (seconds * kSecondsScale) < 10 ^ 15 := by
    rw [llround_of_nonneg hpos]
    exact Int.floor_lt.mpr hsmall
  omega

/-- All numbers of a job are counts or integers. -/
theorem allNumbers_job (job : JobResults) : (jobToJson job).value.AllNumbers DumpedExactly := by
  have herror : (if job.errorMessage = "" then OrderedJson.null
      else .string job.errorMessage).value.AllNumbers DumpedExactly := by
    by_cases h : job.errorMessage = ""
    · rw [if_pos h]
      trivial
    · rw [if_neg h]
      trivial
  simp only [jobToJson, jobConfigToJson, jobResultsToJson, OrderedJson.value, memberValues,
    Value.AllNumbers, membersAllNumbers, herror, dumpedExactly_nat, dumpedExactly_int, and_self]

/-- The only number that is neither is the elapsed time. -/
theorem allNumbers_results {results : BenchmarkResults}
    (helapsed : DumpedExactly (roundSeconds results.elapsedSeconds)) :
    (resultsToJson results).value.AllNumbers DumpedExactly := by
  have hengine : (match results.globalConfig.engineOverride with
      | some engine => OrderedJson.string engine
      | none => .null).value.AllNumbers DumpedExactly := by
    cases results.globalConfig.engineOverride <;> trivial
  have hdirect : (match results.globalConfig.directOverride with
      | some direct => OrderedJson.boolean direct
      | none => .null).value.AllNumbers DumpedExactly := by
    cases results.globalConfig.directOverride <;> trivial
  have hjobs : elementsAllNumbers DumpedExactly (elementValues (results.jobs.map jobToJson)) := by
    rw [elementsAllNumbers_iff, elementValues_eq_map, List.map_map]
    intro v hv
    obtain ⟨job, -, rfl⟩ := List.mem_map.mp hv
    exact allNumbers_job job
  simp only [resultsToJson, globalConfigToJson, OrderedJson.value, memberValues,
    Value.AllNumbers, membersAllNumbers, hengine, hdirect, hjobs, helapsed, dumpedExactly_int,
    and_self]

/-- A reader of JSON gets the summary of the results out of the file. -/
theorem read_exportJson {dump : OrderedJson → String} (hdump : DumpsDocuments dump)
    {out : OutputFile} {results : BenchmarkResults} {outputDir text : String}
    (h0 : 0 ≤ results.elapsedSeconds) (h1 : results.elapsedSeconds ≤ kMaxElapsed)
    (h : exportJson dump out results outputDir = .ok text) :
    (read text.toList).bind readSummary = some (summaryOf results) := by
  obtain ⟨-, h⟩ := guard_ok_iff.mp h
  obtain ⟨-, h⟩ := guard_ok_iff.mp h
  have hdocument := hdump (resultsToJson results)
    (allNumbers_results (dumpedExactly_elapsed h0 h1))
  rw [← Except.ok.inj h, String.toList_append, read_document (hdocument.append_space (by decide)),
    Option.bind_some, readSummary_value]

/-- A library that dumps with an indentation of two. -/
def dumpIndented (j : OrderedJson) : String := String.ofList (print numberText 2 0 j.value)

/-- The printer behaves as the library does. -/
theorem dumpsDocuments_dumpIndented : DumpsDocuments dumpIndented := by
  intro j hj
  rw [dumpIndented, String.toList_ofList]
  refine document_print (P := DumpedExactly) (fun q hq => numberOf_numberText ?_) 2 hj
  rcases hq with ⟨i, rfl⟩ | ⟨m, -, rfl⟩
  · exact ⟨i * 1000, by push_cast; rfl⟩
  · exact ⟨m, by rw [div_mul_cancel₀ _ (by norm_num)]⟩

/-- A run with one job that failed. -/
def oneFailedJob : BenchmarkResults :=
  { cfioVersion := kCfioVersion
    timestamp := "2026-01-01T00:00:00Z"
    runtimeSeconds := 10
    elapsedSeconds := 25008 / 10000
    interrupted := true
    globalConfig := { engineOverride := some "psync" }
    jobs := [{ name := "a\"b"
               config := { name := "a\"b", engine := "psync", blockSize := 4096
                           fileSize := 1048576 }
               iopsAvg := 1000
               totalIos := 18446744073709551615
               failed := true
               errorMessage := "write\nfailed" }] }

end CfioReporting
