import Cfio.JobConfig
import Cfio.SizeParser

/-! # The two configuration parsers

    `ParseJob` of the JSON parser and of the CSV parser.  A JSON object and a CSV
    row are what the libraries hand over: a map from keys to values, and a map
    from column names to cells.  The texts of the libraries' own exceptions are
    parameters.

    Both parsers wrap what goes wrong in a job with its position and name
    (`withContext`), and hand strings to the same functions; they read integers
    differently. -/

namespace CfioConfig

open CfioTypes IntegerText

/-- `JobConfig::ParseRWMode`. -/
def parseRWMode (rwStr : String) : Except Exn RWMode :=
  let map := [("read", RWMode.kRead), ("write", .kWrite), ("randread", .kRandRead),
    ("randwrite", .kRandWrite), ("readwrite", .kReadWrite), ("randrw", .kRandRW)]
  match map.lookup rwStr with
  | some mode => .ok mode
  | none => .error (.invalidArgument ("unknown rw mode: '" ++ rwStr ++ "'"))

/-- The handlers of both parsers: an `invalid_argument` stays one, and any other
    exception becomes a `runtime_error`. -/
def withContext (ctx : String) : Exn → Exn
  | .invalidArgument what => .invalidArgument (ctx ++ what)
  | e => .runtimeError (ctx ++ e.what.getD "")

/-- The file a job uses when none is named. -/
def defaultFilename (name : String) : String := "./cfio-" ++ name ++ ".dat"

/-! ## JSON -/

/-- The values a job's fields can have. -/
inductive JsonValue where
  | string (value : String)
  | integer (value : Int64)
  | boolean (value : Bool)
  deriving DecidableEq, Repr

/-- A JSON object, as a map. -/
abbrev JsonObject := String → Option JsonValue

/-- Why the library throws a `json::exception`. -/
inductive JsonFault where
  | missing (key : String)
  | wrongType (value : JsonValue)
  deriving DecidableEq, Repr

section Json

-- the text of a `json::exception`
variable (jsonWhat : JsonFault → String)

/-- A `json::exception`, which the parser handles as it does a `runtime_error`. -/
def jsonException (fault : JsonFault) : Exn := .runtimeError (jsonWhat fault)

/-- `get<std::string>()`. -/
def JsonValue.getString : JsonValue → Except Exn String
  | .string value => .ok value
  | value => .error (jsonException jsonWhat (.wrongType value))

/-- `get<int>()`, a `static_cast<int>` of what is stored. -/
def JsonValue.getInt : JsonValue → Except Exn Int32
  | .integer value => .ok value.toInt32
  | .boolean value => .ok (if value then 1 else 0)
  | value => .error (jsonException jsonWhat (.wrongType value))

/-- `get<bool>()`. -/
def JsonValue.getBool : JsonValue → Except Exn Bool
  | .boolean value => .ok value
  | value => .error (jsonException jsonWhat (.wrongType value))

/-- `job.at(key).get<std::string>()`. -/
def JsonObject.atString (job : JsonObject) (key : String) : Except Exn String :=
  match job key with
  | some value => value.getString jsonWhat
  | none => .error (jsonException jsonWhat (.missing key))

/-- `job.value(key, default)`. -/
def JsonObject.valueOr {α : Type} (job : JsonObject) (key : String) (default_ : α)
    (get : JsonValue → Except Exn α) : Except Exn α :=
  match job key with
  | some value => get value
  | none => .ok default_

/-- The fields of a JSON job after its name. -/
def jsonFields (job : JsonObject) (name : String) : Except Exn JobConfig := do
  let engine ← job.atString jsonWhat "engine"
  let rwStr ← job.atString jsonWhat "rw"
  let rwMode ← parseRWMode rwStr
  let bsStr ← job.atString jsonWhat "bs"
  let blockSize ← parseSize bsStr .kKM
  let sizeStr ← job.atString jsonWhat "size"
  let fileSize ← parseSize sizeStr .kKMG
  let iodepth ← job.valueOr "iodepth" 1 (JsonValue.getInt jsonWhat)
  let direct ← job.valueOr "direct" true (JsonValue.getBool jsonWhat)
  let rwmixread ← job.valueOr "rwmixread" 50 (JsonValue.getInt jsonWhat)
  let filenameStr ← job.valueOr "filename" "" (JsonValue.getString jsonWhat)
  let alignStr ← job.valueOr "align" "4k" (JsonValue.getString jsonWhat)
  let alignment ← parseSize alignStr .kKM
  return {
    name := name, engine := engine, rwMode := rwMode
    accessPattern := deriveAccessPattern rwMode, blockSize := blockSize
    fileSize := fileSize, iodepth := iodepth, direct := direct, rwmixread := rwmixread
    filename := if filenameStr.isEmpty then defaultFilename name else filenameStr
    alignment := alignment }

/-- `ParseJob` of the JSON parser. -/
def jsonParseJob (job : JsonObject) (index : Nat) : Except Exn JobConfig := do
  let name ← (job.atString jsonWhat "name").mapError (fun e =>
    .runtimeError ("job[" ++ toString index ++ "]: missing or invalid 'name': "
      ++ e.what.getD ""))
  (jsonFields jsonWhat job name).mapError
    (withContext ("job[" ++ toString index ++ "] '" ++ name ++ "': "))

end Json

/-! ## CSV -/

/-- The cells of a row by column name; a row may lack a column of the header. -/
abbrev CsvRow := String → Option String

/-- Why `std::stoi` throws. -/
inductive StoiFault where
  | invalidArgument
  | outOfRange
  deriving DecidableEq, Repr

/-- `std::stoi`, with the number of characters it used. -/
def stoi (str : String) : Except StoiFault (Int32 × Nat) :=
  match readInteger str.toList with
  | none => .error .invalidArgument
  | some (value, pos) =>
      if value < -2 ^ 31 ∨ 2 ^ 31 ≤ value then .error .outOfRange
      else .ok (Int32.ofInt value, pos)

/-- `ParseInt`. -/
def parseInt (str fieldName : String) : Except Exn Int32 :=
  match stoi str with
  | .error .outOfRange =>
      .error (.invalidArgument ("'" ++ fieldName ++ "' value out of range: '" ++ str
        ++ "'"))
  | .error .invalidArgument =>
      .error (.invalidArgument ("'" ++ fieldName ++ "' is not a valid integer: '" ++ str
        ++ "'"))
  | .ok (value, pos) =>
      if pos ≠ str.length then
        .error (.invalidArgument ("'" ++ fieldName ++ "' has trailing characters: '"
          ++ str ++ "'"))
      else .ok value

/-- `ParseBool`. -/
def parseBool (str fieldName : String) : Except Exn Bool :=
  let lower := str.map Char.toLower
  if lower = "true" ∨ lower = "1" then .ok true
  else if lower = "false" ∨ lower = "0" then .ok false
  else
    .error (.invalidArgument ("'" ++ fieldName ++ "' must be true/false/1/0, got: '"
      ++ str ++ "'"))

section Csv

-- the text of the exception for a cell that is not there
variable (csvWhat : String → String)

/-- `row[field].get<std::string>()`. -/
def CsvRow.get (row : CsvRow) (field : String) : Except Exn String :=
  match row field with
  | some cell => .ok cell
  | none => .error (.runtimeError (csvWhat field))

/-- `get_opt`. -/
def CsvRow.getOpt (columns : List String) (row : CsvRow) (field : String) :
    Except Exn String :=
  if columns.contains field then row.get csvWhat field else .ok ""

/-- A required field after the name. -/
def CsvRow.required (row : CsvRow) (field : String) : Except Exn String := do
  let str ← row.get csvWhat field
  if str.isEmpty then throw (.runtimeError ("'" ++ field ++ "' is empty"))
  else return str

/-- The fields of a CSV job after its name. -/
def csvFields (columns : List String) (row : CsvRow) (name : String) :
    Except Exn JobConfig := do
  let engine ← row.required csvWhat "engine"
  let rwStr ← row.required csvWhat "rw"
  let rwMode ← parseRWMode rwStr
  let bsStr ← row.required csvWhat "bs"
  let blockSize ← parseSize bsStr .kKM
  let sizeStr ← row.required csvWhat "size"
  let fileSize ← parseSize sizeStr .kKMG
  let iodepthStr ← row.getOpt csvWhat columns "iodepth"
  let iodepth ← (if iodepthStr.isEmpty then .ok 1 else parseInt iodepthStr "iodepth")
  let directStr ← row.getOpt csvWhat columns "direct"
  let direct ← (if directStr.isEmpty then .ok true else parseBool directStr "direct")
  let rwmixStr ← row.getOpt csvWhat columns "rwmixread"
  let rwmixread ← (if rwmixStr.isEmpty then .ok 50 else parseInt rwmixStr "rwmixread")
  let filenameStr ← row.getOpt csvWhat columns "filename"
  let alignStr ← row.getOpt csvWhat columns "align"
  let alignment ←
    (if alignStr.isEmpty then parseSize "4k" .kKM else parseSize alignStr .kKM)
  return {
    name := name, engine := engine, rwMode := rwMode
    accessPattern := deriveAccessPattern rwMode, blockSize := blockSize
    fileSize := fileSize, iodepth := iodepth, direct := direct, rwmixread := rwmixread
    filename := if filenameStr.isEmpty then defaultFilename name else filenameStr
    alignment := alignment }

/-- `ParseJob` of the CSV parser. -/
def csvParseJob (columns : List String) (row : CsvRow) (index : Nat) :
    Except Exn JobConfig := do
  let name ← (row.get csvWhat "name").mapError (fun e =>
    .runtimeError ("row[" ++ toString index ++ "]: error reading 'name': "
      ++ e.what.getD ""))
  if name.isEmpty then
    throw (.runtimeError ("row[" ++ toString index ++ "]: 'name' is empty"))
  (csvFields csvWhat columns row name).mapError
    (withContext ("row[" ++ toString index ++ "] '" ++ name ++ "': "))

end Csv

end CfioConfig
