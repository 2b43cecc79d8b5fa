import Cfio.DirectLabel
import Cfio.ListChecks
import Cfio.ParserAgreement

/-! # From a configuration file to the jobs of a run

    `JsonParser::Parse` and `CsvParser::Parse` on a whole file, the factory that
    chooses between them by the extension, and what `main` does before it starts
    anything: parse, override, validate.

    The libraries read the file; what they deliver is the input here (`JsonFile`,
    `CsvFile`).  The jobs that a run is started with are then those of the entries
    of the file, in its order and with the overrides (`load_accepts`), anything
    else is rejected with an error that says where (`load_diagnosis`), and the two
    formats differ in nothing but the range of their integers
    (`documents_agree`). -/

namespace CfioConfig

open CfioTypes CfioDisplayContext Checks

/-! ## What the libraries deliver -/

/-- An element of the array of jobs. -/
inductive JsonElement where
  | object (job : JsonObject)
  | other

/-- The value of the key `jobs`. -/
inductive JsonJobs where
  | array (elements : List JsonElement)
  | other

/-- The root of a document. -/
inductive JsonRoot where
  | object (jobs : Option JsonJobs)
  | other

/-- A file, read as JSON. -/
inductive JsonFile where
  | unopened
  | malformed (what : String)
  | document (root : JsonRoot)

/-- A file, read as CSV. -/
inductive CsvFile where
  | unopened (what : String)
  | table (columns : List String) (rows : List CsvRow)

/-- A file, as either library reads it. -/
structure ConfigFile where
  json : JsonFile
  csv : CsvFile

/-- The texts of the libraries' exceptions. -/
structure LibraryTexts where
  json : JsonFault → String
  /-- for `at` on a value that is no object -/
  notObject : String
  csv : String → String

section Parsers

variable (texts : LibraryTexts) (path : String)

/-! ## The two parsers -/

/-- The handlers around `ParseJob`: an `invalid_argument` and a `runtime_error` pass, as
    does what is no `std::exception`. -/
def rethrown (label : String) : Exn → Exn
  | .logicError what => .runtimeError (label ++ ": " ++ what)
  | .badAlloc => .runtimeError (label ++ ": std::bad_alloc")
  | e => e

/-- `ParseJob` on an element of the array. -/
def jsonParseElement (index : Nat) : JsonElement → Except Exn JobConfig
  | .object job => jsonParseJob texts.json job index
  | .other =>
      .error (.runtimeError ("job[" ++ toString index ++ "]: missing or invalid 'name': "
        ++ texts.notObject))

/-- `JsonParser::Parse`. -/
def jsonParse : JsonFile → Except Exn (List JobConfig)
  | .unopened => .error (.runtimeError ("cannot open config file: '" ++ path ++ "'"))
  | .malformed what =>
      .error (.runtimeError ("JSON parse error in '" ++ path ++ "': " ++ what))
  | .document .other =>
      .error (.runtimeError ("config root must be a JSON object in '" ++ path ++ "'"))
  | .document (.object none) =>
      .error (.runtimeError ("missing 'jobs' key in '" ++ path ++ "'"))
  | .document (.object (some .other)) =>
      .error (.runtimeError ("'jobs' must be an array in '" ++ path ++ "'"))
  | .document (.object (some (.array elements))) =>
      readEach (fun i element => (jsonParseElement texts i element).mapError
        (rethrown ("job[" ++ toString i ++ "]"))) 0 elements

def kRequiredColumns : List String := ["name", "engine", "rw", "bs", "size"]

/-- `CsvParser::Parse`. -/
def csvParse : CsvFile → Except Exn (List JobConfig)
  | .unopened what =>
      .error (.runtimeError ("cannot open config file: '" ++ path ++ "': " ++ what))
  | .table columns rows =>
      match kRequiredColumns.find? (fun required => !columns.contains required) with
      | some required =>
          .error (.runtimeError ("missing required column '" ++ required ++ "' in '"
            ++ path ++ "'"))
      | none =>
          readEach (fun i row => (csvParseJob texts.csv columns row i).mapError
            (rethrown ("row[" ++ toString i ++ "]"))) 0 rows

/-! ## The factory -/

/-- `std::filesystem::path::extension`. -/
def extension (path : String) : String :=
  -- the file name, from its end
  let name := path.toList.reverse.takeWhile (· ≠ '/')
  if name = ['.', '.'] then ""
  else
    match name.dropWhile (· ≠ '.') with
    | _ :: _ :: _ => String.ofList ('.' :: (name.takeWhile (· ≠ '.')).reverse)
    | _ => ""

inductive ConfigParser where
  | json
  | csv
  deriving DecidableEq, Repr

/-- `ParserFactory::Create`. -/
def createParser : Except Exn ConfigParser :=
  let ext := (extension path).map Char.toLower
  if ext = ".json" then .ok .json
  else if ext = ".csv" then .ok .csv
  else .error (.invalidArgument ("unsupported config file extension: '" ++ ext ++ "'"))

example : extension "jobs/.hidden.d/two.parts.JSON" = ".JSON" := by decide +kernel

/-- `Parse` of the parser that was created. -/
def ConfigParser.parse (file : ConfigFile) : ConfigParser → Except Exn (List JobConfig)
  | .json => jsonParse texts path file.json
  | .csv => csvParse texts path file.csv

/-! ## `main` -/

/-- The jobs that `main` starts a run with. -/
def loadJobs (options : CliOptions) (file : ConfigFile) : Except Exn (List JobConfig) := do
  let parser ← createParser path
  let parsed ← parser.parse texts path file
  let jobs := options.overrideAll parsed
  validateAll jobs
  return jobs

end Parsers

/-! ## Where an error is -/

/-- The text of the exception begins with this. -/
def Begins (label : String) (e : Exn) : Prop :=
  ∃ text, e = .invalidArgument (label ++ text) ∨ e = .runtimeError (label ++ text)

/-- The text of the exception names the file. -/
def Mentions (path : String) (e : Exn) : Prop :=
  ∃ before after, e = .runtimeError (before ++ path ++ after)

section Located

variable {texts : LibraryTexts} {label : String} {e : Exn} {index : Nat}

/-- A text put behind the label begins with it. -/
theorem begins_runtimeError (label text : String) : Begins label (.runtimeError (label ++ text)) :=
  ⟨text, .inr rfl⟩

theorem begins_self (label : String) : Begins label (.runtimeError label) :=
  ⟨"", .inr (congrArg _ String.append_empty.symm)⟩

/-- More text at the end does not change how an error begins. -/
theorem Begins.append {text : String} (h : Begins label (.runtimeError text)) (more : String) :
    Begins label (.runtimeError (text ++ more)) := by
  obtain ⟨rest, hinvalid | hruntime⟩ := h
  · exact nomatch hinvalid
  · rw [Exn.runtimeError.inj hruntime, String.append_assoc]
    exact begins_runtimeError label (rest ++ more)

/-- A longer text that begins with the label. -/
theorem Begins.of_append {more : String} (h : Begins (label ++ more) e) : Begins label e := by
  obtain ⟨text, htext⟩ := h
  rw [String.append_assoc] at htext
  exact ⟨more ++ text, htext⟩

/-- The context of a job is where its errors begin. -/
theorem begins_withContext (ctx : String) (e : Exn) : Begins ctx (withContext ctx e) := by
  cases e with
  | invalidArgument what => exact ⟨what, .inl rfl⟩
  | logicError what => exact ⟨what, .inr rfl⟩
  | runtimeError what => exact ⟨what, .inr rfl⟩
  | systemError code what => exact ⟨what, .inr rfl⟩
  | badAlloc => exact ⟨_, .inr rfl⟩
  | unknown => exact ⟨_, .inr rfl⟩

/-- The outer handlers change nothing about it. -/
theorem Begins.rethrown (h : Begins label e) (outer : String) : rethrown outer e = e := by
  obtain ⟨text, rfl | rfl⟩ := h <;> rfl

/-- A label that is cut short. -/
theorem Begins.cut {stem opening close : String} (rest : String)
    (hopening : opening = close ++ rest) (h : Begins (stem ++ opening) e) : Begins (stem ++ close) e := by
  rw [hopening, ← String.append_assoc] at h
  exact h.of_append

/-- The context of a job begins with the label of its entry. -/
theorem begins_context (kind number name : String) (e : Exn) :
    Begins (kind ++ number ++ "]") (withContext (kind ++ number ++ "] '" ++ name ++ "': ") e) := by
  have h := begins_withContext (kind ++ number ++ "] '" ++ name ++ "': ") e
  generalize withContext (kind ++ number ++ "] '" ++ name ++ "': ") e = wrapped at h ⊢
  rw [String.append_assoc] at h
  exact h.of_append.cut " '" rfl

/-- Whatever is wrong with a job, the error begins with its position. -/
theorem jsonParseJob_begins {job : JsonObject}
    (h : jsonParseJob texts.json job index = .error e) :
    Begins ("job[" ++ toString index ++ "]") e := by
  rcases bind_error_iff.mp h with hname | ⟨name, -, hfields⟩
  · obtain ⟨d, -, rfl⟩ := mapError_error_iff.mp hname
    refine Begins.cut ": missing or invalid 'name': " rfl ?_
    exact begins_runtimeError _ _
  · obtain ⟨d, -, rfl⟩ := mapError_error_iff.mp hfields
    exact begins_context "job[" (toString index) name d

/-- An error of an element begins with the position of the element. -/
theorem jsonParseElement_begins {element : JsonElement}
    (h : jsonParseElement texts index element = .error e) :
    Begins ("job[" ++ toString index ++ "]") e := by
  cases element with
  | object job => exact jsonParseJob_begins h
  | other =>
      obtain rfl := Except.error.inj h
      refine Begins.cut ": missing or invalid 'name': " rfl ?_
      exact begins_runtimeError _ _

/-- And so does one of a row. -/
theorem csvParseJob_begins {columns : List String} {row : CsvRow}
    (h : csvParseJob texts.csv columns row index = .error e) :
    Begins ("row[" ++ toString index ++ "]") e := by
  rcases bind_error_iff.mp h with hname | ⟨name, -, hrest⟩
  · obtain ⟨d, -, rfl⟩ := mapError_error_iff.mp hname
    refine Begins.cut ": error reading 'name': " rfl ?_
    exact begins_runtimeError _ _
  · by_cases hempty : name.isEmpty = true
    · rw [if_pos hempty] at hrest
      obtain rfl := Except.error.inj hrest
      exact Begins.cut ": 'name' is empty" rfl (begins_self _)
    · rw [if_neg hempty] at hrest
      obtain ⟨d, -, rfl⟩ := mapError_error_iff.mp hrest
      exact begins_context "row[" (toString index) name d

/-- **The position can be read off the text.** -/
theorem begins_unique {kind : String} {i j : Nat}
    (hi : Begins (kind ++ toString i ++ "]") e) (hj : Begins (kind ++ toString j ++ "]") e) :
    i = j := by
  obtain ⟨text, htext⟩ := hi
  obtain ⟨text', htext'⟩ := hj
  have hsame : kind ++ toString i ++ "]" ++ text = kind ++ toString j ++ "]" ++ text' := by
    rcases htext with rfl | rfl
    · rcases htext' with h | h
      · exact Exn.invalidArgument.inj h
      · exact nomatch h
    · rcases htext' with h | h
      · exact nomatch h
      · exact Exn.runtimeError.inj h
  have hlist : i.repr.toList ++ ']' :: text.toList = j.repr.toList ++ ']' :: text'.toList := by
    have htoList := congrArg String.toList hsame
    simp only [String.toList_append, List.append_assoc] at htoList
    exact List.append_cancel_left htoList
  have hdigits (n : Nat) (rest : List Char) :
      (n.repr.toList ++ ']' :: rest).takeWhile Char.isDigit = n.repr.toList := by
    rw [List.takeWhile_append_of_pos (fun _ => IntegerText.isDigit_of_mem_repr),
      List.takeWhile_cons_of_neg (by decide), List.append_nil]
  have hrepr : i.repr.toList = j.repr.toList := by
    rw [← hdigits i text.toList, hlist, hdigits]
  rw [← IntegerText.digitsValue_repr i, hrepr, IntegerText.digitsValue_repr]

end Located

/-! ## Entries

    What the two formats have in common: a file has entries, which are read one by one. -/

/-- An element of the array, or a row. -/
inductive Entry where
  | job (element : JsonElement)
  | row (columns : List String) (row : CsvRow)

def Entry.label (index : Nat) : Entry → String
  | .job _ => "job[" ++ toString index ++ "]"
  | .row _ _ => "row[" ++ toString index ++ "]"

def Entry.parse (texts : LibraryTexts) (index : Nat) : Entry → Except Exn JobConfig
  | .job element => jsonParseElement texts index element
  | .row columns cells => csvParseJob texts.csv columns cells index

/-- The entries of a file, if it has a place for them. -/
def ConfigParser.entries (file : ConfigFile) : ConfigParser → Option (List Entry)
  | .json =>
      match file.json with
      | .document (.object (some (.array elements))) => some (elements.map .job)
      | _ => none
  | .csv =>
      match file.csv with
      | .table columns rows =>
          if ∀ required ∈ kRequiredColumns, required ∈ columns then
            some (rows.map (.row columns))
          else none
      | .unopened _ => none

section Entries

variable {texts : LibraryTexts} {path : String} {file : ConfigFile} {parser : ConfigParser}

/-- In either format, the error of an entry begins with its position. -/
theorem Entry.parse_begins {entry : Entry} {index : Nat} {e : Exn}
    (h : entry.parse texts index = .error e) : Begins (entry.label index) e := by
  cases entry with
  | job element => exact jsonParseElement_begins h
  | row columns row => exact csvParseJob_begins h

/-- The outer handlers of the parsers are never needed. -/
theorem mapError_rethrown {result : Except Exn JobConfig} {label : String}
    (h : ∀ e, result = .error e → Begins label e) (outer : String) :
    result.mapError (rethrown outer) = result := by
  cases result with
  | ok config => rfl
  | error e => exact congrArg _ ((h e rfl).rethrown outer)

/-- No column is missing just when all that are required are there. -/
theorem find_required_none_iff {columns : List String} :
    kRequiredColumns.find? (fun required => !columns.contains required) = none ↔
      ∀ required ∈ kRequiredColumns, required ∈ columns := by
  rw [List.find?_eq_none]
  refine forall₂_congr (fun required _ => ?_)
  rw [Bool.not_eq_true, Bool.not_eq_false', List.contains_iff_mem]

/-- **Either parser** reads the entries of the file from the front. -/
theorem parse_of_entries {entries : List Entry} (h : parser.entries file = some entries) :
    parser.parse texts path file = readEach (Entry.parse texts) 0 entries := by
  cases parser with
  | json =>
      simp only [ConfigParser.entries] at h
      split at h
      · next elements hfile =>
          obtain rfl := Option.some.inj h
          rw [ConfigParser.parse, hfile, jsonParse, readEach_map]
          refine congrArg (readEach · 0 elements) ?_
          funext i element
          exact mapError_rethrown (fun _ => jsonParseElement_begins) _
      · exact nomatch h
  | csv =>
      simp only [ConfigParser.entries] at h
      split at h
      · next columns rows hfile =>
          by_cases hall : ∀ required ∈ kRequiredColumns, required ∈ columns
          · rw [if_pos hall] at h
            obtain rfl := Option.some.inj h
            rw [ConfigParser.parse, hfile, csvParse, find_required_none_iff.mpr hall,
              readEach_map]
            refine congrArg (readEach · 0 rows) ?_
            funext i row
            exact mapError_rethrown (fun _ => csvParseJob_begins) _
          · rw [if_neg hall] at h
            exact nomatch h
      · exact nomatch h

/-- And rejects a file that has no place for them, with its path. -/
theorem parse_of_no_entries (h : parser.entries file = none) :
    ∃ e, parser.parse texts path file = .error e ∧ Mentions path e := by
  cases parser with
  | json =>
      simp only [ConfigParser.entries] at h
      rcases hfile : file.json with _ | what | (_ | _ | elements) | _
      · exact ⟨_, congrArg (jsonParse texts path) hfile, _, _, rfl⟩
      · exact ⟨_, congrArg (jsonParse texts path) hfile, _, _,
          congrArg _ String.append_assoc⟩
      · exact ⟨_, congrArg (jsonParse texts path) hfile, _, _, rfl⟩
      · rw [hfile] at h
        exact nomatch h
      · exact ⟨_, congrArg (jsonParse texts path) hfile, _, _, rfl⟩
      · exact ⟨_, congrArg (jsonParse texts path) hfile, _, _, rfl⟩
  | csv =>
      simp only [ConfigParser.entries] at h
      cases hfile : file.csv with
      | unopened what =>
          exact ⟨_, congrArg (csvParse texts path) hfile, _, _,
            congrArg _ String.append_assoc⟩
      | table columns rows =>
          rw [hfile] at h
          cases hfind : kRequiredColumns.find? (fun required => !columns.contains required) with
          | none =>
              exact nomatch (if_pos (find_required_none_iff.mp hfind)).symm.trans h
          | some required =>
              refine ⟨.runtimeError ("missing required column '" ++ required ++ "' in '"
                ++ path ++ "'"), ?_, _, _, rfl⟩
              simp only [ConfigParser.parse, hfile, csvParse, hfind]

end Entries

/-! ## Validation of a list -/

section Validation

variable {config : JobConfig} {configs : List JobConfig} {e : Exn}

/-! The rules of the validator throw with the name of the job in front. -/

/-- Each check names the job whose field it refuses. -/
theorem validateAlignment_error (h : validateAlignment config = .error e) :
    Begins ("job '" ++ config.name ++ "'") e := by
  rcases guard_error_iff.mp h with ⟨-, rfl⟩ | ⟨-, hok⟩
  · exact .cut ": alignment (" rfl ((begins_runtimeError _ _).append _)
  · exact nomatch hok

theorem validateBlockSize_error (h : validateBlockSize config = .error e) :
    Begins ("job '" ++ config.name ++ "'") e := by
  rcases guard_error_iff.mp h with ⟨-, rfl⟩ | ⟨-, h⟩
  · exact .cut ": block_size must be greater than 0" rfl (begins_self _)
  rcases guard_error_iff.mp h with ⟨-, rfl⟩ | ⟨-, hok⟩
  · exact .cut ": block_size (" rfl
      ((((begins_runtimeError _ _).append _).append _).append _)
  · exact nomatch hok

theorem validateFileSize_error (h : validateFileSize config = .error e) :
    Begins ("job '" ++ config.name ++ "'") e := by
  rcases guard_error_iff.mp h with ⟨-, rfl⟩ | ⟨-, h⟩
  · exact .cut ": file_size (" rfl
      ((((begins_runtimeError _ _).append _).append _).append _)
  rcases guard_error_iff.mp h with ⟨-, rfl⟩ | ⟨-, hok⟩
  · exact .cut ": file_size (" rfl
      ((((begins_runtimeError _ _).append _).append _).append _)
  · exact nomatch hok

theorem validateEngine_error (h : validateEngine config = .error e) :
    Begins ("job '" ++ config.name ++ "'") e := by
  by_cases hknown : isKnownEngine config.engine = true
  · rw [validateEngine, if_pos hknown] at h
    cases h
  · rw [validateEngine, if_neg hknown] at h
    obtain rfl := Except.error.inj h
    exact .cut ": unknown engine '" rfl ((begins_runtimeError _ _).append _)

theorem validateRWMixRead_error (h : validateRWMixRead config = .error e) :
    Begins ("job '" ++ config.name ++ "'") e := by
  rcases guard_error_iff.mp h with ⟨-, rfl⟩ | ⟨-, hok⟩
  · exact .cut ": rwmixread (" rfl ((begins_runtimeError _ _).append _)
  · exact nomatch hok

theorem validateIODepth_error (h : validateIODepth config = .error e) :
    Begins ("job '" ++ config.name ++ "'") e := by
  rcases guard_error_iff.mp h with ⟨-, rfl⟩ | ⟨-, hok⟩
  · exact .cut ": iodepth (" rfl ((begins_runtimeError _ _).append _)
  · exact nomatch hok

/-- **An invalid job** is rejected by its name, if it has one. -/
theorem validate_error (h : validate config = .error e) :
    (config.name = "" ∧ e = .runtimeError "job name must not be empty")
      ∨ Begins ("job '" ++ config.name ++ "'") e := by
  have hmode : validateRWMode config = .ok () := by
    rw [validateRWMode]
    cases config.rwMode <;> rfl
  by_cases hname : config.name.isEmpty = true
  · rw [validate, if_pos hname] at h
    exact .inl ⟨String.isEmpty_iff.mp hname, (Except.error.inj h).symm⟩
  · rw [validate, if_neg hname] at h
    refine .inr ?_
    rcases bind_error_iff.mp h with h | ⟨_, -, h⟩
    · exact validateAlignment_error h
    rcases bind_error_iff.mp h with h | ⟨_, -, h⟩
    · exact validateBlockSize_error h
    rcases bind_error_iff.mp h with h | ⟨_, -, h⟩
    · exact validateFileSize_error h
    rcases bind_error_iff.mp h with h | ⟨_, -, h⟩
    · exact validateEngine_error h
    rw [hmode, ok_bind] at h
    rcases bind_error_iff.mp h with h | ⟨_, -, h⟩
    · exact validateRWMixRead_error h
    · exact validateIODepth_error h

/-- The names are new and differ. -/
theorem validateUniqueNames_ok_iff {seen : List String} :
    validateUniqueNames seen configs = .ok () ↔
      (configs.map JobConfig.name).Nodup ∧ ∀ config ∈ configs, config.name ∉ seen := by
  induction configs generalizing seen with
  | nil => exact ⟨fun _ => ⟨List.nodup_nil, nofun⟩, fun _ => rfl⟩
  | cons config configs ih =>
      rw [validateUniqueNames, guard_ok_iff, ih, List.contains_iff_mem, List.map_cons,
        List.nodup_cons, List.forall_mem_cons]
      constructor
      · rintro ⟨hnew, hnodup, hrest⟩
        refine ⟨⟨?_, hnodup⟩, hnew, ?_⟩
        · intro hmem
          obtain ⟨other, hother, hname⟩ := List.mem_map.mp hmem
          exact hrest other hother (hname ▸ List.mem_cons_self ..)
        · intro other hother hseen
          exact hrest other hother (List.mem_cons_of_mem _ hseen)
      · rintro ⟨⟨hfresh, hnodup⟩, hnew, hrest⟩
        refine ⟨hnew, hnodup, fun other hother hmem => ?_⟩
        rcases List.mem_cons.mp hmem with hname | hseen
        · exact hfresh (hname ▸ List.mem_map_of_mem hother)
        · exact hrest other hother hseen

/-- A name that is thrown is the first to come again. -/
theorem validateUniqueNames_error_iff {seen : List String} :
    validateUniqueNames seen configs = .error e ↔
      ∃ before job after, configs = before ++ job :: after ∧
        e = .runtimeError ("duplicate job name: '" ++ job.name ++ "'") ∧
        job.name ∈ before.map JobConfig.name ++ seen ∧
        validateUniqueNames seen before = .ok () := by
  constructor
  · intro h
    induction configs generalizing seen with
    | nil => exact nomatch h
    | cons config configs ih =>
        rw [validateUniqueNames] at h
        by_cases hseen : seen.contains config.name = true
        · rw [if_pos hseen] at h
          exact ⟨[], config, configs, rfl, (Except.error.inj h).symm,
            List.contains_iff_mem.mp hseen, rfl⟩
        · rw [if_neg hseen] at h
          obtain ⟨before, job, after, rfl, he, hmem, hok⟩ := ih h
          refine ⟨config :: before, job, after, rfl, he, ?_, ?_⟩
          · rw [List.map_cons, List.cons_append]
            rw [List.mem_append, List.mem_cons] at hmem
            rw [List.mem_cons, List.mem_append]
            exact or_left_comm.mp hmem
          · rw [validateUniqueNames, if_neg hseen]
            exact hok
  · rintro ⟨before, job, after, rfl, rfl, hmem, hok⟩
    induction before generalizing seen with
    | nil =>
        have hseen : seen.contains job.name = true := List.contains_iff_mem.mpr hmem
        rw [List.nil_append, validateUniqueNames, if_pos hseen]
    | cons config before ih =>
        rw [validateUniqueNames, guard_ok_iff] at hok
        rw [List.cons_append, validateUniqueNames, if_neg hok.1]
        refine ih ?_ hok.2
        rw [List.map_cons, List.cons_append, List.mem_cons, List.mem_append] at hmem
        rw [List.mem_append, List.mem_cons]
        exact or_left_comm.mp hmem

/-- The rules for a list, as a check of each job between two checks of the whole. -/
theorem validateAll_eq (configs : List JobConfig) :
    validateAll configs =
      if configs.isEmpty then .error (.runtimeError "job list must not be empty")
      else forEach validate configs >>= fun _ => validateUniqueNames [] configs := by
  cases configs <;> rfl

/-- A list of jobs that can be run. -/
structure Runnable (configs : List JobConfig) : Prop where
  nonempty : configs ≠ []
  validated : ∀ config ∈ configs, Validated config
  distinct : (configs.map JobConfig.name).Nodup

/-- **What `ValidateAll` accepts.** -/
theorem validateAll_ok_iff : validateAll configs = .ok () ↔ Runnable configs := by
  rw [validateAll_eq, guard_ok_iff, bind_ok_iff, List.isEmpty_iff]
  constructor
  · rintro ⟨hne, _, heach, hnames⟩
    refine ⟨hne, fun config hconfig => ?_, (validateUniqueNames_ok_iff.mp hnames).1⟩
    exact validate_ok (forEach_ok_iff.mp heach config hconfig)
  · rintro ⟨hne, hvalid, hnodup⟩
    refine ⟨hne, (), forEach_ok_iff.mpr fun config hconfig => ?_,
      validateUniqueNames_ok_iff.mpr ⟨hnodup, fun _ _ => List.not_mem_nil⟩⟩
    exact validate_of_validated (hvalid config hconfig)

/-- **What `ValidateAll` throws**: the list is empty, or the first job that is invalid is
    to blame, or all are valid and a name comes again. -/
theorem validateAll_error_iff :
    validateAll configs = .error e ↔
      (configs = [] ∧ e = .runtimeError "job list must not be empty")
        ∨ (∃ k, FailsAt (fun _ => validate) configs k e)
        ∨ ((∀ config ∈ configs, Validated config)
          ∧ validateUniqueNames [] configs = .error e) := by
  rw [validateAll_eq, guard_error_iff, bind_error_iff, List.isEmpty_iff, forEach_error_iff]
  constructor
  · rintro (⟨hempty, rfl⟩ | ⟨-, hfirst | ⟨_, heach, hnames⟩⟩)
    · exact .inl ⟨hempty, rfl⟩
    · exact .inr (.inl hfirst)
    · exact .inr (.inr ⟨fun config hconfig =>
        validate_ok (forEach_ok_iff.mp heach config hconfig), hnames⟩)
  · rintro (⟨hempty, rfl⟩ | ⟨k, hfirst⟩ | ⟨hvalid, hnames⟩)
    · exact .inl ⟨hempty, rfl⟩
    · refine .inr ⟨?_, .inl ⟨k, hfirst⟩⟩
      rintro rfl
      obtain ⟨job, hjob, -⟩ := hfirst.here
      cases hjob
    · refine .inr ⟨?_, .inr ⟨(), forEach_ok_iff.mpr fun config hconfig =>
        validate_of_validated (hvalid config hconfig), hnames⟩⟩
      rintro rfl
      cases hnames

end Validation

/-! ## The jobs of a run -/

section Load

variable {texts : LibraryTexts} {path : String} {options : CliOptions} {file : ConfigFile}
variable {jobs : List JobConfig} {e : Exn}

/-- The only error is that of the extension. -/
theorem createParser_error (h : createParser path = .error e) :
    e = .invalidArgument ("unsupported config file extension: '"
      ++ (extension path).map Char.toLower ++ "'") := by
  rw [createParser] at h
  by_cases hjson : (extension path).map Char.toLower = ".json"
  · rw [if_pos hjson] at h
    exact nomatch h
  · rw [if_neg hjson] at h
    by_cases hcsv : (extension path).map Char.toLower = ".csv"
    · rw [if_pos hcsv] at h
      exact nomatch h
    · rw [if_neg hcsv] at h
      exact (Except.error.inj h).symm

/-- What was parsed are the entries of the file. -/
theorem entries_of_parse {parser : ConfigParser} {parsed : List JobConfig}
    (h : parser.parse texts path file = .ok parsed) :
    ∃ entries, parser.entries file = some entries ∧
      List.Forall₂ (fun entry job => entry.1.parse texts entry.2 = .ok job)
        entries.zipIdx parsed := by
  cases hentries : parser.entries file with
  | none =>
      obtain ⟨e, he, -⟩ := @parse_of_no_entries texts path _ _ hentries
      exact nomatch h.symm.trans he
  | some entries =>
      rw [parse_of_entries hentries, readEach_ok_iff] at h
      exact ⟨entries, rfl, h⟩

/-- What `main` has loaded when nothing was thrown. -/
theorem loadJobs_ok_iff :
    loadJobs texts path options file = .ok jobs ↔
      ∃ parser parsed, createParser path = .ok parser ∧
        parser.parse texts path file = .ok parsed ∧ jobs = options.overrideAll parsed ∧
        Runnable jobs := by
  simp only [loadJobs, bind_ok_iff]
  constructor
  · rintro ⟨parser, hparser, parsed, hparsed, _, hvalid, hjobs⟩
    obtain rfl := Except.ok.inj hjobs
    exact ⟨parser, parsed, hparser, hparsed, rfl, validateAll_ok_iff.mp hvalid⟩
  · rintro ⟨parser, parsed, hparser, hparsed, rfl, hrun⟩
    exact ⟨parser, hparser, parsed, hparsed, (), validateAll_ok_iff.mpr hrun, rfl⟩

/-- The entry of the file is the job of the run, but for the overrides. -/
def EntryOf (texts : LibraryTexts) (options : CliOptions) (entry : Entry × Nat)
    (job : JobConfig) : Prop :=
  ∃ parsed, entry.1.parse texts entry.2 = .ok parsed ∧ job = options.override parsed

/-- **What a run is started with**: one job for each entry of the file, in its order, with
    the overrides; at least one job, each valid as it is run, and no name twice. -/
theorem load_accepts :
    loadJobs texts path options file = .ok jobs ↔
      ∃ parser entries, createParser path = .ok parser ∧
        parser.entries file = some entries ∧
        List.Forall₂ (EntryOf texts options) entries.zipIdx jobs ∧ Runnable jobs := by
  rw [loadJobs_ok_iff]
  constructor
  · rintro ⟨parser, parsed, hparser, hparsed, rfl, hrun⟩
    obtain ⟨entries, hentries, hread⟩ := entries_of_parse hparsed
    refine ⟨parser, entries, hparser, hentries, ?_, hrun⟩
    rw [CliOptions.overrideAll, List.forall₂_map_right_iff]
    exact hread.imp fun entry job hjob => ⟨job, hjob, rfl⟩
  · rintro ⟨parser, entries, hparser, hentries, hjobs, hrun⟩
    obtain ⟨parsed, hparsed, hmap⟩ : ∃ parsed,
        List.Forall₂ (fun entry job => entry.1.parse texts entry.2 = .ok job)
          entries.zipIdx parsed ∧ jobs = options.overrideAll parsed := by
      generalize entries.zipIdx = numbered at hjobs ⊢
      clear hrun
      induction hjobs with
      | nil => exact ⟨[], .nil, rfl⟩
      | cons hjob _ ih =>
          obtain ⟨config, hconfig, rfl⟩ := hjob
          obtain ⟨parsed, hparsed, rfl⟩ := ih
          exact ⟨config :: parsed, .cons hconfig hparsed, rfl⟩
    refine ⟨parser, parsed, hparser, ?_, hmap, hrun⟩
    rw [parse_of_entries hentries, readEach_ok_iff]
    exact hparsed

/-- What is wrong with a file that is rejected, and what the error says of it. -/
inductive Diagnosis (texts : LibraryTexts) (path : String) (options : CliOptions)
    (file : ConfigFile) (e : Exn) : Prop
  /-- no parser for the extension -/
  | extension
      (hparser : createParser path = .error e)
      (hmessage : e = .invalidArgument ("unsupported config file extension: '"
        ++ (CfioConfig.extension path).map Char.toLower ++ "'"))
  /-- no place for entries; the error has the path -/
  | noEntries {parser : ConfigParser}
      (hparser : createParser path = .ok parser)
      (hentries : parser.entries file = none)
      (herror : parser.parse texts path file = .error e)
      (hmessage : Mentions path e)
  /-- the first entry that cannot be read; the error begins with its position -/
  | entry {parser : ConfigParser} {entries : List Entry} {k : Nat} {entry : Entry}
      (hparser : createParser path = .ok parser)
      (hentries : parser.entries file = some entries)
      (hfirst : FailsAt (Entry.parse texts) entries k e)
      (hentry : entries[k]? = some entry)
      (hmessage : ∀ i, Begins (entry.label i) e ↔ i = k)
  /-- no jobs -/
  | empty {parser : ConfigParser}
      (hparser : createParser path = .ok parser)
      (hentries : parser.entries file = some [])
      (hmessage : e = .runtimeError "job list must not be empty")
  /-- the first job that is invalid; the error begins with its name, if it has one -/
  | invalid {parser : ConfigParser} {parsed : List JobConfig} {k : Nat} {job : JobConfig}
      (hparser : createParser path = .ok parser)
      (hparsed : parser.parse texts path file = .ok parsed)
      (hjob : (options.overrideAll parsed)[k]? = some job)
      (hinvalid : ¬ Validated job)
      (herror : validate job = .error e)
      (hfirst : ∀ j other, j < k → (options.overrideAll parsed)[j]? = some other →
        Validated other)
      (hmessage : (job.name = "" ∧ e = .runtimeError "job name must not be empty")
        ∨ Begins ("job '" ++ job.name ++ "'") e)
  /-- all jobs are valid; the first name that an earlier job has, and the error says it -/
  | duplicate {parser : ConfigParser} {parsed before after : List JobConfig} {job : JobConfig}
      (hparser : createParser path = .ok parser)
      (hparsed : parser.parse texts path file = .ok parsed)
      (hvalid : ∀ config ∈ options.overrideAll parsed, Validated config)
      (hjobs : options.overrideAll parsed = before ++ job :: after)
      (hagain : job.name ∈ before.map JobConfig.name)
      (hfirst : (before.map JobConfig.name).Nodup)
      (hmessage : e = .runtimeError ("duplicate job name: '" ++ job.name ++ "'"))

/-- What `main` has thrown before a job is run. -/
theorem loadJobs_error_iff :
    loadJobs texts path options file = .error e ↔
      createParser path = .error e ∨ ∃ parser, createParser path = .ok parser ∧
        (parser.parse texts path file = .error e ∨
          ∃ parsed, parser.parse texts path file = .ok parsed ∧
            validateAll (options.overrideAll parsed) = .error e) := by
  have hrest (jobs : List JobConfig) :
      (validateAll jobs >>= fun _ => pure jobs : Except Exn (List JobConfig)) = .error e
        ↔ validateAll jobs = .error e := by
    rw [bind_error_iff]
    refine or_iff_left ?_
    rintro ⟨_, -, hpure⟩
    cases hpure
  simp only [loadJobs, bind_error_iff, hrest]

/-- An entry that cannot be read is the one the error names. -/
theorem entry_diagnosis {parser : ConfigParser} {entries : List Entry} {k : Nat}
    (hparser : createParser path = .ok parser) (hentries : parser.entries file = some entries)
    (hfirst : FailsAt (Entry.parse texts) entries k e) :
    Diagnosis texts path options file e := by
  obtain ⟨entry, hentry, hbad⟩ := hfirst.here
  have hk := Entry.parse_begins hbad
  refine .entry hparser hentries hfirst hentry fun i => ⟨fun hi => ?_, ?_⟩
  · cases entry with
    | job element => exact begins_unique hi hk
    | row columns row => exact begins_unique hi hk
  · rintro rfl
    exact hk

/-- What is wrong with a list of jobs that is rejected. -/
theorem validateAll_diagnosis {parser : ConfigParser} {parsed : List JobConfig}
    (hparser : createParser path = .ok parser)
    (hparsed : parser.parse texts path file = .ok parsed)
    (h : validateAll (options.overrideAll parsed) = .error e) :
    Diagnosis texts path options file e := by
  rcases validateAll_error_iff.mp h with ⟨hempty, rfl⟩ | ⟨k, hfirst⟩ | ⟨hvalid, hnames⟩
  · obtain ⟨entries, hentries, hread⟩ := entries_of_parse hparsed
    obtain rfl : parsed = [] := List.map_eq_nil_iff.mp hempty
    rw [List.forall₂_nil_right_iff, List.zipIdx_eq_nil_iff] at hread
    rw [hread] at hentries
    exact .empty hparser hentries rfl
  · obtain ⟨job, hjob, hbad⟩ := hfirst.here
    refine .invalid hparser hparsed hjob ?_ hbad ?_ (validate_error hbad)
    · intro hv
      cases (validate_of_validated hv).symm.trans hbad
    · intro j other hj hother
      obtain ⟨_, hok⟩ := hfirst.before j other hj hother
      exact validate_ok hok
  · obtain ⟨before, job, after, hjobs, hmessage, hagain, hbefore⟩ :=
      validateUniqueNames_error_iff.mp hnames
    rw [List.append_nil] at hagain
    exact .duplicate hparser hparsed hvalid hjobs hagain
      (validateUniqueNames_ok_iff.mp hbefore).1 hmessage

/-- A file with a diagnosis is rejected, with the error it is about. -/
theorem Diagnosis.rejected (h : Diagnosis texts path options file e) :
    loadJobs texts path options file = .error e := by
  refine loadJobs_error_iff.mpr ?_
  cases h with
  | extension hparser hmessage => exact .inl hparser
  | noEntries hparser hentries herror hmessage => exact .inr ⟨_, hparser, .inl herror⟩
  | @entry parser entries k entry hparser hentries hfirst hentry hmessage =>
      refine .inr ⟨_, hparser, .inl ?_⟩
      rw [parse_of_entries hentries, readEach_error_iff]
      simp only [Nat.zero_add]
      exact ⟨k, hfirst⟩
  | empty hparser hentries hmessage =>
      refine .inr ⟨_, hparser, .inr ⟨[], ?_, ?_⟩⟩
      · rw [parse_of_entries hentries]
        rfl
      · exact validateAll_error_iff.mpr (.inl ⟨rfl, hmessage⟩)
  | @invalid parser parsed k job hparser hparsed hjob hinvalid herror hfirst hmessage =>
      refine .inr ⟨_, hparser, .inr ⟨_, hparsed, validateAll_error_iff.mpr (.inr (.inl ?_))⟩⟩
      exact ⟨k, ⟨job, hjob, herror⟩, fun j other hj hother =>
        ⟨_, validate_of_validated (hfirst j other hj hother)⟩⟩
  | @duplicate parser parsed before after job hparser hparsed hvalid hjobs hagain hfirst
      hmessage =>
      refine .inr ⟨_, hparser, .inr ⟨_, hparsed, validateAll_error_iff.mpr
        (.inr (.inr ⟨hvalid, validateUniqueNames_error_iff.mpr ⟨before, job, after, hjobs,
          hmessage, ?_, ?_⟩⟩))⟩⟩
      · rw [List.append_nil]
        exact hagain
      · exact validateUniqueNames_ok_iff.mpr ⟨hfirst, fun _ _ => List.not_mem_nil⟩

/-- **Why a file is rejected**: the error is one that is found to be, and no other. -/
theorem load_diagnosis :
    loadJobs texts path options file = .error e ↔ Diagnosis texts path options file e := by
  constructor
  · intro h
    rcases loadJobs_error_iff.mp h with hcreate | ⟨parser, hparser, hparse | hvalid⟩
    · exact .extension hcreate (createParser_error hcreate)
    · cases hentries : parser.entries file with
      | none =>
          obtain ⟨d, hd, hmessage⟩ := @parse_of_no_entries texts path _ _ hentries
          obtain rfl := Except.error.inj (hparse.symm.trans hd)
          exact .noEntries hparser hentries hparse hmessage
      | some entries =>
          rw [parse_of_entries hentries, readEach_error_iff] at hparse
          obtain ⟨k, hfirst⟩ := hparse
          simp only [Nat.zero_add] at hfirst
          exact entry_diagnosis hparser hentries hfirst
    · obtain ⟨parsed, hparsed, hvalid⟩ := hvalid
      exact validateAll_diagnosis hparser hparsed hvalid
  · exact Diagnosis.rejected

/-- The name comes twice, but it is the depth of the second job that is told of. -/
theorem load_diagnosis_depth :
    Diagnosis ⟨fun _ => "", "", fun _ => ""⟩ "jobs.csv" {}
        ⟨.unopened, .table depthColumns [depthRow 32, depthRow 0]⟩
        (.runtimeError "job 'deep': iodepth (0) must be >= 1")
      ∧ ¬ Diagnosis ⟨fun _ => "", "", fun _ => ""⟩ "jobs.csv" {}
        ⟨.unopened, .table depthColumns [depthRow 32, depthRow 0]⟩
        (.runtimeError "duplicate job name: 'deep'") := by
  refine ⟨load_diagnosis.mp (by decide +kernel), fun h => ?_⟩
  exact absurd (load_diagnosis.mpr h) (by decide +kernel)

end Load

/-! ## Two files that say the same -/

/-- The jobs of a JSON document are the ones described. -/
def JsonSays (file : JsonFile) (ds : List JobDescription) : Prop :=
  ∃ objects : List JsonObject,
    file = .document (.object (some (.array (objects.map .object)))) ∧
    List.Forall₂ JsonOf ds objects

/-- The rows of a CSV table are the jobs described. -/
def CsvSays (file : CsvFile) (ds : List JobDescription) : Prop :=
  ∃ columns rows, file = .table columns rows ∧
    (∀ required ∈ kRequiredColumns, required ∈ columns) ∧
    List.Forall₂ (fun d row => CsvOf d columns row) ds rows

section Agreement

variable {texts : LibraryTexts} {path csvPath jsonPath : String} {options : CliOptions}
variable {file csvFile jsonFile : ConfigFile} {ds : List JobDescription}
variable {jobs : List JobConfig}

/-- The description yields the job. -/
def JobDescription.Gives (d : JobDescription) (job : JobConfig) : Prop :=
  d.parsed (intOr 1 d.iodepth) (intOr 50 d.rwmixread) = .ok job

/-- What the JSON parser makes of a file that describes these jobs. -/
theorem parse_json_iff (h : JsonSays file.json ds) :
    ConfigParser.json.parse texts path file = .ok jobs ↔
      List.Forall₂ JobDescription.Gives ds jobs := by
  obtain ⟨objects, hfile, hmessage⟩ := h
  have hentries : ConfigParser.json.entries file
      = some ((objects.map JsonElement.object).map Entry.job) := by
    simp only [ConfigParser.entries, hfile]
  rw [parse_of_entries hentries, readEach_map, readEach_map]
  exact readEach_ok_iff_of_forall₂ hmessage fun d object hd i job => jsonParseJob_ok_iff hd

/-- What the CSV parser makes of a file with these jobs: the same, if the integers fit. -/
theorem parse_csv_iff (h : CsvSays file.csv ds) :
    ConfigParser.csv.parse texts path file = .ok jobs ↔
      (∀ d ∈ ds, FitsInt d.iodepth ∧ FitsInt d.rwmixread) ∧
        List.Forall₂ JobDescription.Gives ds jobs := by
  obtain ⟨columns, rows, hfile, hcolumns, hmessage⟩ := h
  have hentries : ConfigParser.csv.entries file = some (rows.map (Entry.row columns)) := by
    simp only [ConfigParser.entries, hfile]
    exact if_pos hcolumns
  rw [parse_of_entries hentries, readEach_map, ← List.forall₂_and_left]
  exact readEach_ok_iff_of_forall₂ hmessage fun d row hd i job => csvParseJob_ok_iff hd

/-- **The formats agree**: a CSV file that describes the same jobs as a JSON file starts the
    same run, except that an integer that does not fit in an `int` has it rejected. -/
theorem documents_agree (hjson : JsonSays jsonFile.json ds) (hcsv : CsvSays csvFile.csv ds)
    (hjsonPath : createParser jsonPath = .ok .json)
    (hcsvPath : createParser csvPath = .ok .csv) :
    loadJobs texts csvPath options csvFile = .ok jobs ↔
      (∀ d ∈ ds, FitsInt d.iodepth ∧ FitsInt d.rwmixread) ∧
        loadJobs texts jsonPath options jsonFile = .ok jobs := by
  rw [loadJobs_ok_iff, loadJobs_ok_iff]
  constructor
  · rintro ⟨parser, parsed, hparser, hparsed, hjobs, hrun⟩
    obtain rfl := Except.ok.inj (hcsvPath.symm.trans hparser)
    obtain ⟨hfits, hgives⟩ := (parse_csv_iff hcsv).mp hparsed
    exact ⟨hfits, .json, parsed, hjsonPath, (parse_json_iff hjson).mpr hgives, hjobs, hrun⟩
  · rintro ⟨hfits, parser, parsed, hparser, hparsed, hjobs, hrun⟩
    obtain rfl := Except.ok.inj (hjsonPath.symm.trans hparser)
    have hgives := (parse_json_iff hjson).mp hparsed
    exact ⟨.csv, parsed, hcsvPath, (parse_csv_iff hcsv).mpr ⟨hfits, hgives⟩, hjobs, hrun⟩

/-- A job that leaves its depth to the default. -/
def seqJob : JobDescription where
  name := ⟨"seq", by decide⟩
  engine := ⟨"sync", by decide⟩
  rw := ⟨"write", by decide⟩
  bs := ⟨"64k", by decide⟩
  size := ⟨"1m", by decide⟩

def seqJson : JsonObject := fun key =>
  [("name", JsonValue.string "seq"), ("engine", .string "sync"), ("rw", .string "write"),
    ("bs", .string "64k"), ("size", .string "1m")].lookup key

def seqRow : CsvRow := fun column =>
  [("name", "seq"), ("engine", "sync"), ("rw", "write"), ("bs", "64k"), ("size", "1m"),
    ("iodepth", "")].lookup column

theorem seqJob_json : JsonOf seqJob seqJson := by
  constructor <;> rfl

theorem seqJob_csv : CsvOf seqJob depthColumns seqRow where
  name := rfl
  engine := rfl
  rw := rfl
  bs := rfl
  size := rfl
  iodepth := .inr rfl
  direct := .inl (by decide)
  rwmixread := .inl (by decide)
  filename := .inl (by decide)
  align := .inl (by decide)

/-- A file with two jobs in both formats. -/
def twoJobsFile : ConfigFile where
  json := .document (.object (some (.array [.object (depthJson 32), .object seqJson])))
  csv := .table depthColumns [depthRow 32, seqRow]

/-- Both jobs are loaded from either. -/
theorem documents_agree_two :
    ∃ jobs, loadJobs ⟨fun _ => "", "", fun _ => ""⟩ "a.csv" {} twoJobsFile = .ok jobs ∧
      jobs.map (fun job => (job.name, job.iodepth)) = [("deep", 32), ("seq", 1)] := by
  refine ⟨[{ name := "deep", engine := "io_uring", rwMode := .kRandRead
             accessPattern := .kRandom, blockSize := 4096, fileSize := 1073741824
             iodepth := 32, filename := "./cfio-deep.dat" },
    { name := "seq", engine := "sync", rwMode := .kWrite, blockSize := 65536
      fileSize := 1048576, filename := "./cfio-seq.dat" }], ?_, rfl⟩
  have hjson : createParser "a.json" = .ok .json := by decide +kernel
  have hcsv : createParser "a.csv" = .ok .csv := by decide +kernel
  refine (@documents_agree _ _ _ {} twoJobsFile twoJobsFile [depthJob 32, seqJob] _
    ⟨[depthJson 32, seqJson], rfl, .cons (depthJob_json 32) (.cons seqJob_json .nil)⟩
    ⟨depthColumns, [depthRow 32, seqRow], rfl, by decide,
      .cons (depthJob_csv 32) (.cons seqJob_csv .nil)⟩ hjson hcsv).mpr ⟨?_, ?_⟩
  · intro d hd
    rcases List.mem_pair.mp hd with rfl | rfl
    · exact ⟨by decide, trivial⟩
    · exact ⟨trivial, trivial⟩
  · decide +kernel

end Agreement

end CfioConfig
