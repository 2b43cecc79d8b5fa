import Cfio.ConfigParsers

/-! # One job, described twice

    A `JobDescription` says what a job is; a JSON object and a CSV row may both
    say it.  The two parsers then fill in the same `JobConfig` (`parsed`), but the
    JSON parser reads an integer by `static_cast`, and the CSV parser rejects one
    that does not fit in an `int`.  `parsers_agree_iff` says which descriptions
    that makes a difference for. -/

namespace CfioConfig

open CfioTypes IntegerText Checks

/-! ## Descriptions -/

/-- A text that is not empty. -/
abbrev Text := { s : String // s ≠ "" }

/-- What a job is to be. -/
structure JobDescription where
  name : Text
  engine : Text
  rw : Text
  bs : Text
  size : Text
  iodepth : Option Int64 := none
  direct : Option Bool := none
  rwmixread : Option Int64 := none
  filename : Option Text := none
  align : Option Text := none

/-- The JSON object says what the description says. -/
structure JsonOf (d : JobDescription) (job : JsonObject) : Prop where
  name : job "name" = some (.string d.name)
  engine : job "engine" = some (.string d.engine)
  rw : job "rw" = some (.string d.rw)
  bs : job "bs" = some (.string d.bs)
  size : job "size" = some (.string d.size)
  iodepth : job "iodepth" = d.iodepth.map .integer
  direct : job "direct" = d.direct.map .boolean
  rwmixread : job "rwmixread" = d.rwmixread.map .integer
  filename : job "filename" = d.filename.map (fun text => .string text)
  align : job "align" = d.align.map (fun text => .string text)

/-- An optional cell: its text, or nothing in it, or no such column. -/
def HasCell (columns : List String) (row : CsvRow) (field : String) :
    Option String → Prop
  | some text => field ∈ columns ∧ row field = some text
  | none => field ∉ columns ∨ row field = some ""

/-- The CSV row says what the description says. -/
structure CsvOf (d : JobDescription) (columns : List String) (row : CsvRow) : Prop where
  name : row "name" = some d.name.val
  engine : row "engine" = some d.engine.val
  rw : row "rw" = some d.rw.val
  bs : row "bs" = some d.bs.val
  size : row "size" = some d.size.val
  iodepth : HasCell columns row "iodepth" (d.iodepth.map (fun i => toString i.toInt))
  direct : HasCell columns row "direct" (d.direct.map toString)
  rwmixread : HasCell columns row "rwmixread"
    (d.rwmixread.map (fun i => toString i.toInt))
  filename : HasCell columns row "filename" (d.filename.map Subtype.val)
  align : HasCell columns row "align" (d.align.map Subtype.val)

/-- The job as either parser fills it in, given the integers it has read. -/
def JobDescription.parsed (d : JobDescription) (iodepth rwmixread : Int32) :
    Except Exn JobConfig := do
  let rwMode ← parseRWMode d.rw
  let blockSize ← parseSize d.bs .kKM
  let fileSize ← parseSize d.size .kKMG
  let alignment ← parseSize (d.align.elim "4k" Subtype.val) .kKM
  return {
    name := d.name, engine := d.engine, rwMode := rwMode
    accessPattern := deriveAccessPattern rwMode, blockSize := blockSize
    fileSize := fileSize, iodepth := iodepth, direct := d.direct.getD true
    rwmixread := rwmixread
    filename := d.filename.elim (defaultFilename d.name) Subtype.val
    alignment := alignment }

/-- A described integer as the JSON parser reads it. -/
def intOr (default_ : Int32) (i : Option Int64) : Int32 := i.elim default_ Int64.toInt32

/-- A described integer fits in an `int`. -/
def FitsInt : Option Int64 → Prop
  | none => True
  | some i => -2 ^ 31 ≤ i.toInt ∧ i.toInt < 2 ^ 31

instance : (i : Option Int64) → Decidable (FitsInt i)
  | none => inferInstanceAs (Decidable True)
  | some _ => inferInstanceAs (Decidable (_ ∧ _))

/-! ## The JSON parser -/

section Json

variable {jsonWhat : JsonFault → String} {d : JobDescription} {job : JsonObject}

/-- A wrapped exception is no result. -/
theorem mapError_ok_iff {ε ε' α : Type} {f : ε → ε'} {x : Except ε α} {a : α} :
    x.mapError f = .ok a ↔ x = .ok a := by
  cases x with
  | ok b =>
      exact ⟨fun h => congrArg _ (Except.ok.inj h), fun h => congrArg _ (Except.ok.inj h)⟩
  | error e => exact ⟨nofun, nofun⟩

theorem text_isEmpty (text : Text) : text.val.isEmpty = false := by
  cases h : text.val.isEmpty with
  | false => rfl
  | true => exact absurd (String.isEmpty_iff.mp h) text.property

/-- A field that is a string is read as that string. -/
theorem atString_eq {key value : String} (h : job key = some (.string value)) :
    job.atString jsonWhat key = .ok value := by
  rw [JsonObject.atString, h]
  rfl

/-- An optional field is read as it is described, or as its default. -/
theorem valueOr_eq {α β : Type} {key : String} {described : Option β}
    {inject : β → JsonValue} (h : job key = described.map inject) (default_ : α)
    (get : JsonValue → Except Exn α) (read : β → α)
    (hget : ∀ b, get (inject b) = .ok (read b)) :
    job.valueOr key default_ get = .ok (described.elim default_ read) := by
  rw [JsonObject.valueOr, h]
  cases described with
  | none => rfl
  | some b => exact hget b

/-- **The JSON parser** reads what is described, with the integers cut to `int`. -/
theorem jsonFields_eq (h : JsonOf d job) :
    jsonFields jsonWhat job d.name
      = d.parsed (intOr 1 d.iodepth) (intOr 50 d.rwmixread) := by
  have hfilename : (if (d.filename.elim "" Subtype.val).isEmpty = true
      then defaultFilename d.name else d.filename.elim "" Subtype.val)
      = d.filename.elim (defaultFilename d.name) Subtype.val := by
    cases d.filename with
    | none => rfl
    | some text => exact if_neg (by rw [Option.elim_some, text_isEmpty]; decide)
  have hdirect : d.direct.elim true id = d.direct.getD true := by
    cases d.direct <;> rfl
  simp only [jsonFields, JobDescription.parsed, atString_eq h.engine, atString_eq h.rw,
    atString_eq h.bs, atString_eq h.size,
    valueOr_eq h.iodepth 1 (JsonValue.getInt jsonWhat) Int64.toInt32 (fun _ => rfl),
    valueOr_eq h.direct true (JsonValue.getBool jsonWhat) id (fun _ => rfl),
    valueOr_eq h.rwmixread 50 (JsonValue.getInt jsonWhat) Int64.toInt32 (fun _ => rfl),
    valueOr_eq h.filename "" (JsonValue.getString jsonWhat) Subtype.val (fun _ => rfl),
    valueOr_eq h.align "4k" (JsonValue.getString jsonWhat) Subtype.val (fun _ => rfl),
    ok_bind, hfilename, hdirect, intOr]

/-- What the JSON parser accepts. -/
theorem jsonParseJob_ok_iff (h : JsonOf d job) {index : Nat} {config : JobConfig} :
    jsonParseJob jsonWhat job index = .ok config ↔
      d.parsed (intOr 1 d.iodepth) (intOr 50 d.rwmixread) = .ok config := by
  rw [jsonParseJob, atString_eq h.name]
  show (jsonFields jsonWhat job d.name).mapError _ = _ ↔ _
  rw [mapError_ok_iff, jsonFields_eq h]

end Json

/-! ## The CSV parser -/

section Csv

variable {csvWhat : String → String} {d : JobDescription} {columns : List String}
variable {row : CsvRow}

/-- A required column is read as it is described. -/
theorem required_eq {field : String} {text : Text} (h : row field = some text.val) :
    row.required csvWhat field = .ok text.val := by
  rw [CsvRow.required, CsvRow.get, h]
  show (if text.val.isEmpty = true then _ else _) = _
  rw [if_neg (by rw [text_isEmpty]; decide)]
  rfl

/-- An optional cell that is not there reads as an empty one. -/
theorem getOpt_eq {field : String} {text : Option String}
    (h : HasCell columns row field text) :
    row.getOpt csvWhat columns field = .ok (text.getD "") := by
  rw [CsvRow.getOpt]
  cases text with
  | some text =>
      rw [if_pos (List.contains_iff_mem.mpr h.1), CsvRow.get, h.2]
      rfl
  | none =>
      by_cases hmem : field ∈ columns
      · rw [if_pos (List.contains_iff_mem.mpr hmem), CsvRow.get,
          h.resolve_left (not_not_intro hmem)]
        rfl
      · rw [if_neg (fun hno => hmem (List.contains_iff_mem.mp hno))]
        rfl

/-- The CSV parser reads a described integer if it fits. -/
theorem parseInt_toString {i : Int64} {field : String} {value : Int32} :
    parseInt (toString i.toInt) field = .ok value ↔
      FitsInt (some i) ∧ i.toInt32 = value := by
  have hstoi : stoi (toString i.toInt)
      = if i.toInt < -2 ^ 31 ∨ 2 ^ 31 ≤ i.toInt then .error .outOfRange
        else .ok (i.toInt32, (toString i.toInt).length) := by
    have hread := readInteger_repr i.toInt
    rw [Int.toString_eq_repr, stoi, hread, ← Int32.ofInt_int64ToInt]
  rw [parseInt, hstoi]
  by_cases hout : i.toInt < -2 ^ 31 ∨ 2 ^ 31 ≤ i.toInt
  · rw [if_pos hout]
    refine ⟨nofun, fun h => ?_⟩
    have hfits := h.1
    simp only [FitsInt] at hfits
    omega
  · rw [if_neg hout]
    have hfits : FitsInt (some i) := by
      simp only [FitsInt]
      omega
    show (if _ ≠ _ then _ else _) = _ ↔ _
    rw [if_neg (not_not_intro rfl), and_iff_right hfits]
    exact ⟨Except.ok.inj, congrArg _⟩

/-- A described integer, from its cell. -/
theorem cellInt_ok_iff {i : Option Int64} {field : String} {default_ value : Int32} :
    (if ((i.map (fun i => toString i.toInt)).getD "").isEmpty = true then .ok default_
      else parseInt ((i.map (fun i => toString i.toInt)).getD "") field)
      = .ok value ↔ FitsInt i ∧ intOr default_ i = value := by
  cases i with
  | none => exact ⟨fun h => ⟨trivial, Except.ok.inj h⟩, fun h => congrArg _ h.2⟩
  | some i =>
      have hne : ¬ (toString i.toInt).isEmpty = true := by
        rw [String.isEmpty_iff]
        intro hnil
        have hread := readInteger_repr i.toInt
        rw [← Int.toString_eq_repr, hnil] at hread
        exact absurd hread nofun
      rw [Option.map_some, Option.getD_some, if_neg hne, parseInt_toString]
      exact Iff.rfl

/-- A described boolean, from its cell. -/
theorem cellBool_eq (b : Option Bool) (field : String) :
    (if ((b.map toString).getD "").isEmpty = true then .ok true
      else parseBool ((b.map toString).getD "") field) = .ok (b.getD true) := by
  have htrue : (toString true).map Char.toLower = "true" := by decide +kernel
  have hfalse : (toString false).map Char.toLower = "false" := by decide +kernel
  match b with
  | none => rfl
  | some true =>
      show parseBool (toString true) field = .ok true
      rw [parseBool, htrue]
      rfl
  | some false =>
      show parseBool (toString false) field = .ok false
      rw [parseBool, hfalse]
      rfl

/-- **The CSV parser** accepts what is described when the integers fit. -/
theorem csvFields_ok_iff (h : CsvOf d columns row) {config : JobConfig} :
    csvFields csvWhat columns row d.name = .ok config ↔
      (FitsInt d.iodepth ∧ FitsInt d.rwmixread) ∧
        d.parsed (intOr 1 d.iodepth) (intOr 50 d.rwmixread) = .ok config := by
  have hfilename : (if ((d.filename.map Subtype.val).getD "").isEmpty = true
      then defaultFilename d.name else (d.filename.map Subtype.val).getD "")
      = d.filename.elim (defaultFilename d.name) Subtype.val := by
    cases d.filename with
    | none => rfl
    | some text => exact if_neg (by rw [Option.map_some, Option.getD_some, text_isEmpty]; decide)
  have halign : (if ((d.align.map Subtype.val).getD "").isEmpty = true
      then parseSize "4k" .kKM else parseSize ((d.align.map Subtype.val).getD "") .kKM)
      = parseSize (d.align.elim "4k" Subtype.val) .kKM := by
    cases d.align with
    | none => rfl
    | some text => exact if_neg (by rw [Option.map_some, Option.getD_some, text_isEmpty]; decide)
  simp only [csvFields, JobDescription.parsed, required_eq h.engine, required_eq h.rw,
    required_eq h.bs, required_eq h.size, getOpt_eq h.iodepth, getOpt_eq h.direct,
    getOpt_eq h.rwmixread, getOpt_eq h.filename, getOpt_eq h.align, ok_bind,
    cellBool_eq, hfilename, halign, bind_ok_iff, cellInt_ok_iff]
  constructor
  · rintro ⟨mode, hmode, bs, hbs, size, hsize, depth, ⟨hdepth, rfl⟩, mix, ⟨hmix, rfl⟩,
      align, hal, hconfig⟩
    exact ⟨⟨hdepth, hmix⟩, mode, hmode, bs, hbs, size, hsize, align, hal, hconfig⟩
  · rintro ⟨⟨hdepth, hmix⟩, mode, hmode, bs, hbs, size, hsize, align, hal, hconfig⟩
    exact ⟨mode, hmode, bs, hbs, size, hsize, _, ⟨hdepth, rfl⟩, _, ⟨hmix, rfl⟩, align, hal,
      hconfig⟩

/-- What the CSV parser accepts. -/
theorem csvParseJob_ok_iff (h : CsvOf d columns row) {index : Nat} {config : JobConfig} :
    csvParseJob csvWhat columns row index = .ok config ↔
      (FitsInt d.iodepth ∧ FitsInt d.rwmixread) ∧
        d.parsed (intOr 1 d.iodepth) (intOr 50 d.rwmixread) = .ok config := by
  have hname : row.get csvWhat "name" = .ok d.name.val := by rw [CsvRow.get, h.name]
  rw [csvParseJob, hname]
  show (if d.name.val.isEmpty = true then _ else _) = _ ↔ _
  rw [if_neg (by rw [text_isEmpty]; decide), ← csvFields_ok_iff h]
  exact mapError_ok_iff

end Csv

/-! ## Agreement -/

/-- A parser followed by `ConfigValidator::Validate`. -/
def accepted (parsed : Except Exn JobConfig) : Except Exn JobConfig := do
  let config ← parsed
  validate config
  return config

def Fails (result : Except Exn JobConfig) : Prop := ∃ e, result = .error e

/-- Both fail, or both yield the same job, with the integers described. -/
def SameJob (d : JobDescription) (json csv : Except Exn JobConfig) : Prop :=
  (Fails json ∧ Fails csv) ∨
    ∃ config, json = .ok config ∧ csv = .ok config ∧
      (∀ i, d.iodepth = some i → config.iodepth.toInt = i.toInt) ∧
      (∀ i, d.rwmixread = some i → config.rwmixread.toInt = i.toInt)

/-- The description has nothing wrong with it but its integers. -/
def OtherwiseAccepted (d : JobDescription) : Prop :=
  ∃ rwMode blockSize fileSize alignment,
    parseRWMode d.rw = .ok rwMode ∧ parseSize d.bs .kKM = .ok blockSize ∧
    parseSize d.size .kKMG = .ok fileSize ∧
    parseSize (d.align.elim "4k" Subtype.val) .kKM = .ok alignment ∧
    isKnownEngine d.engine = true ∧
    (0 < alignment.toNat ∧ alignment &&& (alignment - 1) = 0) ∧
    (0 < blockSize.toNat ∧ alignment.toNat ∣ blockSize.toNat) ∧
    (blockSize.toNat ≤ fileSize.toNat ∧ alignment.toNat ∣ fileSize.toNat)

section Agreement

variable {d : JobDescription} {config : JobConfig} {result : Except Exn JobConfig}

/-- A job is accepted if it is parsed, and valid. -/
theorem accepted_ok_iff :
    accepted result = .ok config ↔ result = .ok config ∧ Validated config := by
  rw [accepted, bind_ok_iff]
  constructor
  · rintro ⟨parsed, hparsed, h⟩
    obtain ⟨_, hvalid, h⟩ := bind_ok_iff.mp h
    obtain rfl := Except.ok.inj h
    exact ⟨hparsed, validate_ok hvalid⟩
  · rintro ⟨hparsed, hvalid⟩
    refine ⟨config, hparsed, ?_⟩
    rw [validate_of_validated hvalid]
    rfl

/-- What fails has no result. -/
theorem fails_iff : Fails result ↔ ∀ config, result ≠ .ok config := by
  cases result with
  | error e => exact ⟨fun _ => nofun, fun _ => ⟨e, rfl⟩⟩
  | ok config => exact ⟨fun ⟨e, he⟩ => (nomatch he), fun h => absurd rfl (h config)⟩

/-- Which integers make an otherwise accepted description a valid job. -/
theorem exists_parsed_iff (iodepth rwmixread : Int32) :
    (∃ config, d.parsed iodepth rwmixread = .ok config ∧ Validated config) ↔
      OtherwiseAccepted d ∧ 1 ≤ iodepth ∧ 0 ≤ rwmixread ∧ rwmixread ≤ 100 := by
  simp only [JobDescription.parsed, bind_ok_iff]
  constructor
  · rintro ⟨config, ⟨mode, hmode, bs, hbs, size, hsize, align, halign, hconfig⟩, hv⟩
    obtain rfl := Except.ok.inj hconfig
    exact ⟨⟨mode, bs, size, align, hmode, hbs, hsize, halign, hv.engine,
      ⟨hv.alignment_pos, hv.alignment_pow⟩, ⟨hv.block_pos, hv.block_aligned⟩,
      hv.block_le_file, hv.file_aligned⟩, hv.iodepth, hv.rwmixread_ge, hv.rwmixread_le⟩
  · rintro ⟨⟨mode, bs, size, align, hmode, hbs, hsize, halign, hengine, hal, hb, hf⟩,
      hdepth, hlow, hhigh⟩
    exact ⟨_, ⟨mode, hmode, bs, hbs, size, hsize, align, halign, rfl⟩,
      text_isEmpty d.name, hal.1, hal.2, hb.1, hb.2, hf.1, hf.2, hengine, hlow, hhigh,
      hdepth⟩

/-- An integer that fits is read as it is. -/
theorem intOr_of_fits {o : Option Int64} (h : FitsInt o) {i : Int64} (hi : o = some i)
    (default_ : Int32) : (intOr default_ o).toInt = i.toInt := by
  subst hi
  obtain ⟨hlow, hhigh⟩ : -2 ^ 31 ≤ i.toInt ∧ i.toInt < 2 ^ 31 := h
  show i.toInt32.toInt = i.toInt
  rw [Int64.toInt_toInt32]
  exact Int.bmod_eq_of_le (by omega) (by omega)

/-- The two integers are parsed into their fields. -/
theorem parsed_ints {iodepth rwmixread : Int32}
    (h : d.parsed iodepth rwmixread = .ok config) :
    config.iodepth = iodepth ∧ config.rwmixread = rwmixread := by
  simp only [JobDescription.parsed, bind_ok_iff] at h
  obtain ⟨mode, -, bs, -, size, -, align, -, hconfig⟩ := h
  obtain rfl := Except.ok.inj hconfig
  exact ⟨rfl, rfl⟩

variable {jsonWhat : JsonFault → String} {csvWhat : String → String}
variable {job : JsonObject} {columns : List String} {row : CsvRow}

/-- **When the two parsers agree**: the integers described fit in an `int`, or the
    job is rejected either way, for something else or for what the JSON parser makes
    of an integer. -/
theorem parsers_agree_iff (hjob : JsonOf d job) (hrow : CsvOf d columns row)
    (index index' : Nat) :
    SameJob d (accepted (jsonParseJob jsonWhat job index))
        (accepted (csvParseJob csvWhat columns row index')) ↔
      (FitsInt d.iodepth ∧ FitsInt d.rwmixread) ∨ ¬ OtherwiseAccepted d ∨
        intOr 1 d.iodepth < 1 ∨ intOr 50 d.rwmixread < 0 ∨
        intOr 50 d.rwmixread > 100 := by
  have hjson : ∀ config, accepted (jsonParseJob jsonWhat job index) = .ok config ↔
      d.parsed (intOr 1 d.iodepth) (intOr 50 d.rwmixread) = .ok config ∧
        Validated config := by
    intro config
    rw [accepted_ok_iff, jsonParseJob_ok_iff hjob]
  have hcsv : ∀ config, accepted (csvParseJob csvWhat columns row index') = .ok config ↔
      (FitsInt d.iodepth ∧ FitsInt d.rwmixread) ∧
        accepted (jsonParseJob jsonWhat job index) = .ok config := by
    intro config
    rw [accepted_ok_iff, csvParseJob_ok_iff hrow, hjson, and_assoc]
  by_cases hfits : FitsInt d.iodepth ∧ FitsInt d.rwmixread
  · -- the CSV parser accepts what the JSON parser accepts
    refine iff_of_true ?_ (.inl hfits)
    simp only [and_iff_right hfits] at hcsv
    by_cases hok : ∃ config, accepted (jsonParseJob jsonWhat job index) = .ok config
    · obtain ⟨config, hconfig⟩ := hok
      obtain ⟨hdepth, hmix⟩ := parsed_ints ((hjson config).mp hconfig).1
      refine .inr ⟨config, hconfig, (hcsv config).mpr hconfig, fun i hi => ?_, fun i hi => ?_⟩
      · rw [hdepth]
        exact intOr_of_fits hfits.1 hi 1
      · rw [hmix]
        exact intOr_of_fits hfits.2 hi 50
    · have hnone : ∀ config, accepted (jsonParseJob jsonWhat job index) ≠ .ok config :=
        not_exists.mp hok
      exact .inl ⟨fails_iff.mpr hnone,
        fails_iff.mpr (fun config h => hnone config ((hcsv config).mp h))⟩
  · -- the CSV parser rejects, so the JSON parser has to
    have hcsvFails : Fails (accepted (csvParseJob csvWhat columns row index')) :=
      fails_iff.mpr (fun config h => hfits ((hcsv config).mp h).1)
    have hsame : SameJob d (accepted (jsonParseJob jsonWhat job index))
        (accepted (csvParseJob csvWhat columns row index')) ↔
        Fails (accepted (jsonParseJob jsonWhat job index)) := by
      constructor
      · rintro (⟨hfails, -⟩ | ⟨config, -, hc, -⟩)
        · exact hfails
        · exact absurd ((hcsv config).mp hc).1 hfits
      · exact fun hfails => .inl ⟨hfails, hcsvFails⟩
    rw [hsame, or_iff_right hfits, fails_iff]
    simp only [ne_eq, hjson]
    rw [← not_exists, exists_parsed_iff, not_and_or, not_and_or, not_and_or, Int32.not_le,
      Int32.not_le, Int32.not_le]

end Agreement

/-- A job with nothing but what is required, and this depth. -/
def depthJob (iodepth : Int64) : JobDescription where
  name := ⟨"deep", by decide⟩
  engine := ⟨"io_uring", by decide⟩
  rw := ⟨"randread", by decide⟩
  bs := ⟨"4k", by decide⟩
  size := ⟨"1g", by decide⟩
  iodepth := some iodepth

/-- That job in JSON. -/
def depthJson (iodepth : Int64) : JsonObject := fun key =>
  [("name", JsonValue.string "deep"), ("engine", .string "io_uring"),
    ("rw", .string "randread"), ("bs", .string "4k"), ("size", .string "1g"),
    ("iodepth", .integer iodepth)].lookup key

/-- And in a CSV file with just the columns it needs. -/
def depthColumns : List String := ["name", "engine", "rw", "bs", "size", "iodepth"]

def depthRow (iodepth : Int64) : CsvRow := fun column =>
  [("name", "deep"), ("engine", "io_uring"), ("rw", "randread"), ("bs", "4k"),
    ("size", "1g"), ("iodepth", toString iodepth.toInt)].lookup column

theorem depthJob_json (iodepth : Int64) : JsonOf (depthJob iodepth) (depthJson iodepth) := by
  constructor <;> rfl

theorem depthJob_csv (iodepth : Int64) :
    CsvOf (depthJob iodepth) depthColumns (depthRow iodepth) where
  name := rfl
  engine := rfl
  rw := rfl
  bs := rfl
  size := rfl
  iodepth := ⟨by decide, rfl⟩
  direct := .inl (by decide)
  rwmixread := .inl (by decide)
  filename := .inl (by decide)
  align := .inl (by decide)

theorem parsers_agree_iff_depth :
    SameJob (depthJob 32) (accepted (jsonParseJob (fun _ => "") (depthJson 32) 0))
      (accepted (csvParseJob (fun _ => "") depthColumns (depthRow 32) 0)) :=
  (parsers_agree_iff (depthJob_json 32) (depthJob_csv 32) 0 0).mpr
    (.inl ⟨by decide, trivial⟩)

/-- A depth of `2 ^ 32 + 1` is accepted as `1` in JSON, and rejected in CSV. -/
theorem parsers_differ :
    ∃ config, config.iodepth = 1 ∧
      accepted (jsonParseJob (fun _ => "") (depthJson 0x100000001) 0) = .ok config ∧
      Fails (accepted (csvParseJob (fun _ => "") depthColumns (depthRow 0x100000001) 0)) ∧
      JsonOf (depthJob 0x100000001) (depthJson 0x100000001) ∧
      CsvOf (depthJob 0x100000001) depthColumns (depthRow 0x100000001) ∧
      ¬ SameJob (depthJob 0x100000001)
        (accepted (jsonParseJob (fun _ => "") (depthJson 0x100000001) 0))
        (accepted (csvParseJob (fun _ => "") depthColumns (depthRow 0x100000001) 0)) := by
  have hjson : ∃ config, config.iodepth = 1 ∧
      accepted (jsonParseJob (fun _ => "") (depthJson 0x100000001) 0) = .ok config :=
    ⟨{ name := "deep", engine := "io_uring", rwMode := .kRandRead
       accessPattern := .kRandom, blockSize := 4096, fileSize := 1073741824, iodepth := 1
       filename := "./cfio-deep.dat" }, rfl, rfl⟩
  have hcsv : Fails (accepted (csvParseJob (fun _ => "") depthColumns
      (depthRow 0x100000001) 0)) := ⟨_, rfl⟩
  obtain ⟨config, hdepth, hconfig⟩ := hjson
  obtain ⟨e, he⟩ := hcsv
  refine ⟨config, hdepth, hconfig, ⟨e, he⟩, depthJob_json _, depthJob_csv _, ?_⟩
  rintro (⟨⟨e', he'⟩, -⟩ | ⟨config', -, hconfig', -⟩)
  · exact nomatch hconfig.symm.trans he'
  · exact nomatch he.symm.trans hconfig'

end CfioConfig
