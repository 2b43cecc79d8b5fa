import Mathlib.Data.List.Forall2

/-! # Comma separated values as text

    A reader of comma separated values: fields are separated by commas, records
    end with LF or CRLF, a field may be quoted, and a quote within quotes is
    doubled.  A text that breaks these rules is not read at all.

    `write` puts fields into a text as they are.  What it writes is read back
    exactly when no field holds a character that the reader takes for
    something else (`read_write_iff`).  That the reader never takes back what it has
    read (`readFrom_field`) is what makes one such character fatal.  Between
    quotes, any field is read back (`read_write_quoteField`). -/

namespace CsvText

/-- A table: records of fields. -/
abbrev Table := List (List (List Char))

/-! ## Reading -/

/-- Where the reader is: at the start of a field, in a field without quotes, between
    quotes, after a quote that was between quotes, or after a CR. -/
inductive Mode where
  | start
  | plain
  | quoted
  | quote
  | cr
  deriving DecidableEq, Repr

/-- What has been read: complete records, complete fields of the current record, and
    the current field. -/
structure Reader where
  records : Table := []
  fields : List (List Char) := []
  field : List Char := []
  mode : Mode := .start
  deriving DecidableEq, Repr

def Reader.endField (r : Reader) : Reader :=
  { r with fields := r.fields ++ [r.field], field := [], mode := .start }

def Reader.endRecord (r : Reader) : Reader :=
  { records := r.records ++ [r.fields ++ [r.field]] }

def Reader.push (r : Reader) (c : Char) (mode : Mode) : Reader :=
  { r with field := r.field ++ [c], mode := mode }

/-- A character other than a quote, outside quotes. -/
def Reader.unquoted (r : Reader) (c : Char) : Option Reader :=
  if c = ',' then some r.endField
  else if c = '\n' then some r.endRecord
  else if c = '\r' then some { r with mode := .cr }
  -- nothing else may follow the closing quote
  else if r.mode = .quote then none
  else some (r.push c .plain)

/-- One character. -/
def Reader.step (r : Reader) (c : Char) : Option Reader :=
  match r.mode with
  | .start => if c = '\"' then some { r with mode := .quoted } else r.unquoted c
  | .plain => if c = '\"' then none else r.unquoted c
  | .quoted =>
      if c = '\"' then some { r with mode := .quote } else some (r.push c .quoted)
  | .quote => if c = '\"' then some (r.push c .quoted) else r.unquoted c
  | .cr => if c = '\n' then some r.endRecord else none

/-- The end of the text, which may end the last record. -/
def Reader.finish (r : Reader) : Option Table :=
  if r.mode = .quoted ∨ r.mode = .cr then none
  else if r.mode = .start ∧ r.fields = [] then some r.records
  else some r.endRecord.records

def readFrom : Reader → List Char → Option Table
  | r, [] => r.finish
  | r, c :: text => (r.step c).bind (fun r' => readFrom r' text)

/-- Read a text. -/
def read (text : List Char) : Option Table := readFrom {} text

/-! ## Writing -/

/-- A record, its fields as they are. -/
def writeRecord : List (List Char) → List Char
  | [] => ['\n']
  | [f] => f ++ ['\n']
  | f :: fs => f ++ ',' :: writeRecord fs

/-- A table. -/
def write (rows : Table) : List Char := rows.flatMap writeRecord

/-- A field with its quotes doubled. -/
def escape (f : List Char) : List Char :=
  f.flatMap (fun c => if c = '\"' then ['\"', '\"'] else [c])

/-- A field between quotes. -/
def quoteField (f : List Char) : List Char := '\"' :: (escape f ++ ['\"'])

/-- A character with no meaning of its own. -/
def PlainChar (c : Char) : Prop := c ≠ ',' ∧ c ≠ '\"' ∧ c ≠ '\n' ∧ c ≠ '\r'

instance (c : Char) : Decidable (PlainChar c) := inferInstanceAs (Decidable (_ ∧ _))

/-- A field without such characters. -/
def Plain (f : List Char) : Prop := ∀ c ∈ f, PlainChar c

instance (f : List Char) : Decidable (Plain f) :=
  inferInstanceAs (Decidable (∀ c ∈ f, PlainChar c))

/-! ## What a step can do -/

section Steps

variable {r r' : Reader} {c : Char}

/-- A step ends the field, or the record, or goes on with the field. -/
inductive Effect (r : Reader) : Reader → Prop where
  | endField : Effect r r.endField
  | endRecord : Effect r r.endRecord
  | goOn (more : List Char) (mode : Mode) : mode ≠ .start →
      Effect r { r with field := r.field ++ more, mode := mode }

theorem unquoted_effect (h : r.unquoted c = some r') : Effect r r' := by
  have hcr : Effect r { r with mode := .cr } := by
    have hgoOn := Effect.goOn (r := r) [] .cr nofun
    rw [List.append_nil] at hgoOn
    exact hgoOn
  simp only [Reader.unquoted] at h
  split at h
  · rw [← Option.some.inj h]
    exact .endField
  · split at h
    · rw [← Option.some.inj h]
      exact .endRecord
    · split at h
      · rw [← Option.some.inj h]
        exact hcr
      · obtain ⟨-, h⟩ := Option.ite_none_left_eq_some.mp h
        rw [← Option.some.inj h]
        exact .goOn [c] .plain nofun

theorem step_effect (h : r.step c = some r') : Effect r r' := by
  have hmode : ∀ mode, mode ≠ .start → Effect r { r with mode := mode } := by
    intro mode hne
    have hgoOn := Effect.goOn (r := r) [] mode hne
    rw [List.append_nil] at hgoOn
    exact hgoOn
  simp only [Reader.step] at h
  cases hm : r.mode with
  | start =>
      rw [hm] at h
      by_cases hc : c = '\"'
      · simp only [if_pos hc] at h
        rw [← Option.some.inj h]
        exact hmode .quoted nofun
      · simp only [if_neg hc] at h
        exact unquoted_effect h
  | plain =>
      rw [hm] at h
      by_cases hc : c = '\"'
      · simp only [if_pos hc] at h
        exact nomatch h
      · simp only [if_neg hc] at h
        exact unquoted_effect h
  | quoted =>
      rw [hm] at h
      by_cases hc : c = '\"'
      · simp only [if_pos hc] at h
        rw [← Option.some.inj h]
        exact hmode .quote nofun
      · simp only [if_neg hc] at h
        rw [← Option.some.inj h]
        exact .goOn [c] .quoted nofun
  | quote =>
      rw [hm] at h
      by_cases hc : c = '\"'
      · simp only [if_pos hc] at h
        rw [← Option.some.inj h]
        exact .goOn [c] .quoted nofun
      · simp only [if_neg hc] at h
        exact unquoted_effect h
  | cr =>
      rw [hm] at h
      obtain ⟨-, h⟩ := Option.ite_none_right_eq_some.mp h
      rw [← Option.some.inj h]
      exact .endRecord

end Steps

/-! ## What has been read stays -/

section Reading

variable {r : Reader} {text : List Char} {rows : Table}

/-- Complete records stay. -/
theorem readFrom_records (h : readFrom r text = some rows) :
    ∃ others, rows = r.records ++ others := by
  induction text generalizing r with
  | nil =>
      obtain ⟨-, h⟩ := Option.ite_none_left_eq_some.mp h
      split at h
      · rw [← Option.some.inj h]
        exact ⟨[], (List.append_nil _).symm⟩
      · rw [← Option.some.inj h]
        exact ⟨_, rfl⟩
  | cons c text ih =>
      obtain ⟨r', hstep, hrest⟩ := Option.bind_eq_some_iff.mp h
      obtain ⟨others, rfl⟩ := ih hrest
      cases step_effect hstep with
      | endField => exact ⟨others, rfl⟩
      | goOn more mode hmode => exact ⟨others, rfl⟩
      | endRecord => exact ⟨_, List.append_assoc ..⟩

/-- **What has been read of a record stays**: its complete fields, and the current
    field as far as it goes. -/
theorem readFrom_field (h : readFrom r text = some rows)
    (hin : r.mode ≠ .start ∨ r.fields ≠ [] ∨ text ≠ []) :
    ∃ last rest others,
      rows = r.records ++ (r.fields ++ (r.field ++ last) :: rest) :: others := by
  induction text generalizing r with
  | nil =>
      obtain ⟨-, h⟩ := Option.ite_none_left_eq_some.mp h
      have hnot : ¬ (r.mode = .start ∧ r.fields = []) := by
        rintro ⟨hmode, hfields⟩
        rcases hin with hno | hno | hno
        · exact hno hmode
        · exact hno hfields
        · exact hno rfl
      rw [if_neg hnot] at h
      refine ⟨[], [], [], ?_⟩
      rw [← Option.some.inj h, List.append_nil]
      rfl
  | cons c text ih =>
      obtain ⟨r', hstep, hrest⟩ := Option.bind_eq_some_iff.mp h
      cases step_effect hstep with
      | endField =>
          have hfields : r.endField.fields ≠ [] := List.append_ne_nil_of_right_ne_nil _ nofun
          obtain ⟨last, rest, others, rfl⟩ := ih hrest (.inr (.inl hfields))
          refine ⟨[], (r.endField.field ++ last) :: rest, others, ?_⟩
          simp only [Reader.endField, List.append_assoc, List.append_nil, List.nil_append,
            List.cons_append]
      | endRecord =>
          obtain ⟨others, rfl⟩ := readFrom_records hrest
          refine ⟨[], [], others, ?_⟩
          rw [List.append_nil]
          exact List.append_assoc ..
      | goOn more mode hmode =>
          obtain ⟨last, rest, others, rfl⟩ := ih hrest (.inl hmode)
          exact ⟨more ++ last, rest, others, by rw [← List.append_assoc]⟩

theorem readFrom_endField (h : readFrom r.endField text = some rows) :
    ∃ rest others, rows = r.records ++ (r.fields ++ r.field :: rest) :: others := by
  have hfields : r.endField.fields ≠ [] := List.append_ne_nil_of_right_ne_nil _ nofun
  obtain ⟨last, rest, others, rfl⟩ := readFrom_field h (.inr (.inl hfields))
  refine ⟨(r.endField.field ++ last) :: rest, others, ?_⟩
  simp only [Reader.endField, List.append_assoc, List.nil_append, List.cons_append]

theorem readFrom_endRecord (h : readFrom r.endRecord text = some rows) :
    ∃ rest others, rows = r.records ++ (r.fields ++ r.field :: rest) :: others := by
  obtain ⟨others, rfl⟩ := readFrom_records h
  exact ⟨[], others, List.append_assoc ..⟩

/-- Outside quotes, a character that has a meaning ends the field: nothing is added
    to it. -/
theorem unquoted_ends {c : Char}
    (hc : r.mode = .quote ∨ c = ',' ∨ c = '\n' ∨ c = '\r')
    (h : (r.unquoted c).bind (fun r' => readFrom r' text) = some rows) :
    ∃ rest others, rows = r.records ++ (r.fields ++ r.field :: rest) :: others := by
  obtain ⟨r', hstep, hrest⟩ := Option.bind_eq_some_iff.mp h
  simp only [Reader.unquoted] at hstep
  by_cases hcomma : c = ','
  · rw [if_pos hcomma] at hstep
    rw [← Option.some.inj hstep] at hrest
    exact readFrom_endField hrest
  · rw [if_neg hcomma] at hstep
    by_cases hlf : c = '\n'
    · rw [if_pos hlf] at hstep
      rw [← Option.some.inj hstep] at hrest
      exact readFrom_endRecord hrest
    · rw [if_neg hlf] at hstep
      by_cases hcr : c = '\r'
      · rw [if_pos hcr] at hstep
        rw [← Option.some.inj hstep] at hrest
        -- the CR has to be followed by a LF
        cases text with
        | nil => exact nomatch hrest
        | cons c' text =>
            obtain ⟨r'', hlast, hrest⟩ := Option.bind_eq_some_iff.mp hrest
            obtain ⟨-, hlast⟩ := Option.ite_none_right_eq_some.mp hlast
            rw [← Option.some.inj hlast] at hrest
            exact readFrom_endRecord (r := r) hrest
      · rw [if_neg hcr] at hstep
        obtain ⟨hmode, -⟩ := Option.ite_none_left_eq_some.mp hstep
        rcases hc with hno | hno | hno | hno
        · exact absurd hno hmode
        · exact absurd hno hcomma
        · exact absurd hno hlf
        · exact absurd hno hcr

/-- Plain characters are read into the field. -/
theorem readFrom_plain {f : List Char} (hf : Plain f)
    (hmode : r.mode = .start ∨ r.mode = .plain) (text : List Char) :
    ∃ r', readFrom r (f ++ text) = readFrom r' text ∧ r'.records = r.records ∧
      r'.fields = r.fields ∧ r'.field = r.field ++ f ∧
      (r'.mode = .start ∨ r'.mode = .plain) ∧ (f = [] → r' = r) ∧
      (f ≠ [] → r'.mode = .plain) := by
  induction f generalizing r with
  | nil =>
      exact ⟨r, rfl, rfl, rfl, (List.append_nil _).symm, hmode, fun _ => rfl, fun h =>
        absurd rfl h⟩
  | cons c f ih =>
      obtain ⟨hcomma, hquote, hlf, hcr⟩ := hf c (List.mem_cons_self ..)
      have hopen : r.mode ≠ .quote := by
        rcases hmode with h | h <;> rw [h] <;> exact nofun
      have hunquoted : r.unquoted c = some (r.push c .plain) := by
        rw [Reader.unquoted, if_neg hcomma, if_neg hlf, if_neg hcr, if_neg hopen]
      have hstep : r.step c = some (r.push c .plain) := by
        rcases hmode with h | h
        · simp only [Reader.step, h, if_neg hquote]
          exact hunquoted
        · simp only [Reader.step, h, if_neg hquote]
          exact hunquoted
      obtain ⟨r', hread, hrecords, hfields, hfield, hmode', hnil, hne⟩ :=
        ih (fun x hx => hf x (List.mem_cons_of_mem _ hx)) (r := r.push c .plain) (.inr rfl)
      refine ⟨r', ?_, hrecords, hfields, ?_, hmode', nofun, fun _ => ?_⟩
      · rw [← hread]
        show (r.step c).bind _ = _
        rw [hstep]
        rfl
      · rw [hfield]
        exact List.append_assoc ..
      · by_cases hf' : f = []
        · rw [hnil hf']
          rfl
        · exact hne hf'

/-- Pairs of quotes between quotes. -/
theorem readFrom_pairs (hmode : r.mode = .quoted) (k : Nat) (text : List Char) :
    readFrom r (List.replicate (2 * k) '\"' ++ text)
      = readFrom { r with field := r.field ++ List.replicate k '\"' } text := by
  induction k generalizing r with
  | zero =>
      show readFrom r text = readFrom { r with field := r.field ++ [] } text
      rw [List.append_nil]
  | succ k ih =>
      -- the first quote waits for the second
      have htwo : readFrom r (List.replicate (2 * (k + 1)) '\"' ++ text)
          = readFrom { r with field := r.field ++ ['\"'] }
            (List.replicate (2 * k) '\"' ++ text) := by
        obtain ⟨records, fields, field, mode⟩ := r
        obtain rfl : mode = .quoted := hmode
        rfl
      rw [htwo, ih (r := { r with field := r.field ++ ['\"'] }) hmode, List.append_assoc]
      rfl

end Reading

/-! ## What is read back -/

/-- Every text is some quotes, and something that does not begin with one. -/
theorem exists_quotes (f : List Char) :
    ∃ m rest, f = List.replicate m '\"' ++ rest ∧ ∀ tail, rest ≠ '\"' :: tail := by
  induction f with
  | nil => exact ⟨0, [], rfl, nofun⟩
  | cons c f ih =>
      by_cases hc : c = '\"'
      · obtain ⟨m, rest, rfl, hrest⟩ := ih
        exact ⟨m + 1, rest, by rw [hc]; rfl, hrest⟩
      · exact ⟨0, c :: f, rfl, fun tail h => hc (List.cons.inj h).1⟩

/-- A field that is not plain has a first character that is not. -/
theorem exists_first {f : List Char} (h : ¬ Plain f) :
    ∃ p x q, f = p ++ x :: q ∧ Plain p ∧ ¬ PlainChar x := by
  induction f with
  | nil => exact absurd nofun h
  | cons c f ih =>
      by_cases hc : PlainChar c
      · have hf : ¬ Plain f := fun hf => h (List.forall_mem_cons.mpr ⟨hc, hf⟩)
        obtain ⟨p, x, q, rfl, hp, hx⟩ := ih hf
        exact ⟨c :: p, x, q, rfl, List.forall_mem_cons.mpr ⟨hc, hp⟩, hx⟩
      · exact ⟨[], c, f, rfl, nofun, hc⟩

/-- A field has one place in a table. -/
theorem field_unique {records others others' : Table}
    {fields rest rest' : List (List Char)} {f g : List Char}
    (h : records ++ (fields ++ f :: rest) :: others
      = records ++ (fields ++ g :: rest') :: others') : f = g :=
  (List.cons.inj (List.append_cancel_left
    (List.cons.inj (List.append_cancel_left h)).1)).1

section Fields

variable {records others : Table} {fields rest : List (List Char)} {f text : List Char}
variable {c : Char}

/-- A field that begins with a quote is not read as it is: what follows the quote has
    too few quotes to stand for as many. -/
theorem not_read_quote {q : List Char} (hc : c ≠ '\"') :
    readFrom { records := records, fields := fields, mode := .quoted } (q ++ c :: text)
      ≠ some (records ++ (fields ++ ('\"' :: q) :: rest) :: others) := by
  obtain ⟨m, q', rfl, hq'⟩ := exists_quotes q
  obtain ⟨y, u, hyu, hy⟩ : ∃ y u, q' ++ c :: text = y :: u ∧ y ≠ '\"' := by
    cases q' with
    | nil => exact ⟨c, text, rfl, hc⟩
    | cons y q' => exact ⟨y, q' ++ c :: text, rfl, fun h => hq' q' (by rw [h])⟩
  intro h
  rw [List.append_assoc, hyu] at h
  obtain ⟨k, rfl | rfl⟩ : ∃ k, m = 2 * k ∨ m = 2 * k + 1 := ⟨m / 2, by omega⟩
  · -- the pairs are over and the field goes on with another character
    rw [readFrom_pairs rfl] at h
    obtain ⟨r', hstep, hrest⟩ := Option.bind_eq_some_iff.mp h
    simp only [Reader.step, if_neg hy] at hstep
    rw [← Option.some.inj hstep] at hrest
    obtain ⟨last, rest', others', heq⟩ := readFrom_field hrest (.inl nofun)
    have hfield := congrArg (fun l => l[k]?) (field_unique heq)
    have hleft : ('\"' :: (List.replicate (2 * k) '\"' ++ q'))[k]? = some '\"' := by
      rw [← List.cons_append, ← List.replicate_succ,
        List.getElem?_append_left (by rw [List.length_replicate]; omega),
        List.getElem?_replicate_of_lt (by omega)]
    have hright : (([] ++ List.replicate k '\"' ++ [y]) ++ last)[k]? = some y := by
      rw [List.nil_append, List.append_assoc,
        List.getElem?_append_right (Nat.le_of_eq List.length_replicate), List.length_replicate,
        Nat.sub_self]
      rfl
    exact hy (Option.some.inj (hright.symm.trans (hfield.symm.trans hleft)))
  · -- the quotes are over, and so is the field
    have hsplit : List.replicate (2 * k + 1) '\"' ++ y :: u
        = List.replicate (2 * k) '\"' ++ '\"' :: y :: u := by
      rw [List.replicate_succ', List.append_assoc]
      rfl
    rw [hsplit, readFrom_pairs rfl] at h
    obtain ⟨r', hstep, hrest⟩ := Option.bind_eq_some_iff.mp h
    rw [← Option.some.inj hstep] at hrest
    obtain ⟨r'', hstep', hrest'⟩ := Option.bind_eq_some_iff.mp hrest
    simp only [Reader.step, if_neg hy] at hstep'
    obtain ⟨rest', others', heq⟩ :=
      unquoted_ends (.inl rfl) (Option.bind_eq_some_iff.mpr ⟨r'', hstep', hrest'⟩)
    have hlen := congrArg List.length (field_unique heq)
    simp only [List.length_cons, List.length_append, List.length_replicate,
      List.length_nil] at hlen
    omega

/-- **A field that is read back is plain.** -/
theorem plain_of_read (hc : c = ',' ∨ c = '\n')
    (h : readFrom { records := records, fields := fields } (f ++ c :: text)
      = some (records ++ (fields ++ f :: rest) :: others)) : Plain f := by
  by_contra hnot
  obtain ⟨p, x, q, rfl, hp, hx⟩ := exists_first hnot
  obtain ⟨r', hread, hrecords, hfields, hfield, hmode, hnil, hne⟩ :=
    readFrom_plain hp (r := { records := records, fields := fields }) (.inl rfl)
      (x :: (q ++ c :: text))
  rw [List.append_assoc, List.cons_append, hread] at h
  obtain ⟨r'', hstep, hrest⟩ := Option.bind_eq_some_iff.mp h
  by_cases hquote : x = '\"'
  · subst hquote
    cases p with
    | nil =>
        rw [hnil rfl] at hstep
        obtain rfl := Option.some.inj hstep
        refine not_read_quote ?_ hrest
        rcases hc with rfl | rfl <;> decide
    | cons y p =>
        -- a quote in a field without quotes
        simp only [Reader.step, hne (List.cons_ne_nil _ _)] at hstep
        exact nomatch hstep
  · have hmeans : x = ',' ∨ x = '\n' ∨ x = '\r' := by
      simp only [PlainChar, not_and_or, not_not] at hx
      rcases hx with h | h | h | h
      · exact .inl h
      · exact absurd h hquote
      · exact .inr (.inl h)
      · exact .inr (.inr h)
    have hunquoted : r'.step x = r'.unquoted x := by
      rcases hmode with hm | hm <;> simp only [Reader.step, hm, if_neg hquote]
    rw [hunquoted] at hstep
    obtain ⟨rest', others', heq⟩ :=
      unquoted_ends (.inr hmeans) (Option.bind_eq_some_iff.mpr ⟨r'', hstep, hrest⟩)
    rw [hrecords, hfields, hfield] at heq
    have hlen := congrArg List.length (field_unique heq)
    simp only [List.length_append, List.length_cons, List.length_nil] at hlen
    omega

end Fields

/-! ## Records -/

section Records

variable {records others : Table} {fields fs gs : List (List Char)} {f g text : List Char}

/-- The text `g` is read as the field `f`, before a comma and at the end of a line. -/
structure ReadAs (g f : List Char) : Prop where
  comma (records : Table) (fields : List (List Char)) (text : List Char) :
    readFrom { records := records, fields := fields } (g ++ ',' :: text)
      = readFrom { records := records, fields := fields ++ [f] } text
  newline (records : Table) (fields : List (List Char)) (text : List Char) :
    readFrom { records := records, fields := fields } (g ++ '\n' :: text)
      = readFrom { records := records ++ [fields ++ [f]] } text

/-- Outside quotes, a comma ends the field and a LF the record. -/
theorem readFrom_separator {r : Reader} (hmode : r.mode = .start ∨ r.mode = .plain)
    (text : List Char) :
    readFrom r (',' :: text) = readFrom r.endField text ∧
      readFrom r ('\n' :: text) = readFrom r.endRecord text := by
  obtain ⟨records, fields, field, mode⟩ := r
  rcases hmode with h | h
  · obtain rfl : mode = .start := h
    exact ⟨rfl, rfl⟩
  · obtain rfl : mode = .plain := h
    exact ⟨rfl, rfl⟩

/-- A plain field is read as it is. -/
theorem readAs_of_plain (hf : Plain f) : ReadAs f f where
  comma records fields text := by
    obtain ⟨⟨_, _, _, _⟩, hread, rfl, rfl, rfl, hmode, -⟩ :=
      readFrom_plain hf (r := { records := records, fields := fields }) (.inl rfl)
        (',' :: text)
    rw [hread, (readFrom_separator hmode text).1]
    rfl
  newline records fields text := by
    obtain ⟨⟨_, _, _, _⟩, hread, rfl, rfl, rfl, hmode, -⟩ :=
      readFrom_plain hf (r := { records := records, fields := fields }) (.inl rfl)
        ('\n' :: text)
    rw [hread, (readFrom_separator hmode text).2]
    rfl

/-- Between quotes, a field with its quotes doubled is read into the field. -/
theorem readFrom_escape {r : Reader} (hmode : r.mode = .quoted) (text : List Char) :
    readFrom r (escape f ++ text) = readFrom { r with field := r.field ++ f } text := by
  induction f generalizing r with
  | nil =>
      show readFrom r text = readFrom { r with field := r.field ++ [] } text
      rw [List.append_nil]
  | cons c f ih =>
      have hc : readFrom r (escape (c :: f) ++ text)
          = readFrom { r with field := r.field ++ [c] } (escape f ++ text) := by
        obtain ⟨records, fields, field, mode⟩ := r
        obtain rfl : mode = .quoted := hmode
        by_cases h : c = '\"'
        · subst h
          rfl
        · have hone : escape (c :: f) = c :: escape f := by
            rw [escape, List.flatMap_cons, if_neg h]
            rfl
          rw [hone, List.cons_append]
          simp only [readFrom, Reader.step, if_neg h, Reader.push, Option.bind_some]
      rw [hc, ih (r := { r with field := r.field ++ [c] }) hmode, List.append_assoc]
      rfl

/-- **Between quotes, any field is read back.** -/
theorem readAs_quoteField (f : List Char) : ReadAs (quoteField f) f where
  comma records fields text := by
    show readFrom { records := records, fields := fields, mode := .quoted }
      ((escape f ++ ['\"']) ++ ',' :: text) = _
    rw [List.append_assoc, readFrom_escape rfl]
    rfl
  newline records fields text := by
    show readFrom { records := records, fields := fields, mode := .quoted }
      ((escape f ++ ['\"']) ++ '\n' :: text) = _
    rw [List.append_assoc, readFrom_escape rfl]
    rfl

/-- A record whose fields are read as those of another is read as the other. -/
theorem readFrom_writeRecord (hne : fs ≠ []) (h : List.Forall₂ ReadAs gs fs) :
    readFrom { records := records, fields := fields } (writeRecord gs ++ text)
      = readFrom { records := records ++ [fields ++ fs] } text := by
  induction h generalizing fields with
  | nil => exact absurd rfl hne
  | @cons g f gs fs hf hfs ih =>
      cases hfs with
      | nil =>
          show readFrom _ ((g ++ ['\n']) ++ text) = _
          rw [List.append_assoc]
          exact hf.newline records fields text
      | @cons g' f' gs fs hf' hfs =>
          show readFrom _ ((g ++ ',' :: writeRecord (g' :: gs)) ++ text) = _
          rw [List.append_assoc, List.cons_append, hf.comma,
            ih (List.cons_ne_nil f' fs), List.append_assoc]
          rfl

/-- The same for a table. -/
theorem readFrom_write {texts rows : Table} (hne : ∀ r ∈ rows, r ≠ [])
    (h : List.Forall₂ (List.Forall₂ ReadAs) texts rows) :
    readFrom { records := records } (write texts) = some (records ++ rows) := by
  induction h generalizing records with
  | nil => exact congrArg some (List.append_nil _).symm
  | @cons gs fs texts rows hfs hrows ih =>
      obtain ⟨hfirst, hrest⟩ := List.forall_mem_cons.mp hne
      have hread : readFrom { records := records } (write (gs :: texts))
          = readFrom { records := records ++ [fs] } (write texts) :=
        readFrom_writeRecord hfirst hfs
      rw [hread, ih hrest, List.append_assoc]
      rfl

/-- **A table is read back when every field is between quotes.** -/
theorem read_write_quoteField {rows : Table} (hne : ∀ r ∈ rows, r ≠ []) :
    read (write (rows.map (·.map quoteField))) = some rows := by
  have hread : List.Forall₂ (List.Forall₂ ReadAs) (rows.map (·.map quoteField)) rows := by
    rw [List.forall₂_map_left_iff]
    refine List.forall₂_same.mpr (fun fs _ => ?_)
    rw [List.forall₂_map_left_iff]
    exact List.forall₂_same.mpr (fun f _ => readAs_quoteField f)
  exact readFrom_write hne hread

/-- **A record that is read back as it is has plain fields only.** -/
theorem plain_of_readRecord
    (h : readFrom { records := records, fields := fields } (writeRecord fs ++ text)
      = some (records ++ (fields ++ fs) :: others)) : ∀ f ∈ fs, Plain f := by
  induction fs generalizing fields with
  | nil => exact nofun
  | cons f fs ih =>
      cases fs with
      | nil =>
          have h : readFrom _ ((f ++ ['\n']) ++ text) = _ := h
          rw [List.append_assoc] at h
          have hf : Plain f := plain_of_read (.inr rfl) h
          exact List.forall_mem_cons.mpr ⟨hf, nofun⟩
      | cons g fs =>
          have h : readFrom _ ((f ++ ',' :: writeRecord (g :: fs)) ++ text) = _ := h
          rw [List.append_assoc, List.cons_append] at h
          have hf : Plain f := plain_of_read (.inl rfl) h
          rw [(readAs_of_plain hf).comma] at h
          have hrest : ∀ f' ∈ g :: fs, Plain f' := by
            have hsame : records ++ (fields ++ f :: g :: fs) :: others
                = records ++ ((fields ++ [f]) ++ g :: fs) :: others := by
              rw [List.append_assoc]
              rfl
            exact ih (hsame ▸ h)
          exact List.forall_mem_cons.mpr ⟨hf, hrest⟩

theorem forall₂_readAs (h : ∀ f ∈ fs, Plain f) : List.Forall₂ ReadAs fs fs :=
  List.forall₂_same.mpr (fun f hf => readAs_of_plain (h f hf))

/-- A table that is read back as it is has plain fields only. -/
theorem plain_of_readFrom_write {rows : Table} (hne : ∀ r ∈ rows, r ≠ [])
    (h : readFrom { records := records } (write rows) = some (records ++ rows)) :
    ∀ r ∈ rows, ∀ f ∈ r, Plain f := by
  induction rows generalizing records with
  | nil => exact nofun
  | cons r rows ih =>
      obtain ⟨hfirst, hrest⟩ := List.forall_mem_cons.mp hne
      have hplain : ∀ f ∈ r, Plain f := plain_of_readRecord h
      have hread : readFrom { records := records } (write (r :: rows))
          = readFrom { records := records ++ [r] } (write rows) :=
        readFrom_writeRecord hfirst (forall₂_readAs hplain)
      have hrows : ∀ r ∈ rows, ∀ f ∈ r, Plain f := by
        have hsame : records ++ r :: rows = (records ++ [r]) ++ rows := by
          rw [List.append_assoc]
          rfl
        exact ih hrest (hread ▸ hsame ▸ h)
      exact List.forall_mem_cons.mpr ⟨hplain, hrows⟩

/-- **A table is read back as it is if and only if all its fields are plain.** -/
theorem read_write_iff {rows : Table} (hne : ∀ r ∈ rows, r ≠ []) :
    read (write rows) = some rows ↔ ∀ r ∈ rows, ∀ f ∈ r, Plain f := by
  constructor
  · intro h
    exact plain_of_readFrom_write hne (h.trans (congrArg some (List.nil_append rows).symm))
  · intro h
    exact readFrom_write hne
      (List.forall₂_same.mpr (fun r hr => forall₂_readAs (h r hr)))

end Records

end CsvText
