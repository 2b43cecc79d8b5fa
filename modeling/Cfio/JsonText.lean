import Mathlib.Data.List.TakeWhile
import Mathlib.Data.Rat.Floor
import Cfio.Transition

/-! # JSON as text

    The values of JSON, the texts that stand for them, and a reader.  `Renders` is the
    grammar: any white space between the tokens, any way to escape a character, any
    spelling of a number.  The reader returns the value whatever text was chosen for it
    (`read_document`), so a text stands for one value at most.

    Tokens with a structure of their own, the numbers and the characters of a string, are
    read one character at a time by an automaton (`NumberScan`, `StringScan`). -/

namespace JsonText

open Transition

/-- A value.  The members of an object keep their order. -/
inductive Value where
  | null
  | bool (b : Bool)
  | number (q : ℚ)
  | string (s : String)
  | array (elements : List Value)
  | object (members : List (String × Value))

/-- The first member of that name. -/
def Value.get? (key : String) : Value → Option Value
  | .object members => members.lookup key
  | _ => none

/-! ## Values as data -/

def Value.asString : Value → Option String
  | .string s => some s
  | _ => none

def Value.asBool : Value → Option Bool
  | .bool b => some b
  | _ => none

/-- A number of units, with no fraction of a unit left. -/
def Value.asUnits (perOne : Nat) : Value → Option Int
  | .number q => if (q * perOne).den = 1 then some (q * perOne).num else none
  | _ => none

def Value.asInt (v : Value) : Option Int := v.asUnits 1

def Value.asNat (v : Value) : Option Nat :=
  v.asInt.bind (fun i => if 0 ≤ i then some i.toNat else none)

/-- What may be null. -/
def Value.asOptional {α : Type} (f : Value → Option α) : Value → Option (Option α)
  | .null => some none
  | v => (f v).map some

def Value.asList {α : Type} (f : Value → Option α) : Value → Option (List α)
  | .array elements => elements.mapM f
  | _ => none

/-- A member of an object. -/
def Value.field {α : Type} (v : Value) (key : String) (f : Value → Option α) : Option α :=
  (v.get? key).bind f

theorem field_cons {α : Type} (key k : String) (v : Value) (ms : List (String × Value))
    (f : Value → Option α) :
    (Value.object ((k, v) :: ms)).field key f
      = if key = k then f v else (Value.object ms).field key f := by
  simp only [Value.field, Value.get?, List.lookup_cons]
  by_cases h : key = k
  · rw [if_pos h, h, beq_self_eq_true]
    rfl
  · rw [if_neg h, beq_false_of_ne h]

/-- A number of units is read back as that number. -/
theorem asUnits_div {m : Int} {perOne : Nat} (h : 0 < perOne) :
    (Value.number ((m : ℚ) / perOne)).asUnits perOne = some m := by
  have hne : (perOne : ℚ) ≠ 0 := Nat.cast_ne_zero.mpr (Nat.pos_iff_ne_zero.mp h)
  rw [Value.asUnits, div_mul_cancel₀ _ hne]
  rfl

/-- An integer is read back as itself. -/
theorem asInt_number (i : Int) : (Value.number i).asInt = some i := by
  have h := @asUnits_div i 1 Nat.one_pos
  rw [Nat.cast_one, div_one] at h
  exact h

/-- A natural number is read back as itself. -/
theorem asNat_number (n : Nat) : (Value.number n).asNat = some n := by
  have h := asInt_number (n : Int)
  rw [Int.cast_natCast] at h
  rw [Value.asNat, h, Option.bind_some, if_pos (Int.natCast_nonneg n), Int.toNat_natCast]

/-- A list of elements each of which is understood. -/
theorem asList_map {α β : Type} {f : Value → Option β} {g : α → Value} {h : α → β}
    (hf : ∀ a, f (g a) = some (h a)) (l : List α) :
    (Value.array (l.map g)).asList f = some (l.map h) := by
  show (l.map g).mapM f = _
  induction l with
  | nil => rfl
  | cons a l ih => rw [List.map_cons, List.mapM_cons, hf, ih]; rfl

/-! ## White space -/

def isSpace (c : Char) : Bool := c = ' ' ∨ c = '\n' ∨ c = '\r' ∨ c = '\t'

/-- Nothing but white space. -/
def Space (w : List Char) : Prop := ∀ c ∈ w, isSpace c = true

instance (w : List Char) : Decidable (Space w) :=
  List.decidableBAll (fun c => isSpace c = true) w

def skipSpace (text : List Char) : List Char := text.dropWhile isSpace

/-! ## Numbers -/

/-- What has been read of a number: nothing, the minus, a leading zero, digits, the point,
    digits behind it, the exponent's mark, its sign, its digits. -/
inductive NumberLoc where
  | start
  | minus
  | zero
  | int
  | point
  | frac
  | mark
  | sign
  | exp
  deriving DecidableEq, Repr

/-- The digits read so far as one integer, how many of them stand behind the point, and
    the exponent. -/
structure NumberScan where
  loc : NumberLoc := .start
  negative : Bool := false
  mantissa : Nat := 0
  places : Nat := 0
  expNegative : Bool := false
  exponent : Nat := 0
  deriving DecidableEq, Repr

def NumberScan.digit (s : NumberScan) (c : Char) (loc : NumberLoc) (places : Nat) : NumberScan :=
  { s with loc := loc, mantissa := 10 * s.mantissa + (c.toNat - 48), places := places }

def NumberScan.expDigit (s : NumberScan) (c : Char) : NumberScan :=
  { s with loc := .exp, exponent := 10 * s.exponent + (c.toNat - 48) }

/-- Digits of the integer part, which has no leading zero. -/
def NumberScan.intDigit (s : NumberScan) (c : Char) : Option NumberScan :=
  if c = '0' then some { s with loc := .zero }
  else if c.isDigit then some (s.digit c .int 0)
  else none

/-- What may stand behind the integer part, or behind the digits after the point. -/
def NumberScan.next (s : NumberScan) (c : Char) (pointAllowed : Bool) : Option NumberScan :=
  if c = 'e' ∨ c = 'E' then some { s with loc := .mark }
  else if pointAllowed ∧ c = '.' then some { s with loc := .point }
  else none

def NumberScan.step (s : NumberScan) (c : Char) : Option NumberScan :=
  match s.loc with
  | .start => if c = '-' then some { s with loc := .minus, negative := true } else s.intDigit c
  | .minus => s.intDigit c
  | .zero => s.next c true
  | .int => if c.isDigit then some (s.digit c .int 0) else s.next c true
  | .point => if c.isDigit then some (s.digit c .frac (s.places + 1)) else none
  | .frac => if c.isDigit then some (s.digit c .frac (s.places + 1)) else s.next c false
  | .mark =>
      if c = '+' ∨ c = '-' then some { s with loc := .sign, expNegative := c = '-' }
      else if c.isDigit then some (s.expDigit c)
      else none
  | .sign => if c.isDigit then some (s.expDigit c) else none
  | .exp => if c.isDigit then some (s.expDigit c) else none

/-- May the number end here? -/
def NumberScan.complete (s : NumberScan) : Bool :=
  match s.loc with
  | .zero => true
  | .int => true
  | .frac => true
  | .exp => true
  | _ => false

def NumberScan.value (s : NumberScan) : ℚ :=
  let unsigned : ℚ :=
    if s.expNegative then s.mantissa / 10 ^ (s.places + s.exponent)
    else s.mantissa * 10 ^ s.exponent / 10 ^ s.places
  if s.negative then -unsigned else unsigned

/-- The number a whole text spells. -/
def numberOf (text : List Char) : Option ℚ :=
  (run NumberScan.step {} text).bind (fun s => if s.complete then some s.value else none)

/-- Read the longest number. -/
def readNumber : NumberScan → List Char → Option (ℚ × List Char)
  | s, [] => if s.complete then some (s.value, []) else none
  | s, c :: rest =>
      match s.step c with
      | some s' => readNumber s' rest
      | none => if s.complete then some (s.value, c :: rest) else none

/-! ## Strings -/

/-- The character behind a backslash, for the escapes of one character. -/
def shortEscape (c : Char) : Option Char :=
  if c = '\"' ∨ c = '\\' ∨ c = '/' then some c
  else if c = 'b' then some (Char.ofNat 8)
  else if c = 'f' then some (Char.ofNat 12)
  else if c = 'n' then some '\n'
  else if c = 'r' then some '\r'
  else if c = 't' then some '\t'
  else none

def hexValue (c : Char) : Option Nat :=
  if c.isDigit then some (c.toNat - 48)
  else if 97 ≤ c.toNat ∧ c.toNat ≤ 102 then some (c.toNat - 87)
  else if 65 ≤ c.toNat ∧ c.toNat ≤ 70 then some (c.toNat - 55)
  else none

/-- Where the reader of a string is: between characters, behind a backslash, in the four
    digits of a code unit (`left` more to come behind this one), or behind the first half
    of a surrogate pair. -/
inductive StringMode where
  | plain
  | escape
  | unit (high : Option Nat) (left acc : Nat)
  | paired (high : Nat) (backslash : Bool)
  deriving DecidableEq, Repr

structure StringScan where
  chars : List Char := []
  mode : StringMode := .plain
  deriving DecidableEq, Repr

def StringScan.push (s : StringScan) (c : Char) : StringScan := { chars := s.chars ++ [c] }

def isHigh (u : Nat) : Bool := 0xD800 ≤ u ∧ u < 0xDC00
def isLow (u : Nat) : Bool := 0xDC00 ≤ u ∧ u < 0xE000

/-- The character of a surrogate pair. -/
def pairValue (high low : Nat) : Char :=
  Char.ofNat (0x10000 + (high - 0xD800) * 0x400 + (low - 0xDC00))

/-- A code unit is complete. -/
def StringScan.codeUnit (s : StringScan) (high : Option Nat) (u : Nat) : Option StringScan :=
  match high with
  | some h => if isLow u then some (s.push (pairValue h u)) else none
  | none =>
      if isHigh u then some { s with mode := .paired u false }
      else if isLow u then none
      else some (s.push (Char.ofNat u))

def StringScan.step (s : StringScan) (c : Char) : Option StringScan :=
  match s.mode with
  | .plain =>
      if c = '\\' then some { s with mode := .escape }
      -- control characters have to be escaped, and so has the quote
      else if c.toNat < 32 ∨ c = '\"' then none
      else some (s.push c)
  | .escape =>
      if c = 'u' then some { s with mode := .unit none 3 0 } else (shortEscape c).map s.push
  | .unit high left acc =>
      (hexValue c).bind (fun d =>
        match left with
        | left + 1 => some { s with mode := .unit high left (16 * acc + d) }
        | 0 => s.codeUnit high (16 * acc + d))
  | .paired high false => if c = '\\' then some { s with mode := .paired high true } else none
  | .paired high true =>
      if c = 'u' then some { s with mode := .unit (some high) 3 0 } else none

/-- The characters a whole text between quotes spells. -/
def stringOf (text : List Char) : Option (List Char) :=
  (run StringScan.step {} text).bind (fun s => if s.mode = .plain then some s.chars else none)

/-- Read a string whose opening quote has been read. -/
def readString : StringScan → List Char → Option (List Char × List Char)
  | _, [] => none
  | s, c :: rest =>
      if s.mode = .plain ∧ c = '\"' then some (s.chars, rest)
      else (s.step c).bind (fun s' => readString s' rest)

/-! ## The grammar -/

mutual

/-- The text is a spelling of the value. -/
inductive Renders : Value → List Char → Prop where
  | null : Renders .null ['n', 'u', 'l', 'l']
  | true : Renders (.bool true) ['t', 'r', 'u', 'e']
  | false : Renders (.bool false) ['f', 'a', 'l', 's', 'e']
  | number {q : ℚ} {t : List Char} (h : numberOf t = some q) : Renders (.number q) t
  | string {s : String} {t : List Char} (h : stringOf t = some s.toList) :
      Renders (.string s) ('\"' :: t ++ ['\"'])
  | emptyArray {w : List Char} (hw : Space w) : Renders (.array []) ('[' :: w ++ [']'])
  | array {vs : List Value} {t : List Char} (h : RendersElements vs t) :
      Renders (.array vs) ('[' :: t ++ [']'])
  | emptyObject {w : List Char} (hw : Space w) : Renders (.object []) ('{' :: w ++ ['}'])
  | object {ms : List (String × Value)} {t : List Char} (h : RendersMembers ms t) :
      Renders (.object ms) ('{' :: t ++ ['}'])

/-- One element, or more with commas between them. -/
inductive RendersElements : List Value → List Char → Prop where
  | last {v : Value} {w t w' : List Char} (hw : Space w) (h : Renders v t) (hw' : Space w') :
      RendersElements [v] (w ++ t ++ w')
  | cons {v : Value} {vs : List Value} {w t w' u : List Char} (hw : Space w) (h : Renders v t)
      (hw' : Space w') (hs : RendersElements vs u) :
      RendersElements (v :: vs) (w ++ t ++ w' ++ ',' :: u)

/-- One member, or more with commas between them. -/
inductive RendersMembers : List (String × Value) → List Char → Prop where
  | last {k : String} {v : Value} {w n w₁ w₂ t w' : List Char} (hw : Space w)
      (hn : stringOf n = some k.toList) (hw₁ : Space w₁) (hw₂ : Space w₂) (h : Renders v t)
      (hw' : Space w') :
      RendersMembers [(k, v)] (w ++ '\"' :: n ++ '\"' :: w₁ ++ ':' :: w₂ ++ t ++ w')
  | cons {k : String} {v : Value} {ms : List (String × Value)}
      {w n w₁ w₂ t w' u : List Char} (hw : Space w)
      (hn : stringOf n = some k.toList) (hw₁ : Space w₁) (hw₂ : Space w₂) (h : Renders v t)
      (hw' : Space w') (hs : RendersMembers ms u) :
      RendersMembers ((k, v) :: ms)
        (w ++ '\"' :: n ++ '\"' :: w₁ ++ ':' :: w₂ ++ t ++ w' ++ ',' :: u)

end

/-- The text stands for the value, white space around it. -/
def Document (v : Value) (text : List Char) : Prop :=
  ∃ w t w', text = w ++ t ++ w' ∧ Space w ∧ Renders v t ∧ Space w'

/-- White space behind a document. -/
theorem Document.append_space {v : Value} {text w : List Char} (h : Document v text)
    (hw : Space w) : Document v (text ++ w) := by
  obtain ⟨w₁, t, w₂, rfl, hw₁, ht, hw₂⟩ := h
  refine ⟨w₁, t, w₂ ++ w, by rw [List.append_assoc], hw₁, ht, fun c hc => ?_⟩
  rcases List.mem_append.mp hc with hc | hc
  · exact hw₂ c hc
  · exact hw c hc

/-! ## Reading -/

mutual

/-- Read the value at the front of a text. -/
def readValue : Nat → List Char → Option (Value × List Char)
  | 0, _ => none
  | fuel + 1, text =>
      match text with
      | 'n' :: 'u' :: 'l' :: 'l' :: rest => some (.null, rest)
      | 't' :: 'r' :: 'u' :: 'e' :: rest => some (.bool true, rest)
      | 'f' :: 'a' :: 'l' :: 's' :: 'e' :: rest => some (.bool false, rest)
      | '\"' :: rest => (readString {} rest).map (fun r => (.string (String.ofList r.1), r.2))
      | '[' :: rest =>
          if (skipSpace rest).head? = some ']' then some (.array [], (skipSpace rest).tail)
          else (readElements fuel rest).map (fun r => (.array r.1, r.2))
      | '{' :: rest =>
          if (skipSpace rest).head? = some '}' then some (.object [], (skipSpace rest).tail)
          else (readMembers fuel rest).map (fun r => (.object r.1, r.2))
      | text => (readNumber {} text).map (fun r => (.number r.1, r.2))

/-- Read elements up to the closing bracket. -/
def readElements : Nat → List Char → Option (List Value × List Char)
  | 0, _ => none
  | fuel + 1, text =>
      (readValue fuel (skipSpace text)).bind (fun r =>
        match skipSpace r.2 with
        | ',' :: rest => (readElements fuel rest).map (fun rs => (r.1 :: rs.1, rs.2))
        | ']' :: rest => some ([r.1], rest)
        | _ => none)

/-- Read members up to the closing brace. -/
def readMembers : Nat → List Char → Option (List (String × Value) × List Char)
  | 0, _ => none
  | fuel + 1, text =>
      match skipSpace text with
      | '\"' :: rest =>
          (readString {} rest).bind (fun name =>
            match skipSpace name.2 with
            | ':' :: rest =>
                (readValue fuel (skipSpace rest)).bind (fun r =>
                  match skipSpace r.2 with
                  | ',' :: rest =>
                      (readMembers fuel rest).map
                        (fun rs => ((String.ofList name.1, r.1) :: rs.1, rs.2))
                  | '}' :: rest => some ([(String.ofList name.1, r.1)], rest)
                  | _ => none)
            | _ => none)
      | _ => none

end

/-- Read a text, which has nothing else in it. -/
def read (text : List Char) : Option Value :=
  (readValue (text.length + 1) (skipSpace text)).bind (fun r =>
    if skipSpace r.2 = [] then some r.1 else none)

/-! ## Tokens are read whole -/

section Tokens

variable {w t rest : List Char} {c : Char}

/-- The space before a text does not count. -/
theorem skipSpace_append (hw : Space w) (t : List Char) : skipSpace (w ++ t) = skipSpace t :=
  List.dropWhile_append_of_pos hw

theorem skipSpace_cons (h : isSpace c = false) (t : List Char) : skipSpace (c :: t) = c :: t :=
  List.dropWhile_cons_of_neg (by rw [h]; exact Bool.false_ne_true)

/-- Space is skipped up to the next token. -/
theorem skipSpace_token (hw : Space w) (h : isSpace c = false) (t : List Char) :
    skipSpace (w ++ c :: t) = c :: t := by
  rw [skipSpace_append hw, skipSpace_cons h]

/-- What may follow a value: the end, white space, a comma or a closing bracket. -/
def Delimited (rest : List Char) : Prop :=
  ∀ c ∈ rest.head?, isSpace c = true ∨ c = ',' ∨ c = ']' ∨ c = '}'

/-- Space ends a number, and so does what stands behind it. -/
theorem delimited_append (hw : Space w) (h : Delimited rest) : Delimited (w ++ rest) := by
  cases w with
  | nil => exact h
  | cons d w =>
      intro c hc
      rw [← Option.some.inj hc]
      exact .inl (hw d (List.mem_cons_self ..))

/-- A comma, or the end of an array or of an object, ends a number. -/
theorem delimited_token {d : Char} (hw : Space w) (h : d = ',' ∨ d = ']' ∨ d = '}')
    (rest : List Char) : Delimited (w ++ d :: rest) :=
  delimited_append hw (fun c hc => .inr (by rw [← Option.some.inj hc]; exact h))

/-- A number does not go on with what may follow it. -/
theorem number_step_delimiter (s : NumberScan)
    (h : isSpace c = true ∨ c = ',' ∨ c = ']' ∨ c = '}') : s.step c = none := by
  have hc : c ∈ [' ', '\n', '\r', '\t', ',', ']', '}'] := by
    simpa [isSpace, or_assoc] using h
  obtain ⟨loc, negative, mantissa, places, expNegative, exponent⟩ := s
  simp only [List.mem_cons, List.not_mem_nil, or_false] at hc
  rcases hc with rfl | rfl | rfl | rfl | rfl | rfl | rfl <;> cases loc <;> rfl

/-- What the automaton accepts goes through the reader. -/
theorem readNumber_run {s s' : NumberScan} (h : run NumberScan.step s t = some s')
    (rest : List Char) : readNumber s (t ++ rest) = readNumber s' rest := by
  induction t generalizing s with
  | nil =>
      rw [← Option.some.inj h]
      rfl
  | cons c t ih =>
      obtain ⟨u, hu, hrest⟩ := run_cons_iff.mp h
      rw [List.cons_append, readNumber, hu]
      exact ih hrest

/-- At its end a number is read if it is complete. -/
theorem readNumber_delimited (s : NumberScan) (h : Delimited rest) :
    readNumber s rest = if s.complete then some (s.value, rest) else none := by
  cases rest with
  | nil => rfl
  | cons c rest => rw [readNumber, number_step_delimiter s (h c rfl)]

/-- **A number is read whole.** -/
theorem readNumber_append {q : ℚ} (h : numberOf t = some q) (hrest : Delimited rest) :
    readNumber {} (t ++ rest) = some (q, rest) := by
  obtain ⟨s, hs, hvalue⟩ := Option.bind_eq_some_iff.mp h
  obtain ⟨hcomplete, hvalue⟩ := Option.ite_none_right_eq_some.mp hvalue
  rw [readNumber_run hs, readNumber_delimited s hrest, if_pos hcomplete, Option.some.inj hvalue]

/-- The characters of a string are taken one after the other. -/
theorem readString_run {s s' : StringScan} (h : run StringScan.step s t = some s')
    (rest : List Char) : readString s (t ++ rest) = readString s' rest := by
  induction t generalizing s with
  | nil =>
      rw [← Option.some.inj h]
      rfl
  | cons c t ih =>
      obtain ⟨u, hu, hrest⟩ := run_cons_iff.mp h
      have hquote : ¬ (s.mode = .plain ∧ c = '\"') := by
        rintro ⟨hmode, rfl⟩
        rw [StringScan.step, hmode] at hu
        exact nomatch hu
      rw [List.cons_append, readString, if_neg hquote, hu]
      exact ih hrest

/-- **A string is read whole**, up to its closing quote. -/
theorem readString_append {s : List Char} (h : stringOf t = some s) (rest : List Char) :
    readString {} (t ++ '\"' :: rest) = some (s, rest) := by
  obtain ⟨u, hu, hmode⟩ := Option.bind_eq_some_iff.mp h
  obtain ⟨hmode, hs⟩ := Option.ite_none_right_eq_some.mp hmode
  rw [readString_run hu, readString, if_pos ⟨hmode, rfl⟩, Option.some.inj hs]

end Tokens

/-! ## What the grammar derives is read -/

/-- How a value begins. -/
def Begins (c : Char) : Prop := isSpace c = false ∧ c ≠ ']' ∧ c ≠ '}'

instance (c : Char) : Decidable (Begins c) := inferInstanceAs (Decidable (_ ∧ _ ∧ _))

/-- A number begins with a digit or the minus. -/
theorem number_begins {q : ℚ} {t : List Char} (h : numberOf t = some q) :
    ∃ c u, t = c :: u ∧ (c = '-' ∨ c.isDigit = true) := by
  obtain ⟨s, hs, -⟩ := Option.bind_eq_some_iff.mp h
  cases t with
  | nil =>
      have hnone : (none : Option ℚ) = some q := h
      exact nomatch hnone
  | cons c u =>
      obtain ⟨v, hv, -⟩ := run_cons_iff.mp hs
      refine ⟨c, u, rfl, ?_⟩
      by_cases hminus : c = '-'
      · exact .inl hminus
      · rw [NumberScan.step, if_neg hminus, NumberScan.intDigit] at hv
        by_cases hzero : c = '0'
        · exact .inr (by rw [hzero]; decide)
        · rw [if_neg hzero] at hv
          exact .inr (Option.ite_none_right_eq_some.mp hv).1

/-- A value may begin with a sign or a digit. -/
theorem begins_of_number {c : Char} (h : c = '-' ∨ c.isDigit = true) : Begins c := by
  have hne (d : Char) (hd : d ≠ '-' ∧ d.isDigit = false) : c ≠ d := by
    rintro rfl
    rcases h with h | h
    · exact hd.1 h
    · exact absurd h (by rw [hd.2]; decide)
  refine ⟨?_, hne ']' (by decide), hne '}' (by decide)⟩
  have h1 := hne ' ' (by decide)
  have h2 := hne '\n' (by decide)
  have h3 := hne '\r' (by decide)
  have h4 := hne '\t' (by decide)
  simp [isSpace, h1, h2, h3, h4]

/-- Every rendering begins as a value does. -/
theorem renders_begins {v : Value} {t : List Char} (h : Renders v t) :
    ∃ c u, t = c :: u ∧ Begins c := by
  cases h with
  | null => exact ⟨_, _, rfl, by decide⟩
  | true => exact ⟨_, _, rfl, by decide⟩
  | false => exact ⟨_, _, rfl, by decide⟩
  | number h =>
      obtain ⟨c, u, rfl, hc⟩ := number_begins h
      exact ⟨c, u, rfl, begins_of_number hc⟩
  | string h => exact ⟨_, _, rfl, by decide⟩
  | emptyArray hw => exact ⟨_, _, rfl, by decide⟩
  | array h => exact ⟨_, _, rfl, by decide⟩
  | emptyObject hw => exact ⟨_, _, rfl, by decide⟩
  | object h => exact ⟨_, _, rfl, by decide⟩

/-- The reader finds a value behind white space. -/
theorem skipSpace_renders {w t : List Char} {v : Value} (hw : Space w) (h : Renders v t)
    (rest : List Char) : skipSpace (w ++ (t ++ rest)) = t ++ rest := by
  obtain ⟨c, u, rfl, hc⟩ := renders_begins h
  exact skipSpace_token hw hc.1 _

/-- An array with elements does not begin with its end, -/
theorem elements_begin {vs : List Value} {t : List Char} (h : RendersElements vs t)
    (rest : List Char) : (skipSpace (t ++ rest)).head? ≠ some ']' := by
  have hhead {v : Value} {w u : List Char} (hw : Space w) (h : Renders v u) (more : List Char) :
      (skipSpace (w ++ (u ++ more))).head? ≠ some ']' := by
    rw [skipSpace_renders hw h]
    obtain ⟨c, u, rfl, hc⟩ := renders_begins h
    exact fun heq => hc.2.1 (Option.some.inj heq)
  cases h with
  | last hw h hw' =>
      rw [List.append_assoc, List.append_assoc]
      exact hhead hw h _
  | cons hw h hw' hs =>
      rw [List.append_assoc, List.append_assoc, List.append_assoc]
      exact hhead hw h _

/-- An object with members does not begin with its end. -/
theorem members_begin {ms : List (String × Value)} {t : List Char}
    (h : RendersMembers ms t) (rest : List Char) :
    (skipSpace (t ++ rest)).head? ≠ some '}' := by
  have hhead {w : List Char} (hw : Space w) (more : List Char) :
      (skipSpace (w ++ '\"' :: more)).head? ≠ some '}' := by
    rw [skipSpace_token hw (by decide)]
    exact fun heq => absurd (Option.some.inj heq) (by decide)
  cases h with
  | last hw hn hw₁ hw₂ h hw' =>
      simp only [List.append_assoc, List.cons_append]
      exact hhead hw _
  | cons hw hn hw₁ hw₂ h hw' hs =>
      simp only [List.append_assoc, List.cons_append]
      exact hhead hw _

/-! What the reader does behind an opening bracket, and behind an element or a member. -/

section Steps

variable {fuel : Nat} {text rest r : List Char} {v : Value} {k : String}

/-- Behind a bracket the end of the array may come at once. -/
theorem readValue_emptyArray (h : skipSpace text = ']' :: rest) :
    readValue (fuel + 1) ('[' :: text) = some (.array [], rest) := by
  show (if (skipSpace text).head? = some ']' then some (Value.array [], (skipSpace text).tail)
    else _) = _
  rw [h]
  rfl

/-- Behind a bracket come the elements otherwise. -/
theorem readValue_array (h : (skipSpace text).head? ≠ some ']') :
    readValue (fuel + 1) ('[' :: text)
      = (readElements fuel text).map (fun r => (.array r.1, r.2)) := if_neg h

/-- Behind a brace the end of the object may come at once. -/
theorem readValue_emptyObject (h : skipSpace text = '}' :: rest) :
    readValue (fuel + 1) ('{' :: text) = some (.object [], rest) := by
  show (if (skipSpace text).head? = some '}' then some (Value.object [], (skipSpace text).tail)
    else _) = _
  rw [h]
  rfl

/-- Behind a brace come the members otherwise. -/
theorem readValue_object (h : (skipSpace text).head? ≠ some '}') :
    readValue (fuel + 1) ('{' :: text)
      = (readMembers fuel text).map (fun r => (.object r.1, r.2)) := if_neg h

/-- Behind an element the array may end. -/
theorem readElements_last (h : readValue fuel (skipSpace text) = some (v, r))
    (hr : skipSpace r = ']' :: rest) : readElements (fuel + 1) text = some ([v], rest) := by
  rw [readElements, h, Option.bind_some]
  simp only [hr]

/-- Behind an element a comma has more of them behind it. -/
theorem readElements_cons (h : readValue fuel (skipSpace text) = some (v, r))
    (hr : skipSpace r = ',' :: rest) :
    readElements (fuel + 1) text
      = (readElements fuel rest).map (fun rs => (v :: rs.1, rs.2)) := by
  rw [readElements, h, Option.bind_some]
  simp only [hr]

/-- The name of a member, the colon, and its value. -/
structure ReadsMember (fuel : Nat) (text : List Char) (k : String) (v : Value)
    (r : List Char) : Prop where
  name : ∃ t n u, skipSpace text = '\"' :: t ∧ readString {} t = some (k.toList, n)
    ∧ skipSpace n = ':' :: u ∧ readValue fuel (skipSpace u) = some (v, r)

/-- Behind a member the object may end. -/
theorem readMembers_last (h : ReadsMember fuel text k v r) (hr : skipSpace r = '}' :: rest) :
    readMembers (fuel + 1) text = some ([(k, v)], rest) := by
  obtain ⟨t, n, u, ht, hn, hu, hv⟩ := h.name
  rw [readMembers, ht]
  simp only [hn, Option.bind_some, hu, hv, hr, String.ofList_toList]

/-- Behind a member a comma has more of them behind it. -/
theorem readMembers_cons (h : ReadsMember fuel text k v r) (hr : skipSpace r = ',' :: rest) :
    readMembers (fuel + 1) text
      = (readMembers fuel rest).map (fun rs => ((k, v) :: rs.1, rs.2)) := by
  obtain ⟨t, n, u, ht, hn, hu, hv⟩ := h.name
  rw [readMembers, ht]
  simp only [hn, Option.bind_some, hu, hv, hr, String.ofList_toList]

end Steps

/-- The text of a number goes to the reader of numbers. -/
theorem readValue_number {c : Char} (h : c = '-' ∨ c.isDigit = true) (fuel : Nat)
    (rest : List Char) :
    readValue (fuel + 1) (c :: rest)
      = (readNumber {} (c :: rest)).map (fun r => (.number r.1, r.2)) := by
  have hne (d : Char) (hd : d ≠ '-' ∧ d.isDigit = false) : c ≠ d := by
    rintro rfl
    rcases h with h | h
    · exact hd.1 h
    · exact absurd h (by rw [hd.2]; decide)
  rw [readValue] <;>
    exact fun _ heq => absurd (List.cons.inj heq).1 (hne _ (by decide))

mutual

/-- **What the grammar derives is read**, with what follows it left.  The fuel counts the
    characters: every value has one that is not a part of its elements. -/
theorem readValue_renders {v : Value} {t : List Char} (h : Renders v t) (fuel : Nat)
    (rest : List Char) (hfuel : t.length ≤ fuel) (hrest : Delimited rest) :
    readValue fuel (t ++ rest) = some (v, rest) := by
  obtain ⟨c, u, hcu, -⟩ := renders_begins h
  cases fuel with
  | zero =>
      rw [hcu] at hfuel
      exact absurd hfuel (Nat.not_succ_le_zero _)
  | succ fuel =>
      clear hcu
      cases h with
      | null => rfl
      | true => rfl
      | false => rfl
      | number h =>
          obtain ⟨d, u, rfl, hd⟩ := number_begins h
          rw [List.cons_append, readValue_number hd, ← List.cons_append,
            readNumber_append h hrest]
          rfl
      | string h =>
          rw [List.append_assoc, List.cons_append]
          show (readString {} (_ ++ '\"' :: rest)).map _ = _
          rw [readString_append h, Option.map_some, String.ofList_toList]
      | emptyArray hw =>
          rw [List.append_assoc, List.cons_append]
          exact readValue_emptyArray (skipSpace_token hw (by decide) rest)
      | array h =>
          rw [List.append_assoc, List.cons_append]
          show readValue (fuel + 1) ('[' :: (_ ++ ']' :: rest)) = _
          rw [readValue_array (elements_begin h _), readElements_renders h fuel rest
              (by simp only [List.length_append, List.length_cons] at hfuel; omega)]
          rfl
      | emptyObject hw =>
          rw [List.append_assoc, List.cons_append]
          exact readValue_emptyObject (skipSpace_token hw (by decide) rest)
      | object h =>
          rw [List.append_assoc, List.cons_append]
          show readValue (fuel + 1) ('{' :: (_ ++ '}' :: rest)) = _
          rw [readValue_object (members_begin h _), readMembers_renders h fuel rest
              (by simp only [List.length_append, List.length_cons] at hfuel; omega)]
          rfl

theorem readElements_renders {vs : List Value} {t : List Char} (h : RendersElements vs t)
    (fuel : Nat) (rest : List Char) (hfuel : t.length < fuel) :
    readElements fuel (t ++ ']' :: rest) = some (vs, rest) := by
  cases fuel with
  | zero => exact absurd hfuel (Nat.not_lt_zero _)
  | succ fuel =>
      cases h with
      | last hw h hw' =>
          simp only [List.length_append] at hfuel
          rw [List.append_assoc, List.append_assoc]
          refine readElements_last ?_ (skipSpace_token hw' (by decide) rest)
          rw [skipSpace_renders hw h]
          exact readValue_renders h fuel _ (by omega)
            (delimited_token hw' (.inr (.inl rfl)) rest)
      | cons hw h hw' hs =>
          simp only [List.length_append, List.length_cons] at hfuel
          rw [List.append_assoc, List.append_assoc, List.append_assoc]
          have hfirst (more : List Char) :=
            (congrArg (readValue fuel) (skipSpace_renders hw h _)).trans
              (readValue_renders h fuel _ (by omega) (delimited_token hw' (.inl rfl) more))
          rw [List.cons_append, readElements_cons (hfirst _) (skipSpace_token hw' (by decide) _),
            readElements_renders hs fuel rest (by omega)]
          rfl

theorem readMembers_renders {ms : List (String × Value)} {t : List Char}
    (h : RendersMembers ms t) (fuel : Nat) (rest : List Char) (hfuel : t.length < fuel) :
    readMembers fuel (t ++ '}' :: rest) = some (ms, rest) := by
  cases fuel with
  | zero => exact absurd hfuel (Nat.not_lt_zero _)
  | succ fuel =>
      cases h with
      | last hw hn hw₁ hw₂ h hw' =>
          simp only [List.length_append, List.length_cons] at hfuel
          simp only [List.append_assoc, List.cons_append]
          have hvalue :=
            (congrArg (readValue fuel) (skipSpace_renders hw₂ h _)).trans
              (readValue_renders h fuel _ (by omega)
                (delimited_token hw' (.inr (.inr rfl)) rest))
          exact readMembers_last
            ⟨_, _, _, skipSpace_token hw (by decide) _, readString_append hn _,
              skipSpace_token hw₁ (by decide) _, hvalue⟩
            (skipSpace_token hw' (by decide) rest)
      | cons hw hn hw₁ hw₂ h hw' hs =>
          simp only [List.length_append, List.length_cons] at hfuel
          simp only [List.append_assoc, List.cons_append]
          have hvalue (more : List Char) :=
            (congrArg (readValue fuel) (skipSpace_renders hw₂ h _)).trans
              (readValue_renders h fuel _ (by omega) (delimited_token hw' (.inl rfl) more))
          rw [readMembers_cons
            ⟨_, _, _, skipSpace_token hw (by decide) _, readString_append hn _,
              skipSpace_token hw₁ (by decide) _, hvalue _⟩
            (skipSpace_token hw' (by decide) _),
            readMembers_renders hs fuel rest (by omega)]
          rfl

end

/-- **A text that stands for a value is read as that value.** -/
theorem read_document {v : Value} {text : List Char} (h : Document v text) :
    read text = some v := by
  obtain ⟨w, t, w', rfl, hw, ht, hw'⟩ := h
  have hdelimited : Delimited w' := by
    have hnil : Delimited [] := nofun
    have happend := delimited_append hw' hnil
    rw [List.append_nil] at happend
    exact happend
  rw [read, List.append_assoc, skipSpace_renders hw ht,
    readValue_renders ht _ w' (by simp only [List.length_append]; omega) hdelimited,
    Option.bind_some, if_pos]
  exact List.dropWhile_eq_nil_iff.mpr hw'

end JsonText
