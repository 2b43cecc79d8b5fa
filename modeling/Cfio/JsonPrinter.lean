import Mathlib.Tactic.IntervalCases
import Cfio.IntegerText
import Cfio.JsonText

/-! # Writing JSON

    A printer with a line for each element and each member, indented by their depth.  How a
    number is written is a parameter; what is printed stands for the value as long as each
    of its numbers is written so that it is read back (`document_print`).

    Integers are written by their digits (`numberOf_int`), and thousandths with the digits
    behind the point that are needed (`numberOf_thousandths`). -/

namespace JsonText

open Transition IntegerText

/-! ## The printer -/

def hexDigit (n : Nat) : Char := Char.ofNat (if n < 10 then 48 + n else 87 + n)

/-- The characters with an escape of their own. -/
def escapes : List (Char × Char) :=
  [('\"', '\"'), ('\\', '\\'), (Char.ofNat 8, 'b'), (Char.ofNat 12, 'f'), ('\n', 'n'),
    ('\r', 'r'), ('\t', 't')]

/-- A character of a string, escaped where it has to be. -/
def escapeChar (c : Char) : List Char :=
  match escapes.lookup c with
  | some e => ['\\', e]
  | none =>
      if c.toNat < 32 then
        ['\\', 'u', '0', '0', hexDigit (c.toNat / 16), hexDigit (c.toNat % 16)]
      else [c]

def quote (s : String) : List Char := '\"' :: s.toList.flatMap escapeChar ++ ['\"']

/-- A new line, indented. -/
def newline (indent depth : Nat) : List Char := '\n' :: List.replicate (indent * depth) ' '

mutual

/-- The text of a value at some depth. -/
def print (number : ℚ → List Char) (indent : Nat) : Nat → Value → List Char
  | _, .null => ['n', 'u', 'l', 'l']
  | _, .bool b => if b then ['t', 'r', 'u', 'e'] else ['f', 'a', 'l', 's', 'e']
  | _, .number q => number q
  | _, .string s => quote s
  | depth, .array vs => '[' :: printElements number indent depth vs ++ [']']
  | depth, .object ms => '{' :: printMembers number indent depth ms ++ ['}']

def printElements (number : ℚ → List Char) (indent : Nat) : Nat → List Value → List Char
  | _, [] => []
  | depth, v :: vs =>
      newline indent (depth + 1) ++ print number indent (depth + 1) v
        ++ (if vs.isEmpty then newline indent depth
            else ',' :: printElements number indent depth vs)

def printMembers (number : ℚ → List Char) (indent : Nat) :
    Nat → List (String × Value) → List Char
  | _, [] => []
  | depth, (k, v) :: ms =>
      newline indent (depth + 1) ++ quote k ++ [':', ' '] ++ print number indent (depth + 1) v
        ++ (if ms.isEmpty then newline indent depth
            else ',' :: printMembers number indent depth ms)

end

mutual

/-- Every number in the value meets `P`. -/
def Value.AllNumbers (P : ℚ → Prop) : Value → Prop
  | .number q => P q
  | .array vs => elementsAllNumbers P vs
  | .object ms => membersAllNumbers P ms
  | _ => True

def elementsAllNumbers (P : ℚ → Prop) : List Value → Prop
  | [] => True
  | v :: vs => v.AllNumbers P ∧ elementsAllNumbers P vs

def membersAllNumbers (P : ℚ → Prop) : List (String × Value) → Prop
  | [] => True
  | (_, v) :: ms => v.AllNumbers P ∧ membersAllNumbers P ms

end

/-- Of an array: all the numbers of all its elements. -/
theorem elementsAllNumbers_iff {P : ℚ → Prop} {vs : List Value} :
    elementsAllNumbers P vs ↔ ∀ v ∈ vs, v.AllNumbers P := by
  induction vs with
  | nil => exact ⟨nofun, fun _ => trivial⟩
  | cons v vs ih => rw [elementsAllNumbers, ih, List.forall_mem_cons]

/-! ## Strings -/

/-- A hexadecimal digit is read back. -/
theorem hexValue_hexDigit {n : Nat} (h : n < 16) : hexValue (hexDigit n) = some n := by
  revert n
  decide

/-- Every escape is undone by the reader. -/
theorem shortEscape_of_mem {p : Char × Char} (h : p ∈ escapes) :
    p.2 ≠ 'u' ∧ shortEscape p.2 = some p.1 := by
  revert p
  decide

/-- What a table is looked up for is in it. -/
theorem mem_of_lookup {c e : Char} {table : List (Char × Char)} (h : table.lookup c = some e) :
    (c, e) ∈ table := by
  induction table with
  | nil => exact nomatch h
  | cons p table ih =>
      obtain ⟨d, f⟩ := p
      rw [List.lookup_cons] at h
      by_cases hcd : c = d
      · subst hcd
        rw [beq_self_eq_true] at h
        rw [← Option.some.inj h]
        exact List.mem_cons_self ..
      · rw [beq_false_of_ne hcd] at h
        exact List.mem_cons_of_mem _ (ih h)

/-- An escaped character is read as itself. -/
theorem run_escapeChar (s : List Char) (c : Char) :
    run StringScan.step { chars := s } (escapeChar c) = some { chars := s ++ [c] } := by
  rw [escapeChar]
  split
  · next e he =>
      obtain ⟨hne, hshort⟩ := shortEscape_of_mem (mem_of_lookup he)
      simp only [run, StringScan.step, if_pos, Option.bind_some, if_neg hne, hshort,
        Option.map_some]
      rfl
  · next hnone =>
      by_cases hcontrol : c.toNat < 32
      · -- the code unit is the character's own number
        rw [if_pos hcontrol]
        have hhigh : hexValue (hexDigit (c.toNat / 16)) = some (c.toNat / 16) :=
          hexValue_hexDigit (by omega)
        have hlow : hexValue (hexDigit (c.toNat % 16)) = some (c.toNat % 16) :=
          hexValue_hexDigit (by omega)
        have hzero : hexValue '0' = some 0 := rfl
        have hu : 16 * (16 * (16 * (16 * 0 + 0) + 0) + c.toNat / 16) + c.toNat % 16
            = c.toNat := by omega
        have hsurrogate : isHigh c.toNat = false ∧ isLow c.toNat = false := by
          simp only [isHigh, isLow, decide_eq_false_iff_not]
          omega
        simp only [run, StringScan.step, if_pos, Option.bind_some, hzero, hhigh, hlow, hu,
          StringScan.codeUnit, hsurrogate.1, hsurrogate.2, Char.ofNat_toNat]
        rfl
      · rw [if_neg hcontrol]
        have hquote : c ≠ '\"' := by
          rintro rfl
          cases hnone
        have hback : c ≠ '\\' := by
          rintro rfl
          cases hnone
        refine run_single ?_
        rw [StringScan.step, if_neg hback, if_neg (not_or.mpr ⟨hcontrol, hquote⟩)]
        rfl

/-- The text of a string, escaped, is read as the string. -/
theorem run_escapeChars (s cs : List Char) :
    run StringScan.step { chars := s } (cs.flatMap escapeChar) = some { chars := s ++ cs } := by
  induction cs generalizing s with
  | nil => rw [List.append_nil]; rfl
  | cons c cs ih =>
      rw [List.flatMap_cons]
      have hrest := ih (s ++ [c])
      rw [List.append_assoc] at hrest
      exact run_append (run_escapeChar s c) hrest

/-- **Every string is read back.** -/
theorem stringOf_escape (s : List Char) : stringOf (s.flatMap escapeChar) = some s := by
  rw [stringOf, run_escapeChars]
  rfl

/-! ## Numbers -/

section Numbers

/-- The character of a digit is one, and stands for it. -/
theorem digitChar_isDigit {d : Nat} (h : d < 10) :
    d.digitChar.isDigit = true ∧ d.digitChar.toNat - 48 = d := by
  revert d
  decide

/-- The sign of a number. -/
def sign (negative : Bool) : List Char := if negative then ['-'] else []

/-- The reader behind a sign. -/
def signed (negative : Bool) : NumberScan :=
  { loc := if negative then .minus else .start, negative := negative }

/-- The reader behind the digits of an integer. -/
def integral (negative : Bool) (n : Nat) : NumberScan :=
  { loc := if n = 0 then .zero else .int, negative := negative, mantissa := n }

/-- The scan of a number knows its sign from the first character. -/
theorem run_sign (negative : Bool) :
    run NumberScan.step {} (sign negative) = some (signed negative) := by
  cases negative <;> rfl

/-- The digits of an integer, the last one split off. -/
theorem run_toDigits (negative : Bool) (n : Nat) :
    run NumberScan.step (signed negative) (Nat.toDigits 10 n) = some (integral negative n) := by
  induction n using Nat.strongRecOn with
  | ind n ih =>
      by_cases hn : n < 10
      · rw [Nat.toDigits_of_lt_base hn]
        interval_cases n <;> cases negative <;> rfl
      · rw [Nat.toDigits_of_base_le (by decide) (by omega)]
        refine run_append (ih (n / 10) (by omega)) (run_single ?_)
        obtain ⟨hdigit, hvalue⟩ := digitChar_isDigit (Nat.mod_lt n (by decide : 0 < 10))
        have hn10 : n / 10 ≠ 0 := by omega
        have hn0 : n ≠ 0 := by omega
        simp only [integral, if_neg hn10, if_neg hn0, NumberScan.step, if_pos hdigit,
          NumberScan.digit, hvalue]
        congr 2
        omega

/-- Digits behind the point. -/
theorem run_fraction {s : NumberScan} (hs : s.loc = .point ∨ s.loc = .frac) {ds : List Nat}
    (hne : ds ≠ []) (hds : ∀ d ∈ ds, d < 10) :
    run NumberScan.step s (ds.map Nat.digitChar)
      = some { s with
          loc := .frac
          mantissa := ds.foldl (fun m d => 10 * m + d) s.mantissa
          places := s.places + ds.length } := by
  induction ds generalizing s with
  | nil => exact absurd rfl hne
  | cons d ds ih =>
      obtain ⟨hdigit, hvalue⟩ := digitChar_isDigit (hds d (List.mem_cons_self ..))
      have hstep : s.step d.digitChar = some (s.digit d.digitChar .frac (s.places + 1)) := by
        rcases hs with hs | hs
        · rw [NumberScan.step, hs]
          exact if_pos hdigit
        · rw [NumberScan.step, hs]
          exact if_pos hdigit
      rw [List.map_cons, run, hstep, Option.bind_some]
      cases ds with
      | nil =>
          rw [NumberScan.digit, hvalue]
          rfl
      | cons e ds =>
          rw [ih (.inr rfl) (List.cons_ne_nil e ds) (fun c hc => hds c (List.mem_cons_of_mem _ hc))]
          simp only [NumberScan.digit, hvalue, List.foldl_cons, List.length_cons]
          congr 2
          omega

/-- The number a sign and a size make. -/
theorem signed_natAbs (i : Int) (k : ℚ) :
    (if decide (i < 0) = true then -((i.natAbs : ℚ) / k) else (i.natAbs : ℚ) / k)
      = (i : ℚ) / k := by
  by_cases h : i < 0
  · rw [if_pos (decide_eq_true h), Nat.cast_natAbs, abs_of_neg h]
    push_cast
    ring
  · rw [if_neg (by rw [decide_eq_true_eq]; exact h), Nat.cast_natAbs,
      abs_of_nonneg (not_lt.mp h)]

/-- The text of an integer. -/
def intText (i : Int) : List Char := sign (i < 0) ++ Nat.toDigits 10 i.natAbs

/-- **Integers are read back.** -/
theorem numberOf_int (i : Int) : numberOf (intText i) = some (i : ℚ) := by
  have hrun := run_append (run_sign (i < 0)) (run_toDigits (i < 0) i.natAbs)
  have hcomplete : (integral (i < 0) i.natAbs).complete = true := by
    rw [integral, NumberScan.complete]
    by_cases h : i.natAbs = 0
    · simp only [if_pos h]
    · simp only [if_neg h]
  have hvalue : (integral (i < 0) i.natAbs).value = i := by
    have hsigned := signed_natAbs i 1
    rw [div_one, div_one] at hsigned
    rw [← hsigned]
    simp only [NumberScan.value, integral, Bool.false_eq_true, if_false, pow_zero, mul_one,
      div_one]
  rw [numberOf, intText, hrun, Option.bind_some, if_pos hcomplete, hvalue]

/-- The digits of so many thousandths, without the zeros at the end but for the first. -/
def fraction (f : Nat) : List Nat :=
  if f % 10 ≠ 0 then [f / 100, f / 10 % 10, f % 10]
  else if f / 10 % 10 ≠ 0 then [f / 100, f / 10 % 10]
  else [f / 100]

/-- The decimals of a number of thousandths, without the zeros at their end, are worth it. -/
theorem fraction_spec {f : Nat} (h : f < 1000) :
    fraction f ≠ [] ∧ (∀ d ∈ fraction f, d < 10)
      ∧ ∀ n, ((fraction f).foldl (fun m d => 10 * m + d) n) * 1000
          = (1000 * n + f) * 10 ^ (fraction f).length := by
  rw [fraction]
  by_cases h1 : f % 10 ≠ 0
  · rw [if_pos h1]
    refine ⟨nofun, ?_, fun n => ?_⟩
    · simp only [List.forall_mem_cons]
      exact ⟨by omega, by omega, by omega, nofun⟩
    · simp only [List.foldl_cons, List.foldl_nil, List.length_cons, List.length_nil]
      omega
  · rw [if_neg h1]
    by_cases h2 : f / 10 % 10 ≠ 0
    · rw [if_pos h2]
      refine ⟨nofun, ?_, fun n => ?_⟩
      · simp only [List.forall_mem_cons]
        exact ⟨by omega, by omega, nofun⟩
      · simp only [List.foldl_cons, List.foldl_nil, List.length_cons, List.length_nil]
        omega
    · rw [if_neg h2]
      refine ⟨nofun, ?_, fun n => ?_⟩
      · simp only [List.forall_mem_cons]
        exact ⟨by omega, nofun⟩
      · simp only [List.foldl_cons, List.foldl_nil, List.length_cons, List.length_nil]
        omega

/-- The text of so many thousandths. -/
def thousandthsText (m : Int) : List Char :=
  sign (m < 0) ++ (Nat.toDigits 10 (m.natAbs / 1000)
    ++ '.' :: (fraction (m.natAbs % 1000)).map Nat.digitChar)

/-- The reader behind the digits after the point. -/
def fractional (negative : Bool) (n : Nat) (ds : List Nat) : NumberScan :=
  { loc := .frac
    negative := negative
    mantissa := ds.foldl (fun m d => 10 * m + d) n
    places := ds.length }

/-- Behind the point the scan collects decimals. -/
theorem run_point (negative : Bool) (n : Nat) {ds : List Nat} (hne : ds ≠ [])
    (hds : ∀ d ∈ ds, d < 10) :
    run NumberScan.step (integral negative n) ('.' :: ds.map Nat.digitChar)
      = some (fractional negative n ds) := by
  have hpoint : (integral negative n).step '.'
      = some { integral negative n with loc := .point } := by
    rw [integral]
    by_cases h : n = 0
    · rw [if_pos h]
      rfl
    · rw [if_neg h]
      rfl
  refine run_cons_iff.mpr ⟨_, hpoint, ?_⟩
  rw [run_fraction (.inl rfl) hne hds, fractional, integral]
  simp only [Nat.zero_add]

/-- **Thousandths are read back.** -/
theorem numberOf_thousandths (m : Int) :
    numberOf (thousandthsText m) = some ((m : ℚ) / 1000) := by
  obtain ⟨hne, hdigits, hvalue⟩ := fraction_spec (Nat.mod_lt m.natAbs (by decide : 0 < 1000))
  have hrun := run_append (run_sign (m < 0)) (run_append (run_toDigits (m < 0) _)
    (run_point (m < 0) (m.natAbs / 1000) hne hdigits))
  have hcast : (((fraction (m.natAbs % 1000)).foldl (fun m d => 10 * m + d)
        (m.natAbs / 1000) : Nat) : ℚ) / 10 ^ (fraction (m.natAbs % 1000)).length
      = (m.natAbs : ℚ) / 1000 := by
    have h := hvalue (m.natAbs / 1000)
    rw [Nat.div_add_mod] at h
    rw [div_eq_div_iff (by positivity) (by norm_num)]
    exact_mod_cast h
  have hsigned : (fractional (m < 0) (m.natAbs / 1000) (fraction (m.natAbs % 1000))).value
      = (m : ℚ) / 1000 := by
    rw [← signed_natAbs m 1000, ← hcast]
    simp only [NumberScan.value, fractional, Bool.false_eq_true, if_false, pow_zero, mul_one]
  have hcomplete : (fractional (m < 0) (m.natAbs / 1000)
      (fraction (m.natAbs % 1000))).complete = true := rfl
  rw [numberOf, thousandthsText, hrun, Option.bind_some, if_pos hcomplete, hsigned]

/-- An integer, or so many thousandths. -/
def numberText (q : ℚ) : List Char :=
  if q.den = 1 then intText q.num else thousandthsText (q * 1000).num

/-- The numbers written by their digits. -/
def Writable (q : ℚ) : Prop := ∃ m : Int, q * 1000 = m

/-- A number of thousandths is read back as it was. -/
theorem numberOf_numberText {q : ℚ} (h : Writable q) : numberOf (numberText q) = some q := by
  obtain ⟨m, hm⟩ := h
  rw [numberText]
  by_cases hden : q.den = 1
  · rw [if_pos hden, numberOf_int, Rat.den_eq_one_iff q |>.mp hden]
  · rw [if_neg hden, numberOf_thousandths, hm, Rat.num_intCast, ← hm]
    congr 1
    ring

end Numbers

/-! ## What is printed stands for the value -/

section Printing

variable {number : ℚ → List Char} {P : ℚ → Prop}

/-- A line break with its indentation is space. -/
theorem space_newline (indent depth : Nat) : Space (newline indent depth) := by
  rintro c (hc : c ∈ '\n' :: _)
  rcases List.mem_cons.mp hc with rfl | hc
  · rfl
  · rw [(List.mem_replicate.mp hc).2]
    rfl

mutual

/-- By induction on the value, as the printer goes: what it prints is a rendering. -/
theorem renders_print (hnumber : ∀ q, P q → numberOf (number q) = some q) (indent depth : Nat)
    (v : Value) (h : v.AllNumbers P) : Renders v (print number indent depth v) :=
  match v with
  | .null => .null
  | .bool true => .true
  | .bool false => .false
  | .number q => .number (hnumber q h)
  | .string s => .string (stringOf_escape s.toList)
  | .array [] => .emptyArray nofun
  | .array (v :: vs) => .array (renders_printElements hnumber indent depth (v :: vs) nofun h)
  | .object [] => .emptyObject nofun
  | .object (m :: ms) => .object (renders_printMembers hnumber indent depth (m :: ms) nofun h)

theorem renders_printElements (hnumber : ∀ q, P q → numberOf (number q) = some q)
    (indent depth : Nat) (vs : List Value) (hne : vs ≠ []) (h : elementsAllNumbers P vs) :
    RendersElements vs (printElements number indent depth vs) :=
  match vs with
  | [] => absurd rfl hne
  | [v] =>
      .last (space_newline indent (depth + 1)) (renders_print hnumber indent (depth + 1) v h.1)
        (space_newline indent depth)
  | v :: u :: us => by
      have hcons : RendersElements (v :: u :: us) (newline indent (depth + 1)
          ++ print number indent (depth + 1) v ++ []
          ++ ',' :: printElements number indent depth (u :: us)) :=
        .cons (space_newline indent (depth + 1))
          (renders_print hnumber indent (depth + 1) v h.1) nofun
          (renders_printElements hnumber indent depth (u :: us) nofun h.2)
      rw [List.append_nil] at hcons
      exact hcons

theorem renders_printMembers (hnumber : ∀ q, P q → numberOf (number q) = some q)
    (indent depth : Nat) (ms : List (String × Value)) (hne : ms ≠ [])
    (h : membersAllNumbers P ms) :
    RendersMembers ms (printMembers number indent depth ms) :=
  match ms with
  | [] => absurd rfl hne
  | [(k, v)] => by
      have hlast : RendersMembers [(k, v)] (newline indent (depth + 1)
          ++ '\"' :: k.toList.flatMap escapeChar ++ '\"' :: [] ++ ':' :: [' ']
          ++ print number indent (depth + 1) v ++ newline indent depth) :=
        .last (space_newline indent (depth + 1)) (stringOf_escape k.toList) nofun (by decide)
          (renders_print hnumber indent (depth + 1) v h.1) (space_newline indent depth)
      simp only [printMembers, quote, List.isEmpty_nil, if_true]
      simpa using hlast
  | (k, v) :: m :: ms => by
      have hcons : RendersMembers ((k, v) :: m :: ms) (newline indent (depth + 1)
          ++ '\"' :: k.toList.flatMap escapeChar ++ '\"' :: [] ++ ':' :: [' ']
          ++ print number indent (depth + 1) v ++ []
          ++ ',' :: printMembers number indent depth (m :: ms)) :=
        .cons (space_newline indent (depth + 1)) (stringOf_escape k.toList) nofun (by decide)
          (renders_print hnumber indent (depth + 1) v h.1) nofun
          (renders_printMembers hnumber indent depth (m :: ms) nofun h.2)
      rw [printMembers]
      simpa [quote] using hcons

end

/-- **What is printed stands for the value.** -/
theorem document_print (hnumber : ∀ q, P q → numberOf (number q) = some q) (indent : Nat)
    {v : Value} (h : v.AllNumbers P) : Document v (print number indent 0 v) :=
  ⟨[], _, [], (List.append_nil _).symm, nofun, renders_print hnumber indent 0 v h, nofun⟩

end Printing

end JsonText
