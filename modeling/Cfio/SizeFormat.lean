import Mathlib.Data.List.Induction
import Cfio.SizeGrammar

/-! # Size strings written

    `SizeParser::Format` picks the largest unit that divides the size.  The text is
    in the grammar of size strings and denotes the size it was made from, so the
    parser reads it back, and no text that denotes the same size has fewer digits. -/

namespace CfioConfig

open CfioTypes IntegerText Words

/-! ## Decimal digits as bytes -/

/-- The decimal digits of a number, as bytes. -/
def digitBytes (n : Nat) : List UInt8 :=
  (Nat.toDigits 10 n).map (fun c => UInt8.ofNat c.toNat)

section DigitBytes

variable {digits : List UInt8} {n : Nat}

theorem toNat_isDigit {c : Char} (h : c.isDigit = true) : 48 ≤ c.toNat ∧ c.toNat ≤ 57 := by
  simp only [Char.isDigit, Bool.and_eq_true, decide_eq_true_eq] at h
  exact ⟨h.1, h.2⟩

/-- A digit is a byte. -/
theorem charOfByte_digit {c : Char} (h : c.isDigit = true) :
    charOfByte (UInt8.ofNat c.toNat) = c := by
  have hc := toNat_isDigit h
  refine Char.toNat_inj.mp ?_
  rw [toNat_charOfByte]
  exact UInt8.toNat_ofNat_of_lt' (by simp only [UInt8.size]; omega)

/-- The bytes of a number, as characters. -/
theorem map_digitBytes (n : Nat) : (digitBytes n).map charOfByte = n.repr.toList := by
  rw [digitBytes, List.map_map, Nat.toList_repr]
  refine (List.map_congr_left ?_).trans (List.map_id _)
  intro c hc
  exact charOfByte_digit (Nat.isDigit_of_mem_toDigits (by decide) (by decide) hc)

theorem digitBytes_ne_nil (n : Nat) : digitBytes n ≠ [] := by
  intro h
  exact Nat.toDigits_ne_nil (List.map_eq_nil_iff.mp h)

theorem isdigit_of_mem_digitBytes {b : UInt8} (h : b ∈ digitBytes n) :
    isdigit b = true := by
  have hmem : charOfByte b ∈ n.repr.toList := by
    rw [← map_digitBytes]
    exact List.mem_map_of_mem h
  rw [← isDigit_charOfByte]
  exact isDigit_of_mem_repr hmem

/-- The digits of a number denote it. -/
theorem decimal_digitBytes (n : Nat) : decimal (digitBytes n) = n := by
  rw [← digitsValue_map, map_digitBytes, digitsValue_repr]

/-- A number with a suffix, as a text. -/
theorem textOf_digitBytes_append (n : Nat) (suffix : List UInt8) :
    textOf (digitBytes n ++ suffix) = n.repr ++ textOf suffix := by
  rw [textOf, List.map_append, String.ofList_append, map_digitBytes, String.ofList_toList]
  rfl

/-- As many digits as the number has denote something below the power of ten. -/
theorem decimal_lt (hall : ∀ b ∈ digits, isdigit b = true) :
    decimal digits < 10 ^ digits.length := by
  induction digits using List.reverseRecOn with
  | nil => exact Nat.one_pos
  | append_singleton digits b ih =>
      have hb := hall b (List.mem_append_right _ (List.mem_singleton_self b))
      have hrest := ih (fun c hc => hall c (List.mem_append_left _ hc))
      have hdigit : 48 ≤ b.toNat ∧ b.toNat ≤ 57 := of_decide_eq_true hb
      have hsnoc : decimal (digits ++ [b]) = 10 * decimal digits + (b.toNat - 48) := by
        rw [decimal, List.foldl_append]
        rfl
      rw [hsnoc, List.length_append, List.length_singleton, Nat.pow_succ]
      omega

/-- The decimal text is the shortest that denotes at least the number. -/
theorem length_digitBytes_le (hne : digits ≠ []) (hall : ∀ b ∈ digits, isdigit b = true)
    (hle : n ≤ decimal digits) : (digitBytes n).length ≤ digits.length := by
  have hpos : 0 < digits.length := List.length_pos_of_ne_nil hne
  have hlt : n < 10 ^ digits.length := Nat.lt_of_le_of_lt hle (decimal_lt hall)
  rw [digitBytes, List.length_map]
  exact (Nat.length_toDigits_le_iff (by decide) hpos).mpr hlt

end DigitBytes

/-! ## The text of a size -/

/-- The units a size can be written in, the largest first: the suffix and the number
    of bytes it stands for. -/
def sizeUnits : List (String × UInt64) := [("G", kGiga), ("M", kMega), ("K", kKilo), ("", 1)]

/-- The number of digits before the suffix. -/
def leadingDigits (sizeStr : String) : Nat :=
  (sizeStr.toList.takeWhile Char.isDigit).length

section Format

variable {n : UInt64}

/-- The remainder of words is that of their numbers. -/
theorem mod_eq_zero_iff {x a : UInt64} : x % a = 0 ↔ a.toNat ∣ x.toNat := by
  constructor
  · exact dvd_of_mod_eq
  · intro h
    refine UInt64.toNat_inj.mp ?_
    rw [UInt64.toNat_mod]
    exact Nat.mod_eq_zero_of_dvd h

/-- **The largest unit that divides** a size other than zero is the one it is written
    in. -/
theorem format_unit (h : n ≠ 0) :
    ∃ unit ∈ sizeUnits, unit.2.toNat ∣ n.toNat
      ∧ format n = (n / unit.2).toNat.repr ++ unit.1
      ∧ ∀ unit' ∈ sizeUnits, unit'.2.toNat ∣ n.toNat → unit'.2 ≤ unit.2 := by
  rw [format, if_neg h]
  by_cases hg : n % kGiga = 0
  · rw [if_pos hg]
    refine ⟨("G", kGiga), by simp [sizeUnits], mod_eq_zero_iff.mp hg, rfl, ?_⟩
    simp only [sizeUnits, List.forall_mem_cons]
    exact ⟨fun _ => UInt64.le_refl _, fun _ => by decide, fun _ => by decide,
      fun _ => by decide, by simp⟩
  rw [if_neg hg]
  rw [mod_eq_zero_iff] at hg
  by_cases hm : n % kMega = 0
  · rw [if_pos hm]
    refine ⟨("M", kMega), by simp [sizeUnits], mod_eq_zero_iff.mp hm, rfl, ?_⟩
    simp only [sizeUnits, List.forall_mem_cons]
    exact ⟨fun hd => absurd hd hg, fun _ => UInt64.le_refl _, fun _ => by decide,
      fun _ => by decide, by simp⟩
  rw [if_neg hm]
  rw [mod_eq_zero_iff] at hm
  by_cases hk : n % kKilo = 0
  · rw [if_pos hk]
    refine ⟨("K", kKilo), by simp [sizeUnits], mod_eq_zero_iff.mp hk, rfl, ?_⟩
    simp only [sizeUnits, List.forall_mem_cons]
    exact ⟨fun hd => absurd hd hg, fun hd => absurd hd hm, fun _ => UInt64.le_refl _,
      fun _ => by decide, by simp⟩
  rw [if_neg hk]
  rw [mod_eq_zero_iff] at hk
  refine ⟨("", 1), by simp [sizeUnits], Nat.one_dvd _, ?_, ?_⟩
  · rw [String.append_empty, UInt64.toNat_div]
    exact congrArg Nat.repr (Nat.div_one _).symm
  · simp only [sizeUnits, List.forall_mem_cons]
    exact ⟨fun hd => absurd hd hg, fun hd => absurd hd hm, fun hd => absurd hd hk,
      fun _ => UInt64.le_refl _, by simp⟩

/-- The bytes of a unit's suffix. -/
theorem suffix_of_unit {unit : String × UInt64} (h : unit ∈ sizeUnits) :
    ∃ suffix, unit.1 = textOf suffix ∧ Suffix .kKMG suffix unit.2.toNat := by
  simp only [sizeUnits, List.mem_cons, List.not_mem_nil, or_false] at h
  rcases h with rfl | rfl | rfl | rfl
  · exact ⟨[71], rfl, Suffix.giga rfl (Or.inr rfl)⟩
  · exact ⟨[77], rfl, Suffix.mega (Or.inr rfl)⟩
  · exact ⟨[75], rfl, Suffix.kilo (Or.inr rfl)⟩
  · exact ⟨[], rfl, Suffix.none⟩

/-- Every suffix stands for a unit. -/
theorem unit_of_suffix {allowed : AllowedSuffixes} {suffix : List UInt8} {m : Nat}
    (h : Suffix allowed suffix m) : ∃ unit ∈ sizeUnits, unit.2.toNat = m := by
  cases h with
  | none => exact ⟨("", 1), by simp [sizeUnits], rfl⟩
  | kilo _ => exact ⟨("K", kKilo), by simp [sizeUnits], rfl⟩
  | mega _ => exact ⟨("M", kMega), by simp [sizeUnits], rfl⟩
  | giga _ _ => exact ⟨("G", kGiga), by simp [sizeUnits], rfl⟩

/-- What is written is a size string of its own grammar: digits and a suffix. -/
theorem format_textOf (n : UInt64) :
    ∃ m suffix unit, format n = textOf (digitBytes m ++ suffix)
      ∧ Suffix .kKMG suffix unit ∧ n.toNat = m * unit
      ∧ ∀ unit' ∈ sizeUnits, unit'.2.toNat ∣ n.toNat → m * unit'.2.toNat ≤ n.toNat := by
  by_cases h : n = 0
  · subst h
    refine ⟨0, [], 1, ?_, Suffix.none, rfl, ?_⟩
    · rw [textOf_digitBytes_append]
      rfl
    · intro unit' _ _
      rw [Nat.zero_mul]
      exact Nat.zero_le _
  · obtain ⟨unit, hmem, hdvd, htext, hlargest⟩ := format_unit h
    obtain ⟨suffix, hsuffix, hgrammar⟩ := suffix_of_unit hmem
    have hdiv := Nat.div_mul_cancel hdvd
    refine ⟨n.toNat / unit.2.toNat, suffix, unit.2.toNat, ?_, hgrammar, hdiv.symm, ?_⟩
    · rw [htext, textOf_digitBytes_append, hsuffix, UInt64.toNat_div]
    · intro unit' hmem' hdvd'
      have hle := UInt64.le_iff_toNat_le.mp (hlargest unit' hmem' hdvd')
      calc n.toNat / unit.2.toNat * unit'.2.toNat
          ≤ n.toNat / unit.2.toNat * unit.2.toNat := Nat.mul_le_mul_left _ hle
        _ = n.toNat := hdiv

/-- What is written is read back. -/
theorem parse_format (n : UInt64) : parseSize (format n) .kKMG = .ok n := by
  obtain ⟨m, suffix, unit, htext, hsuffix, hn, -⟩ := format_textOf n
  have hrange := UInt64.toNat_lt n
  rw [htext]
  refine parseSize_complete ⟨digitBytes m, suffix, unit, rfl, digitBytes_ne_nil m,
    fun _ => isdigit_of_mem_digitBytes, hsuffix, ?_, ?_⟩
  · rwa [decimal_digitBytes, ← hn]
  · rw [decimal_digitBytes, hn]

/-- The digits of a size end where its suffix begins. -/
theorem leadingDigits_textOf {allowed : AllowedSuffixes} {digits suffix : List UInt8} {m : Nat}
    (hall : ∀ b ∈ digits, isdigit b = true) (hsuffix : Suffix allowed suffix m) :
    leadingDigits (textOf (digits ++ suffix)) = digits.length := by
  have hlist : (textOf (digits ++ suffix)).toList = (digits ++ suffix).map charOfByte :=
    String.toList_ofList
  rw [leadingDigits, hlist, takeWhile_textOf, List.length_map, takeWhile_digits hall hsuffix]

/-- No text of the same size has fewer digits. -/
theorem leadingDigits_format_le {allowed : AllowedSuffixes} {bytes : List UInt8}
    (h : SizeText allowed bytes n) : leadingDigits (format n) ≤ leadingDigits (textOf bytes) := by
  obtain ⟨m, suffix, unit, htext, hsuffix, hn, hfewest⟩ := format_textOf n
  obtain ⟨digits, rest, unit', rfl, hne, hall, hrest, -, hvalue⟩ := h
  obtain ⟨u, hmem, hu⟩ := unit_of_suffix hrest
  have hdvd : u.2.toNat ∣ n.toNat := by
    rw [hu, hvalue]
    exact Nat.dvd_mul_left _ _
  have hle : m * unit' ≤ decimal digits * unit' := by
    rw [← hvalue, ← hu]
    exact hfewest u hmem hdvd
  rw [htext, leadingDigits_textOf (fun _ => isdigit_of_mem_digitBytes) hsuffix,
    leadingDigits_textOf hall hrest]
  exact length_digitBytes_le hne hall (Nat.le_of_mul_le_mul_right hle hrest.pos)

/-- **A size that is written is read back**: `Parse` undoes `Format`, so different sizes
    have different texts; a size other than zero is written in the largest unit that
    divides it, and no size string of the same value has fewer digits before its
    suffix. -/
theorem format_parse_round_trip (n : UInt64) :
    parseSize (format n) .kKMG = .ok n
      ∧ (∀ n', format n' = format n → n' = n)
      ∧ (n ≠ 0 → ∃ unit ∈ sizeUnits, unit.2.toNat ∣ n.toNat
          ∧ format n = (n / unit.2).toNat.repr ++ unit.1
          ∧ ∀ unit' ∈ sizeUnits, unit'.2.toNat ∣ n.toNat → unit'.2 ≤ unit.2)
      ∧ ∀ allowed bytes, parseSize (textOf bytes) allowed = .ok n →
          leadingDigits (format n) ≤ leadingDigits (textOf bytes) := by
  refine ⟨parse_format n, ?_, format_unit, ?_⟩
  · intro n' heq
    have hparse := parse_format n'
    rw [heq, parse_format n] at hparse
    exact (Except.ok.inj hparse).symm
  · intro allowed bytes hparse
    exact leadingDigits_format_le (parseSize_sound hparse)

end Format

end CfioConfig
