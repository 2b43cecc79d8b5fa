import Cfio.Checks
import Cfio.SizeParser
import Cfio.Words

/-! # The grammar of size strings

    Size strings described without the parser, byte by byte: ASCII digits, then
    at most one suffix, and a product that fits in 64 bits.  `parse_iff_sizeText`
    says that `SizeParser::Parse` accepts exactly these and computes the product;
    on everything else it throws `std::invalid_argument`. -/

namespace CfioConfig

open CfioTypes IntegerText Words Checks

/-! ## Texts as bytes -/

/-- The character of a byte. -/
def charOfByte (b : UInt8) : Char := Char.ofNat b.toNat

/-- The text these bytes are. -/
def textOf (bytes : List UInt8) : String := String.ofList (bytes.map charOfByte)

/-- A byte is the code of its character. -/
theorem toNat_charOfByte (b : UInt8) : (charOfByte b).toNat = b.toNat := by
  have hb : b.toNat < 256 := b.toNat_lt
  have hvalid : b.toNat.isValidChar := Or.inl (by omega)
  rw [charOfByte, Char.ofNat, dif_pos hvalid]
  rfl

/-- Different bytes are different characters. -/
theorem charOfByte_inj {b b' : UInt8} (h : charOfByte b = charOfByte b') : b = b' := by
  have hnat : b.toNat = b'.toNat := by
    rw [← toNat_charOfByte b, ← toNat_charOfByte b', h]
  exact UInt8.toNat_inj.mp hnat

/-! ## The grammar -/

/-- `std::isdigit` of the C locale. -/
def isdigit (b : UInt8) : Bool := decide (48 ≤ b.toNat ∧ b.toNat ≤ 57)

/-- The number a run of digits denotes. -/
def decimal (digits : List UInt8) : Nat :=
  digits.foldl (fun n b => 10 * n + (b.toNat - 48)) 0

/-- What may follow the digits, and the number it stands for: `k` or `K`, `m` or
    `M`, and where they are allowed `g` or `G`. -/
inductive Suffix (allowed : AllowedSuffixes) : List UInt8 → Nat → Prop
  | none : Suffix allowed [] 1
  | kilo {b : UInt8} (h : b = 107 ∨ b = 75) : Suffix allowed [b] (2 ^ 10)
  | mega {b : UInt8} (h : b = 109 ∨ b = 77) : Suffix allowed [b] (2 ^ 20)
  | giga {b : UInt8} (hallowed : allowed = .kKMG) (h : b = 103 ∨ b = 71) :
      Suffix allowed [b] (2 ^ 30)

/-- The bytes denote the size `v`. -/
def SizeText (allowed : AllowedSuffixes) (bytes : List UInt8) (v : UInt64) : Prop :=
  ∃ digits suffix multiplier,
    bytes = digits ++ suffix ∧ digits ≠ [] ∧ (∀ b ∈ digits, isdigit b = true)
      ∧ Suffix allowed suffix multiplier
      ∧ decimal digits * multiplier < 2 ^ 64 ∧ v.toNat = decimal digits * multiplier

/-! ## Digits -/

section Digits

variable {bytes digits rest : List UInt8}

/-- Digits are the same as bytes and as characters. -/
theorem isDigit_charOfByte (b : UInt8) : (charOfByte b).isDigit = isdigit b := by
  have hchar : (charOfByte b).isDigit
      = decide (48 ≤ (charOfByte b).toNat ∧ (charOfByte b).toNat ≤ 57) := by
    simp only [Char.isDigit, Bool.decide_and]
    rfl
  rw [hchar, toNat_charOfByte]
  rfl

/-- The digits a text begins with are the same as bytes and as characters. -/
theorem takeWhile_textOf :
    (bytes.map charOfByte).takeWhile Char.isDigit
      = (bytes.takeWhile isdigit).map charOfByte := by
  rw [List.takeWhile_map]
  congr 2
  funext b
  exact isDigit_charOfByte b

/-- What follows the digits is the same as bytes and as characters. -/
theorem dropWhile_textOf :
    (bytes.map charOfByte).dropWhile Char.isDigit
      = (bytes.dropWhile isdigit).map charOfByte := by
  rw [List.dropWhile_map]
  congr 2
  funext b
  exact isDigit_charOfByte b

/-- The number that digits stand for is the same as bytes and as characters. -/
theorem digitsValue_map (digits : List UInt8) :
    digitsValue (digits.map charOfByte) = decimal digits := by
  rw [digitsValue, Nat.ofDigitChars_eq_foldl, List.foldl_map, decimal]
  congr 1
  funext n b
  rw [toNat_charOfByte]
  rfl

/-- No suffix begins with a digit. -/
theorem Suffix.head_not_digit {allowed : AllowedSuffixes} {b : UInt8} {n : Nat}
    (h : Suffix allowed (b :: rest) n) : isdigit b = false := by
  cases h with
  | kilo h => rcases h with rfl | rfl <;> rfl
  | mega h => rcases h with rfl | rfl <;> rfl
  | giga _ h => rcases h with rfl | rfl <;> rfl

/-- Digits and what follows them are told apart. -/
theorem takeWhile_digits {allowed : AllowedSuffixes} {n : Nat}
    (hall : ∀ b ∈ digits, isdigit b = true) (hsuffix : Suffix allowed rest n) :
    (digits ++ rest).takeWhile isdigit = digits := by
  rw [List.takeWhile_append_of_pos hall]
  cases rest with
  | nil => rw [List.takeWhile_nil, List.append_nil]
  | cons b rest =>
      have hb : ¬ isdigit b = true := by rw [hsuffix.head_not_digit]; decide
      rw [List.takeWhile_cons_of_neg hb, List.append_nil]

/-- Behind the digits comes the suffix. -/
theorem dropWhile_digits {allowed : AllowedSuffixes} {n : Nat}
    (hall : ∀ b ∈ digits, isdigit b = true) (hsuffix : Suffix allowed rest n) :
    (digits ++ rest).dropWhile isdigit = rest := by
  have hsplit := List.takeWhile_append_dropWhile (p := isdigit) (l := digits ++ rest)
  rw [takeWhile_digits hall hsuffix] at hsplit
  exact List.append_cancel_left hsplit

end Digits

/-! ## Suffixes -/

section Suffixes

variable {s : String} {allowed : AllowedSuffixes} {b : UInt8}

/-- The multiplier the `switch` finds is the one of the grammar. -/
theorem suffixMultiplier_sound {m : UInt64}
    (h : suffixMultiplier s allowed (charOfByte b) = .ok m) :
    Suffix allowed [b] m.toNat := by
  have hbyte : ∀ {b' : UInt8}, charOfByte b = charOfByte b' → b = b' := charOfByte_inj
  rw [suffixMultiplier] at h
  split at h
  · next hk =>
      rw [← Except.ok.inj h]
      exact Suffix.kilo (hk.imp (fun hc => hbyte hc) (fun hc => hbyte hc))
  split at h
  · next hm =>
      rw [← Except.ok.inj h]
      exact Suffix.mega (hm.imp (fun hc => hbyte hc) (fun hc => hbyte hc))
  split at h
  · next hg =>
      split at h
      · exact nomatch h
      · next hallowed =>
          have hkmg : allowed = .kKMG := by
            cases allowed with
            | kKM => exact absurd rfl hallowed
            | kKMG => rfl
          rw [← Except.ok.inj h]
          exact Suffix.giga hkmg (hg.imp (fun hc => hbyte hc) (fun hc => hbyte hc))
  · exact nomatch h

/-- The parser knows every suffix of the grammar. -/
theorem suffixMultiplier_complete {n : Nat} (h : Suffix allowed [b] n) :
    ∃ m, suffixMultiplier s allowed (charOfByte b) = .ok m ∧ m.toNat = n ∧ m ≠ 0 := by
  cases h with
  | kilo h => rcases h with rfl | rfl <;> exact ⟨kKilo, rfl, rfl, by decide⟩
  | mega h => rcases h with rfl | rfl <;> exact ⟨kMega, rfl, rfl, by decide⟩
  | giga hallowed h =>
      subst hallowed
      rcases h with rfl | rfl <;> exact ⟨kGiga, rfl, rfl, by decide⟩

theorem Suffix.pos {rest : List UInt8} {n : Nat} (h : Suffix allowed rest n) : 0 < n := by
  cases h <;> decide

/-- The only failures of the `switch` are invalid arguments. -/
theorem suffixMultiplier_error {c : Char} {e : Exn}
    (h : suffixMultiplier s allowed c = .error e) : ∃ what, e = .invalidArgument what := by
  rw [suffixMultiplier] at h
  split at h
  · exact nomatch h
  split at h
  · exact nomatch h
  split at h
  · split at h
    · exact ⟨_, (Except.error.inj h).symm⟩
    · exact nomatch h
  · exact ⟨_, (Except.error.inj h).symm⟩

end Suffixes

/-! ## The parser -/

section Parser

variable {allowed : AllowedSuffixes} {bytes : List UInt8} {v : UInt64}

/-- The division test before the multiplication is the question whether the product
    fits. -/
theorem overflow_check {a m : UInt64} (hm : m ≠ 0) :
    ¬ a > 0xFFFFFFFFFFFFFFFF / m ↔ a.toNat * m.toNat < 2 ^ 64 := by
  have hpos := toNat_pos_of_ne hm
  rw [gt_iff_lt, UInt64.lt_iff_toNat_lt, UInt64.toNat_div, Nat.not_lt,
    Nat.le_div_iff_mul_le hpos]
  show a.toNat * m.toNat ≤ 2 ^ 64 - 1 ↔ _
  omega

theorem parseSize_no_digits (hnil : bytes.takeWhile isdigit = []) :
    ∃ what, parseSize (textOf bytes) allowed = .error (.invalidArgument what) := by
  cases bytes with
  | nil => exact ⟨_, rfl⟩
  | cons b rest =>
      have hb : isdigit b = false := by
        by_contra hb
        rw [Bool.not_eq_false] at hb
        rw [List.takeWhile_cons_of_pos hb] at hnil
        exact nomatch hnil
      have hlist : (textOf (b :: rest)).toList = charOfByte b :: rest.map charOfByte :=
        String.toList_ofList
      rw [parseSize]
      rw [hlist]
      show ∃ what, (if (charOfByte b).isDigit = false then _ else _) = _
      rw [if_pos (by rw [isDigit_charOfByte, hb])]
      exact ⟨_, rfl⟩

/-- What the parser does once the digits are told from the rest. -/
theorem parseSize_textOf (hne : bytes.takeWhile isdigit ≠ []) :
    parseSize (textOf bytes) allowed
      = if 2 ^ 64 ≤ decimal (bytes.takeWhile isdigit) then
          .error (.invalidArgument ("numeric value out of range: '"
            ++ textOf bytes ++ "'"))
        else
          match (bytes.dropWhile isdigit).map charOfByte with
          | [] => .ok (UInt64.ofNat (decimal (bytes.takeWhile isdigit)))
          | [suffix] => do
              let multiplier ← suffixMultiplier (textOf bytes) allowed suffix
              if UInt64.ofNat (decimal (bytes.takeWhile isdigit))
                  > 0xFFFFFFFFFFFFFFFF / multiplier then
                throw (.invalidArgument ("size value overflows: '"
                  ++ textOf bytes ++ "'"))
              else
                return UInt64.ofNat (decimal (bytes.takeWhile isdigit)) * multiplier
          | _ =>
              .error (.invalidArgument ("unexpected characters after suffix: '"
                ++ textOf bytes ++ "'")) := by
  cases bytes with
  | nil => exact absurd rfl hne
  | cons b rest =>
      have hb : isdigit b = true := by
        by_contra hb
        exact hne (List.takeWhile_cons_of_neg hb)
      have hchar : ¬ (charOfByte b).isDigit = false := by
        rw [isDigit_charOfByte, hb]
        decide
      have hlist : (textOf (b :: rest)).toList = (b :: rest).map charOfByte :=
        String.toList_ofList
      rw [parseSize]
      rw [hlist, List.map_cons]
      show (if (charOfByte b).isDigit = false then _ else _) = _
      rewrite [if_neg hchar, ← List.map_cons, takeWhile_textOf, dropWhile_textOf,
        digitsValue_map]
      rfl

/-- A size the parser returns is one the text denotes. -/
theorem parseSize_sound (h : parseSize (textOf bytes) allowed = .ok v) :
    SizeText allowed bytes v := by
  have hne : bytes.takeWhile isdigit ≠ [] := by
    intro hnil
    obtain ⟨what, herr⟩ := parseSize_no_digits hnil
    rw [herr] at h
    exact nomatch h
  have hall : ∀ b ∈ bytes.takeWhile isdigit, isdigit b = true :=
    fun b hb => List.mem_takeWhile_imp hb
  have hsplit : bytes = bytes.takeWhile isdigit ++ bytes.dropWhile isdigit :=
    List.takeWhile_append_dropWhile.symm
  rw [parseSize_textOf hne] at h
  by_cases hrange : 2 ^ 64 ≤ decimal (bytes.takeWhile isdigit)
  · rw [if_pos hrange] at h
    exact nomatch h
  rw [if_neg hrange] at h
  have hvalue : (UInt64.ofNat (decimal (bytes.takeWhile isdigit))).toNat
      = decimal (bytes.takeWhile isdigit) :=
    UInt64.toNat_ofNat_of_lt' (Nat.lt_of_not_le hrange)
  rcases hrest : bytes.dropWhile isdigit with _ | ⟨b, _ | ⟨b', rest⟩⟩
  · rw [hrest] at h
    refine ⟨_, [], 1, by rw [← hrest]; exact hsplit, hne, hall, Suffix.none, ?_, ?_⟩
    · rw [Nat.mul_one]
      exact Nat.lt_of_not_le hrange
    · rw [Nat.mul_one, ← Except.ok.inj h, hvalue]
  · rw [hrest] at h
    obtain ⟨m, hm, hv⟩ := bind_ok_iff.mp h
    have hsuffix := suffixMultiplier_sound hm
    have hm0 : m ≠ 0 := ne_zero_of_toNat_pos hsuffix.pos
    by_cases hover : UInt64.ofNat (decimal (bytes.takeWhile isdigit))
        > 0xFFFFFFFFFFFFFFFF / m
    · rw [if_pos hover] at hv
      exact nomatch hv
    rw [if_neg hover] at hv
    have hfit := (overflow_check hm0).mp hover
    refine ⟨_, [b], m.toNat, by rw [← hrest]; exact hsplit, hne, hall, hsuffix, ?_, ?_⟩
    · rwa [hvalue] at hfit
    · rw [← Except.ok.inj hv, NoWrapMul.toNat hfit, hvalue]
  · rw [hrest] at h
    exact nomatch h

/-- A size that the text denotes is what the parser returns. -/
theorem parseSize_complete (h : SizeText allowed bytes v) :
    parseSize (textOf bytes) allowed = .ok v := by
  obtain ⟨digits, rest, n, rfl, hne, hall, hsuffix, hfit, hv⟩ := h
  have hpos := hsuffix.pos
  have htake := takeWhile_digits hall hsuffix
  have hdrop := dropWhile_digits hall hsuffix
  have hrange : ¬ 2 ^ 64 ≤ decimal digits := by
    have := Nat.le_mul_of_pos_right (decimal digits) hpos
    omega
  have hvalue : (UInt64.ofNat (decimal digits)).toNat = decimal digits :=
    UInt64.toNat_ofNat_of_lt' (Nat.lt_of_not_le hrange)
  rw [parseSize_textOf (by rw [htake]; exact hne), htake, hdrop, if_neg hrange]
  rcases rest with _ | ⟨b, _ | ⟨b', rest⟩⟩
  · cases hsuffix with
    | none =>
        show Except.ok _ = _
        refine congrArg _ (UInt64.toNat_inj.mp ?_)
        rw [hvalue, hv, Nat.mul_one]
  · obtain ⟨m, hm, rfl, hm0⟩ := suffixMultiplier_complete hsuffix
    have hfits : (UInt64.ofNat (decimal digits)).toNat * m.toNat < 2 ^ 64 := by
      rwa [hvalue]
    show suffixMultiplier _ allowed (charOfByte b) >>= _ = _
    rw [hm]
    show (if _ then _ else _) = _
    rw [if_neg ((overflow_check hm0).mpr hfits)]
    refine congrArg _ (UInt64.toNat_inj.mp ?_)
    rw [NoWrapMul.toNat hfits, hvalue, hv]
  · exact nomatch hsuffix

/-- Every failure is an invalid argument. -/
theorem parseSize_error {s : String} {e : Exn} (h : parseSize s allowed = .error e) :
    ∃ what, e = .invalidArgument what := by
  rw [parseSize] at h
  split at h
  · exact ⟨_, (Except.error.inj h).symm⟩
  split at h
  · exact ⟨_, (Except.error.inj h).symm⟩
  dsimp only at h
  split at h
  · exact ⟨_, (Except.error.inj h).symm⟩
  split at h
  · exact nomatch h
  · next suffix _ =>
      cases hm : suffixMultiplier s allowed suffix with
      | error e' =>
          rw [hm] at h
          obtain ⟨what, rfl⟩ := suffixMultiplier_error hm
          exact ⟨what, (Except.error.inj h).symm⟩
      | ok m =>
          rw [hm, ok_bind] at h
          split at h
          · exact ⟨_, (Except.error.inj h).symm⟩
          · exact nomatch h
  · exact ⟨_, (Except.error.inj h).symm⟩

/-- **The parser accepts exactly the grammar**: it returns the size a text denotes,
    and throws `std::invalid_argument` on exactly the texts that denote none. -/
theorem parse_iff_sizeText (bytes : List UInt8) (allowed : AllowedSuffixes) :
    (∀ v, parseSize (textOf bytes) allowed = .ok v ↔ SizeText allowed bytes v)
      ∧ ((∃ what, parseSize (textOf bytes) allowed = .error (.invalidArgument what))
          ↔ ¬ ∃ v, SizeText allowed bytes v) := by
  refine ⟨fun v => ⟨parseSize_sound, parseSize_complete⟩, ?_, ?_⟩
  · rintro ⟨what, herr⟩ ⟨v, hv⟩
    rw [parseSize_complete hv] at herr
    exact nomatch herr
  · intro hnone
    cases hparse : parseSize (textOf bytes) allowed with
    | ok v => exact absurd ⟨v, parseSize_sound hparse⟩ hnone
    | error e =>
        obtain ⟨what, rfl⟩ := parseSize_error hparse
        exact ⟨what, rfl⟩

end Parser

end CfioConfig
