import Mathlib.Data.Int.Notation
import Mathlib.Data.List.TakeWhile

/-! # Integers as text

    Reading the longest decimal number at the front of a text, as the `strtol`
    family does: spaces, a sign, digits, and whatever follows is left.  The
    decimal text of an integer is read back whole (`readInteger_repr`). -/

namespace IntegerText

/-- The white space of the C locale. -/
def isSpace (c : Char) : Bool := c.toNat = 32 ∨ (9 ≤ c.toNat ∧ c.toNat ≤ 13)

/-- The number these digits denote. -/
def digitsValue (digits : List Char) : Nat := Nat.ofDigitChars 10 digits 0

/-- A sign at the front: whether it is a minus, how long it is, what follows. -/
def readSign : List Char → Bool × Nat × List Char
  | '-' :: rest => (true, 1, rest)
  | '+' :: rest => (false, 1, rest)
  | rest => (false, 0, rest)

/-- The number at the front of a text, with the number of characters it takes; none
    when there is no digit. -/
def readInteger (text : List Char) : Option (Int × Nat) :=
  let spaces := text.takeWhile isSpace
  let sign := readSign (text.dropWhile isSpace)
  let digits := sign.2.2.takeWhile Char.isDigit
  if digits = [] then none
  else
    let value : Int := digitsValue digits
    some (if sign.1 then -value else value, spaces.length + sign.2.1 + digits.length)

section Digits

variable {digits : List Char}

/-- A digit is neither a space nor a sign. -/
theorem isSpace_of_isDigit {c : Char} (h : c.isDigit = true) : isSpace c = false := by
  have hge : 48 ≤ c.toNat := by
    simp only [Char.isDigit, Bool.and_eq_true, decide_eq_true_eq] at h
    exact h.1
  rw [isSpace, decide_eq_false_iff_not]
  omega

theorem readSign_of_isDigit {c : Char} (h : c.isDigit = true) (rest : List Char) :
    readSign (c :: rest) = (false, 0, c :: rest) := by
  have hminus : c ≠ '-' := by
    rintro rfl
    exact absurd h (by decide)
  have hplus : c ≠ '+' := by
    rintro rfl
    exact absurd h (by decide)
  unfold readSign
  split
  · next heq => exact absurd (List.cons.inj heq).1 hminus
  · next heq => exact absurd (List.cons.inj heq).1 hplus
  · rfl

/-- Digits are read whole. -/
theorem takeWhile_isDigit (hall : ∀ c ∈ digits, c.isDigit = true) :
    digits.takeWhile Char.isDigit = digits := List.takeWhile_eq_self_iff.mpr hall

theorem readInteger_digits (hne : digits ≠ []) (hall : ∀ c ∈ digits, c.isDigit = true) :
    readInteger digits = some ((digitsValue digits : Int), digits.length) := by
  cases digits with
  | nil => exact absurd rfl hne
  | cons c rest =>
      have hc := hall c (List.mem_cons_self ..)
      have hspace : ¬ isSpace c = true := by rw [isSpace_of_isDigit hc]; decide
      simp only [readInteger, List.takeWhile_cons_of_neg hspace,
        List.dropWhile_cons_of_neg hspace, readSign_of_isDigit hc, takeWhile_isDigit hall]
      rw [if_neg hne, List.length_nil, Nat.zero_add]
      rfl

theorem readInteger_minus (hne : digits ≠ []) (hall : ∀ c ∈ digits, c.isDigit = true) :
    readInteger ('-' :: digits)
      = some (-(digitsValue digits : Int), digits.length + 1) := by
  have hspace : ¬ isSpace '-' = true := by decide
  simp only [readInteger, List.takeWhile_cons_of_neg hspace,
    List.dropWhile_cons_of_neg hspace, readSign, takeWhile_isDigit hall]
  rw [if_neg hne, List.length_nil, Nat.zero_add, Nat.add_comm]
  rfl

end Digits

/-- The decimal digits of a number denote it. -/
theorem digitsValue_repr (n : Nat) : digitsValue n.repr.toList = n := by
  rw [digitsValue, Nat.toList_repr, Nat.ofDigitChars_ten_toDigits]

theorem isDigit_of_mem_repr {n : Nat} {c : Char} (h : c ∈ n.repr.toList) :
    c.isDigit = true := by
  rw [Nat.toList_repr] at h
  exact Nat.isDigit_of_mem_toDigits (by decide) (by decide) h

theorem repr_toList_ne_nil (n : Nat) : n.repr.toList ≠ [] := by
  rw [Nat.toList_repr]
  exact Nat.toDigits_ne_nil

/-- **The decimal text of an integer is read back**, to its end. -/
theorem readInteger_repr (i : Int) :
    readInteger i.repr.toList = some (i, i.repr.length) := by
  rw [Int.repr_eq_if]
  by_cases h : 0 ≤ i
  · rw [if_pos h, readInteger_digits (repr_toList_ne_nil _) (fun _ => isDigit_of_mem_repr),
      digitsValue_repr, Int.toNat_of_nonneg h, String.length_toList]
  · rw [if_neg h, String.toList_append]
    show readInteger ('-' :: (-i).toNat.repr.toList) = _
    rw [readInteger_minus (repr_toList_ne_nil _) (fun _ => isDigit_of_mem_repr),
      digitsValue_repr, Int.toNat_of_nonneg (by omega), Int.neg_neg, String.length_append,
      String.length_toList, Nat.add_comm]
    rfl

end IntegerText
