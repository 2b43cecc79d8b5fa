import Cfio.Binary64
import Cfio.IntegerText

/-! # Formatting metrics

    The texts of the metric helpers every display uses.  Each of them shows a whole
    number, and different numbers get different texts. -/

namespace CfioDisplay

open IntegerText

def kBytesPerMiB : UInt64 := 1024 * 1024

def kNsPerUs : UInt64 := 1000

def kMicroSign : String := "μ"

def kSecPerMin : Int := 60

/-- The digits from position `i` on, with a comma where whole groups of three are left. -/
def groupDigits (i : Nat) : List Char → List Char
  | [] => []
  | digit :: rest =>
      if i ≠ 0 ∧ (digit :: rest).length % 3 = 0 then ',' :: digit :: groupDigits (i + 1) rest
      else digit :: groupDigits (i + 1) rest

/-- Format an integer with thousands separators. -/
def formatCount (value : UInt64) : String :=
  String.ofList (groupDigits 0 value.toNat.repr.toList)

def kBytesPerKiB : UInt64 := 1024

def kBytesPerGiB : UInt64 := 1024 * 1024 * 1024

/-- `{:.1f}` of a number that is not negative, halves to the even decimal. -/
def oneDecimal (value : ℚ) : String :=
  let tenths := (Binary64.roundHalfEven (10 * value)).toNat
  (tenths / 10).repr ++ "." ++ (tenths % 10).repr

/-- Format a byte count using binary units.  From 2^53 bytes on, the count is rounded when it
    becomes a `double`; the quotients by powers of two are exact. -/
def formatBytes (bytes : UInt64) : String :=
  let value := Binary64.nearest bytes.toNat
  if bytes ≥ kBytesPerGiB then oneDecimal (value / kBytesPerGiB.toNat) ++ " GiB"
  else if bytes ≥ kBytesPerMiB then oneDecimal (value / kBytesPerMiB.toNat) ++ " MiB"
  else if bytes ≥ kBytesPerKiB then oneDecimal (value / kBytesPerKiB.toNat) ++ " KiB"
  else bytes.toNat.repr ++ " B"

/-- Convert a byte rate to whole mebibytes per second. -/
def rateMiB (bytesPerSec : UInt64) : UInt64 := bytesPerSec / kBytesPerMiB

/-- Convert a nanosecond latency to whole microseconds. -/
def latencyUs (nanoseconds : UInt64) : UInt64 := nanoseconds / kNsPerUs

/-- Format a byte rate with its unit. -/
def formatRate (bytesPerSec : UInt64) : String :=
  (rateMiB bytesPerSec).toNat.repr ++ " MB/s"

/-- Format a latency with its unit. -/
def formatLatencyUs (nanoseconds : UInt64) : String :=
  (latencyUs nanoseconds).toNat.repr ++ " " ++ kMicroSign ++ "s"

/-- `{:02}`: at least two digits. -/
def twoDigits (n : Nat) : String := (if n < 10 then "0" else "") ++ n.repr

/-- Format a duration as minutes and seconds. -/
def formatDuration (seconds : Int32) : String :=
  let clamped := max 0 seconds.toInt
  twoDigits (clamped / kSecPerMin).toNat ++ ":" ++ twoDigits (clamped % kSecPerMin).toNat

example : formatCount 7092000 = "7,092,000" := by decide

example : formatBytes 1234567890 = "1.1 GiB" := by decide +kernel

example : formatDuration 3599 = "59:59" := by decide

/-! ## Decimal texts -/

section Decimal

variable {m n i : Nat} {digits : List Char}

/-- Different numbers have different digits. -/
theorem repr_inj (h : m.repr.toList = n.repr.toList) : m = n := by
  have hvalue := congrArg digitsValue h
  rw [digitsValue_repr, digitsValue_repr] at hvalue
  exact hvalue

/-- A unit behind them makes no difference to that. -/
theorem repr_append_inj {suffix : String} (h : m.repr ++ suffix = n.repr ++ suffix) :
    m = n := by
  have hlist := congrArg String.toList h
  rw [String.toList_append, String.toList_append] at hlist
  exact repr_inj (List.append_cancel_right hlist)

/-- Dropping the commas gives the digits back. -/
theorem filter_groupDigits (hall : ∀ c ∈ digits, c.isDigit = true) :
    (groupDigits i digits).filter Char.isDigit = digits := by
  induction digits generalizing i with
  | nil => rfl
  | cons digit rest ih =>
      have hdigit := hall digit (List.mem_cons_self ..)
      have hrest := ih (i := i + 1) (fun c hc => hall c (List.mem_cons_of_mem _ hc))
      have hcomma : ¬ (',').isDigit = true := by decide
      rw [groupDigits]
      split
      · rw [List.filter_cons_of_neg hcomma, List.filter_cons_of_pos hdigit, hrest]
      · rw [List.filter_cons_of_pos hdigit, hrest]

/-- **Different counts get different texts.** -/
theorem formatCount_inj {a b : UInt64} (h : formatCount a = formatCount b) : a = b := by
  have hgroups : groupDigits 0 a.toNat.repr.toList = groupDigits 0 b.toNat.repr.toList :=
    String.ofList_injective h
  have hdigits := congrArg (List.filter Char.isDigit) hgroups
  rw [filter_groupDigits (fun c hc => isDigit_of_mem_repr hc),
    filter_groupDigits (fun c hc => isDigit_of_mem_repr hc)] at hdigits
  exact UInt64.toNat_inj.mp (repr_inj hdigits)

/-- Different rates, in whole units, get different texts. -/
theorem formatRate_inj {a b : UInt64} (h : formatRate a = formatRate b) :
    rateMiB a = rateMiB b :=
  UInt64.toNat_inj.mp (repr_append_inj h)

/-- Different latencies, in whole units, get different texts. -/
theorem formatLatencyUs_inj {a b : UInt64} (h : formatLatencyUs a = formatLatencyUs b) :
    latencyUs a = latencyUs b := by
  rw [formatLatencyUs, formatLatencyUs, String.append_assoc, String.append_assoc,
    String.append_assoc, String.append_assoc] at h
  exact UInt64.toNat_inj.mp (repr_append_inj h)

end Decimal

/-! ## Durations -/

section Duration

variable {m n : Nat}

/-- A zero in front does not change a number. -/
theorem digitsValue_twoDigits (n : Nat) : digitsValue (twoDigits n).toList = n := by
  rw [twoDigits, String.toList_append]
  split
  · change Nat.ofDigitChars 10 ('0' :: n.repr.toList) 0 = n
    rw [Nat.ofDigitChars_cons]
    exact digitsValue_repr n
  · exact digitsValue_repr n

/-- Different numbers get different texts. -/
theorem twoDigits_inj (h : (twoDigits m).toList = (twoDigits n).toList) : m = n := by
  have hvalue := congrArg digitsValue h
  rw [digitsValue_twoDigits, digitsValue_twoDigits] at hvalue
  exact hvalue

/-- Below one hundred there are just two digits. -/
theorem length_twoDigits (h : n < 100) : (twoDigits n).toList.length = 2 := by
  have hpos : 0 < n.repr.length := Nat.length_repr_pos
  have hone := Nat.length_repr_le_iff (n := n) (k := 1) (by decide)
  have htwo := Nat.length_repr_le_iff (n := n) (k := 2) (by decide)
  rw [twoDigits, String.length_toList, String.length_append]
  split
  · have hzero : "0".length = 1 := by decide
    omega
  · have hempty : "".length = 0 := by decide
    omega

/-- **Different durations get different texts.** -/
theorem formatDuration_inj {a b : Int32} (ha : 0 ≤ a.toInt) (hb : 0 ≤ b.toInt)
    (h : formatDuration a = formatDuration b) : a = b := by
  have hlist := congrArg String.toList h
  have hmod (c : Int32) : (c.toInt % kSecPerMin).toNat < 100 := by
    rw [kSecPerMin]
    omega
  simp only [formatDuration, Int.max_eq_right ha, Int.max_eq_right hb, String.toList_append]
    at hlist
  obtain ⟨hminutes, hseconds⟩ := List.append_inj' hlist (by
    rw [length_twoDigits (hmod a), length_twoDigits (hmod b)])
  have hm := twoDigits_inj (List.append_cancel_right hminutes)
  have hs := twoDigits_inj hseconds
  rw [kSecPerMin] at hm hs
  refine Int32.toInt_inj.mp ?_
  omega

end Duration

end CfioDisplay
