import Mathlib.Algebra.Order.Ring.Nat
import Cfio.IntegerText
import Cfio.Types

/-! # SizeParser

    Size strings such as `4k` or `1G` and back.  A text is its list of
    characters; only ASCII digits count as digits, as in the C locale. -/

namespace CfioConfig

open CfioTypes IntegerText

/-- The suffix sets accepted when parsing a size string. -/
inductive AllowedSuffixes where
  | kKM
  | kKMG
  deriving DecidableEq, Repr

def kKilo : UInt64 := 1024
def kMega : UInt64 := 1024 * 1024
def kGiga : UInt64 := 1024 * 1024 * 1024

/-- What a suffix multiplies by; the `switch` of `SizeParser::Parse`. -/
def suffixMultiplier (sizeStr : String) (allowed : AllowedSuffixes) (suffix : Char) :
    Except Exn UInt64 :=
  if suffix = 'k' ∨ suffix = 'K' then .ok kKilo
  else if suffix = 'm' ∨ suffix = 'M' then .ok kMega
  else if suffix = 'g' ∨ suffix = 'G' then
    if allowed = .kKM then
      .error (.invalidArgument ("suffix 'g' not allowed for this field: '"
        ++ sizeStr ++ "'"))
    else .ok kGiga
  else
    .error (.invalidArgument ("unknown size suffix '" ++ suffix.toString ++ "' in: '"
      ++ sizeStr ++ "'"))

/-- `SizeParser::Parse`. -/
def parseSize (sizeStr : String) (allowed : AllowedSuffixes) : Except Exn UInt64 :=
  match sizeStr.toList with
  | [] => .error (.invalidArgument "size string is empty")
  | first :: others =>
      if first.isDigit = false then
        .error (.invalidArgument ("size string must start with a digit: '"
          ++ sizeStr ++ "'"))
      else
        let value := digitsValue ((first :: others).takeWhile Char.isDigit)
        if 2 ^ 64 ≤ value then
          .error (.invalidArgument ("numeric value out of range: '" ++ sizeStr ++ "'"))
        else
          match (first :: others).dropWhile Char.isDigit with
          | [] => .ok (UInt64.ofNat value)
          | [suffix] => do
              let multiplier ← suffixMultiplier sizeStr allowed suffix
              -- overflow check before multiply
              if UInt64.ofNat value > 0xFFFFFFFFFFFFFFFF / multiplier then
                throw (.invalidArgument ("size value overflows: '" ++ sizeStr ++ "'"))
              else return UInt64.ofNat value * multiplier
          | _ =>
              .error (.invalidArgument ("unexpected characters after suffix: '"
                ++ sizeStr ++ "'"))

example : parseSize "4k" .kKM = .ok 4096 := by rfl

/-- `SizeParser::Format`. -/
def format (bytes : UInt64) : String :=
  if bytes = 0 then "0"
  else if bytes % kGiga = 0 then (bytes / kGiga).toNat.repr ++ "G"
  else if bytes % kMega = 0 then (bytes / kMega).toNat.repr ++ "M"
  else if bytes % kKilo = 0 then (bytes / kKilo).toNat.repr ++ "K"
  else bytes.toNat.repr

end CfioConfig
