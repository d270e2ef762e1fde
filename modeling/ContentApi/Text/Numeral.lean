/-!
# Numerals

Two kinds of numerals are read: those of the paging parameters, an optional single sign
and one or more decimal digits, for a number that fits into 32 bits with its sign; and
those of the places in messages, one or more decimal digits, for a number that fits into
64 bits.
-/

namespace ContentApi.Text

/-- The number that a run of digits denotes, most significant digit first. -/
def digitsValue (digits : List Char) : Nat :=
  digits.foldl (fun value digit => 10 * value + (digit.toNat - '0'.toNat)) 0

/-- A non-empty run of decimal digits. -/
def natural? (text : List Char) : Option Nat :=
  if text ≠ [] ∧ text.all Char.isDigit then some (digitsValue text) else none

/-- A numeral without a sign, below 2^64. -/
def natural64? (text : List Char) : Option Nat :=
  (natural? text).filter fun value => value < 0x10000000000000000

/-- An optional sign and a non-empty run of decimal digits. -/
def integer? : List Char → Option Int
  | '+' :: digits => (natural? digits).map Int.ofNat
  | '-' :: digits => (natural? digits).map fun value => -Int.ofNat value
  | digits => (natural? digits).map Int.ofNat

/-- A signed numeral between -2^31 and 2^31 - 1. -/
def integer32? (text : List Char) : Option Int :=
  (integer? text).filter fun value => -0x80000000 ≤ value ∧ value < 0x80000000

end ContentApi.Text
