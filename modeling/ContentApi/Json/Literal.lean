import ContentApi.Json.Basic
import ContentApi.Json.Written

/-!
# The values of literals and numerals

A string literal has a value if its code units form characters and all its bytes
together are UTF-8.  A numeral has a value if it is not beyond the doubles; it is an
integer if it is written as one and fits into 64 bits, without a sign or with one.
-/

namespace ContentApi.Json

/-- The UTF-8 bytes of a code point. -/
def encodeCodePoint (code : Nat) : List UInt8 :=
  if code < 0x80 then [UInt8.ofNat code]
  else if code < 0x800 then
    [UInt8.ofNat (0xc0 + code / 64), UInt8.ofNat (0x80 + code % 64)]
  else if code < 0x10000 then
    [UInt8.ofNat (0xe0 + code / 4096), UInt8.ofNat (0x80 + code / 64 % 64),
      UInt8.ofNat (0x80 + code % 64)]
  else
    [UInt8.ofNat (0xf0 + code / 262144), UInt8.ofNat (0x80 + code / 4096 % 64),
      UInt8.ofNat (0x80 + code / 64 % 64), UInt8.ofNat (0x80 + code % 64)]

/-- The first code unit of a surrogate pair. -/
def isLeading (unit : Nat) : Bool := 0xd800 ≤ unit && unit ≤ 0xdbff

/-- The second code unit of a surrogate pair. -/
def isTrailing (unit : Nat) : Bool := 0xdc00 ≤ unit && unit ≤ 0xdfff

/-- The code point of a surrogate pair. -/
def surrogatePair (leading trailing : Nat) : Nat :=
  0x10000 + (leading - 0xd800) * 0x400 + (trailing - 0xdc00)

/-- The bytes of a literal's pieces; `stop` is the fault behind the last one. -/
def Piece.bytes (stop : Option Fault) : List Piece → Except Fault (List UInt8)
  | [] =>
      match stop with
      | none => .ok []
      | some fault => .error fault
  | .byte value :: rest => (Piece.bytes stop rest).map (value :: ·)
  | .codeUnit leading :: rest =>
      if isTrailing leading then .error .malformed
      else if isLeading leading then
        match rest with
        | [] => .error (stop.getD .malformed)
        | .codeUnit trailing :: rest =>
            if isTrailing trailing then
              (Piece.bytes stop rest).map
                (encodeCodePoint (surrogatePair leading trailing) ++ ·)
            else .error .malformed
        | .byte _ :: _ => .error .malformed
      else (Piece.bytes stop rest).map (encodeCodePoint leading ++ ·)

/-- The text of a string literal. -/
def Literal.text (literal : Literal) : Except Fault String :=
  match Piece.bytes literal.stop literal.pieces with
  | .error fault => .error fault
  | .ok bytes =>
      match String.fromUTF8? ⟨bytes.toArray⟩ with
      | some text => .ok text
      | none => .error .malformed

/-- The greatest significand that is kept while digits are read. -/
def largestSignificand : Nat := 0xffffffffffffffff

/--
Reads digits on behind a significand as long as it stays within `largestSignificand`;
the result is the significand and the number of digits that were dropped.
-/
def accumulate (significand : Nat) : List Nat → Nat × Nat
  | [] => (significand, 0)
  | digit :: rest =>
      if 10 * significand + digit ≤ largestSignificand then
        accumulate (10 * significand + digit) rest
      else (significand, rest.length + 1)

/-- The number that a run of digits denotes, most significant digit first. -/
def digitsNumber (digits : List Nat) : Nat :=
  digits.foldl (fun value digit => 10 * value + digit) 0

/-- A double, or the fault of a numeral beyond the doubles. -/
def boundedDouble (negative : Bool) (significand : Nat) (exponent : Int) :
    Except Fault Number :=
  match Double.ofParts? negative significand exponent with
  | some value => .ok (.double value)
  | none => .error .malformed

/-- The number of a numeral without fraction and exponent. -/
def Numeral.wholeNumber (numeral : Numeral) : Except Fault Number :=
  let (significand, dropped) := accumulate 0 numeral.whole
  if dropped ≠ 0 then boundedDouble numeral.negative significand dropped
  else if !numeral.negative then .ok (.integer significand)
  else if significand = 0 ∨ 0x8000000000000000 < significand then boundedDouble true significand 0
  else .ok (.integer (-significand))

/-- The number of a numeral with a fraction or an exponent. -/
def Numeral.scaledNumber (numeral : Numeral) : Except Fault Number :=
  let (whole, droppedWhole) := accumulate 0 numeral.whole
  let (significand, dropped) := accumulate whole numeral.fraction
  let places : Int := (droppedWhole + dropped : Nat) - (numeral.fraction.length : Nat)
  match numeral.exponent with
  | none =>
      match numeral.stop with
      | some fault => .error fault
      | none => boundedDouble numeral.negative significand places
  | some (isNegative, digits) =>
      let shift := digitsNumber digits
      if 0x80000000 ≤ shift ∧ significand ≠ 0 ∧ !isNegative then .error .malformed
      else
        match numeral.stop with
        | some fault => .error fault
        | none =>
            if 0x80000000 ≤ shift then boundedDouble numeral.negative 0 0
            else if isNegative then
              boundedDouble numeral.negative significand (places - shift)
            else boundedDouble numeral.negative significand (places + shift)

/-- The number of a numeral. -/
def Numeral.number (numeral : Numeral) : Except Fault Number :=
  if numeral.isWhole then
    match numeral.stop with
    | some fault => .error fault
    | none => numeral.wholeNumber
  else numeral.scaledNumber

end ContentApi.Json
