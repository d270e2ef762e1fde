/-!
# JSON as it is written

`Source.written` reads bytes into a `Written`, which keeps what was written and, where
reading had to stop, the fault that stopped it.  So reading never fails; what fails is
to take a value out of what was written, and that meets the faults in the order in which
they stand in the text.  Literals and numerals are kept unevaluated, because a value that
nobody wants may hold a literal or a numeral that no value corresponds to.
-/

namespace ContentApi.Json

/-- Why no value of the wanted form can be taken from a text. -/
inductive Fault where
  /-- The text breaks the rules of the notation. -/
  | malformed
  /-- The text is in order, but its value is not of the wanted form. -/
  | mismatch
  /-- The text ends too early. -/
  | truncated
  /-- The text could not be fetched. -/
  | unreadable
deriving DecidableEq, Repr

/-- A text as it arrives: its bytes, and whether fetching fails after them. -/
structure Source where
  bytes : List UInt8
  fails : Bool
deriving Repr

/-- A part of a string literal. -/
inductive Piece where
  /-- A byte that stands for itself, or the byte that a short escape stands for. -/
  | byte (value : UInt8)
  /-- A UTF-16 code unit written by its number. -/
  | codeUnit (value : Nat)
deriving DecidableEq, Repr

/-- The inside of a string literal, and the fault that ended it early, if any. -/
structure Literal where
  pieces : List Piece
  stop : Option Fault
deriving DecidableEq, Repr

/-- A numeral by its digits, and the fault that ended it early, if any. -/
structure Numeral where
  negative : Bool
  whole : List Nat
  fraction : List Nat
  /-- Whether the exponent is negative, and its digits. -/
  exponent : Option (Bool × List Nat)
  /-- Whether there is a fraction or an exponent. -/
  isWhole : Bool
  stop : Option Fault
deriving DecidableEq, Repr

/-- How a list of items or fields ends. -/
inductive Ending where
  /-- With its closing bracket. -/
  | closed
  /-- Inside its last entry, where reading stopped. -/
  | inside
  /-- After an entry, or after the comma that follows one, by a fault. -/
  | stopped (afterComma : Bool) (fault : Fault)
deriving DecidableEq, Repr

/-- A value as it is written. -/
inductive Written where
  | null
  | boolean (value : Bool)
  | number (numeral : Numeral)
  | string (literal : Literal)
  | array (items : List Written) (ending : Ending)
  | object (fields : List (Literal × Written)) (ending : Ending)
  /-- No value can be read here. -/
  | broken (fault : Fault)
deriving Repr

/-- The fault of reading past the last byte. -/
def Source.ended (source : Source) : Fault :=
  if source.fails then .unreadable else .truncated

/-- A space, tab, line feed or carriage return. -/
def isBlankByte (byte : UInt8) : Bool :=
  byte == 0x20 || byte == 0x09 || byte == 0x0a || byte == 0x0d

/-- The text without the blanks in front. -/
def skipBlanks (bytes : List UInt8) : List UInt8 :=
  bytes.dropWhile isBlankByte

/-- The value of a decimal digit. -/
def digit? (byte : UInt8) : Option Nat :=
  if 0x30 ≤ byte && byte ≤ 0x39 then some (byte.toNat - 0x30) else none

/-- The value of a hexadecimal digit in either case. -/
def hexDigit? (byte : UInt8) : Option Nat :=
  if 0x30 ≤ byte && byte ≤ 0x39 then some (byte.toNat - 0x30)
  else if 0x61 ≤ byte && byte ≤ 0x66 then some (byte.toNat - 0x57)
  else if 0x41 ≤ byte && byte ≤ 0x46 then some (byte.toNat - 0x37)
  else none

/-- The digits in front of a text, and the rest of the text. -/
def spanDigits : List UInt8 → List Nat × List UInt8
  | [] => ([], [])
  | byte :: rest =>
      match digit? byte with
      | none => ([], byte :: rest)
      | some digit =>
          let (digits, rest) := spanDigits rest
          (digit :: digits, rest)

/-- The byte that a short escape stands for. -/
def shortEscape? (byte : UInt8) : Option UInt8 :=
  if byte == 0x22 || byte == 0x5c || byte == 0x2f then some byte
  else if byte == 0x62 then some 0x08
  else if byte == 0x66 then some 0x0c
  else if byte == 0x6e then some 0x0a
  else if byte == 0x72 then some 0x0d
  else if byte == 0x74 then some 0x09
  else none

namespace Source

variable (source : Source)

/-- What was read, and the rest of the text unless reading stopped. -/
abbrev Progress (α : Type) := α × Option (List UInt8)

/-- The rest of a fixed word: nothing if the text goes on with it, else the fault. -/
def readWord : List Char → List UInt8 → Except Fault (List UInt8)
  | [], bytes => .ok bytes
  | _ :: _, [] => .error source.ended
  | letter :: word, byte :: bytes =>
      if byte.toNat = letter.toNat then readWord word bytes else .error .malformed

/-- A fixed word that stands for a value. -/
def readNamed (word : List Char) (value : Written) (bytes : List UInt8) :
    Progress Written :=
  match source.readWord word bytes with
  | .ok rest => (value, some rest)
  | .error fault => (.broken fault, none)

/-- The pieces of a string literal after its opening quote. -/
def readLiteral : List UInt8 → Progress Literal
  | [] => (⟨[], some source.ended⟩, none)
  | 0x22 :: rest => (⟨[], none⟩, some rest)
  | 0x5c :: 0x75 :: a :: b :: c :: d :: rest =>
      match hexDigit? a, hexDigit? b, hexDigit? c, hexDigit? d with
      | some a, some b, some c, some d =>
          let (literal, rest) := readLiteral rest
          let unit := 4096 * a + 256 * b + 16 * c + d
          (⟨.codeUnit unit :: literal.pieces, literal.stop⟩, rest)
      | _, _, _, _ => (⟨[], some .malformed⟩, none)
  | 0x5c :: escape :: rest =>
      if escape = 0x75 then (⟨[], some source.ended⟩, none)
      else
        match shortEscape? escape with
        | some byte =>
            let (literal, rest) := readLiteral rest
            (⟨.byte byte :: literal.pieces, literal.stop⟩, rest)
        | none => (⟨[], some .malformed⟩, none)
  | byte :: rest =>
      if byte = 0x5c then (⟨[], some source.ended⟩, none)
      else if byte < 0x20 then (⟨[], some .malformed⟩, none)
      else
        let (literal, rest) := readLiteral rest
        (⟨.byte byte :: literal.pieces, literal.stop⟩, rest)

/-- A finished part of a numeral: reading on needs one more byte or the end. -/
def afterDigits (numeral : Numeral) (bytes : List UInt8) : Progress Numeral :=
  if bytes.isEmpty && source.fails then
    (⟨numeral.negative, numeral.whole, numeral.fraction, numeral.exponent,
      numeral.isWhole, some .unreadable⟩, none)
  else (numeral, some bytes)

/-- A numeral that lacks a digit at this place. -/
def lacksDigit (numeral : Numeral) (bytes : List UInt8) : Progress Numeral :=
  (⟨numeral.negative, numeral.whole, numeral.fraction, numeral.exponent,
    numeral.isWhole, some (if bytes.isEmpty then source.ended else .malformed)⟩, none)

/-- The digits of an exponent after its sign. -/
def readExponentDigits (numeral : Numeral) (negative : Bool) (bytes : List UInt8) :
    Progress Numeral :=
  let (digits, rest) := spanDigits bytes
  let extended : Numeral :=
    ⟨numeral.negative, numeral.whole, numeral.fraction, some (negative, digits), false, none⟩
  if digits.isEmpty then source.lacksDigit extended rest
  else source.afterDigits extended rest

/-- The exponent of a numeral, if one follows. -/
def readExponent (numeral : Numeral) : List UInt8 → Progress Numeral
  | mark :: rest =>
      if mark = 0x65 ∨ mark = 0x45 then
        match rest with
        | 0x2b :: rest => source.readExponentDigits numeral false rest
        | 0x2d :: rest => source.readExponentDigits numeral true rest
        | rest => source.readExponentDigits numeral false rest
      else (numeral, some (mark :: rest))
  | [] => source.afterDigits numeral []

/-- The fraction and the exponent of a numeral, as far as they follow. -/
def readFraction (numeral : Numeral) : List UInt8 → Progress Numeral
  | 0x2e :: rest =>
      let (digits, rest) := spanDigits rest
      let extended : Numeral :=
        ⟨numeral.negative, numeral.whole, digits, none, false, none⟩
      if digits.isEmpty then source.lacksDigit extended rest
      else source.readExponent extended rest
  | rest => source.readExponent numeral rest

/-- A numeral after its sign; a zero in front stands alone. -/
def readNumeral (negative : Bool) (bytes : List UInt8) : Progress Numeral :=
  let (digits, rest) := spanDigits bytes
  let numeral : Numeral := ⟨negative, digits, [], none, true, none⟩
  match digits with
  | [] => source.lacksDigit numeral rest
  | 0 :: _ :: _ =>
      (⟨negative, [0], [], none, true, some .malformed⟩, none)
  | _ => source.readFraction numeral rest

/-- A numeral as a value. -/
def readNumber (negative : Bool) (bytes : List UInt8) : Progress Written :=
  let (numeral, rest) := source.readNumeral negative bytes
  (.number numeral, rest)

/-- Adds an entry to the entries and the ending of the rest of a list. -/
def addEntry {α : Type} (entry : α) (more : Progress (List α × Ending)) :
    Progress (List α × Ending) :=
  ((entry :: more.1.1, more.1.2), more.2)

/--
The entries of a row up to its closing bracket, from in front of the first one or from behind one.
Two entries have a comma between them, and no comma stands in front of the bracket.
-/
def readRow {α : Type} (bracket : UInt8) (readEntry : List UInt8 → Progress (List α × Ending))
    (isFirst : Bool) (bytes : List UInt8) : Progress (List α × Ending) :=
  match skipBlanks bytes with
  | [] => (([], .stopped false source.ended), none)
  | byte :: rest =>
      if byte = bracket then (([], .closed), some rest)
      else if isFirst then readEntry (byte :: rest)
      else if byte = 0x2c then
        match skipBlanks rest with
        | [] => (([], .stopped true source.ended), none)
        | next :: more =>
            if next = bracket then (([], .stopped true .malformed), none)
            else readEntry (next :: more)
      else (([], .stopped false .malformed), none)

mutual

/-- The value at the start of a text; the first argument bounds the steps. -/
def readValue : Nat → List UInt8 → Progress Written
  | 0, _ => (.broken .malformed, none)
  | fuel + 1, bytes =>
      match skipBlanks bytes with
      | [] => (.broken source.ended, none)
      | 0x6e :: rest => source.readNamed ['u', 'l', 'l'] .null rest
      | 0x74 :: rest => source.readNamed ['r', 'u', 'e'] (.boolean true) rest
      | 0x66 :: rest => source.readNamed ['a', 'l', 's', 'e'] (.boolean false) rest
      | 0x2d :: rest => source.readNumber true rest
      | 0x22 :: rest =>
          let (literal, rest) := source.readLiteral rest
          (.string literal, rest)
      | 0x5b :: rest =>
          let ((items, ending), rest) := readItems fuel true rest
          (.array items ending, rest)
      | 0x7b :: rest =>
          let ((fields, ending), rest) := readFields fuel true rest
          (.object fields ending, rest)
      | byte :: rest =>
          if (digit? byte).isSome then source.readNumber false (byte :: rest)
          else (.broken .malformed, none)

/-- The items of an array, from in front of the first one or from behind one. -/
def readItems : Nat → Bool → List UInt8 → Progress (List Written × Ending)
  | 0, _, _ => (([], .stopped false .malformed), none)
  | fuel + 1, isFirst, bytes => source.readRow 0x5d (readItem fuel) isFirst bytes

/-- An item of an array and the items behind it. -/
def readItem : Nat → List UInt8 → Progress (List Written × Ending)
  | 0, _ => (([], .stopped false .malformed), none)
  | fuel + 1, bytes =>
      match readValue fuel bytes with
      | (item, none) => (([item], .inside), none)
      | (item, some rest) => addEntry item (readItems fuel false rest)

/-- The fields of an object, from in front of the first one or from behind one. -/
def readFields : Nat → Bool → List UInt8 → Progress (List (Literal × Written) × Ending)
  | 0, _, _ => (([], .stopped false .malformed), none)
  | fuel + 1, isFirst, bytes => source.readRow 0x7d (readField fuel) isFirst bytes

/-- A field of an object and the fields behind it. -/
def readField : Nat → List UInt8 → Progress (List (Literal × Written) × Ending)
  | 0, _ => (([], .stopped false .malformed), none)
  | fuel + 1, bytes =>
      match bytes with
      | 0x22 :: rest =>
          match source.readLiteral rest with
          | (name, none) => (([(name, .broken .malformed)], .inside), none)
          | (name, some rest) =>
              match skipBlanks rest with
              | [] => (([(name, .broken source.ended)], .inside), none)
              | 0x3a :: rest =>
                  match readValue fuel rest with
                  | (value, none) => (([(name, value)], .inside), none)
                  | (value, some rest) =>
                      addEntry (name, value) (readFields fuel false rest)
              | _ => (([(name, .broken .malformed)], .inside), none)
      | _ => (([], .stopped true .malformed), none)

end

/--
The value at the start of the text, and the rest unless reading stopped.  An opening bracket
takes three steps and every other byte at most two.
-/
def written : Progress Written :=
  source.readValue (3 * source.bytes.length + 3) source.bytes

/-- The fault of a text that goes on behind its value, or cannot be fetched on. -/
def endFault? (rest : Option (List UInt8)) : Option Fault :=
  match rest with
  | none => some .malformed
  | some bytes =>
      if (skipBlanks bytes).isEmpty then
        if source.fails then some .unreadable else none
      else some .malformed

end Source

end ContentApi.Json
