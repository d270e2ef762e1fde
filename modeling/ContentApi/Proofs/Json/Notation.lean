import ContentApi.Json.Written
import Mathlib.Data.List.Forall2
import Mathlib.Data.List.TakeWhile

/-!
# The notation of JSON

The notation as a grammar, without reference to the order in which a text is read: each rule says
of which parts a text consists and what is written by it.  Blanks stand only where a rule has
them.  A text in this sense is complete, so nothing that it stands for ends by a fault.

The leaves of the grammar, which are numerals and string literals, are read here by their rules.
A numeral is the one part that may be taken for longer than it is; it ends in front of a byte that
does not continue it (`EndsNumeral`).
-/

namespace ContentApi.Json

/-- Any number of blanks. -/
def BlankBytes (bytes : List UInt8) : Prop :=
  ∀ byte ∈ bytes, isBlankByte byte = true

/-! ## The grammar -/

/-- Digits, and the values for which they stand. -/
def Digits (text : List UInt8) (digits : List Nat) : Prop :=
  List.Forall₂ (fun byte digit => digit? byte = some digit) text digits

/-- The fraction of a numeral, or nothing. -/
inductive FractionPart : List UInt8 → List Nat → Prop where
  | none : FractionPart [] []
  | some {text : List UInt8} {digits : List Nat} (inside : Digits text digits)
      (nonempty : digits ≠ []) : FractionPart (0x2e :: text) digits

/-- The exponent of a numeral, or nothing: whether it is negative, and its digits. -/
inductive ExponentPart : List UInt8 → Option (Bool × List Nat) → Prop where
  | none : ExponentPart [] none
  | unsigned {mark : UInt8} {text : List UInt8} {digits : List Nat}
      (isMark : mark = 0x65 ∨ mark = 0x45) (inside : Digits text digits)
      (nonempty : digits ≠ []) : ExponentPart (mark :: text) (some (false, digits))
  | positive {mark : UInt8} {text : List UInt8} {digits : List Nat}
      (isMark : mark = 0x65 ∨ mark = 0x45) (inside : Digits text digits)
      (nonempty : digits ≠ []) : ExponentPart (mark :: 0x2b :: text) (some (false, digits))
  | negative {mark : UInt8} {text : List UInt8} {digits : List Nat}
      (isMark : mark = 0x65 ∨ mark = 0x45) (inside : Digits text digits)
      (nonempty : digits ≠ []) : ExponentPart (mark :: 0x2d :: text) (some (true, digits))

/-- A numeral with a fraction behind it. -/
def Numeral.withFraction (numeral : Numeral) : List Nat → Numeral
  | [] => numeral
  | digits => ⟨numeral.negative, numeral.whole, digits, none, false, none⟩

/-- A numeral with an exponent behind it. -/
def Numeral.withExponent (numeral : Numeral) : Option (Bool × List Nat) → Numeral
  | none => numeral
  | some exponent =>
      ⟨numeral.negative, numeral.whole, numeral.fraction, some exponent, false, none⟩

/-- A zero does not stand in front of other digits. -/
def NoLeadingZero (digits : List Nat) : Prop :=
  ∀ others, digits = 0 :: others → others = []

/-- A numeral without its sign. -/
inductive IsNumeral (negative : Bool) : List UInt8 → Numeral → Prop where
  | intro {whole fraction exponent : List UInt8} {digits places : List Nat}
      {power : Option (Bool × List Nat)} (isWhole : Digits whole digits)
      (nonempty : digits ≠ []) (noLeadingZero : NoLeadingZero digits)
      (isFraction : FractionPart fraction places) (isExponent : ExponentPart exponent power) :
      IsNumeral negative (whole ++ (fraction ++ exponent))
        ((Numeral.withFraction ⟨negative, digits, [], none, true, none⟩ places).withExponent
          power)

/-- The pieces of a string literal with its closing quote. -/
inductive IsLiteral : List UInt8 → List Piece → Prop where
  | close : IsLiteral [0x22] []
  | plain {byte : UInt8} {text : List UInt8} {pieces : List Piece} (notQuote : byte ≠ 0x22)
      (notBackslash : byte ≠ 0x5c) (printable : ¬byte < 0x20) (others : IsLiteral text pieces) :
      IsLiteral (byte :: text) (.byte byte :: pieces)
  | short {escape byte : UInt8} {text : List UInt8} {pieces : List Piece}
      (stands : shortEscape? escape = some byte) (others : IsLiteral text pieces) :
      IsLiteral (0x5c :: escape :: text) (.byte byte :: pieces)
  | codeUnit {first second third fourth : UInt8} {a b c d : Nat} {text : List UInt8}
      {pieces : List Piece} (isFirst : hexDigit? first = some a)
      (isSecond : hexDigit? second = some b) (isThird : hexDigit? third = some c)
      (isFourth : hexDigit? fourth = some d) (others : IsLiteral text pieces) :
      IsLiteral (0x5c :: 0x75 :: first :: second :: third :: fourth :: text)
        (.codeUnit (4096 * a + 256 * b + 16 * c + d) :: pieces)

mutual

/-- What is written by a text without blanks around it. -/
inductive Spells : List UInt8 → Written → Prop where
  | null : Spells [0x6e, 0x75, 0x6c, 0x6c] .null
  | yes : Spells [0x74, 0x72, 0x75, 0x65] (.boolean true)
  | no : Spells [0x66, 0x61, 0x6c, 0x73, 0x65] (.boolean false)
  | unsigned {text : List UInt8} {numeral : Numeral} (isNumeral : IsNumeral false text numeral) :
      Spells text (.number numeral)
  | negative {text : List UInt8} {numeral : Numeral} (isNumeral : IsNumeral true text numeral) :
      Spells (0x2d :: text) (.number numeral)
  | string {text : List UInt8} {pieces : List Piece} (isLiteral : IsLiteral text pieces) :
      Spells (0x22 :: text) (.string ⟨pieces, none⟩)
  | array {inner : List UInt8} {items : List Written} (inside : SpellsItems inner items) :
      Spells (0x5b :: (inner ++ [0x5d])) (.array items .closed)
  | object {inner : List UInt8} {fields : List (Literal × Written)}
      (inside : SpellsFields inner fields) :
      Spells (0x7b :: (inner ++ [0x7d])) (.object fields .closed)

/-- The items of an array, with commas between them and any blanks around them. -/
inductive SpellsItems : List UInt8 → List Written → Prop where
  | nil {blanks : List UInt8} (allBlank : BlankBytes blanks) : SpellsItems blanks []
  | last {before text after : List UInt8} {item : Written} (blankBefore : BlankBytes before)
      (inside : Spells text item) (blankAfter : BlankBytes after) :
      SpellsItems (before ++ (text ++ after)) [item]
  | more {before text after rest : List UInt8} {item next : Written} {items : List Written}
      (blankBefore : BlankBytes before) (inside : Spells text item)
      (blankAfter : BlankBytes after) (others : SpellsItems rest (next :: items)) :
      SpellsItems (before ++ (text ++ (after ++ 0x2c :: rest))) (item :: next :: items)

/-- The fields of an object, with commas between them and any blanks around them. -/
inductive SpellsFields : List UInt8 → List (Literal × Written) → Prop where
  | nil {blanks : List UInt8} (allBlank : BlankBytes blanks) : SpellsFields blanks []
  | last {before text after : List UInt8} {field : Literal × Written}
      (blankBefore : BlankBytes before) (inside : SpellsField text field)
      (blankAfter : BlankBytes after) : SpellsFields (before ++ (text ++ after)) [field]
  | more {before text after rest : List UInt8} {field next : Literal × Written}
      {fields : List (Literal × Written)} (blankBefore : BlankBytes before)
      (inside : SpellsField text field) (blankAfter : BlankBytes after)
      (others : SpellsFields rest (next :: fields)) :
      SpellsFields (before ++ (text ++ (after ++ 0x2c :: rest))) (field :: next :: fields)

/-- A field: its name, a colon with any blanks around it, and its value. -/
inductive SpellsField : List UInt8 → Literal × Written → Prop where
  | intro {name gap before text : List UInt8} {pieces : List Piece} {value : Written}
      (isLiteral : IsLiteral name pieces) (blankGap : BlankBytes gap)
      (blankBefore : BlankBytes before) (inside : Spells text value) :
      SpellsField (0x22 :: (name ++ (gap ++ 0x3a :: (before ++ text)))) (⟨pieces, none⟩, value)

end

/-! ## Blanks -/

/-- A text that is empty or does not begin with a byte of a class. -/
def BeginsOutside (inside : UInt8 → Bool) (bytes : List UInt8) : Prop :=
  ∀ byte ∈ bytes.head?, inside byte = false

theorem blankBytes_nil : BlankBytes [] :=
  List.forall_mem_nil _

theorem BlankBytes.append {front back : List UInt8} (frontBlank : BlankBytes front)
    (backBlank : BlankBytes back) : BlankBytes (front ++ back) :=
  List.forall_mem_append.mpr ⟨frontBlank, backBlank⟩

/-- Blanks are passed over up to the first byte that is none. -/
theorem skipBlanks_append {blanks rest : List UInt8} (allBlank : BlankBytes blanks)
    (solid : BeginsOutside isBlankByte rest) : skipBlanks (blanks ++ rest) = rest := by
  rw [skipBlanks, List.dropWhile_append_of_pos allBlank]
  cases rest with
  | nil => rfl
  | cons first more => rw [List.dropWhile_cons_of_neg (by simp [solid first rfl])]

theorem skipBlanks_cons {blanks rest : List UInt8} {byte : UInt8} (allBlank : BlankBytes blanks)
    (notBlank : isBlankByte byte = false) : skipBlanks (blanks ++ byte :: rest) = byte :: rest :=
  skipBlanks_append allBlank fun _ first => Option.mem_some.mp first ▸ notBlank

/-- What is passed over are blanks. -/
theorem skipBlanks_split (bytes : List UInt8) :
    ∃ blanks, BlankBytes blanks ∧ bytes = blanks ++ skipBlanks bytes := by
  refine ⟨bytes.takeWhile isBlankByte, List.all_eq_true.mp List.all_takeWhile, ?_⟩
  rw [skipBlanks, List.takeWhile_append_dropWhile]

theorem skipBlanks_eq_nil_iff {bytes : List UInt8} : skipBlanks bytes = [] ↔ BlankBytes bytes := by
  rw [skipBlanks, List.dropWhile_eq_nil_iff, BlankBytes]

/-! ## Numerals -/

/-- A byte by which a numeral could go on. -/
def continuesNumeral (byte : UInt8) : Bool :=
  (digit? byte).isSome || byte == 0x2e || byte == 0x65 || byte == 0x45

/-- The end of a text, or a byte by which no numeral goes on. -/
abbrev EndsNumeral (bytes : List UInt8) : Prop :=
  BeginsOutside continuesNumeral bytes

theorem digits_spanDigits (bytes : List UInt8) :
    ∃ text, bytes = text ++ (spanDigits bytes).2 ∧ Digits text (spanDigits bytes).1 := by
  induction bytes with
  | nil => exact ⟨[], rfl, .nil⟩
  | cons byte rest ih =>
      rw [spanDigits]
      cases isDigit : digit? byte with
      | none => exact ⟨[], rfl, .nil⟩
      | some digit =>
          obtain ⟨text, whole, inside⟩ := ih
          exact ⟨byte :: text, congrArg (byte :: ·) whole, .cons isDigit inside⟩

theorem spanDigits_append {text rest : List UInt8} {digits : List Nat}
    (inside : Digits text digits) (ends : BeginsOutside (fun byte => (digit? byte).isSome) rest) :
    spanDigits (text ++ rest) = (digits, rest) := by
  induction inside with
  | nil =>
      cases rest with
      | nil => rfl
      | cons first more =>
          have noDigit : digit? first = none := by simpa using ends first rfl
          rw [List.nil_append, spanDigits, noDigit]
  | cons isDigit _ ih => rw [List.cons_append, spanDigits, isDigit, ih]

theorem BeginsOutside.noDigit {bytes : List UInt8} (ends : EndsNumeral bytes) :
    BeginsOutside (fun byte => (digit? byte).isSome) bytes := by
  intro byte first
  have outside := ends byte first
  simp only [continuesNumeral, Bool.or_eq_false_iff] at outside
  exact outside.1.1.1

/-- Digits begin with a digit. -/
theorem Digits.begins {text : List UInt8} {digits : List Nat} (inside : Digits text digits)
    (nonempty : digits ≠ []) :
    ∃ byte digit more others, text = byte :: more ∧ digits = digit :: others ∧
      digit? byte = some digit := by
  cases inside with
  | nil => exact (nonempty rfl).elim
  | cons isDigit _ => exact ⟨_, _, _, _, rfl, rfl, isDigit⟩

/-- Neither an exponent nor the end of a numeral adds to the digits in front of it. -/
theorem ExponentPart.endsDigits {text rest : List UInt8} {power : Option (Bool × List Nat)}
    (isExponent : ExponentPart text power) (ends : EndsNumeral rest) :
    ∀ byte ∈ (text ++ rest).head?, (digit? byte).isSome = false ∧ byte ≠ 0x2e := by
  cases isExponent with
  | none =>
      intro byte first
      have outside := ends byte first
      simp only [continuesNumeral, Bool.or_eq_false_iff, beq_eq_false_iff_ne] at outside
      exact outside.1.1
  | unsigned isMark | positive isMark | negative isMark =>
      rintro byte ⟨⟩
      rcases isMark with rfl | rfl <;> exact ⟨rfl, by decide⟩

theorem IsNumeral.begins {negative : Bool} {text : List UInt8} {numeral : Numeral}
    (isNumeral : IsNumeral negative text numeral) :
    ∃ byte digit more, text = byte :: more ∧ digit? byte = some digit := by
  obtain ⟨isWhole, nonempty, _, _, _⟩ := isNumeral
  obtain ⟨byte, digit, more, others, rfl, rfl, isDigit⟩ := isWhole.begins nonempty
  exact ⟨byte, digit, _, rfl, isDigit⟩

namespace Source

variable {source : Source} {numeral result : Numeral} {bytes rest : List UInt8}
  {negative : Bool} {whole : List Nat}

theorem afterDigits_sound
    (passed : source.afterDigits numeral bytes = (result, some rest)) :
    result = numeral ∧ rest = bytes := by
  rw [afterDigits] at passed
  split at passed
  · cases passed
  · cases passed
    exact ⟨rfl, rfl⟩

theorem afterDigits_complete (arrives : source.fails = false) :
    source.afterDigits numeral bytes = (numeral, some bytes) := by
  rw [afterDigits, arrives, Bool.and_false]
  rfl

theorem readExponentDigits_sound
    (passed : source.readExponentDigits numeral negative bytes = (result, some rest)) :
    ∃ text digits, bytes = text ++ rest ∧ Digits text digits ∧ digits ≠ [] ∧
      result = numeral.withExponent (some (negative, digits)) := by
  obtain ⟨text, whole, inside⟩ := digits_spanDigits bytes
  rw [readExponentDigits] at passed
  simp only at passed
  split at passed
  · cases passed
  · rename_i nonempty
    obtain ⟨rfl, rfl⟩ := afterDigits_sound passed
    exact ⟨text, _, whole, inside, by simpa using nonempty, rfl⟩

theorem readExponentDigits_complete (arrives : source.fails = false)
    {text : List UInt8} {digits : List Nat} (inside : Digits text digits)
    (nonempty : digits ≠ []) (ends : BeginsOutside (fun byte => (digit? byte).isSome) rest) :
    source.readExponentDigits numeral negative (text ++ rest) =
      (numeral.withExponent (some (negative, digits)), some rest) := by
  rw [readExponentDigits, spanDigits_append inside ends]
  simp only [List.isEmpty_iff, nonempty, if_false]
  exact afterDigits_complete arrives

theorem readExponent_sound
    (passed : source.readExponent numeral bytes = (result, some rest)) :
    ∃ text power, bytes = text ++ rest ∧ ExponentPart text power ∧
      result = numeral.withExponent power := by
  rw [readExponent.eq_def] at passed
  split at passed
  · split at passed
    · rename_i isMark
      split at passed
      all_goals
        obtain ⟨text, digits, rfl, inside, nonempty, rfl⟩ := readExponentDigits_sound passed
      · exact ⟨_, _, rfl, .positive isMark inside nonempty, rfl⟩
      · exact ⟨_, _, rfl, .negative isMark inside nonempty, rfl⟩
      · exact ⟨_, _, rfl, .unsigned isMark inside nonempty, rfl⟩
    · cases passed
      exact ⟨[], none, rfl, .none, rfl⟩
  · obtain ⟨rfl, rfl⟩ := afterDigits_sound passed
    exact ⟨[], none, rfl, .none, rfl⟩

theorem readExponent_complete (arrives : source.fails = false) {text : List UInt8}
    {power : Option (Bool × List Nat)} (isExponent : ExponentPart text power)
    (ends : EndsNumeral rest) :
    source.readExponent numeral (text ++ rest) = (numeral.withExponent power, some rest) := by
  have noDigit := ends.noDigit
  cases isExponent with
  | none =>
      cases rest with
      | nil => exact afterDigits_complete arrives
      | cons first more =>
          have outside := ends first rfl
          simp only [continuesNumeral, Bool.or_eq_false_iff, beq_eq_false_iff_ne] at outside
          have noMark : ¬(first = 0x65 ∨ first = 0x45) := not_or.mpr ⟨outside.1.2, outside.2⟩
          rw [readExponent.eq_def]
          exact if_neg noMark
  | unsigned isMark inside nonempty =>
      obtain ⟨byte, digit, more, others, rfl, rfl, isDigit⟩ := inside.begins nonempty
      rw [readExponent.eq_def]
      simp only [List.cons_append, if_pos isMark]
      split
      · rename_i isPlus
        cases isPlus
        cases isDigit
      · rename_i isMinus
        cases isMinus
        cases isDigit
      · exact readExponentDigits_complete arrives inside nonempty noDigit
  | positive isMark inside nonempty =>
      rw [List.cons_append, List.cons_append, readExponent, if_pos isMark]
      exact readExponentDigits_complete arrives inside nonempty noDigit
  | negative isMark inside nonempty =>
      rw [List.cons_append, List.cons_append, readExponent, if_pos isMark]
      exact readExponentDigits_complete arrives inside nonempty noDigit

theorem readFraction_sound
    (passed : source.readFraction ⟨negative, whole, [], none, true, none⟩ bytes =
      (result, some rest)) :
    ∃ fraction exponent places power, bytes = fraction ++ (exponent ++ rest) ∧
      FractionPart fraction places ∧ ExponentPart exponent power ∧
      result = (Numeral.withFraction ⟨negative, whole, [], none, true, none⟩ places).withExponent
        power := by
  rw [readFraction.eq_def] at passed
  split at passed
  · rename_i behind
    obtain ⟨text, split, inside⟩ := digits_spanDigits behind
    simp only at passed
    split at passed
    · cases passed
    · rename_i nonempty
      obtain ⟨exponent, power, back, isExponent, rfl⟩ := readExponent_sound passed
      have nonempty : (spanDigits behind).1 ≠ [] := by simpa using nonempty
      refine ⟨0x2e :: text, exponent, _, power, ?_, .some inside nonempty, isExponent, ?_⟩
      · rw [List.cons_append, ← back, ← split]
      · rw [Numeral.withFraction]
        exact nonempty
  · obtain ⟨exponent, power, rfl, isExponent, rfl⟩ := readExponent_sound passed
    exact ⟨[], exponent, [], power, rfl, .none, isExponent, rfl⟩

theorem readFraction_complete (arrives : source.fails = false) {fraction exponent : List UInt8}
    {places : List Nat} {power : Option (Bool × List Nat)}
    (isFraction : FractionPart fraction places) (isExponent : ExponentPart exponent power)
    (ends : EndsNumeral rest) :
    source.readFraction ⟨negative, whole, [], none, true, none⟩ (fraction ++ (exponent ++ rest)) =
      ((Numeral.withFraction ⟨negative, whole, [], none, true, none⟩ places).withExponent power,
        some rest) := by
  have exponentRead : ∀ numeral, source.readExponent numeral (exponent ++ rest) =
      (numeral.withExponent power, some rest) :=
    fun _ => readExponent_complete arrives isExponent ends
  have outside := isExponent.endsDigits ends
  cases isFraction with
  | none =>
      rw [List.nil_append, readFraction.eq_def]
      split
      · rename_i isPoint
        exact ((outside 0x2e (by rw [isPoint]; rfl)).2 rfl).elim
      · exact exponentRead _
  | some inside nonempty =>
      have noDigit : BeginsOutside (fun byte => (digit? byte).isSome) (exponent ++ rest) :=
        fun byte first => (outside byte first).1
      rw [List.cons_append, readFraction, spanDigits_append inside noDigit]
      simp only [List.isEmpty_iff, nonempty, if_false, exponentRead, Numeral.withFraction]

/-- What is read as a numeral is one. -/
theorem readNumeral_sound
    (passed : source.readNumeral negative bytes = (result, some rest)) :
    ∃ text, bytes = text ++ rest ∧ IsNumeral negative text result := by
  obtain ⟨text, split, inside⟩ := digits_spanDigits bytes
  rw [readNumeral] at passed
  simp only at passed
  split at passed
  · cases passed
  · cases passed
  · rename_i nonempty noZero
    obtain ⟨fraction, exponent, places, power, back, isFraction, isExponent, rfl⟩ :=
      readFraction_sound passed
    refine ⟨text ++ (fraction ++ exponent), ?_,
      .intro inside nonempty ?_ isFraction isExponent⟩
    · rw [split, back, List.append_assoc, List.append_assoc]
    · rintro others digits
      cases others with
      | nil => rfl
      | cons second more => exact (noZero second more digits).elim

/-- A numeral is read to its end. -/
theorem readNumeral_complete (arrives : source.fails = false) {text : List UInt8}
    (isNumeral : IsNumeral negative text result) (ends : EndsNumeral rest) :
    source.readNumeral negative (text ++ rest) = (result, some rest) := by
  obtain ⟨isWhole, nonempty, noLeadingZero, isFraction, isExponent⟩ := isNumeral
  rename_i whole fraction exponent digits places power
  have noDigit : BeginsOutside (fun byte => (digit? byte).isSome)
      (fraction ++ (exponent ++ rest)) := by
    cases isFraction with
    | none => exact fun byte first => (isExponent.endsDigits ends byte first).1
    | some inside nonempty => rintro byte ⟨⟩; rfl
  rw [List.append_assoc, List.append_assoc, readNumeral, spanDigits_append isWhole noDigit]
  simp only
  split
  · exact (nonempty rfl).elim
  · exact nomatch noLeadingZero _ rfl
  · exact readFraction_complete arrives isFraction isExponent ends

/-! ## String literals -/

/-- What is read as a literal is one, unless its end is missing. -/
theorem readLiteral_sound {literal : Literal}
    (passed : source.readLiteral bytes = (literal, some rest)) :
    ∃ text, bytes = text ++ rest ∧ IsLiteral text literal.pieces ∧ literal.stop = none := by
  fun_induction source.readLiteral bytes generalizing literal with
  | case2 => cases passed; exact ⟨[0x22], rfl, .close, rfl⟩
  | case3 _ _ _ _ _ _ _ _ _ isFourth isThird isSecond isFirst _ _ inner _ =>
      rename_i ih
      cases passed
      obtain ⟨text, rfl, others, ended⟩ := ih inner
      exact ⟨_, rfl, .codeUnit isFirst isSecond isThird isFourth others, ended⟩
  | case6 _ _ _ _ _ stands _ _ inner ih =>
      cases passed
      obtain ⟨text, rfl, others, ended⟩ := ih inner
      exact ⟨_, rfl, .short stands others, ended⟩
  | case10 _ _ notQuote _ _ notBackslash printable _ _ inner ih =>
      cases passed
      obtain ⟨text, rfl, others, ended⟩ := ih inner
      exact ⟨_, rfl, .plain notQuote notBackslash printable others, ended⟩
  | _ => cases passed

/-- A literal is read up to its closing quote. -/
theorem readLiteral_complete {text : List UInt8} {pieces : List Piece}
    (isLiteral : IsLiteral text pieces) :
    source.readLiteral (text ++ rest) = (⟨pieces, none⟩, some rest) := by
  induction isLiteral with
  | close => rfl
  | plain notQuote notBackslash printable _ ih =>
      rw [List.cons_append, readLiteral, if_neg notBackslash, if_neg printable, ih]
      · exact fun quote => notQuote quote
      · exact fun _ _ _ _ _ backslash => (notBackslash backslash).elim
      · exact fun _ _ backslash => (notBackslash backslash).elim
  | @short escape _ _ _ stands _ ih =>
      have notUnit : escape ≠ 0x75 := by rintro rfl; exact nomatch stands
      rw [List.cons_append, List.cons_append, readLiteral, if_neg notUnit, stands]
      · simp only [ih]
      · exact fun _ _ _ _ _ isUnit => (notUnit isUnit).elim
  | codeUnit isFirst isSecond isThird isFourth _ ih =>
      simp only [List.cons_append, readLiteral, isFirst, isSecond, isThird, isFourth, ih]

end Source

end ContentApi.Json
