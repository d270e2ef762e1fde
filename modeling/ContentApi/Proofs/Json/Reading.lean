import ContentApi.Proofs.Json.Notation

/-!
# Reading JSON

The reader and the notation agree.  Where reading goes on behind a value, that value was written
in front by the rules of the notation, and its brackets are closed; and a value that is written by
the rules is read as what it is, if the text arrives and steps are allowed for each of its bytes.
-/

namespace ContentApi.Json

variable {α : Type}

/-! ## Rows of entries -/

/-- The entries behind an entry of a row: none, or those behind a comma. -/
inductive Behind (spells : List UInt8 → List α → Prop) : List UInt8 → List α → Prop where
  | nothing {blanks : List UInt8} (allBlank : BlankBytes blanks) : Behind spells blanks []
  | comma {blanks rest : List UInt8} {entry : α} {entries : List α} (allBlank : BlankBytes blanks)
      (others : spells rest (entry :: entries)) :
      Behind spells (blanks ++ 0x2c :: rest) (entry :: entries)

theorem SpellsItems.cons {before text after : List UInt8} {item : Written} {items : List Written}
    (blankBefore : BlankBytes before) (inside : Spells text item)
    (behind : Behind SpellsItems after items) :
    SpellsItems (before ++ (text ++ after)) (item :: items) := by
  cases behind with
  | nothing allBlank => exact .last blankBefore inside allBlank
  | comma allBlank others => exact .more blankBefore inside allBlank others

theorem SpellsFields.cons {before text after : List UInt8} {field : Literal × Written}
    {fields : List (Literal × Written)} (blankBefore : BlankBytes before)
    (inside : SpellsField text field) (behind : Behind SpellsFields after fields) :
    SpellsFields (before ++ (text ++ after)) (field :: fields) := by
  cases behind with
  | nothing allBlank => exact .last blankBefore inside allBlank
  | comma allBlank others => exact .more blankBefore inside allBlank others

/-- A row that stands in front of its closing bracket. -/
def ClosedRow (spells : List UInt8 → List α → Prop) (bracket : UInt8) (bytes : List UInt8)
    (row : List α × Ending) (rest : List UInt8) : Prop :=
  row.2 = .closed ∧ ∃ inner, bytes = inner ++ bracket :: rest ∧ spells inner row.1

/-- A value that stands in front of a text, behind any blanks. -/
def ValueFirst (bytes : List UInt8) (value : Written) (rest : List UInt8) : Prop :=
  ∃ before text, BlankBytes before ∧ Spells text value ∧ bytes = before ++ (text ++ rest)

namespace Source

variable {source : Source} {fuel : Nat} {bytes rest : List UInt8}

/-! ## Rows -/

/-- A reader of rows with a closing bracket, by the reader of the entries in them. -/
structure RowReader (source : Source)
    (readRows : Nat → Bool → List UInt8 → Progress (List α × Ending))
    (readEntry : Nat → List UInt8 → Progress (List α × Ending)) (bracket : UInt8) : Prop where
  solid : isBlankByte bracket = false
  notComma : bracket ≠ 0x2c
  step : ∀ fuel isFirst bytes, readRows (fuel + 1) isFirst bytes =
    source.readRow bracket (readEntry fuel) isFirst bytes

theorem itemReader (source : Source) : RowReader source source.readItems source.readItem 0x5d where
  solid := rfl
  notComma := by decide
  step _ _ _ := rfl

theorem fieldReader (source : Source) :
    RowReader source source.readFields source.readField 0x7d where
  solid := rfl
  notComma := by decide
  step _ _ _ := rfl

section Row

variable {bracket byte : UInt8} {readEntry : List UInt8 → Progress (List α × Ending)}
  {isFirst : Bool}

theorem readRow_closed (start : skipBlanks bytes = bracket :: rest) :
    source.readRow bracket readEntry isFirst bytes = (([], .closed), some rest) := by
  simp [readRow, start]

theorem readRow_first (start : skipBlanks bytes = byte :: rest) (notBracket : byte ≠ bracket) :
    source.readRow bracket readEntry true bytes = readEntry (byte :: rest) := by
  simp [readRow, start, notBracket]

theorem readRow_comma {more : List UInt8} (notComma : bracket ≠ 0x2c)
    (start : skipBlanks bytes = 0x2c :: more) (next : skipBlanks more = byte :: rest)
    (notBracket : byte ≠ bracket) :
    source.readRow bracket readEntry false bytes = readEntry (byte :: rest) := by
  simp [readRow, start, next, notBracket, notComma.symm]

/-- In front of its first entry a row is closed, or reading goes on with an entry. -/
theorem readRow_first_cases {row : List α × Ending}
    (passed : source.readRow bracket readEntry true bytes = (row, some rest)) :
    (skipBlanks bytes = bracket :: rest ∧ row = ([], .closed)) ∨
      readEntry (skipBlanks bytes) = (row, some rest) := by
  rw [readRow] at passed
  split at passed
  · cases passed
  · rename_i byte more start
    rw [start]
    split at passed
    · rename_i isBracket
      cases passed
      exact Or.inl ⟨by rw [isBracket], rfl⟩
    · exact Or.inr passed

/-- Behind an entry a row is closed, or reading goes on with an entry behind a comma. -/
theorem readRow_behind_cases {row : List α × Ending}
    (passed : source.readRow bracket readEntry false bytes = (row, some rest)) :
    (skipBlanks bytes = bracket :: rest ∧ row = ([], .closed)) ∨
      ∃ more, skipBlanks bytes = 0x2c :: more ∧
        readEntry (skipBlanks more) = (row, some rest) := by
  rw [readRow] at passed
  split at passed
  · cases passed
  · rename_i byte more start
    rw [start]
    split at passed
    · rename_i isBracket
      cases passed
      exact Or.inl ⟨by rw [isBracket], rfl⟩
    · rw [if_neg Bool.false_ne_true] at passed
      split at passed
      · rename_i isComma
        split at passed
        · cases passed
        · rename_i next
          split at passed
          · cases passed
          · exact Or.inr ⟨more, by rw [isComma], by rw [next]; exact passed⟩
      · cases passed

end Row

/-! ## What is read is written by the rules -/

/-- Wherever reading goes on behind a row or an entry, it stands in front by the rules. -/
structure ReadsRowsSoundly (readRows : Nat → Bool → List UInt8 → Progress (List α × Ending))
    (readEntry : Nat → List UInt8 → Progress (List α × Ending))
    (spells : List UInt8 → List α → Prop) (bracket : UInt8) (fuel : Nat) : Prop where
  row : ∀ bytes row rest, readRows fuel true bytes = (row, some rest) →
    ClosedRow spells bracket bytes row rest
  more : ∀ bytes row rest, readRows fuel false bytes = (row, some rest) →
    ClosedRow (Behind spells) bracket bytes row rest
  entry : ∀ before bytes row rest, BlankBytes before → readEntry fuel bytes = (row, some rest) →
    row.1 ≠ [] ∧ ClosedRow spells bracket (before ++ bytes) row rest

/-- Wherever reading goes on, what was read stands in front by the rules. -/
structure ReadsSoundly (source : Source) (fuel : Nat) : Prop where
  value : ∀ bytes value rest, source.readValue fuel bytes = (value, some rest) →
    ValueFirst bytes value rest
  items : ReadsRowsSoundly source.readItems source.readItem SpellsItems 0x5d fuel
  fields : ReadsRowsSoundly source.readFields source.readField SpellsFields 0x7d fuel

section RowsSoundly

variable {readRows : Nat → Bool → List UInt8 → Progress (List α × Ending)}
  {readEntry : Nat → List UInt8 → Progress (List α × Ending)}
  {spells : List UInt8 → List α → Prop} {bracket : UInt8}
  (reader : RowReader source readRows readEntry bracket)
  (sound : ReadsRowsSoundly readRows readEntry spells bracket fuel)

include reader sound

theorem ReadsRowsSoundly.row_succ (nil : ∀ {blanks}, BlankBytes blanks → spells blanks [])
    (bytes : List UInt8) (row : List α × Ending) (rest : List UInt8)
    (passed : readRows (fuel + 1) true bytes = (row, some rest)) :
    ClosedRow spells bracket bytes row rest := by
  obtain ⟨before, allBlank, split⟩ := skipBlanks_split bytes
  rw [reader.step] at passed
  rw [split]
  rcases readRow_first_cases passed with ⟨start, rfl⟩ | entry
  · exact ⟨rfl, before, by rw [start], nil allBlank⟩
  · exact (sound.entry before _ row rest allBlank entry).2

theorem ReadsRowsSoundly.more_succ (bytes : List UInt8) (row : List α × Ending)
    (rest : List UInt8) (passed : readRows (fuel + 1) false bytes = (row, some rest)) :
    ClosedRow (Behind spells) bracket bytes row rest := by
  obtain ⟨before, allBlank, split⟩ := skipBlanks_split bytes
  rw [reader.step] at passed
  rw [split]
  rcases readRow_behind_cases passed with ⟨start, rfl⟩ | ⟨more, start, entry⟩
  · exact ⟨rfl, before, by rw [start], .nothing allBlank⟩
  · obtain ⟨gap, gapBlank, back⟩ := skipBlanks_split more
    obtain ⟨nonempty, closed, inner, front, inside⟩ := sound.entry gap _ row rest gapBlank entry
    obtain ⟨entries, ending⟩ := row
    obtain ⟨first, others, rfl⟩ := List.exists_cons_of_ne_nil nonempty
    refine ⟨closed, before ++ 0x2c :: inner, ?_, .comma allBlank inside⟩
    rw [start, back, front, List.append_assoc, List.cons_append]

end RowsSoundly

theorem readWord_sound {word : List Char} (passed : source.readWord word bytes = .ok rest) :
    bytes = word.map (fun letter => UInt8.ofNat letter.toNat) ++ rest := by
  induction word generalizing bytes with
  | nil =>
      cases passed
      rfl
  | cons letter word ih =>
      cases bytes with
      | nil => cases passed
      | cons byte bytes =>
          rw [readWord] at passed
          split at passed
          · rename_i same
            rw [List.map_cons, List.cons_append, ← same, UInt8.ofNat_toNat, ← ih passed]
          · cases passed

theorem readNamed_sound {word : List Char} {value result : Written}
    (passed : source.readNamed word value bytes = (result, some rest)) :
    result = value ∧ bytes = word.map (fun letter => UInt8.ofNat letter.toNat) ++ rest := by
  rw [readNamed] at passed
  split at passed
  · rename_i readOn
    cases passed
    exact ⟨rfl, readWord_sound readOn⟩
  · cases passed

theorem readNumber_sound {negative : Bool} {result : Written}
    (passed : source.readNumber negative bytes = (result, some rest)) :
    ∃ text numeral, result = .number numeral ∧ bytes = text ++ rest ∧
      IsNumeral negative text numeral := by
  rw [readNumber] at passed
  cases read : source.readNumeral negative bytes with
  | mk numeral behind =>
      rw [read] at passed
      cases passed
      obtain ⟨text, front, isNumeral⟩ := readNumeral_sound read
      exact ⟨text, numeral, rfl, front, isNumeral⟩

theorem ReadsSoundly.value_succ (sound : source.ReadsSoundly fuel) (bytes : List UInt8)
    (value : Written) (rest : List UInt8)
    (passed : source.readValue (fuel + 1) bytes = (value, some rest)) :
    ValueFirst bytes value rest := by
  obtain ⟨before, allBlank, split⟩ := skipBlanks_split bytes
  suffices spelled : ∃ text, Spells text value ∧ skipBlanks bytes = text ++ rest by
    obtain ⟨text, inside, front⟩ := spelled
    exact ⟨before, text, allBlank, inside, by rw [← front, ← split]⟩
  clear split allBlank before
  rw [readValue] at passed
  split at passed
  · cases passed
  · rename_i start
    obtain ⟨rfl, rfl⟩ := readNamed_sound passed
    exact ⟨_, .null, start⟩
  · rename_i start
    obtain ⟨rfl, rfl⟩ := readNamed_sound passed
    exact ⟨_, .yes, start⟩
  · rename_i start
    obtain ⟨rfl, rfl⟩ := readNamed_sound passed
    exact ⟨_, .no, start⟩
  · rename_i start
    obtain ⟨text, numeral, rfl, rfl, isNumeral⟩ := readNumber_sound passed
    exact ⟨_, .negative isNumeral, start⟩
  · rename_i inner start
    cases read : source.readLiteral inner with
    | mk literal behind =>
        rw [read] at passed
        cases passed
        obtain ⟨text, rfl, isLiteral, ended⟩ := readLiteral_sound read
        obtain ⟨pieces, _⟩ := literal
        cases ended
        exact ⟨_, .string isLiteral, start⟩
  · rename_i inner start
    cases read : source.readItems fuel true inner with
    | mk row behind =>
        rw [read] at passed
        cases passed
        obtain ⟨closed, text, rfl, inside⟩ := sound.items.row _ _ _ read
        obtain ⟨items, _⟩ := row
        cases closed
        refine ⟨_, .array inside, ?_⟩
        rw [start, List.cons_append, List.append_assoc, List.singleton_append]
  · rename_i inner start
    cases read : source.readFields fuel true inner with
    | mk row behind =>
        rw [read] at passed
        cases passed
        obtain ⟨closed, text, rfl, inside⟩ := sound.fields.row _ _ _ read
        obtain ⟨fields, _⟩ := row
        cases closed
        refine ⟨_, .object inside, ?_⟩
        rw [start, List.cons_append, List.append_assoc, List.singleton_append]
  · rename_i start
    split at passed
    · obtain ⟨text, numeral, rfl, front, isNumeral⟩ := readNumber_sound passed
      exact ⟨_, .unsigned isNumeral, start.trans front⟩
    · cases passed

theorem ReadsSoundly.item_succ (sound : source.ReadsSoundly fuel) (before bytes : List UInt8)
    (row : List Written × Ending) (rest : List UInt8) (allBlank : BlankBytes before)
    (passed : source.readItem (fuel + 1) bytes = (row, some rest)) :
    row.1 ≠ [] ∧ ClosedRow SpellsItems 0x5d (before ++ bytes) row rest := by
  rw [readItem] at passed
  split at passed
  · cases passed
  · rename_i item behind read
    cases readOn : source.readItems fuel false behind with
    | mk others remaining =>
        rw [readOn] at passed
        cases passed
        obtain ⟨gap, text, gapBlank, inside, rfl⟩ := sound.value _ _ _ read
        obtain ⟨closed, inner, rfl, others⟩ := sound.items.more _ _ _ readOn
        refine ⟨List.cons_ne_nil _ _, closed, (before ++ gap) ++ (text ++ inner), ?_,
          .cons (allBlank.append gapBlank) inside others⟩
        simp only [List.append_assoc]

theorem ReadsSoundly.field_succ (sound : source.ReadsSoundly fuel) (before bytes : List UInt8)
    (row : List (Literal × Written) × Ending) (rest : List UInt8) (allBlank : BlankBytes before)
    (passed : source.readField (fuel + 1) bytes = (row, some rest)) :
    row.1 ≠ [] ∧ ClosedRow SpellsFields 0x7d (before ++ bytes) row rest := by
  rw [readField.eq_def] at passed
  simp only at passed
  split at passed
  · rename_i opened
    split at passed
    · cases passed
    · rename_i name named readName
      obtain ⟨gap, gapBlank, front⟩ := skipBlanks_split named
      split at passed
      · cases passed
      · rename_i valued start
        split at passed
        · cases passed
        · rename_i value behind read
          cases readOn : source.readFields fuel false behind with
          | mk others remaining =>
              rw [readOn] at passed
              cases passed
              obtain ⟨literal, rfl, isLiteral, ended⟩ := readLiteral_sound readName
              obtain ⟨blanks, text, blanksBlank, inside, rfl⟩ := sound.value _ _ _ read
              obtain ⟨closed, inner, rfl, others⟩ := sound.fields.more _ _ _ readOn
              obtain ⟨pieces, _⟩ := name
              cases ended
              refine ⟨List.cons_ne_nil _ _, closed, _, ?_,
                .cons allBlank (.intro isLiteral gapBlank blanksBlank inside) others⟩
              rw [front, start]
              simp only [List.append_assoc, List.cons_append]
      · cases passed
  · cases passed

/-- One more step keeps the reader sound. -/
theorem ReadsSoundly.succ (sound : source.ReadsSoundly fuel) : source.ReadsSoundly (fuel + 1) where
  value := sound.value_succ
  items :=
    { row := sound.items.row_succ source.itemReader .nil
      more := sound.items.more_succ source.itemReader
      entry := sound.item_succ }
  fields :=
    { row := sound.fields.row_succ source.fieldReader .nil
      more := sound.fields.more_succ source.fieldReader
      entry := sound.field_succ }

/-- Without a step reading never goes on. -/
theorem readsSoundly_zero (source : Source) : source.ReadsSoundly 0 where
  value _ _ _ passed := by cases passed
  items :=
    { row := fun _ _ _ passed => by cases passed
      more := fun _ _ _ passed => by cases passed
      entry := fun _ _ _ _ _ passed => by cases passed }
  fields :=
    { row := fun _ _ _ passed => by cases passed
      more := fun _ _ _ passed => by cases passed
      entry := fun _ _ _ _ _ passed => by cases passed }

/-- The reader is sound, whatever number of steps it is given. -/
theorem readsSoundly (source : Source) (fuel : Nat) : source.ReadsSoundly fuel := by
  induction fuel with
  | zero => exact source.readsSoundly_zero
  | succ fuel ih => exact ih.succ

end Source

/-! ## What is written by the rules is read -/

theorem continuesNumeral_of_blank {byte : UInt8} (isBlank : isBlankByte byte = true) :
    continuesNumeral byte = false := by
  simp only [isBlankByte, Bool.or_eq_true, beq_iff_eq] at isBlank
  rcases isBlank with ((rfl | rfl) | rfl) | rfl <;> rfl

theorem continuesNumeral_of_digit {byte : UInt8} {digit : Nat}
    (isDigit : digit? byte = some digit) : continuesNumeral byte = true := by
  rw [continuesNumeral, isDigit]
  rfl

/-- A digit is no blank. -/
theorem isBlankByte_of_digit {byte : UInt8} {digit : Nat} (isDigit : digit? byte = some digit) :
    isBlankByte byte = false :=
  Bool.eq_false_iff.mpr fun isBlank => Bool.false_ne_true
    ((continuesNumeral_of_blank isBlank).symm.trans (continuesNumeral_of_digit isDigit))

/-- Blanks keep a numeral in front of them from going on. -/
theorem BlankBytes.endsNumeral {blanks rest : List UInt8} (allBlank : BlankBytes blanks)
    (ends : EndsNumeral rest) : EndsNumeral (blanks ++ rest) := by
  cases blanks with
  | nil => exact ends
  | cons blank more =>
      rintro byte ⟨⟩
      exact continuesNumeral_of_blank (allBlank blank List.mem_cons_self)

/-- A value begins with a byte that is neither a blank nor a closing bracket. -/
theorem Spells.begins {text : List UInt8} {value : Written} (inside : Spells text value) :
    ∃ byte more, text = byte :: more ∧ isBlankByte byte = false ∧ byte ≠ 0x5d := by
  cases inside with
  | unsigned isNumeral =>
      obtain ⟨byte, digit, more, rfl, isDigit⟩ := isNumeral.begins
      refine ⟨byte, more, rfl, isBlankByte_of_digit isDigit, ?_⟩
      rintro rfl
      cases isDigit
  | _ => exact ⟨_, _, rfl, rfl, by decide⟩

/-- Nor does a numeral go on in what stands behind an entry. -/
theorem Behind.endsNumeral (spells : List UInt8 → List α → Prop) {after : List UInt8}
    {entries : List α} {bracket : UInt8} (behind : Behind spells after entries)
    (ends : continuesNumeral bracket = false) (rest : List UInt8) :
    EndsNumeral (after ++ bracket :: rest) := by
  cases behind with
  | nothing allBlank =>
      exact allBlank.endsNumeral fun _ first => Option.mem_some.mp first ▸ ends
  | comma allBlank others =>
      rw [List.append_assoc]
      exact allBlank.endsNumeral (by rintro byte ⟨⟩; rfl)

theorem SpellsItems.blank {inner : List UInt8} {items : List Written}
    (inside : SpellsItems inner items) (empty : items = []) : BlankBytes inner := by
  cases inside with
  | nil allBlank => exact allBlank
  | last | more => cases empty

theorem SpellsFields.blank {inner : List UInt8} {fields : List (Literal × Written)}
    (inside : SpellsFields inner fields) (empty : fields = []) : BlankBytes inner := by
  cases inside with
  | nil allBlank => exact allBlank
  | last | more => cases empty

namespace Source

section Rows

variable {source : Source} {readRows : Nat → Bool → List UInt8 → Progress (List α × Ending)}
  {readEntry : Nat → List UInt8 → Progress (List α × Ending)} {bracket : UInt8}
  {inner blanks : List UInt8} {entries : List α}

/-- A text in front of the closing bracket is read as some entries. -/
inductive Reads (readEntry : Nat → List UInt8 → Progress (List α × Ending)) (bracket : UInt8) :
    List UInt8 → List α → Prop where
  | intro {before more : List UInt8} {byte : UInt8} {entries : List α}
      (blankBefore : BlankBytes before) (notBlank : isBlankByte byte = false)
      (notBracket : byte ≠ bracket)
      (reads : ∀ fuel rest, 3 * more.length + 4 ≤ fuel →
        readEntry fuel (byte :: (more ++ bracket :: rest)) = ((entries, .closed), some rest)) :
      Reads readEntry bracket (before ++ byte :: more) entries

/-- A text in front of the closing bracket is read as the entries behind an entry. -/
def ReadsBehind (readRows : Nat → Bool → List UInt8 → Progress (List α × Ending))
    (bracket : UInt8) (after : List UInt8) (entries : List α) : Prop :=
  ∀ fuel rest, 3 * after.length + 1 ≤ fuel →
    readRows fuel false (after ++ bracket :: rest) = ((entries, .closed), some rest)

namespace RowReader

variable (reader : RowReader source readRows readEntry bracket)

include reader

theorem closed (allBlank : BlankBytes blanks) (fuel : Nat) (isFirst : Bool) (rest : List UInt8) :
    readRows (fuel + 1) isFirst (blanks ++ bracket :: rest) = (([], .closed), some rest) := by
  rw [reader.step]
  exact readRow_closed (skipBlanks_cons allBlank reader.solid)

theorem readsBehind_nothing (allBlank : BlankBytes blanks) :
    ReadsBehind readRows bracket blanks [] := by
  intro fuel rest enough
  cases fuel with
  | zero => exact absurd enough (Nat.not_succ_le_zero _)
  | succ fuel => exact reader.closed allBlank fuel false rest

theorem readsBehind_comma (allBlank : BlankBytes blanks)
    (reads : Reads readEntry bracket inner entries) :
    ReadsBehind readRows bracket (blanks ++ 0x2c :: inner) entries := by
  intro fuel rest enough
  obtain ⟨blankBefore, notBlank, notBracket, reads⟩ := reads
  simp only [List.length_append, List.length_cons] at enough
  cases fuel with
  | zero => exact absurd enough (Nat.not_succ_le_zero _)
  | succ fuel =>
      rw [List.append_assoc, List.cons_append, List.append_assoc, List.cons_append, reader.step,
        readRow_comma reader.notComma (skipBlanks_cons allBlank rfl)
          (skipBlanks_cons blankBefore notBlank) notBracket]
      exact reads fuel rest (by omega)

/-- A whole row is read in which no entry stands, or in which reading begins with one. -/
theorem reads_row (empty : entries = [] → BlankBytes inner)
    (reads : entries ≠ [] → Reads readEntry bracket inner entries) (fuel : Nat)
    (rest : List UInt8) (enough : 3 * inner.length + 2 ≤ fuel) :
    readRows fuel true (inner ++ bracket :: rest) = ((entries, .closed), some rest) := by
  cases fuel with
  | zero => exact absurd enough (Nat.not_succ_le_zero _)
  | succ fuel =>
      cases entries with
      | nil => exact reader.closed (empty rfl) fuel true rest
      | cons entry others =>
          obtain ⟨blankBefore, notBlank, notBracket, reads⟩ := reads (List.cons_ne_nil _ _)
          simp only [List.length_append, List.length_cons] at enough
          rw [List.append_assoc, List.cons_append, reader.step,
            readRow_first (skipBlanks_cons blankBefore notBlank) notBracket]
          exact reads fuel rest (by omega)

end RowReader

end Rows

variable {source : Source} {before text inner after rest : List UInt8}

/-- A text is read as a value, behind any blanks and in front of what continues no numeral. -/
def ReadsAs (source : Source) (text : List UInt8) (value : Written) : Prop :=
  ∀ fuel before rest, 3 * text.length ≤ fuel → BlankBytes before → EndsNumeral rest →
    source.readValue fuel (before ++ (text ++ rest)) = (value, some rest)

theorem ReadsAs.item {item : Written} {items : List Written} (reads : source.ReadsAs text item)
    (inside : Spells text item) (blankBefore : BlankBytes before)
    (ends : ∀ rest, EndsNumeral (after ++ 0x5d :: rest))
    (behind : ReadsBehind source.readItems 0x5d after items) :
    Reads source.readItem 0x5d (before ++ (text ++ after)) (item :: items) := by
  obtain ⟨byte, more, rfl, notBlank, notBracket⟩ := inside.begins
  rw [List.cons_append]
  refine .intro blankBefore notBlank notBracket fun fuel rest enough => ?_
  rw [List.length_append] at enough
  cases fuel with
  | zero => exact absurd enough (Nat.not_succ_le_zero _)
  | succ fuel =>
      have value := reads fuel [] (after ++ 0x5d :: rest)
        (by rw [List.length_cons]; omega) blankBytes_nil (ends rest)
      rw [List.nil_append, List.cons_append] at value
      rw [readItem, List.append_assoc, value]
      simp only [behind fuel rest (by omega), addEntry]

/-- A text is read as a field, behind any blanks and in front of the rest of an object. -/
def ReadsAsField (source : Source) (text : List UInt8) (field : Literal × Written) : Prop :=
  ∀ {front after fields}, BlankBytes front → (∀ rest, EndsNumeral (after ++ 0x7d :: rest)) →
    ReadsBehind source.readFields 0x7d after fields →
    Reads source.readField 0x7d (front ++ (text ++ after)) (field :: fields)

theorem ReadsAs.field {name gap before text : List UInt8} {pieces : List Piece} {value : Written}
    (reads : source.ReadsAs text value) (isLiteral : IsLiteral name pieces)
    (blankGap : BlankBytes gap) (blankBefore : BlankBytes before) :
    source.ReadsAsField (0x22 :: (name ++ (gap ++ 0x3a :: (before ++ text))))
      (⟨pieces, none⟩, value) := by
  intro front after fields blankFront ends behind
  rw [List.cons_append]
  refine .intro blankFront rfl (by decide) fun fuel rest enough => ?_
  simp only [List.length_append, List.length_cons] at enough
  cases fuel with
  | zero => exact absurd enough (Nat.not_succ_le_zero _)
  | succ fuel =>
      have colon : ∀ back, skipBlanks (gap ++ 0x3a :: back) = 0x3a :: back :=
        fun back => skipBlanks_cons blankGap rfl
      have read := reads fuel before (after ++ 0x7d :: rest) (by omega) blankBefore (ends rest)
      simp only [readField, List.append_assoc, List.cons_append, readLiteral_complete isLiteral,
        colon, read, behind fuel rest (by omega), addEntry]

/-- Blanks in front of a value do not matter to the reader. -/
theorem readsAs_of_begins {byte : UInt8} {value : Written} (notBlank : isBlankByte byte = false)
    (read : ∀ fuel rest, 3 * text.length + 2 ≤ fuel → EndsNumeral rest →
      source.readValue (fuel + 1) (byte :: (text ++ rest)) = (value, some rest)) :
    source.ReadsAs (byte :: text) value := by
  intro fuel before rest enough blankBefore ends
  rw [List.length_cons] at enough
  cases fuel with
  | zero => exact absurd enough (Nat.not_succ_le_zero _)
  | succ fuel =>
      have solid : skipBlanks (byte :: (text ++ rest)) = byte :: (text ++ rest) :=
        skipBlanks_cons blankBytes_nil notBlank
      rw [← read fuel rest (by omega) ends, readValue, readValue, solid, List.cons_append,
        skipBlanks_cons blankBefore notBlank]

/-- What opens with a bracket is read as the row up to the closing one. -/
theorem readsAs_row {opening bracket : UInt8} {make : List α → Ending → Written}
    {readRows : Nat → Bool → List UInt8 → Progress (List α × Ending)} {entries : List α}
    (notBlank : isBlankByte opening = false)
    (opens : ∀ fuel bytes, source.readValue (fuel + 1) (opening :: bytes) =
      (make (readRows fuel true bytes).1.1 (readRows fuel true bytes).1.2,
        (readRows fuel true bytes).2))
    (row : ∀ fuel rest, 3 * inner.length + 2 ≤ fuel →
      readRows fuel true (inner ++ bracket :: rest) = ((entries, .closed), some rest)) :
    source.ReadsAs (opening :: (inner ++ [bracket])) (make entries .closed) := by
  refine readsAs_of_begins notBlank fun fuel rest enough _ => ?_
  rw [List.length_append] at enough
  rw [opens, List.append_assoc, List.singleton_append, row fuel rest (by omega)]

theorem readsAs_string {pieces : List Piece} (isLiteral : IsLiteral text pieces) :
    source.ReadsAs (0x22 :: text) (.string ⟨pieces, none⟩) := by
  refine readsAs_of_begins rfl fun fuel rest _ _ => ?_
  calc source.readValue (fuel + 1) (0x22 :: (text ++ rest))
    _ = (.string (source.readLiteral (text ++ rest)).1, (source.readLiteral (text ++ rest)).2) :=
        rfl
    _ = (.string ⟨pieces, none⟩, some rest) := by rw [readLiteral_complete isLiteral]

theorem readNumber_complete (arrives : source.fails = false) {negative : Bool} {numeral : Numeral}
    (isNumeral : IsNumeral negative text numeral) (ends : EndsNumeral rest) :
    source.readNumber negative (text ++ rest) = (.number numeral, some rest) := by
  rw [readNumber, readNumeral_complete arrives isNumeral ends]

theorem readsAs_negative (arrives : source.fails = false) {numeral : Numeral}
    (isNumeral : IsNumeral true text numeral) :
    source.ReadsAs (0x2d :: text) (.number numeral) :=
  readsAs_of_begins rfl fun _ _ _ ends => readNumber_complete arrives isNumeral ends

/-- A numeral without a sign is known by its first digit. -/
theorem readsAs_unsigned (arrives : source.fails = false) {numeral : Numeral}
    (isNumeral : IsNumeral false text numeral) : source.ReadsAs text (.number numeral) := by
  obtain ⟨byte, digit, more, rfl, isDigit⟩ := isNumeral.begins
  have notBlank := isBlankByte_of_digit isDigit
  refine readsAs_of_begins notBlank fun fuel rest _ ends => ?_
  have read := readNumber_complete arrives isNumeral ends
  rw [List.cons_append] at read
  have solid : skipBlanks (byte :: (more ++ rest)) = byte :: (more ++ rest) :=
    skipBlanks_cons blankBytes_nil notBlank
  rw [readValue, solid]
  -- The other beginnings are told apart by bytes that are no digits.
  split
  case h_9 other _ _ _ _ _ _ _ same =>
    cases same
    rw [isDigit]
    exact read
  all_goals
    rename_i same
    cases same
    try cases isDigit

theorem readsAs_null : source.ReadsAs [0x6e, 0x75, 0x6c, 0x6c] .null :=
  readsAs_of_begins rfl fun _ _ _ _ => rfl

theorem readsAs_true : source.ReadsAs [0x74, 0x72, 0x75, 0x65] (.boolean true) :=
  readsAs_of_begins rfl fun _ _ _ _ => rfl

theorem readsAs_false : source.ReadsAs [0x66, 0x61, 0x6c, 0x73, 0x65] (.boolean false) :=
  readsAs_of_begins rfl fun _ _ _ _ => rfl

mutual

/-- A value that is written by the rules is read. -/
theorem readsAs_of_spells (arrives : source.fails = false) :
    ∀ {text value}, Spells text value → source.ReadsAs text value
  | _, _, .null => readsAs_null
  | _, _, .yes => readsAs_true
  | _, _, .no => readsAs_false
  | _, _, .unsigned isNumeral => readsAs_unsigned arrives isNumeral
  | _, _, .negative isNumeral => readsAs_negative arrives isNumeral
  | _, _, .string isLiteral => readsAs_string isLiteral
  | _, _, .array inside =>
      readsAs_row rfl (fun _ _ => rfl)
        (source.itemReader.reads_row inside.blank (reads_of_spellsItems arrives inside))
  | _, _, .object inside =>
      readsAs_row rfl (fun _ _ => rfl)
        (source.fieldReader.reads_row inside.blank (reads_of_spellsFields arrives inside))

/-- Items that are written by the rules are read. -/
theorem reads_of_spellsItems (arrives : source.fails = false) :
    ∀ {inner items}, SpellsItems inner items → items ≠ [] →
      Reads source.readItem 0x5d inner items
  | _, _, .nil _, nonempty => (nonempty rfl).elim
  | _, _, .last blankBefore inside blankAfter, _ =>
      (readsAs_of_spells arrives inside).item inside blankBefore
        (Behind.endsNumeral SpellsItems (.nothing blankAfter) rfl)
        (source.itemReader.readsBehind_nothing blankAfter)
  | _, _, .more blankBefore inside blankAfter others, _ =>
      (readsAs_of_spells arrives inside).item inside blankBefore
        (Behind.endsNumeral SpellsItems (.comma blankAfter others) rfl)
        (source.itemReader.readsBehind_comma blankAfter
          (reads_of_spellsItems arrives others (List.cons_ne_nil _ _)))

/-- A field that is written by the rules is read. -/
theorem readsAsField_of_spells (arrives : source.fails = false) :
    ∀ {text field}, SpellsField text field → source.ReadsAsField text field
  | _, _, .intro isLiteral blankGap blankBefore inside =>
      (readsAs_of_spells arrives inside).field isLiteral blankGap blankBefore

/-- Fields that are written by the rules are read. -/
theorem reads_of_spellsFields (arrives : source.fails = false) :
    ∀ {inner fields}, SpellsFields inner fields → fields ≠ [] →
      Reads source.readField 0x7d inner fields
  | _, _, .nil _, nonempty => (nonempty rfl).elim
  | _, _, .last blankFront inside blankAfter, _ =>
      readsAsField_of_spells arrives inside blankFront
        (Behind.endsNumeral SpellsFields (.nothing blankAfter) rfl)
        (source.fieldReader.readsBehind_nothing blankAfter)
  | _, _, .more blankFront inside blankAfter others, _ =>
      readsAsField_of_spells arrives inside blankFront
        (Behind.endsNumeral SpellsFields (.comma blankAfter others) rfl)
        (source.fieldReader.readsBehind_comma blankAfter
          (reads_of_spellsFields arrives others (List.cons_ne_nil _ _)))

end

end Source

/-! ## Whole texts -/

/-- A text that is one value with any blanks around it. -/
def Holds (bytes : List UInt8) (value : Written) : Prop :=
  ∃ before text after, BlankBytes before ∧ Spells text value ∧ BlankBytes after ∧
    bytes = before ++ (text ++ after)

namespace Source

variable {source : Source} {value : Written}

theorem endFault?_eq_none {rest : Option (List UInt8)} (finished : source.endFault? rest = none) :
    ∃ after, rest = some after ∧ BlankBytes after := by
  rw [endFault?.eq_def] at finished
  split at finished
  · cases finished
  · rename_i after
    split at finished
    · rename_i empty
      exact ⟨after, rfl, skipBlanks_eq_nil_iff.mp (List.isEmpty_iff.mp empty)⟩
    · cases finished

/-- What is read to its end is one value. -/
theorem holds_of_written {rest : Option (List UInt8)} (read : source.written = (value, rest))
    (finished : source.endFault? rest = none) : Holds source.bytes value := by
  obtain ⟨after, rfl, blankAfter⟩ := endFault?_eq_none finished
  obtain ⟨before, text, blankBefore, inside, split⟩ :=
    (readsSoundly source _).value source.bytes value after read
  exact ⟨before, text, after, blankBefore, inside, blankAfter, split⟩

end Source

/-- A text that is one value is read as that value to its end. -/
theorem Holds.written {bytes : List UInt8} {value : Written} (holds : Holds bytes value) :
    ∃ rest, Source.written ⟨bytes, false⟩ = (value, rest) ∧
      Source.endFault? ⟨bytes, false⟩ rest = none := by
  obtain ⟨before, text, after, blankBefore, inside, blankAfter, rfl⟩ := holds
  refine ⟨some after, ?_, ?_⟩
  · have ends : EndsNumeral after := by
      rw [← List.append_nil after]
      exact blankAfter.endsNumeral (by rintro byte ⟨⟩)
    refine Source.readsAs_of_spells rfl inside _ before after ?_ blankBefore ends
    rw [List.length_append, List.length_append]
    omega
  · rw [Source.endFault?, skipBlanks_eq_nil_iff.mpr blankAfter]
    rfl

end ContentApi.Json
