import ContentApi.Proofs.Language
import ContentApi.Text.Quoted
import Mathlib.Data.Nat.Digits.Defs

/-!
# What quoted texts show

Between quotes most characters stand for themselves, some have a short escape, and those that
do not show are given by their code.  An optional text is shown as `None`, or as `Some` with the
quoted text.  Every value is shown in exactly one way (`optionalQuotation_iff`).  Conversely a
message can be read again: what is shown stands for one value only, and it can be told where it
ends, whatever the message says behind it (`definite_optionalQuotation`).
-/

namespace ContentApi.Text

/-! ## The notation -/

/-- The hexadecimal digits, each at the index that is its value. -/
def hexadecimalDigits : List Char :=
  "0123456789abcdef".toList

/-- A hexadecimal numeral without leading zeros. -/
inductive HexadecimalNumeral : Language Nat where
  | digit {digit : Char} {value : Nat} (isDigit : hexadecimalDigits[value]? = some digit) :
      HexadecimalNumeral [digit] value
  | append {front : List Char} {number value : Nat} {digit : Char} (positive : 0 < number)
      (isFront : HexadecimalNumeral front number)
      (isDigit : hexadecimalDigits[value]? = some digit) :
      HexadecimalNumeral (front ++ [digit]) (16 * number + value)

/-- The characters with a short escape, each with the mark behind the backslash. -/
def shortEscapes : List (Char × Char) :=
  [('0', '\x00'), ('t', '\t'), ('r', '\r'), ('n', '\n'), ('\\', '\\'), ('\x22', '\x22')]

/-- A character between quotes. -/
inductive ShownCharacter : Language Char where
  | short {mark character : Char} (escapes : (mark, character) ∈ shortEscapes) :
      ShownCharacter ['\\', mark] character
  | plain {character : Char} (noShort : ∀ mark, (mark, character) ∉ shortEscapes)
      (visible : isVisible character = true) : ShownCharacter [character] character
  | code {digits : List Char} {character : Char}
      (noShort : ∀ mark, (mark, character) ∉ shortEscapes)
      (hidden : isVisible character = false)
      (numeral : HexadecimalNumeral digits character.toNat) :
      ShownCharacter ('\\' :: 'u' :: '\x7b' :: (digits ++ ['\x7d'])) character

/-- A text between quotes. -/
inductive Quotation : Language String where
  | intro {inside : List Char} {text : String}
      (characters : Language.Star ShownCharacter inside text.toList) :
      Quotation ('\x22' :: (inside ++ ['\x22'])) text

/-- A text that may be absent. -/
inductive OptionalQuotation : Language (Option String) where
  | none : OptionalQuotation "None".toList none
  | some {shown : List Char} {text : String} (quotation : Quotation shown text) :
      OptionalQuotation ("Some(".toList ++ (shown ++ [')'])) (some text)

/-! ## Codes -/

theorem hexadecimalDigits_eq_some_iff {value : Nat} {digit : Char} :
    hexadecimalDigits[value]? = some digit ↔ value < 16 ∧ Nat.digitChar value = digit := by
  have table : ∀ value < 16, hexadecimalDigits[value]? = some (Nat.digitChar value) := by decide
  constructor
  · intro isDigit
    have within : value < 16 := (List.getElem?_eq_some_iff.mp isDigit).1
    exact ⟨within, Option.some.inj ((table value within).symm.trans isDigit)⟩
  · rintro ⟨within, rfl⟩
    exact table value within

theorem hexadecimalNumeral_hexadecimal (number : Nat) :
    HexadecimalNumeral (hexadecimal number) number := by
  induction number using Nat.strong_induction_on with
  | _ number ih =>
      have last : hexadecimalDigits[number % 16]? = some (Nat.digitChar (number % 16)) :=
        hexadecimalDigits_eq_some_iff.mpr ⟨Nat.mod_lt _ (by decide), rfl⟩
      rw [hexadecimal, Nat.toDigits_eq_if (by decide)]
      split
      · rename_i small
        rw [Nat.mod_eq_of_lt small] at last
        exact .digit last
      · rename_i large
        have whole := HexadecimalNumeral.append (by omega) (ih (number / 16) (by omega)) last
        rwa [Nat.div_add_mod] at whole

theorem HexadecimalNumeral.eq_hexadecimal {digits : List Char} {number : Nat}
    (numeral : HexadecimalNumeral digits number) : digits = hexadecimal number := by
  induction numeral with
  | digit isDigit =>
      obtain ⟨within, rfl⟩ := hexadecimalDigits_eq_some_iff.mp isDigit
      rw [hexadecimal, Nat.toDigits_of_lt_base within]
  | append positive isFront isDigit ih =>
      obtain ⟨within, rfl⟩ := hexadecimalDigits_eq_some_iff.mp isDigit
      rw [ih, hexadecimal, hexadecimal,
        ← Nat.toDigits_append_toDigits (by decide) positive within,
        Nat.toDigits_of_lt_base within]

/-- A digit is found at its value only, and it is not the brace behind a code. -/
theorem idxOf_hexadecimalDigits {value : Nat} {digit : Char}
    (isDigit : hexadecimalDigits[value]? = some digit) :
    hexadecimalDigits.idxOf digit = value ∧ digit ≠ '\x7d' := by
  have table : ∀ value < 16, hexadecimalDigits.idxOf (Nat.digitChar value) = value ∧
      Nat.digitChar value ≠ '\x7d' := by
    decide
  obtain ⟨within, rfl⟩ := hexadecimalDigits_eq_some_iff.mp isDigit
  exact table value within

/-- A numeral denotes the number with its digits in base sixteen. -/
theorem HexadecimalNumeral.value_eq {digits : List Char} {number : Nat}
    (numeral : HexadecimalNumeral digits number) :
    number = Nat.ofDigits 16 (digits.reverse.map hexadecimalDigits.idxOf) := by
  induction numeral with
  | digit isDigit => simp [(idxOf_hexadecimalDigits isDigit).1]
  | append positive isFront isDigit ih =>
      rw [List.reverse_append, List.reverse_singleton, List.singleton_append, List.map_cons,
        Nat.ofDigits_cons, (idxOf_hexadecimalDigits isDigit).1, ← ih, Nat.add_comm]

theorem HexadecimalNumeral.ne_brace {digits : List Char} {number : Nat}
    (numeral : HexadecimalNumeral digits number) : ∀ digit ∈ digits, digit ≠ '\x7d' := by
  induction numeral with
  | digit isDigit => exact List.forall_mem_singleton.mpr (idxOf_hexadecimalDigits isDigit).2
  | append positive isFront isDigit ih =>
      rw [List.forall_mem_append, List.forall_mem_singleton]
      exact ⟨ih, (idxOf_hexadecimalDigits isDigit).2⟩

/-- A code is read up to the closing brace. -/
theorem HexadecimalNumeral.determined {digits others rest more : List Char} {number other : Nat}
    (numeral : HexadecimalNumeral digits number) (second : HexadecimalNumeral others other)
    (same : digits ++ '\x7d' :: rest = others ++ '\x7d' :: more) :
    number = other ∧ rest = more := by
  have cut : ∀ {digits number} (rest : List Char), HexadecimalNumeral digits number →
      (digits ++ '\x7d' :: rest).takeWhile (· != '\x7d') = digits := by
    intro digits number rest numeral
    rw [List.takeWhile_append_of_pos (by simpa using numeral.ne_brace)]
    simp
  have sameDigits : digits = others := by
    rw [← cut rest numeral, same, cut more second]
  subst sameDigits
  refine ⟨numeral.value_eq.trans second.value_eq.symm, ?_⟩
  exact (List.cons.inj (List.append_cancel_left same)).2

/-! ## Characters -/

theorem quoteCharacter_of_short {mark character : Char}
    (escapes : (mark, character) ∈ shortEscapes) : quoteCharacter character = ['\\', mark] := by
  simp only [shortEscapes, List.mem_cons, Prod.mk.injEq, List.not_mem_nil, or_false] at escapes
  rcases escapes with ⟨rfl, rfl⟩ | ⟨rfl, rfl⟩ | ⟨rfl, rfl⟩ | ⟨rfl, rfl⟩ | ⟨rfl, rfl⟩ | ⟨rfl, rfl⟩
  all_goals rfl

theorem quoteCharacter_of_noShort {character : Char}
    (noShort : ∀ mark, (mark, character) ∉ shortEscapes) :
    quoteCharacter character =
      if isVisible character then [character]
      else '\\' :: 'u' :: '\x7b' :: (hexadecimal character.toNat ++ ['\x7d']) := by
  simp only [shortEscapes, List.mem_cons, Prod.mk.injEq, List.not_mem_nil, or_false, not_or,
    not_and] at noShort
  have others : character ≠ '\x00' ∧ character ≠ '\t' ∧ character ≠ '\r' ∧ character ≠ '\n' ∧
      character ≠ '\\' ∧ character ≠ '\x22' := by
    grind
  obtain ⟨notNull, notTab, notReturn, notNewline, notBackslash, notQuote⟩ := others
  rw [quoteCharacter.eq_7 character notNull notTab notReturn notNewline notBackslash notQuote]
  rfl

/-- Every character is shown in exactly one way. -/
theorem shownCharacter_iff {shown : List Char} {character : Char} :
    ShownCharacter shown character ↔ shown = quoteCharacter character := by
  constructor
  · intro isShown
    cases isShown with
    | short escapes => rw [quoteCharacter_of_short escapes]
    | plain noShort visible => rw [quoteCharacter_of_noShort noShort, if_pos visible]
    | code noShort hidden numeral =>
        rw [quoteCharacter_of_noShort noShort, if_neg (by simp [hidden]), numeral.eq_hexadecimal]
  · rintro rfl
    by_cases short : ∃ mark, (mark, character) ∈ shortEscapes
    · obtain ⟨mark, escapes⟩ := short
      rw [quoteCharacter_of_short escapes]
      exact .short escapes
    · have noShort := not_exists.mp short
      rw [quoteCharacter_of_noShort noShort]
      split
      · rename_i visible
        exact .plain noShort visible
      · rename_i hidden
        exact .code noShort (by simpa using hidden) (hexadecimalNumeral_hexadecimal _)

/-- The mark of a short escape tells its character, and no code begins with it. -/
theorem shortEscapes_marks {mark : Char} {character : Char}
    (escapes : (mark, character) ∈ shortEscapes) :
    mark ≠ 'u' ∧ ∀ other, (mark, other) ∈ shortEscapes → character = other := by
  have table : ∀ escape ∈ shortEscapes, escape.1 ≠ 'u' ∧
      ∀ second ∈ shortEscapes, second.1 = escape.1 → escape.2 = second.2 := by
    decide
  obtain ⟨notCode, unique⟩ := table _ escapes
  exact ⟨notCode, fun other second => unique _ second rfl⟩

theorem ne_backslash_of_noShort {character : Char}
    (noShort : ∀ mark, (mark, character) ∉ shortEscapes) : character ≠ '\\' := by
  rintro rfl
  exact noShort '\\' (by decide)

/-- A backslash tells an escape from a plain character, and the mark behind it tells the escape. -/
theorem definite_shownCharacter : Language.Definite ShownCharacter := by
  intro shown other rest more character another first second same
  cases first with
  | short escapes =>
      obtain ⟨notCode, unique⟩ := shortEscapes_marks escapes
      cases second with
      | short otherEscapes =>
          simp only [List.cons_append, List.nil_append, List.cons.injEq, true_and] at same
          obtain ⟨rfl, sameRest⟩ := same
          exact ⟨unique _ otherEscapes, sameRest⟩
      | plain noShort visible =>
          exact (ne_backslash_of_noShort noShort (List.cons.inj same).1.symm).elim
      | code noShort hidden numeral =>
          simp only [List.cons_append, List.cons.injEq, true_and] at same
          exact (notCode same.1).elim
  | plain noShort visible =>
      cases second with
      | plain otherNoShort otherVisible => exact List.cons.inj same
      | short | code => exact (ne_backslash_of_noShort noShort (List.cons.inj same).1).elim
  | code noShort hidden numeral =>
      cases second with
      | short otherEscapes =>
          simp only [List.cons_append, List.cons.injEq, true_and] at same
          exact ((shortEscapes_marks otherEscapes).1 same.1.symm).elim
      | plain otherNoShort visible =>
          exact (ne_backslash_of_noShort otherNoShort (List.cons.inj same).1.symm).elim
      | code otherNoShort otherHidden otherNumeral =>
          simp only [List.cons_append, List.append_assoc, List.nil_append, List.cons.injEq,
            true_and] at same
          obtain ⟨sameCode, sameRest⟩ := numeral.determined otherNumeral same
          exact ⟨Char.toNat_inj.mp sameCode, sameRest⟩

/-- No character begins with the quote, which closes the text. -/
theorem ShownCharacter.begins {shown : List Char} {character : Char}
    (isShown : ShownCharacter shown character) : Language.Begins (· != '\x22') shown := by
  cases isShown with
  | short escapes => exact ⟨_, _, rfl, by decide⟩
  | plain noShort visible =>
      refine ⟨_, _, rfl, ?_⟩
      rw [bne_iff_ne]
      rintro rfl
      exact noShort '\x22' (by decide)
  | code noShort hidden numeral => exact ⟨_, _, rfl, by decide⟩

/-! ## Texts -/

theorem star_shownCharacter_iff {shown characters : List Char} :
    Language.Star ShownCharacter shown characters ↔ shown = characters.flatMap quoteCharacter := by
  constructor
  · intro star
    induction star with
    | nil => rfl
    | cons head tail ih => rw [List.flatMap_cons, ← shownCharacter_iff.mp head, ← ih]
  · rintro rfl
    induction characters with
    | nil => exact .nil
    | cons character rest ih => exact .cons (shownCharacter_iff.mpr rfl) ih

theorem quotation_iff {shown : List Char} {text : String} :
    Quotation shown text ↔ shown = (quoted text).toList := by
  rw [quoted, String.toList_ofList]
  constructor
  · rintro ⟨characters⟩
    rw [star_shownCharacter_iff.mp characters]
    rfl
  · rintro rfl
    exact .intro (star_shownCharacter_iff.mpr rfl)

/-- Every optional text is shown in exactly one way. -/
theorem optionalQuotation_iff {shown : List Char} {value : Option String} :
    OptionalQuotation shown value ↔ shown = (quotedOption value).toList := by
  cases value with
  | none =>
      constructor
      · rintro ⟨⟩
        rfl
      · rintro rfl
        exact .none
  | some text =>
      rw [quotedOption, String.toList_append, String.toList_append, List.append_assoc]
      constructor
      · rintro (_ | quotation)
        rw [quotation_iff.mp quotation]
        rfl
      · rintro rfl
        exact .some (quotation_iff.mpr rfl)

theorem optionalQuotation_quotedOption (value : Option String) :
    OptionalQuotation (quotedOption value).toList value :=
  optionalQuotation_iff.mpr rfl

theorem definite_quotation : Language.Definite Quotation := by
  rintro shown other rest more text another ⟨characters⟩ ⟨otherCharacters⟩ same
  simp only [List.cons_append, List.append_assoc, List.nil_append, List.cons.injEq, true_and]
    at same
  obtain ⟨sameText, sameRest⟩ := characters.determined definite_shownCharacter
    (fun _ _ isShown => isShown.begins) otherCharacters same
  exact ⟨String.toList_inj.mp sameText, sameRest⟩

/-- What is shown stands for one value only, whatever stands behind it. -/
theorem definite_optionalQuotation : Language.Definite OptionalQuotation := by
  rintro shown other rest more value another (_ | quotation) (_ | otherQuotation) same
  · exact ⟨rfl, List.append_cancel_left same⟩
  · cases same
  · cases same
  · simp only [List.append_assoc] at same
    obtain ⟨rfl, behind⟩ := definite_quotation quotation otherQuotation
      (List.append_cancel_left same)
    exact ⟨rfl, (List.cons.inj behind).2⟩

example : quotedOption (some "a\x22\t\x01") = "Some(\x22a\\\x22\\t\\u\x7b1\x7d\x22)" := by
  decide

end ContentApi.Text
