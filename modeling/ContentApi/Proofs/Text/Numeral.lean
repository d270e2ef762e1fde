import ContentApi.Proofs.Language
import ContentApi.Text.Numeral
import Mathlib.Data.List.Induction
import Mathlib.Data.Nat.Digits.Defs

/-!
# What numerals denote

A run of decimal digits denotes the number that has these digits in base ten, and leading zeros
do not matter.  A numeral is such a run behind at most one sign, and nothing else is read as one
(`integer?_eq_some_iff`), however long it is.
-/

namespace ContentApi.Text

/-- The number with the given digits in base ten, the most significant one first. -/
def decimal (digits : List Char) : Nat :=
  Nat.ofDigits 10 (digits.reverse.map fun digit => digit.toNat - '0'.toNat)

/-- One or more decimal digits. -/
structure AreDigits (digits : List Char) : Prop where
  nonempty : digits ≠ []
  all : ∀ digit ∈ digits, digit.isDigit = true

/-- Decimal digits, possibly with a sign in front of them, and the number that they denote. -/
inductive Numeral : Language Int where
  | unsigned {digits : List Char} (areDigits : AreDigits digits) :
      Numeral digits (decimal digits)
  | positive {digits : List Char} (areDigits : AreDigits digits) :
      Numeral ('+' :: digits) (decimal digits)
  | negative {digits : List Char} (areDigits : AreDigits digits) :
      Numeral ('-' :: digits) (-decimal digits)

theorem digitsValue_eq_decimal (digits : List Char) : digitsValue digits = decimal digits := by
  induction digits using List.reverseRecOn with
  | nil => rfl
  | append_singleton front digit ih =>
      have step : digitsValue (front ++ [digit]) =
          10 * digitsValue front + (digit.toNat - '0'.toNat) := by
        rw [digitsValue, List.foldl_append, ← digitsValue]
        rfl
      rw [step, ih, decimal, decimal, List.reverse_append, List.reverse_singleton,
        List.singleton_append, List.map_cons, Nat.ofDigits_cons, Nat.add_comm]

theorem natural?_eq_some_iff {digits : List Char} {value : Nat} :
    natural? digits = some value ↔ AreDigits digits ∧ decimal digits = value := by
  rw [natural?, digitsValue_eq_decimal]
  split
  · rename_i areDigits
    have all : AreDigits digits := ⟨areDigits.1, List.all_eq_true.mp areDigits.2⟩
    simp [all]
  · rename_i noDigits
    have others : ¬AreDigits digits := fun areDigits =>
      noDigits ⟨areDigits.nonempty, List.all_eq_true.mpr areDigits.all⟩
    simp [others]

theorem AreDigits.ne_cons {digits : List Char} (areDigits : AreDigits digits) {sign : Char}
    (noDigit : sign.isDigit = false) (rest : List Char) : digits ≠ sign :: rest := by
  rintro rfl
  rw [areDigits.all sign List.mem_cons_self] at noDigit
  cases noDigit

/-- Exactly the numerals are read as whole numbers. -/
theorem integer?_eq_some_iff {text : List Char} {number : Int} :
    integer? text = some number ↔ Numeral text number := by
  constructor
  · intro read
    rw [integer?.eq_def] at read
    split at read
    all_goals
      rcases Option.map_eq_some_iff.mp read with ⟨value, natural, rfl⟩
      rcases natural?_eq_some_iff.mp natural with ⟨areDigits, rfl⟩
    · exact .positive areDigits
    · exact .negative areDigits
    · exact .unsigned areDigits
  · intro numeral
    cases numeral with
    | unsigned areDigits =>
        rw [integer?.eq_3 _ (areDigits.ne_cons rfl) (areDigits.ne_cons rfl)]
        rw [natural?_eq_some_iff.mpr ⟨areDigits, rfl⟩]
        rfl
    | positive areDigits =>
        rw [integer?, natural?_eq_some_iff.mpr ⟨areDigits, rfl⟩]
        rfl
    | negative areDigits =>
        rw [integer?, natural?_eq_some_iff.mpr ⟨areDigits, rfl⟩]
        rfl

theorem integer32?_eq_some_iff {text : List Char} {number : Int} :
    integer32? text = some number ↔
      Numeral text number ∧ -2 ^ 31 ≤ number ∧ number < 2 ^ 31 := by
  rw [integer32?, Option.filter_eq_some_iff, integer?_eq_some_iff, decide_eq_true_eq]
  rfl

end ContentApi.Text
