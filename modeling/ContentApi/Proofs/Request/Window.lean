import ContentApi.Proofs.Text.Numeral
import ContentApi.Proofs.Text.Quoted
import ContentApi.Request.Window

/-!
# Windows that requests ask for

A paging value denotes the number of its numeral if that fits into 32 bits with its sign, and an
absent one denotes its default.  A request asks for a window if both of its values denote numbers
that are not negative; else the first thing that is reported is a value that denotes none
(`ofValues_denotes`).  The report shows both values, absent ones as `None`, in a notation from
which they are recovered (`showsValues_iff`).

The numbers are widened from 32 to 64 bits when they are read, and they are made words of the
machine in the end.  `ofValuesInWords` computes the window in this way.  All numbers in question
are small enough for each of these forms, so it is the same window.
-/

namespace ContentApi.Window

/-- What a paging value denotes, an absent one its default. -/
inductive Denotes (default : Nat) : Option String → Int → Prop where
  | absent : Denotes default none default
  | present {text : String} {number : Int} (numeral : Text.Numeral text.toList number)
      (above : -2 ^ 31 ≤ number) (below : number < 2 ^ 31) :
      Denotes default (some text) number

/-- The report of values that cannot be read, which shows each of them as it was given. -/
inductive ShowsValues : Language (Option String × Option String) where
  | intro {shownSkip shownLimit : List Char} {skip limit : Option String}
      (skips : Text.OptionalQuotation shownSkip skip)
      (limits : Text.OptionalQuotation shownLimit limit) :
      ShowsValues ("Invalid paging parameters: skipCount=".toList ++ (shownSkip ++
        (", maxItems=".toList ++ shownLimit))) (skip, limit)

/-- A paging value in 64 bits: a word by default, and else widened from 32 bits. -/
def boundInWords? (default : Nat) : Option String → Option Int64
  | none => some (USize.ofNat default).toUInt64.toInt64
  | some text =>
      (Text.integer32? text.toList).map fun number => (Int32.ofInt number).toInt64

/-- The window of two paging values, computed in 64 bits and given in words. -/
def ofValuesInWords (skip limit : Option String) : Except ApiError Window :=
  match boundInWords? 0 skip, boundInWords? 100 limit with
  | some skipped, some limited =>
      if skipped < 0 ∨ limited < 0 then .error (.invalidArgument .negativePaging)
      else .ok ⟨skipped.toUInt64.toUSize.toNat, limited.toUInt64.toUSize.toNat⟩
  | _, _ => .error (.invalidArgument (.unreadablePaging skip limit))

/-! ## Numbers and words -/

theorem toInt_toInt64 {word : UInt64} (small : word.toNat < 2 ^ 63) :
    word.toInt64.toInt = word.toNat := by
  have fits : 2 * word.toBitVec.toNat < 2 ^ 64 := by
    have same : word.toBitVec.toNat = word.toNat := rfl
    omega
  exact BitVec.toInt_eq_toNat_of_lt fits

theorem toNat_toUSize {word : Int64} (positive : 0 ≤ word.toInt) (small : word.toInt < 2 ^ 31) :
    word.toUInt64.toUSize.toNat = word.toInt.toNat := by
  have fits : word.toUInt64.toNat < 2 ^ 63 := by
    have number : word.toInt = if 2 * word.toUInt64.toNat < 2 ^ 64 then _ else _ :=
      BitVec.toInt_eq_toNat_cond word.toBitVec
    split at number
    · omega
    · have bound := word.toUInt64.toNat_lt
      omega
  have unsigned : word.toInt = word.toUInt64.toNat := toInt_toInt64 fits
  have cut : word.toUInt64.toUSize.toNat = word.toUInt64.toNat % USize.size :=
    UInt64.toNat_toUSize _
  have size := USize.le_size
  rw [cut, Nat.mod_eq_of_lt (by omega), unsigned, Int.toNat_natCast]

/-- Widening keeps every number of 32 bits. -/
theorem toInt_widen {number : Int} (above : -2 ^ 31 ≤ number) (below : number < 2 ^ 31) :
    (Int32.ofInt number).toInt64.toInt = number := by
  rw [Int32.toInt_toInt64, Int32.toInt_ofInt_of_le above below]

theorem toInt_default {default : Nat} (small : default < 2 ^ 31) :
    (USize.ofNat default).toUInt64.toInt64.toInt = default := by
  have word : (USize.ofNat default).toUInt64.toNat = default := by
    rw [USize.toNat_toUInt64, USize.toNat_ofNat_of_lt_32 (by omega)]
  rw [toInt_toInt64 (by omega), word]

/-! ## Bounds -/

theorem bound?_eq_some_iff {default : Nat} {value : Option String} {number : Int} :
    bound? default value = some number ↔ Denotes default value number := by
  cases value with
  | none =>
      rw [bound?]
      constructor
      · intro same
        cases same
        exact .absent
      · intro denotes
        cases denotes
        rfl
  | some text =>
      rw [bound?, Text.integer32?_eq_some_iff]
      constructor
      · rintro ⟨numeral, above, below⟩
        exact .present numeral above below
      · intro denotes
        cases denotes with
        | present numeral above below => exact ⟨numeral, above, below⟩

theorem bound?_eq_none_iff {default : Nat} {value : Option String} :
    bound? default value = none ↔ ¬∃ number, Denotes default value number := by
  rw [Option.eq_none_iff_forall_ne_some, not_exists]
  exact forall_congr' fun number => not_congr bound?_eq_some_iff

theorem Denotes.in_range {default : Nat} {value : Option String} {number : Int}
    (denotes : Denotes default value number) (small : default < 2 ^ 31) :
    -2 ^ 31 ≤ number ∧ number < 2 ^ 31 := by
  cases denotes with
  | absent => omega
  | present numeral above below => exact ⟨above, below⟩

/-- In 64 bits a paging value is the number that it denotes. -/
theorem toInt_boundInWords {default : Nat} (small : default < 2 ^ 31) (value : Option String) :
    bound? default value = (boundInWords? default value).map Int64.toInt := by
  cases value with
  | none => rw [boundInWords?, Option.map_some, toInt_default small, bound?]
  | some text =>
      rw [boundInWords?, bound?, Option.map_map]
      cases read : Text.integer32? text.toList with
      | none => rfl
      | some number =>
          rcases Text.integer32?_eq_some_iff.mp read with ⟨-, above, below⟩
          rw [Option.map_some, Function.comp_apply, toInt_widen above below]

theorem toInt_lt {default : Nat} (small : default < 2 ^ 31) {value : Option String} {word : Int64}
    (read : boundInWords? default value = some word) : word.toInt < 2 ^ 31 := by
  have bound : bound? default value = some word.toInt := by
    rw [toInt_boundInWords small, read, Option.map_some]
  exact ((bound?_eq_some_iff.mp bound).in_range small).2

/-! ## Windows -/

/-- None of the conversions changes a number. -/
theorem ofValuesInWords_eq (skip limit : Option String) :
    ofValuesInWords skip limit = ofValues skip limit := by
  have noSkip : 0 < 2 ^ 31 := by decide
  have hundred : 100 < 2 ^ 31 := by decide
  rw [ofValuesInWords, ofValues, toInt_boundInWords noSkip, toInt_boundInWords hundred]
  cases readSkip : boundInWords? 0 skip with
  | none => rfl
  | some skipped =>
      cases readLimit : boundInWords? 100 limit with
      | none => rfl
      | some limited =>
          have skippedSmall := toInt_lt noSkip readSkip
          have limitedSmall := toInt_lt hundred readLimit
          have sameTest : (skipped < 0 ∨ limited < 0) ↔
              (skipped.toInt < 0 ∨ limited.toInt < 0) := by
            rw [Int64.lt_iff_toInt_lt, Int64.lt_iff_toInt_lt]
            rfl
          simp only [Option.map_some]
          by_cases negative : skipped.toInt < 0 ∨ limited.toInt < 0
          · rw [if_pos (sameTest.mpr negative), if_pos negative]
          · rw [if_neg (mt sameTest.mp negative), if_neg negative,
              toNat_toUSize (by omega) skippedSmall, toNat_toUSize (by omega) limitedSmall]

variable {skip limit : Option String}

theorem ofValues_of_denotes {skipped limited : Int} (skips : Denotes 0 skip skipped)
    (limits : Denotes 100 limit limited) :
    ofValues skip limit =
      if skipped < 0 ∨ limited < 0 then .error (.invalidArgument .negativePaging)
      else .ok ⟨skipped.toNat, limited.toNat⟩ := by
  rw [ofValues, bound?_eq_some_iff.mpr skips, bound?_eq_some_iff.mpr limits]

theorem ofValues_of_unreadable
    (unreadable : (¬∃ number, Denotes 0 skip number) ∨ ¬∃ number, Denotes 100 limit number) :
    ofValues skip limit = .error (.invalidArgument (.unreadablePaging skip limit)) := by
  rw [← bound?_eq_none_iff, ← bound?_eq_none_iff] at unreadable
  rw [ofValues]
  rcases unreadable with noSkip | noLimit
  · rw [noSkip]
  · rw [noLimit]
    cases bound? 0 skip <;> rfl

/-- Both of two paging values denote numbers, or one of them denotes none. -/
theorem denotes_or_not (skip limit : Option String) :
    (∃ skipped limited, Denotes 0 skip skipped ∧ Denotes 100 limit limited) ∨
      (¬∃ number, Denotes 0 skip number) ∨ ¬∃ number, Denotes 100 limit number := by
  by_cases readable : (∃ number, Denotes 0 skip number) ∧ ∃ number, Denotes 100 limit number
  · rcases readable with ⟨⟨skipped, skips⟩, limited, limits⟩
    exact Or.inl ⟨skipped, limited, skips, limits⟩
  · exact Or.inr (not_and_or.mp readable)

theorem ofValues_eq_ok_iff {window : Window} :
    ofValues skip limit = .ok window ↔
      Denotes 0 skip window.skip ∧ Denotes 100 limit window.limit := by
  constructor
  · intro accepted
    rcases denotes_or_not skip limit with ⟨skipped, limited, skips, limits⟩ | unreadable
    · rw [ofValues_of_denotes skips limits] at accepted
      split at accepted
      · cases accepted
      · rename_i positive
        cases accepted
        rw [not_or, not_lt, not_lt] at positive
        constructor
        · rwa [Int.toNat_of_nonneg positive.1]
        · rwa [Int.toNat_of_nonneg positive.2]
    · rw [ofValues_of_unreadable unreadable] at accepted
      cases accepted
  · rintro ⟨skips, limits⟩
    have positive : ¬((window.skip : Int) < 0 ∨ (window.limit : Int) < 0) := by omega
    rw [ofValues_of_denotes skips limits, if_neg positive, Int.toNat_natCast, Int.toNat_natCast]

theorem ofValues_unreadable_iff :
    ofValues skip limit = .error (.invalidArgument (.unreadablePaging skip limit)) ↔
      (¬∃ number, Denotes 0 skip number) ∨ ¬∃ number, Denotes 100 limit number := by
  constructor
  · intro refused
    rcases denotes_or_not skip limit with ⟨skipped, limited, skips, limits⟩ | unreadable
    · rw [ofValues_of_denotes skips limits] at refused
      split at refused <;> cases refused
    · exact unreadable
  · exact ofValues_of_unreadable

theorem ofValues_negative_iff :
    ofValues skip limit = .error (.invalidArgument .negativePaging) ↔
      ∃ skipped limited, Denotes 0 skip skipped ∧ Denotes 100 limit limited ∧
        (skipped < 0 ∨ limited < 0) := by
  constructor
  · intro refused
    rcases denotes_or_not skip limit with ⟨skipped, limited, skips, limits⟩ | unreadable
    · rw [ofValues_of_denotes skips limits] at refused
      split at refused
      · rename_i negative
        exact ⟨skipped, limited, skips, limits, negative⟩
      · cases refused
    · rw [ofValues_of_unreadable unreadable] at refused
      cases refused
  · rintro ⟨skipped, limited, skips, limits, negative⟩
    rw [ofValues_of_denotes skips limits, if_pos negative]

theorem ofValues_eq_error {error : ApiError} (refused : ofValues skip limit = .error error) :
    error = .invalidArgument (.unreadablePaging skip limit) ∨
      error = .invalidArgument .negativePaging := by
  rcases denotes_or_not skip limit with ⟨skipped, limited, skips, limits⟩ | unreadable
  · rw [ofValues_of_denotes skips limits] at refused
    split at refused
    · cases refused
      exact Or.inr rfl
    · cases refused
  · rw [ofValues_of_unreadable unreadable] at refused
    cases refused
    exact Or.inl rfl

/-! ## Reports -/

theorem definite_showsValues : Language.Definite ShowsValues := by
  rintro text other rest more values another ⟨skips, limits⟩ ⟨otherSkips, otherLimits⟩ same
  simp only [List.append_assoc] at same
  obtain ⟨rfl, behind⟩ := Text.definite_optionalQuotation skips otherSkips
    (List.append_cancel_left same)
  obtain ⟨rfl, sameRest⟩ := Text.definite_optionalQuotation limits otherLimits
    (List.append_cancel_left behind)
  exact ⟨rfl, sameRest⟩

theorem showsValues_message (skip limit : Option String) :
    ShowsValues (ArgumentError.unreadablePaging skip limit).message.toList (skip, limit) := by
  have skips := Text.optionalQuotation_quotedOption skip
  have limits := Text.optionalQuotation_quotedOption limit
  have wording : (ArgumentError.unreadablePaging skip limit).message =
      "Invalid paging parameters: skipCount=" ++ Text.quotedOption skip ++ ", maxItems=" ++
        Text.quotedOption limit := rfl
  rw [wording, String.toList_append, String.toList_append, String.toList_append,
    List.append_assoc, List.append_assoc]
  exact .intro skips limits

/-- The report shows the values of the request, and no other ones can be read from it. -/
theorem showsValues_iff {values : Option String × Option String} :
    ShowsValues (ArgumentError.unreadablePaging skip limit).message.toList values ↔
      values = (skip, limit) := by
  constructor
  · intro shows
    exact definite_showsValues.unique shows (showsValues_message skip limit)
  · rintro rfl
    exact showsValues_message skip limit

example : (ArgumentError.unreadablePaging (some "1\n") none).message =
    "Invalid paging parameters: skipCount=Some(\x221\\n\x22), maxItems=None" := by
  decide

/-- What is made of two paging values. -/
structure ReadsDenoted (skip limit : Option String) : Prop where
  accepted : ∀ window, ofValues skip limit = .ok window ↔
    Denotes 0 skip window.skip ∧ Denotes 100 limit window.limit
  /-- A value that denotes nothing is reported first. -/
  unreadable : ofValues skip limit = .error (.invalidArgument (.unreadablePaging skip limit)) ↔
    (¬∃ number, Denotes 0 skip number) ∨ ¬∃ number, Denotes 100 limit number
  /-- The report shows both values as they were given, and they can be read from it. -/
  unreadableMessage : ∀ values,
    ShowsValues (ArgumentError.unreadablePaging skip limit).message.toList values ↔
      values = (skip, limit)
  negative : ofValues skip limit = .error (.invalidArgument .negativePaging) ↔
    ∃ skipped limited, Denotes 0 skip skipped ∧ Denotes 100 limit limited ∧
      (skipped < 0 ∨ limited < 0)
  negativeMessage : ArgumentError.negativePaging.message = "Negative values not supported."
  /-- Nothing else is ever reported. -/
  refused : ∀ error, ofValues skip limit = .error error →
    error = .invalidArgument (.unreadablePaging skip limit) ∨
      error = .invalidArgument .negativePaging
  /-- No conversion between numbers of 32 bits, of 64 bits and words changes a value. -/
  inWords : ofValuesInWords skip limit = ofValues skip limit

/--
Two paging values give a window exactly if both denote numbers that are not negative, and then
it is the window with these numbers.  Else it is reported that some value denotes no number of
32 bits, whatever the other one is, or that one of two such numbers is negative; and the first of
these reports shows both values in such a way that they can be read from it.
-/
theorem ofValues_denotes (skip limit : Option String) : ReadsDenoted skip limit where
  accepted _ := ofValues_eq_ok_iff
  unreadable := ofValues_unreadable_iff
  unreadableMessage _ := showsValues_iff
  negative := ofValues_negative_iff
  negativeMessage := rfl
  refused _ := ofValues_eq_error
  inWords := ofValuesInWords_eq skip limit

example : ofValues (some "-0") (some "+0007") = .ok ⟨0, 7⟩ := by decide

end ContentApi.Window
