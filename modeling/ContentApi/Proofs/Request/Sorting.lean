import ContentApi.Proofs.Text.Words
import ContentApi.Request.SortKey
import Mathlib.Data.List.Forall2

/-!
# Sort keys as they are written

An `orderBy` value is read entry by entry, and what an entry gives depends on its own words only.
So putting values together with a comma puts their keys together, in order, and every row of
columns is recovered from the value in which it is written (`ofOrderBy_recovers`), whatever blanks
stand around the names and the directions and whatever case the directions are in.
-/

namespace ContentApi.SortKey

open ContentApi.Text

/-- A keyword that is given in upper case, with each of its letters in either case. -/
def InSomeCase (keyword word : List Char) : Prop :=
  List.Forall₂ (fun letter character => character = letter ∨ character = letter.toLower) keyword
    word

/-- The direction that is written behind a column, in upper case. -/
def directionWord : Bool → List Char
  | true => ['A', 'S', 'C']
  | false => ['D', 'E', 'S', 'C']

/-- A name that a column of an `orderBy` value can have. -/
structure IsColumn (name : String) : Prop where
  isWord : IsWord name.toList
  noComma : ',' ∉ name.toList

/-- An entry for a key: the column alone if it ascends, or the column and a direction behind it. -/
inductive Writes : SortKey → List Char → Prop where
  | bare {column : String} {text : List Char} (padded : Padded column.toList text) :
      Writes ⟨column, true⟩ text
  | directed {key : SortKey} {before between direction after : List Char}
      (blankBefore : AllBlank before) (someBetween : between ≠ [])
      (blankBetween : AllBlank between)
      (isDirection : InSomeCase (directionWord key.ascending) direction)
      (blankAfter : AllBlank after) :
      Writes key (before ++ (key.column.toList ++ (between ++ (direction ++ after))))

/-- The keys that an entry of the given words stands for. -/
structure StandsFor (words : List (List Char)) (keys : List SortKey) : Prop where
  nothing : words = [] ∨ 2 < words.length → keys = []
  single : ∀ column more, words = column :: more → more.length ≤ 1 →
    ∃ ascending, keys = [⟨String.ofList column, ascending⟩] ∧
      (ascending = false ↔ ∃ direction, more = [direction] ∧
        InSomeCase ['D', 'E', 'S', 'C'] direction)

/-! ## Directions -/

/-- A character becomes an upper-case letter if it is that letter in either case. -/
theorem toUpper_eq_iff {letter character : Char} (upper : letter.isUpper = true) :
    character.toUpper = letter ↔ character = letter ∨ character = letter.toLower := by
  have isLetter : 65 ≤ letter.val.toNat ∧ letter.val.toNat ≤ 90 := of_decide_eq_true upper
  have lowered : letter.toLower.val = letter.val + ('a'.val - 'A'.val) :=
    congrArg Char.val (dif_pos (of_decide_eq_true upper))
  have down : ('a'.val - 'A'.val).toNat = 32 := by decide
  have up : ('A'.val - 'a'.val).toNat = 2 ^ 32 - 32 := by decide
  by_cases lower : 'a'.val ≤ character.val ∧ character.val ≤ 'z'.val
  · have raised : character.toUpper = ⟨character.val + ('A'.val - 'a'.val), _⟩ := dif_pos lower
    have isLower : 97 ≤ character.val.toNat ∧ character.val.toNat ≤ 122 := lower
    simp only [Char.ext_iff, lowered, raised, ← UInt32.toNat_inj, UInt32.toNat_add]
    omega
  · have unchanged : character.toUpper = character := dif_neg lower
    have notLower : ¬(97 ≤ character.val.toNat ∧ character.val.toNat ≤ 122) := lower
    simp only [Char.ext_iff, lowered, unchanged, ← UInt32.toNat_inj, UInt32.toNat_add]
    omega

/-- A word is a keyword in some case if it becomes the keyword in upper case. -/
theorem inSomeCase_iff {keyword word : List Char}
    (upper : ∀ letter ∈ keyword, letter.isUpper = true) :
    InSomeCase keyword word ↔ word.map Char.toUpper = keyword := by
  induction keyword generalizing word with
  | nil => cases word <;> simp [InSomeCase]
  | cons letter rest ih =>
      obtain ⟨isUpper, others⟩ := List.forall_mem_cons.mp upper
      cases word with
      | nil => simp [InSomeCase]
      | cons first more =>
          rw [InSomeCase, List.forall₂_cons, ← InSomeCase, ih others, List.map_cons,
            List.cons.injEq, toUpper_eq_iff isUpper]

theorem isDescending_iff {word : List Char} :
    isDescending word = true ↔ InSomeCase ['D', 'E', 'S', 'C'] word := by
  rw [isDescending, beq_iff_eq, inSomeCase_iff (by simp)]

theorem directionWord_isUpper (ascending : Bool) :
    ∀ letter ∈ directionWord ascending, letter.isUpper = true := by
  cases ascending <;> simp [directionWord]

theorem isDescending_direction {ascending : Bool} {direction : List Char}
    (isDirection : InSomeCase (directionWord ascending) direction) :
    (!isDescending direction) = ascending := by
  rw [isDescending, (inSomeCase_iff (directionWord_isUpper ascending)).mp isDirection]
  cases ascending <;> rfl

/-- What holds of the letters of a keyword in both cases holds of every letter that is written. -/
theorem InSomeCase.forall_mem {keyword word : List Char} {holds : Char → Prop}
    (inSomeCase : InSomeCase keyword word)
    (both : ∀ letter ∈ keyword, holds letter ∧ holds letter.toLower) :
    ∀ character ∈ word, holds character := by
  induction inSomeCase with
  | nil => exact List.forall_mem_nil _
  | cons same _ ih =>
      obtain ⟨first, others⟩ := List.forall_mem_cons.mp both
      refine List.forall_mem_cons.mpr ⟨?_, ih others⟩
      rcases same with rfl | rfl
      · exact first.1
      · exact first.2

/-- A direction is a word, and it contains no comma. -/
theorem InSomeCase.direction {ascending : Bool} {direction : List Char}
    (isDirection : InSomeCase (directionWord ascending) direction) :
    IsWord direction ∧ ',' ∉ direction := by
  have letters : ∀ character ∈ direction, isBlank character = false ∧ character ≠ ',' :=
    isDirection.forall_mem (by cases ascending <;> simp [directionWord, isBlank])
  refine ⟨⟨?_, fun character member => (letters character member).1⟩, ?_⟩
  · rintro rfl
    cases ascending <;> cases isDirection
  · intro member
    exact (letters ',' member).2 rfl

/-! ## Entries -/

/-- What an entry gives is told from its words. -/
theorem standsFor_ofPiece {entry : List Char} {words : List (List Char)}
    (spaced : Spaced entry words) : StandsFor words (ofPiece? entry).toList := by
  rw [ofPiece?, spaced.words_eq]
  refine ⟨?_, ?_⟩
  · rintro (rfl | many)
    · rfl
    · split
      · simp at many
      · simp at many
      · rfl
  · rintro column more rfl few
    cases more with
    | nil => exact ⟨true, rfl, by simp⟩
    | cons direction others =>
        obtain rfl : others = [] := List.length_eq_zero_iff.mp (by simpa using few)
        refine ⟨!isDescending direction, rfl, ?_⟩
        rw [Bool.not_eq_false', isDescending_iff]
        simp

/-- The key of an entry is the one for which it is written. -/
theorem Writes.read_eq {key : SortKey} {text : List Char} (writes : Writes key text)
    (isColumn : IsColumn key.column) : ofPiece? text = some key := by
  cases writes with
  | bare padded =>
      rw [ofPiece?, (padded.spaced isColumn.isWord).words_eq]
      simp
  | @directed _ _ _ direction after blankBefore someBetween blankBetween isDirection blankAfter =>
      have behind : Padded direction (direction ++ after) :=
        .intro (List.forall_mem_nil _) blankAfter
      have spaced := Spaced.of_blanks blankBefore
        (.of_word isColumn.isWord someBetween blankBetween
          (behind.spaced isDirection.direction.1))
      rw [ofPiece?, spaced.words_eq]
      simp [isDescending_direction isDirection]

theorem Writes.noComma {key : SortKey} {text : List Char} (writes : Writes key text)
    (isColumn : IsColumn key.column) : ',' ∉ text := by
  cases writes with
  | bare padded => exact padded.notMem rfl isColumn.noComma
  | directed blankBefore someBetween blankBetween isDirection blankAfter =>
      simp only [List.mem_append, not_or]
      exact ⟨blankBefore.notMem rfl, isColumn.noComma, blankBetween.notMem rfl,
        isDirection.direction.2, blankAfter.notMem rfl⟩

/-! ## Rows of entries -/

/-- The entries of a text are read one by one. -/
theorem ofText_append (front back : List Char) :
    ofText (front ++ ',' :: back) = ofText front ++ ofText back := by
  rw [ofText, List.splitOn_append_cons_self, List.filterMap_append, ← ofText, ← ofText]

theorem ofText_entry {entry : List Char} (noComma : ',' ∉ entry) :
    ofText entry = (ofPiece? entry).toList := by
  rw [ofText, List.splitOn_eq_singleton noComma]
  cases found : ofPiece? entry <;> simp [found]

/-- Columns that are written with commas between them are read in their order. -/
theorem ofText_intercalate {keys : List SortKey} {texts : List (List Char)}
    (written : List.Forall₂ Writes keys texts)
    (columns : ∀ key ∈ keys, IsColumn key.column) : ofText ([','].intercalate texts) = keys := by
  induction written with
  | nil => rfl
  | @cons key text keys texts writes others ih =>
      obtain ⟨isColumn, columns⟩ := List.forall_mem_cons.mp columns
      have single : ofText text = [key] := by
        rw [ofText_entry (writes.noComma isColumn), writes.read_eq isColumn]
        rfl
      cases others with
      | nil => simpa using single
      | @cons _ next _ rest _ _ =>
          rw [List.intercalate_cons_cons, List.append_assoc, List.singleton_append,
            ofText_append, single, ih columns]
          rfl

/--
Reading an `orderBy` value takes a comma to the end of one list of keys and the beginning of the
next.  An entry without commas gives a key exactly if it has one word or two: its column is the
first word, and it descends exactly if the second word says so.  Hence columns are recovered from
the value in which they are written, with their directions and in their order.
-/
theorem ofOrderBy_recovers :
    (∀ front back : String, ofOrderBy (some (front ++ "," ++ back)) =
      ofOrderBy (some front) ++ ofOrderBy (some back)) ∧
    (∀ (entry : String) (words : List (List Char)), ',' ∉ entry.toList →
      Spaced entry.toList words → StandsFor words (ofOrderBy (some entry))) ∧
    (∀ (keys : List SortKey) (texts : List String), (∀ key ∈ keys, IsColumn key.column) →
      List.Forall₂ Writes keys (texts.map String.toList) →
      ofOrderBy (some (",".intercalate texts)) = keys) := by
  refine ⟨?_, ?_, ?_⟩
  · intro front back
    rw [ofOrderBy, String.toList_append, String.toList_append, List.append_assoc]
    exact ofText_append front.toList back.toList
  · intro entry words noComma spaced
    rw [ofOrderBy, ofText_entry noComma]
    exact standsFor_ofPiece spaced
  · intro keys texts columns written
    rw [ofOrderBy, String.toList_intercalate]
    exact ofText_intercalate written columns

/-- An unknown direction, three words, a blank entry, and blanks inside and outside ASCII. -/
theorem ofOrderBy_recovers_mixed :
    ofOrderBy (some (" größe\u3000down,a b c" ++ "," ++ "\t , name dEsC")) =
        ofOrderBy (some " größe\u3000down,a b c") ++ ofOrderBy (some "\t , name dEsC") ∧
      StandsFor ["größe".toList, "down".toList] (ofOrderBy (some " größe\u3000down")) ∧
      ofOrderBy (some (",".intercalate [" größe\u3000asC\n", "name\tDESc", "desc"])) =
        [⟨"größe", true⟩, ⟨"name", false⟩, ⟨"desc", true⟩] := by
  have blank : AllBlank [' '] ∧ AllBlank ['\u3000'] ∧ AllBlank ['\n'] ∧ AllBlank ['\t'] ∧
      AllBlank [] := by decide
  obtain ⟨space, wide, newline, tab, nothing⟩ := blank
  have column : ∀ name : String, IsWord name.toList ∧ ',' ∉ name.toList → IsColumn name :=
    fun _ ⟨isWord, noComma⟩ => ⟨isWord, noComma⟩
  have first : Writes ⟨"größe", true⟩
      ([' '] ++ ("größe".toList ++ (['\u3000'] ++ (['a', 's', 'C'] ++ ['\n'])))) :=
    .directed space (List.cons_ne_nil _ _) wide (by simp [InSomeCase, directionWord]) newline
  have second : Writes ⟨"name", false⟩
      ([] ++ ("name".toList ++ (['\t'] ++ (['D', 'E', 'S', 'c'] ++ [])))) :=
    .directed nothing (List.cons_ne_nil _ _) tab (by simp [InSomeCase, directionWord]) nothing
  have third : Writes ⟨"desc", true⟩ ([] ++ ("desc".toList ++ [])) :=
    .bare (.intro nothing nothing)
  refine ⟨ofOrderBy_recovers.1 _ _, ?_, ?_⟩
  · exact ofOrderBy_recovers.2.1 " größe\u3000down" _ (by decide) (spaced_iff_words.mpr rfl)
  · refine ofOrderBy_recovers.2.2 [⟨"größe", true⟩, ⟨"name", false⟩, ⟨"desc", true⟩] _ ?_
      (.cons first (.cons second (.cons third .nil)))
    simp only [List.forall_mem_cons]
    exact ⟨column _ (by decide), column _ (by decide), column _ (by decide),
      List.forall_mem_nil _⟩

end ContentApi.SortKey
