import ContentApi.Proofs.Language
import ContentApi.Text.Blank

/-!
# Rows with commas

Parameters list things with commas between them and blanks anywhere around them.  Other than in
a clause nothing is refused: a piece of blanks between two commas is passed over.  `Row` is the
notation of such lists.  The tokens of a text are the names that it lists in this sense, in
their order: every text is a row of its tokens, and of no other names (`row_iff_tokens`).
-/

namespace ContentApi.Text

open ContentApi.Language

/-- Any number of blanks, in the wide sense. -/
def AllBlank (text : List Char) : Prop :=
  ∀ character ∈ text, isBlank character = true

/-- A text that is not empty, and that has no blank at its ends. -/
structure Trimmed (text : List Char) : Prop where
  nonempty : text ≠ []
  begins : Avoids isBlank text
  ends : Avoids isBlank text.reverse

instance (text : List Char) : Decidable (AllBlank text) :=
  decidable_of_iff (text.all isBlank = true) List.all_eq_true

instance (allowed : Char → Bool) (text : List Char) : Decidable (Avoids allowed text) :=
  match text with
  | [] => isTrue (avoids_nil allowed)
  | first :: rest => decidable_of_iff (allowed first = false) (avoids_cons allowed first rest).symm

instance (text : List Char) : Decidable (Trimmed text) :=
  decidable_of_iff (text ≠ [] ∧ Avoids isBlank text ∧ Avoids isBlank text.reverse)
    ⟨fun ⟨nonempty, begins, ends⟩ => ⟨nonempty, begins, ends⟩,
      fun trimmed => ⟨trimmed.nonempty, trimmed.begins, trimmed.ends⟩⟩

/-- A text with any blanks around it. -/
inductive Padded (core : List Char) : List Char → Prop where
  | intro {before after : List Char} (blankBefore : AllBlank before)
      (blankAfter : AllBlank after) : Padded core (before ++ (core ++ after))

/-- A name without commas, with any blanks around it. -/
structure Named (text : List Char) (name : String) : Prop where
  trimmed : Trimmed name.toList
  noComma : ',' ∉ name.toList
  padded : Padded name.toList text

/-- Pieces with commas between them, each of which is blank or a text of a language. -/
inductive Row {α : Type} (item : Language α) : Language (List α) where
  | blank {text : List Char} (allBlank : AllBlank text) : Row item text []
  | last {text : List Char} {value : α} (inside : item text value) : Row item text [value]
  | skip {text rest : List Char} {values : List α} (allBlank : AllBlank text)
      (others : Row item rest values) : Row item (text ++ ',' :: rest) values
  | more {text rest : List Char} {value : α} {values : List α} (inside : item text value)
      (others : Row item rest values) : Row item (text ++ ',' :: rest) (value :: values)

theorem AllBlank.reverse {text : List Char} (allBlank : AllBlank text) :
    AllBlank text.reverse := by
  intro character member
  exact allBlank character (List.mem_reverse.mp member)

theorem AllBlank.append {front back : List Char} (frontBlank : AllBlank front)
    (backBlank : AllBlank back) : AllBlank (front ++ back) := by
  intro character member
  rcases List.mem_append.mp member with inside | inside
  · exact frontBlank character inside
  · exact backBlank character inside

/-- A mark that is no blank does not stand among blanks. -/
theorem AllBlank.notMem {mark : Char} {text : List Char} (allBlank : AllBlank text)
    (noBlank : isBlank mark = false) : mark ∉ text := by
  intro member
  rw [allBlank mark member] at noBlank
  cases noBlank

theorem Row.mono {α : Type} {item other : Language α} {text : List Char} {values : List α}
    (row : Row item text values) (holds : ∀ text value, item text value → other text value) :
    Row other text values := by
  induction row with
  | blank allBlank => exact .blank allBlank
  | last inside => exact .last (holds _ _ inside)
  | skip allBlank _ ih => exact .skip allBlank ih
  | more inside _ ih => exact .more (holds _ _ inside) ih

/-- Apart from commas only the pieces of a row contain marks. -/
theorem Row.notMem {α : Type} {item : Language α} {mark : Char} {text : List Char}
    {values : List α} (row : Row item text values) (noBlank : isBlank mark = false)
    (noComma : mark ≠ ',') (outside : ∀ text value, item text value → mark ∉ text) :
    mark ∉ text := by
  induction row with
  | blank allBlank => exact allBlank.notMem noBlank
  | last inside => exact outside _ _ inside
  | skip allBlank _ ih => simp [noComma, ih, allBlank.notMem noBlank]
  | more inside _ ih => simp [noComma, ih, outside _ _ inside]

/-! ## Trimming -/

theorem dropWhile_isBlank {blanks rest : List Char} (allBlank : AllBlank blanks)
    (avoids : Avoids isBlank rest) : (blanks ++ rest).dropWhile isBlank = rest := by
  rw [List.dropWhile_append_of_pos allBlank]
  cases rest with
  | nil => rfl
  | cons first more =>
      have outside := (avoids_cons isBlank first more).mp avoids
      rw [List.dropWhile_cons_of_neg (by simp [outside])]

theorem avoids_dropWhile (text : List Char) : Avoids isBlank (text.dropWhile isBlank) := by
  intro first rest equal
  have kept := List.head?_dropWhile_not isBlank text
  rw [equal] at kept
  simpa using kept

theorem avoids_append {front : List Char} (nonempty : front ≠ []) (avoids : Avoids isBlank front)
    (back : List Char) : Avoids isBlank (front ++ back) := by
  cases front with
  | nil => exact (nonempty rfl).elim
  | cons first rest => exact (avoids_cons _ _ _).mpr (avoids first rest rfl)

theorem trim_eq_nil {text : List Char} (allBlank : AllBlank text) : trim text = [] := by
  have dropped := dropWhile_isBlank allBlank (avoids_nil isBlank)
  rw [List.append_nil] at dropped
  rw [trim, dropped]
  rfl

/-- Trimming takes the blanks around a text away. -/
theorem Padded.trim_eq {core text : List Char} (padded : Padded core text)
    (trimmed : Trimmed core) : trim text = core := by
  cases padded with
  | @intro before after blankBefore blankAfter =>
      have front := dropWhile_isBlank blankBefore
        (avoids_append trimmed.nonempty trimmed.begins after)
      have back := dropWhile_isBlank blankAfter.reverse trimmed.ends
      rw [trim, front, List.reverse_append, back, List.reverse_reverse]

theorem Padded.notMem {mark : Char} {core text : List Char} (padded : Padded core text)
    (noBlank : isBlank mark = false) (outside : mark ∉ core) : mark ∉ text := by
  cases padded with
  | intro blankBefore blankAfter =>
      simp only [List.mem_append, not_or]
      exact ⟨blankBefore.notMem noBlank, outside, blankAfter.notMem noBlank⟩

/-- What trimming takes away are blanks. -/
theorem padded_trim (text : List Char) : Padded (trim text) text := by
  have front : AllBlank (text.takeWhile isBlank) :=
    List.all_eq_true.mp List.all_takeWhile
  have back : AllBlank ((text.dropWhile isBlank).reverse.takeWhile isBlank) :=
    List.all_eq_true.mp List.all_takeWhile
  have whole : text.takeWhile isBlank ++
      (trim text ++ ((text.dropWhile isBlank).reverse.takeWhile isBlank).reverse) = text := by
    rw [trim, ← List.reverse_append, List.takeWhile_append_dropWhile, List.reverse_reverse,
      List.takeWhile_append_dropWhile]
  have padded : Padded (trim text) _ := .intro front back.reverse
  rwa [whole] at padded

theorem trimmed_trim {text : List Char} (nonempty : trim text ≠ []) : Trimmed (trim text) := by
  refine ⟨nonempty, ?_, ?_⟩
  · intro first rest equal
    have kept : Avoids isBlank (text.dropWhile isBlank) := avoids_dropWhile text
    -- What is left in front begins as the trimmed text does.
    have split : text.dropWhile isBlank =
        trim text ++ ((text.dropWhile isBlank).reverse.takeWhile isBlank).reverse := by
      rw [trim, ← List.reverse_append, List.takeWhile_append_dropWhile, List.reverse_reverse]
    rw [equal, List.cons_append] at split
    exact kept first _ split
  · rw [trim, List.reverse_reverse]
    exact avoids_dropWhile _

/-! ## Tokens -/

theorem tokens_append (front back : List Char) :
    tokens (front ++ ',' :: back) = tokens front ++ tokens back := by
  rw [tokens, List.splitOn_append_cons_self, List.map_append, List.filter_append, ← tokens,
    ← tokens]

theorem tokens_piece {text : List Char} (noComma : ',' ∉ text) :
    tokens text = if trim text = [] then [] else [trim text] := by
  rw [tokens, List.splitOn_eq_singleton noComma, List.map_singleton]
  split
  · rename_i empty
    simp [empty]
  · rename_i nonempty
    simp [nonempty]

theorem tokens_blank {text : List Char} (allBlank : AllBlank text) : tokens text = [] := by
  rw [tokens_piece (allBlank.notMem rfl), if_pos (trim_eq_nil allBlank)]

theorem Named.tokens_eq {text : List Char} {name : String} (named : Named text name) :
    tokens text = [name.toList] := by
  rw [tokens_piece (named.padded.notMem rfl named.noComma), named.padded.trim_eq named.trimmed,
    if_neg named.trimmed.nonempty]

/-- The names of a row are its tokens. -/
theorem Row.tokens_eq {text : List Char} {names : List String} (row : Row Named text names) :
    (tokens text).map String.ofList = names := by
  induction row with
  | blank allBlank => rw [tokens_blank allBlank, List.map_nil]
  | last named => rw [named.tokens_eq, List.map_singleton, String.ofList_toList]
  | skip allBlank others ih => rw [tokens_append, tokens_blank allBlank, List.nil_append, ih]
  | more named others ih =>
      rw [tokens_append, named.tokens_eq, List.map_append, ih, List.map_singleton,
        String.ofList_toList]
      rfl

theorem Padded.noComma {core text : List Char} (padded : Padded core text)
    (outside : ',' ∉ text) : ',' ∉ core := by
  cases padded with
  | intro blankBefore blankAfter =>
      intro member
      exact outside (List.mem_append_right _ (List.mem_append_left _ member))

/-- What stands between two commas is blank, or it is a name. -/
theorem blank_or_named {text : List Char} (noComma : ',' ∉ text) :
    AllBlank text ∨ ∃ name, Named text name := by
  have padded := padded_trim text
  by_cases empty : trim text = []
  · left
    rw [empty] at padded
    cases padded with
    | intro blankBefore blankAfter => exact blankBefore.append blankAfter
  · right
    refine ⟨String.ofList (trim text), ?_, ?_, ?_⟩
    all_goals rw [String.toList_ofList]
    · exact trimmed_trim empty
    · exact padded.noComma noComma
    · exact padded

theorem exists_row (text : List Char) : ∃ names, Row Named text names := by
  by_cases inside : ',' ∈ text
  · obtain ⟨piece, rest, whole, noComma⟩ := List.eq_append_cons_of_mem inside
    have shorter : rest.length < text.length := by
      rw [whole, List.length_append, List.length_cons]
      omega
    rcases exists_row rest with ⟨names, row⟩
    rw [whole]
    rcases blank_or_named noComma with allBlank | ⟨name, named⟩
    · exact ⟨names, .skip allBlank row⟩
    · exact ⟨name :: names, .more named row⟩
  · rcases blank_or_named inside with allBlank | ⟨name, named⟩
    · exact ⟨[], .blank allBlank⟩
    · exact ⟨[name], .last named⟩
termination_by text.length

/-- A text is a row of its tokens, and of no other names. -/
theorem row_iff_tokens {text : List Char} {names : List String} :
    Row Named text names ↔ (tokens text).map String.ofList = names := by
  constructor
  · exact Row.tokens_eq
  · rintro rfl
    rcases exists_row text with ⟨names, row⟩
    rwa [row.tokens_eq]

end ContentApi.Text
