import ContentApi.Proofs.Text.Listed

/-!
# Words between blanks

`Spaced` is the notation of words with blanks around them: any number of blanks at the ends of a
text, and at least one between two words.  Every text is written so in exactly one way, and its
words in this sense are what it is cut into (`spaced_iff_words`).
-/

namespace ContentApi.Text

/-- A text without blanks that is not empty. -/
structure IsWord (text : List Char) : Prop where
  nonempty : text ≠ []
  noBlank : ∀ character ∈ text, isBlank character = false

/-- Words with blanks anywhere around them, of which at least one stands between two words. -/
inductive Spaced : List Char → List (List Char) → Prop where
  | nil : Spaced [] []
  | skip {blank : Char} {rest : List Char} {words : List (List Char)}
      (blanks : isBlank blank = true) (others : Spaced rest words) :
      Spaced (blank :: rest) words
  | last {word : List Char} (isWord : IsWord word) : Spaced word [word]
  | more {word rest : List Char} {blank : Char} {words : List (List Char)}
      (isWord : IsWord word) (blanks : isBlank blank = true) (others : Spaced rest words) :
      Spaced (word ++ blank :: rest) (word :: words)

instance (text : List Char) : Decidable (IsWord text) :=
  decidable_of_iff (text ≠ [] ∧ text.all (!isBlank ·) = true)
    ⟨fun ⟨nonempty, all⟩ => ⟨nonempty, by simpa using all⟩, fun isWord =>
      ⟨isWord.nonempty, by simpa using isWord.noBlank⟩⟩

theorem IsWord.cons {first : Char} {rest : List Char} (outside : isBlank first = false)
    (noBlank : ∀ character ∈ rest, isBlank character = false) : IsWord (first :: rest) :=
  ⟨List.cons_ne_nil _ _, List.forall_mem_cons.mpr ⟨outside, noBlank⟩⟩

/-- Blanks in front of spaced words change nothing. -/
theorem Spaced.of_blanks {blanks rest : List Char} {words : List (List Char)}
    (allBlank : AllBlank blanks) (spaced : Spaced rest words) : Spaced (blanks ++ rest) words := by
  induction blanks with
  | nil => exact spaced
  | cons first more ih =>
      obtain ⟨isBlank, others⟩ := List.forall_mem_cons.mp allBlank
      exact .skip isBlank (ih others)

/-- Behind a word come other words only if a blank stands between them. -/
theorem Spaced.of_word {word blanks rest : List Char} {words : List (List Char)}
    (isWord : IsWord word) (someBlanks : blanks ≠ []) (allBlank : AllBlank blanks)
    (spaced : Spaced rest words) : Spaced (word ++ (blanks ++ rest)) (word :: words) := by
  cases blanks with
  | nil => exact (someBlanks rfl).elim
  | cons first more =>
      obtain ⟨isBlank, others⟩ := List.forall_mem_cons.mp allBlank
      exact .more isWord isBlank (spaced.of_blanks others)

/-- A word with any blanks around it. -/
theorem Padded.spaced {word text : List Char} (padded : Padded word text)
    (isWord : IsWord word) : Spaced text [word] := by
  cases padded with
  | @intro before after blankBefore blankAfter =>
      apply Spaced.of_blanks blankBefore
      by_cases nothing : after = []
      · rw [nothing, List.append_nil]
        exact .last isWord
      · have spaced := Spaced.of_word isWord nothing blankAfter .nil
        rwa [List.append_nil] at spaced

/-! ## Cutting a text into words -/

theorem words_append {blank : Char} (blanks : isBlank blank = true) (front back : List Char) :
    words (front ++ blank :: back) = words front ++ words back := by
  rw [words, List.splitOnP_append_cons front back blanks, List.filter_append, ← words, ← words]

theorem IsWord.words_eq {word : List Char} (isWord : IsWord word) : words word = [word] := by
  rw [words, List.splitOnP_eq_singleton isWord.noBlank]
  simp [isWord.nonempty]

theorem Spaced.words_eq {text : List Char} {words : List (List Char)}
    (spaced : Spaced text words) : Text.words text = words := by
  induction spaced with
  | nil => rfl
  | @skip _ rest _ blanks _ ih =>
      have behind := words_append blanks [] rest
      rw [List.nil_append] at behind
      rw [behind, ih]
      rfl
  | last isWord => exact isWord.words_eq
  | more isWord blanks _ ih =>
      rw [words_append blanks, isWord.words_eq, ih]
      rfl

/-- Every text is spaced words: a character that is no blank begins a word or continues one. -/
theorem exists_spaced (text : List Char) : ∃ words, Spaced text words := by
  induction text with
  | nil => exact ⟨[], .nil⟩
  | cons first rest ih =>
      obtain ⟨words, spaced⟩ := ih
      cases blank : isBlank first with
      | true => exact ⟨words, .skip blank spaced⟩
      | false =>
          have alone : IsWord [first] := .cons blank (List.forall_mem_nil _)
          cases spaced with
          | nil => exact ⟨[[first]], .last alone⟩
          | skip blanks others => exact ⟨_, .more alone blanks others⟩
          | last isWord => exact ⟨_, .last (.cons blank isWord.noBlank)⟩
          | more isWord blanks others =>
              exact ⟨_, .more (.cons blank isWord.noBlank) blanks others⟩

/-- A text is cut into the words of which it is written with blanks, and into no others. -/
theorem spaced_iff_words {text : List Char} {words : List (List Char)} :
    Spaced text words ↔ Text.words text = words := by
  constructor
  · exact Spaced.words_eq
  · rintro rfl
    obtain ⟨words, spaced⟩ := exists_spaced text
    rwa [spaced.words_eq]

end ContentApi.Text
