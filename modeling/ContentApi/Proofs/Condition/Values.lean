import ContentApi.Proofs.Condition.Grammar

/-!
# Reading values

Every path and every value of a condition ends in front of a character that is not bare, and
what may stand behind it never begins with one.  This module relates the characters of the
notation to each other in that respect, and shows that values are read as the grammar has
them.
-/

namespace ContentApi.Condition

open ContentApi.Language Scanner Grammar

/-! ## Characters -/

theorem isBareCharacter_of_path {character : Char}
    (isPath : Path.isPathCharacter character = true) : isBareCharacter character = true := by
  rw [Path.isPathCharacter] at isPath
  rw [isBareCharacter, isPath]
  rfl

theorem not_bare_of_space {character : Char} (blank : isSpace character = true) :
    isBareCharacter character = false := by
  simp only [isSpace, Bool.or_eq_true, beq_iff_eq] at blank
  rcases blank with ((rfl | rfl) | rfl) | rfl <;> rfl

theorem not_space_of_bare {character : Char} (bare : isBareCharacter character = true) :
    isSpace character = false := by
  cases blank : isSpace character with
  | false => rfl
  | true => rw [not_bare_of_space blank] at bare; cases bare

theorem isBareCharacter_of_toLower {character : Char}
    (letter : character.toLower.isLower = true) : isBareCharacter character = true :=
  isBareCharacter_of_path
    (Path.isPathCharacter_of_name (Path.isNameCharacter_of_toLower letter))

theorem avoids_path_of_avoids_bare {rest : List Char}
    (avoids : Avoids isBareCharacter rest) : Avoids Path.isPathCharacter rest := by
  intro first more equal
  have noBare := avoids first more equal
  cases inside : Path.isPathCharacter first with
  | false => rfl
  | true => rw [isBareCharacter_of_path inside] at noBare; cases noBare

/-- What is left behind blanks that have been passed over ends every path and every value. -/
theorem avoids_bare_of_blanks {blanks rest : List Char} (allBlank : Blanks blanks)
    (avoids : Avoids isBareCharacter rest) : Avoids isBareCharacter (blanks ++ rest) :=
  allBlank.append_avoids (fun _ blank => not_bare_of_space blank) avoids

theorem avoids_bare_of_someBlanks {blanks : List Char} (some : SomeBlanks blanks)
    (rest : List Char) : Avoids isBareCharacter (blanks ++ rest) :=
  (some.begins.append rest).avoids fun _ blank => not_bare_of_space blank

theorem avoids_space_of_begins {text : List Char} (begins : Begins isBareCharacter text) :
    Avoids isSpace text :=
  begins.avoids fun _ bare => not_space_of_bare bare

/-! ## Keywords -/

/-- The letters of a keyword are bare characters, so it begins with one. -/
theorem keyword_begins {letter : Char} {word key : List Char}
    (isWord : Keyword (letter :: word) key) :
    Begins (fun first => first.toLower == letter) key := by
  cases key with
  | nil => cases isWord
  | cons first rest =>
      rw [Keyword, List.map_cons] at isWord
      injection isWord with same others
      exact ⟨first, rest, rfl, beq_iff_eq.mpr same⟩

theorem keyword_begins_bare {letter : Char} {word key : List Char}
    (isWord : Keyword (letter :: word) key) (lower : letter.isLower = true) :
    Begins isBareCharacter key := by
  rcases keyword_begins isWord with ⟨first, rest, rfl, same⟩
  refine ⟨first, rest, rfl, isBareCharacter_of_toLower ?_⟩
  rw [beq_iff_eq.mp same]
  exact lower

/-- A keyword does not begin with the first letter of another one. -/
theorem keyword_avoids {letter other : Char} {word key : List Char}
    (isWord : Keyword (letter :: word) key) (different : letter ≠ other)
    (rest : List Char) : Avoids (fun first => first.toLower == other) (key ++ rest) := by
  refine ((keyword_begins isWord).append rest).avoids ?_
  intro character same
  rw [beq_iff_eq.mp same]
  exact beq_eq_false_iff_ne.mpr different

/-- A keyword is a name, so it can also be read as a path. -/
theorem keyword_isName {word key : List Char} (isWord : Keyword word key)
    (nonempty : word ≠ []) (lower : ∀ letter ∈ word, letter.isLower = true) :
    Path.IsName key := by
  refine ⟨?_, ?_⟩
  · rintro rfl
    exact nonempty isWord.symm
  · intro character member
    apply Path.isNameCharacter_of_toLower
    apply lower
    rw [← isWord]
    exact List.mem_map_of_mem member

/-! ## Values -/

theorem isEscapable_iff (character : Char) :
    isEscapable character = true ↔
      character = '\\' ∨ character = '\x27' ∨ character = '\x22' := by
  simp [isEscapable, or_assoc]

theorem scanQuoted_sound {quote : Char} {input value rest : List Char}
    (scanned : scanQuoted quote input = some (value, rest)) :
    ∃ text, input = text ++ quote :: rest ∧ QuotedText quote text value := by
  fun_induction scanQuoted quote input generalizing value rest with
  | case1 => cases scanned
  | case2 more =>
      cases scanned
      exact ⟨[], rfl, .nil⟩
  | case3 => cases scanned
  | case4 escaped more escapable notQuote ih =>
      rcases Option.map_eq_some_iff.mp scanned with ⟨⟨inner, behind⟩, found, equal⟩
      cases equal
      rcases ih found with ⟨text, rfl, quoted⟩
      exact ⟨'\\' :: escaped :: text, rfl,
        .escaped ((isEscapable_iff escaped).mp escapable) quoted⟩
  | case5 => cases scanned
  | case6 character more notQuote notBackslash ih =>
      rcases Option.map_eq_some_iff.mp scanned with ⟨⟨inner, behind⟩, found, equal⟩
      cases equal
      rcases ih found with ⟨text, rfl, quoted⟩
      exact ⟨character :: text, rfl, .plain notQuote notBackslash quoted⟩

theorem scanQuoted_complete {quote : Char} {text value : List Char}
    (isQuote : quote = '\x27' ∨ quote = '\x22') (quoted : QuotedText quote text value)
    (rest : List Char) : scanQuoted quote (text ++ quote :: rest) = some (value, rest) := by
  have notBackslash : '\\' ≠ quote := by
    rcases isQuote with rfl | rfl <;> decide
  induction quoted with
  | nil => rw [List.nil_append, scanQuoted.eq_def]; simp only [if_true]
  | plain notQuote noBackslash more ih =>
      rw [List.cons_append, scanQuoted.eq_def]
      simp only [notQuote, noBackslash, if_false, ih, Option.map_some]
  | escaped escapable more ih =>
      have allowed := (isEscapable_iff _).mpr escapable
      rw [List.cons_append, List.cons_append, scanQuoted.eq_def]
      simp only [notBackslash, allowed, if_true, if_false, ih, Option.map_some]

theorem scanBare_sound : Sound scanBare Value := by
  intro input rest value scanned
  rw [scanBare] at scanned
  split at scanned
  · rename_i starts
    cases scanned
    refine ⟨input.takeWhile isBareCharacter, List.takeWhile_append_dropWhile.symm,
      .bare ?_ ?_⟩
    · cases input with
      | nil => cases starts
      | cons first more =>
          rw [List.takeWhile_cons_of_pos (by simpa using starts)]
          exact List.cons_ne_nil _ _
    · intro character member
      exact List.all_eq_true.mp List.all_takeWhile character member
  · cases scanned

theorem scanBare_complete {text rest : List Char} (nonempty : text ≠ [])
    (all : ∀ character ∈ text, isBareCharacter character = true)
    (avoids : Avoids isBareCharacter rest) :
    scanBare (text ++ rest) = .ok (String.ofList text, rest) := by
  have ends : rest.takeWhile isBareCharacter = [] ∧
      rest.dropWhile isBareCharacter = rest := by
    cases rest with
    | nil => exact ⟨rfl, rfl⟩
    | cons first more =>
        have outside := (avoids_cons isBareCharacter first more).mp avoids
        simp [outside]
  have starts : (text ++ rest).head?.any isBareCharacter = true := by
    cases text with
    | nil => exact (nonempty rfl).elim
    | cons first more => exact all first List.mem_cons_self
  rw [scanBare, if_pos starts, List.takeWhile_append_of_pos all,
    List.dropWhile_append_of_pos all, ends.1, ends.2, List.append_nil]

theorem scanValue_sound : Sound scanValue Value := by
  intro input rest value scanned
  cases input with
  | nil => cases scanned
  | cons first more =>
      rw [scanValue] at scanned
      split at scanned
      · rename_i isQuote
        split at scanned
        · rename_i inner behind found
          cases scanned
          rcases scanQuoted_sound found with ⟨text, rfl, quoted⟩
          refine ⟨first :: (text ++ [first]), ?_, .quoted isQuote quoted⟩
          simp only [List.cons_append, List.append_assoc, List.nil_append]
        · cases scanned
      · exact scanBare_sound scanned

/-- A text that ends with a bare character. -/
def EndsBare (text : List Char) : Prop :=
  text.getLast?.any isBareCharacter = true

theorem EndsBare.append {text : List Char} (ends : EndsBare text) (front : List Char) :
    EndsBare (front ++ text) := by
  rw [EndsBare] at ends ⊢
  rw [List.getLast?_append]
  cases last : text.getLast? with
  | none =>
      rw [last] at ends
      cases ends
  | some character =>
      rw [last] at ends
      exact ends

/-- The end of a text is the end of what stands last in it. -/
theorem EndsBare.of_append {front text : List Char} (ends : EndsBare (front ++ text))
    (nonempty : text ≠ []) : EndsBare text := by
  rw [EndsBare, List.getLast?_append, List.getLast?_eq_some_getLast nonempty] at ends
  rw [EndsBare, List.getLast?_eq_some_getLast nonempty]
  exact ends

theorem endsBare_of_all {text : List Char} (nonempty : text ≠ [])
    (all : ∀ character ∈ text, isBareCharacter character = true) : EndsBare text := by
  rw [EndsBare, List.getLast?_eq_some_getLast nonempty]
  exact all _ (List.getLast_mem nonempty)

/-- No run of bare characters reaches from the end of a text into what follows it. -/
def Parted (text rest : List Char) : Prop :=
  EndsBare text → Avoids isBareCharacter rest

theorem parted_of_avoids {text rest : List Char} (avoids : Avoids isBareCharacter rest) :
    Parted text rest :=
  fun _ => avoids

/-- Only the end of a text matters to what follows it. -/
theorem Parted.of_append {front text rest : List Char} (parted : Parted (front ++ text) rest) :
    Parted text rest :=
  fun ends => parted (ends.append front)

/-- A value between quotes ends there, and a run of bare characters where it is parted. -/
theorem scanValue_append {text rest : List Char} {value : String} (holds : Value text value)
    (parted : Parted text rest) : scanValue (text ++ rest) = .ok (value, rest) := by
  cases holds with
  | quoted isQuote inside =>
      simp only [List.cons_append, List.append_assoc, List.nil_append]
      rw [scanValue, if_pos isQuote, scanQuoted_complete isQuote inside]
  | bare nonempty all =>
      have avoids : Avoids isBareCharacter rest :=
        parted (endsBare_of_all nonempty all)
      cases text with
      | nil => exact (nonempty rfl).elim
      | cons first more =>
          have bare : isBareCharacter first = true := all first List.mem_cons_self
          have noQuote : ¬ (first = '\x27' ∨ first = '\x22') := by
            rintro (rfl | rfl) <;> cases bare
          have scanned := scanBare_complete nonempty all avoids
          rw [List.cons_append] at scanned ⊢
          rw [scanValue, if_neg noQuote, scanned]

theorem scanValue_complete : Complete scanValue Value (Avoids isBareCharacter) :=
  fun _ _ _ holds avoids => scanValue_append holds (parted_of_avoids avoids)

theorem value_solid : Solid Value := by
  intro text value holds
  cases holds with
  | quoted isQuote inside =>
      refine ⟨_, _, rfl, ?_⟩
      rcases isQuote with rfl | rfl <;> rfl
  | bare nonempty all =>
      cases text with
      | nil => exact (nonempty rfl).elim
      | cons first more =>
          refine ⟨first, more, rfl, ?_⟩
          simp [not_space_of_bare (all first List.mem_cons_self)]

end ContentApi.Condition
