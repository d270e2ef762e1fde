import ContentApi.Proofs.Condition.Values

/-!
# Reading tests

The scanner of tests tries its alternatives in order and never returns to an earlier one.
Nothing is lost by that, for one reason: a test that begins with a path shows its kind behind
that path, by the first letter of a keyword or by a sign, so the alternatives in front of its
own refuse it.  `PathFirst` describes the place at which they do.  The same place decides
whether `NOT` is a keyword or a property of that name.
-/

namespace ContentApi.Condition

open ContentApi.Language Scanner Grammar

/-! ## Signs -/

theorem scanComparator_sound {input rest : List Char} {comparator : Comparator}
    (scanned : scanComparator input = .ok (comparator, rest)) :
    input = comparator.sign.toList ++ rest := by
  rw [scanComparator.eq_def] at scanned
  split at scanned
  all_goals cases scanned
  all_goals rfl

/-- A sign is read as a whole if no further equality sign follows. -/
theorem scanComparator_complete (comparator : Comparator) {rest : List Char}
    (avoids : Avoids (· == '=') rest) :
    scanComparator (comparator.sign.toList ++ rest) = .ok (comparator, rest) := by
  have noEqual : ∀ more, rest ≠ '=' :: more := by
    intro more equal
    have outside := avoids '=' more equal
    cases outside
  cases comparator with
  | equal => rfl
  | less => exact scanComparator.eq_4 rest noEqual
  | greater => exact scanComparator.eq_5 rest noEqual
  | lessOrEqual => rfl
  | greaterOrEqual => rfl

/-- A sign is neither a blank nor a letter nor any other bare character. -/
theorem sign_begins (comparator : Comparator) :
    Begins (['=', '<', '>'].contains ·) comparator.sign.toList := by
  cases comparator with
  | equal => exact ⟨'=', [], rfl, rfl⟩
  | less => exact ⟨'<', [], rfl, rfl⟩
  | greater => exact ⟨'>', [], rfl, rfl⟩
  | lessOrEqual => exact ⟨'<', ['='], rfl, rfl⟩
  | greaterOrEqual => exact ⟨'>', ['='], rfl, rfl⟩

theorem sign_avoids {refused : Char → Bool} (comparator : Comparator) (rest : List Char)
    (equal : refused '=' = false) (less : refused '<' = false)
    (greater : refused '>' = false) :
    Avoids refused (comparator.sign.toList ++ rest) := by
  refine ((sign_begins comparator).append rest).avoids ?_
  intro character isSign
  simp only [List.contains_eq_mem, List.mem_cons, List.not_mem_nil, or_false,
    decide_eq_true_eq] at isSign
  rcases isSign with rfl | rfl | rfl
  · exact equal
  · exact less
  · exact greater

theorem refuses_scanComparator {input : List Char}
    (avoids : Avoids (['=', '<', '>'].contains ·) input) :
    Refuses scanComparator input := by
  apply refuses_of_no_success
  rintro ⟨comparator, rest⟩ scanned
  rcases (sign_begins comparator).append rest with ⟨first, more, equal, isSign⟩
  have outside := avoids first more ((scanComparator_sound scanned).trans equal)
  exact Bool.false_ne_true (outside.symm.trans isSign)

/-! ## Infix keywords -/

theorem scanOperator_sound (word : List Char) :
    Sound (scanOperator word) (Operator word) := by
  intro input rest property scanned
  simp only [scanOperator, bind_eq_ok_iff, pure_eq_ok_iff] at scanned
  rcases scanned with ⟨_, _, first, _, _, second, _, _, third, _, _, fourth, equal⟩
  cases equal
  rcases Path.scan_sound first with ⟨path, rfl, spells⟩
  rcases spaces_eq_ok second with ⟨before, rfl, someBefore, -⟩
  rcases keyword_eq_ok third with ⟨key, rfl, isWord⟩
  rcases skipSpaces_eq_ok fourth with ⟨after, rfl, blanksAfter, -⟩
  refine ⟨_, ?_, .intro spells someBefore isWord blanksAfter⟩
  simp only [List.append_assoc]

theorem scanOperator_complete {letter : Char} {word : List Char}
    (lower : letter.isLower = true) :
    Complete (scanOperator (letter :: word)) (Operator (letter :: word))
      (Avoids isSpace) := by
  intro text rest property holds avoids
  cases holds with
  | @intro path before key after _ spells someBefore isWord blanksAfter =>
      have ends : Avoids Path.isPathCharacter (before ++ (key ++ (after ++ rest))) :=
        avoids_path_of_avoids_bare (avoids_bare_of_someBlanks someBefore _)
      have solid : Avoids isSpace (key ++ (after ++ rest)) :=
        avoids_space_of_begins ((keyword_begins_bare isWord lower).append _)
      simp only [List.append_assoc, scanOperator]
      rw [bind_of_ok (Path.scan_complete spells ends),
        bind_of_ok (spaces_append someBefore solid),
        bind_of_ok (keyword_append isWord _),
        bind_of_ok (skipSpaces_append blanksAfter avoids)]
      rfl

/-! ## Where a test with a path in front shows its kind -/

/-- A path, and behind it blanks and a text that cannot be taken for more of the path. -/
structure PathFirst (path blanks rest : List Char) : Prop where
  isPath : Path.IsPath path
  allBlank : Blanks blanks
  solid : Avoids isSpace rest
  ends : Avoids Path.isPathCharacter (blanks ++ rest)

theorem PathFirst.scan {path blanks rest : List Char} (place : PathFirst path blanks rest) :
    Path.scan (path ++ (blanks ++ rest)) = .ok (String.ofList path, blanks ++ rest) :=
  Path.scan_complete ⟨String.toList_ofList.symm, place.isPath⟩ place.ends

/-- An infix keyword is refused if its first letter does not stand behind the blanks. -/
theorem PathFirst.refuses_scanOperator {path blanks rest word : List Char} {letter : Char}
    (place : PathFirst path blanks rest)
    (noLetter : Avoids (fun first => first.toLower == letter) rest) :
    Refuses (scanOperator (letter :: word)) (path ++ (blanks ++ rest)) := by
  rw [scanOperator]
  refine .of_next place.scan ?_
  cases blanks with
  | nil => exact (refuses_spaces place.solid).bind _
  | cons first more =>
      have scanned : spaces (first :: more ++ rest) = .ok ((), rest) :=
        spaces_append ⟨List.cons_ne_nil _ _, place.allBlank⟩ place.solid
      exact .of_next scanned ((refuses_keyword noLetter).bind _)

theorem PathFirst.refuses_scanComparison {path blanks rest : List Char}
    (place : PathFirst path blanks rest)
    (noSign : Avoids (['=', '<', '>'].contains ·) rest) :
    Refuses scanComparison (path ++ (blanks ++ rest)) := by
  rw [scanComparison]
  exact .of_next place.scan <|
    .of_next (skipSpaces_append place.allBlank place.solid)
      ((refuses_scanComparator noSign).bind _)

/-- A keyword at the start of a path does not reach beyond the path. -/
theorem keyword_within_path {word path rest behind : List Char}
    (lower : ∀ letter ∈ word, letter.isLower = true)
    (ends : Avoids Path.isPathCharacter rest)
    (scanned : keyword word (path ++ rest) = .ok ((), behind)) :
    ∃ key back, path = key ++ back ∧ behind = back ++ rest ∧ Keyword word key := by
  rcases keyword_eq_ok scanned with ⟨key, equal, isWord⟩
  rcases List.append_eq_append_iff.mp equal with ⟨extra, rfl, same⟩ | ⟨back, rfl, rfl⟩
  · cases extra with
    | nil =>
        rw [List.append_nil] at isWord
        exact ⟨path, [], (List.append_nil _).symm, same.symm, isWord⟩
    | cons first more =>
        have noPath := ends first (more ++ behind) same
        have isLetter : first.toLower ∈ word := by
          rw [← isWord]
          exact List.mem_map_of_mem (List.mem_append_right path List.mem_cons_self)
        rw [Path.isPathCharacter_of_name (Path.isNameCharacter_of_toLower (lower _ isLetter))]
          at noPath
        cases noPath
  · exact ⟨key, back, rfl, rfl, isWord⟩

/-- Behind a keyword, either the path goes on or it ends there and is the keyword. -/
theorem PathFirst.keyword_cases {path blanks rest word behind : List Char}
    (place : PathFirst path blanks rest)
    (lower : ∀ letter ∈ word, letter.isLower = true)
    (scanned : keyword word (path ++ (blanks ++ rest)) = .ok ((), behind)) :
    Begins isBareCharacter behind ∨ behind = blanks ++ rest ∧ Keyword word path := by
  rcases keyword_within_path lower place.ends scanned with ⟨key, back, cut, rfl, isWord⟩
  cases back with
  | nil =>
      rw [List.append_nil] at cut
      exact Or.inr ⟨rfl, cut ▸ isWord⟩
  | cons first more =>
      have inPath : Path.isPathCharacter first = true := by
        apply place.isPath.all_isPathCharacter
        rw [cut]
        exact List.mem_append_right key List.mem_cons_self
      exact Or.inl ⟨first, more ++ (blanks ++ rest), rfl, isBareCharacter_of_path inPath⟩

theorem refuses_parenthesized {α : Type} (inner : Scanner α) {input : List Char}
    (notOpen : Avoids (· == '(') input) : Refuses (parenthesized inner) input := by
  rw [parenthesized]
  exact (refuses_symbol notOpen).bind _

/-- A property may be called `exists` if no parenthesis stands behind it. -/
theorem PathFirst.refuses_scanPresent {path blanks rest : List Char}
    (place : PathFirst path blanks rest)
    (notOpen : Keyword ['e', 'x', 'i', 's', 't', 's'] path → Avoids (· == '(') rest) :
    Refuses scanPresent (path ++ (blanks ++ rest)) := by
  rw [scanPresent]
  cases scanned : keyword ['e', 'x', 'i', 's', 't', 's'] (path ++ (blanks ++ rest)) with
  | error stopped => exact Refuses.bind ⟨stopped, scanned⟩ _
  | ok success =>
      rcases success with ⟨_, behind⟩
      refine .of_next scanned ?_
      rcases place.keyword_cases (by simp) scanned with begins | ⟨rfl, isWord⟩
      · have stays : skipSpaces ([] ++ behind) = .ok ((), behind) :=
          skipSpaces_append blanks_nil (avoids_space_of_begins begins)
        have notOpen : Avoids (· == '(') behind := begins.avoids (isMark_of_outside rfl)
        exact .of_next stays ((refuses_parenthesized _ notOpen).bind _)
      · exact .of_next (skipSpaces_append place.allBlank place.solid)
          ((refuses_parenthesized _ (notOpen isWord)).bind _)

/-- A property may be called `not` if no test stands behind it. -/
theorem PathFirst.refuses_scanNegation {path blanks rest : List Char}
    (place : PathFirst path blanks rest)
    (noTest : Keyword ['n', 'o', 't'] path → blanks ≠ [] → Refuses scanTest rest) :
    Refuses scanNegation (path ++ (blanks ++ rest)) := by
  rw [scanNegation]
  cases scanned : keyword ['n', 'o', 't'] (path ++ (blanks ++ rest)) with
  | error stopped => exact Refuses.bind ⟨stopped, scanned⟩ _
  | ok success =>
      rcases success with ⟨_, behind⟩
      refine .of_next scanned ?_
      rcases place.keyword_cases (by simp) scanned with begins | ⟨rfl, isWord⟩
      · exact (refuses_spaces (avoids_space_of_begins begins)).bind _
      · cases blanks with
        | nil => exact (refuses_spaces place.solid).bind _
        | cons first more =>
            have passed : spaces (first :: more ++ rest) = .ok ((), rest) :=
              spaces_append ⟨List.cons_ne_nil _ _, place.allBlank⟩ place.solid
            exact .of_next passed ((noTest isWord (List.cons_ne_nil _ _)).bind _)

/-! ## The kinds of tests -/

theorem scanPresent_sound : Sound scanPresent Test := by
  intro input rest leaf scanned
  simp only [scanPresent, bind_eq_ok_iff, pure_eq_ok_iff] at scanned
  rcases scanned with ⟨_, _, first, _, _, second, property, _, third, equal⟩
  cases equal
  rcases keyword_eq_ok first with ⟨key, rfl, isWord⟩
  rcases skipSpaces_eq_ok second with ⟨blanks, rfl, allBlank, -⟩
  rcases Path.scan_sound.parenthesized third with ⟨text, rfl, inside⟩
  refine ⟨_, ?_, .present isWord allBlank inside⟩
  simp only [List.append_assoc]

theorem scanRange_sound : Sound scanRange Range := by
  intro input rest range scanned
  simp only [scanRange, bind_eq_ok_iff, pure_eq_ok_iff] at scanned
  rcases scanned with ⟨low, _, first, high, _, second, equal⟩
  cases equal
  rcases scanValue_sound first with ⟨front, rfl, isLow⟩
  rcases scanValue_sound.commaThen second with ⟨back, rfl, isHigh⟩
  exact ⟨front ++ back, (List.append_assoc _ _ _).symm, .intro isLow isHigh⟩

theorem scanBetween_sound : Sound scanBetween Test := by
  intro input rest leaf scanned
  simp only [scanBetween, bind_eq_ok_iff, pure_eq_ok_iff] at scanned
  rcases scanned with ⟨property, _, first, ⟨low, high⟩, _, second, equal⟩
  cases equal
  rcases scanOperator_sound _ first with ⟨front, rfl, operator⟩
  rcases scanRange_sound.parenthesized second with ⟨text, rfl, inside⟩
  exact ⟨front ++ text, (List.append_assoc _ _ _).symm, .between operator inside⟩

theorem scanOneOf_sound : Sound scanOneOf Test := by
  intro input rest leaf scanned
  simp only [scanOneOf, bind_eq_ok_iff, pure_eq_ok_iff] at scanned
  rcases scanned with ⟨property, _, first, values, _, second, equal⟩
  cases equal
  rcases scanOperator_sound _ first with ⟨front, rfl, operator⟩
  rcases scanValue_sound.commaSeparated.parenthesized second with ⟨text, rfl, inside⟩
  exact ⟨front ++ text, (List.append_assoc _ _ _).symm, .oneOf operator inside⟩

theorem scanLike_sound : Sound scanLike Test := by
  intro input rest leaf scanned
  simp only [scanLike, bind_eq_ok_iff, pure_eq_ok_iff] at scanned
  rcases scanned with ⟨property, _, first, pattern, _, second, equal⟩
  cases equal
  rcases scanOperator_sound _ first with ⟨front, rfl, operator⟩
  rcases scanValue_sound.parenthesized second with ⟨text, rfl, inside⟩
  exact ⟨front ++ text, (List.append_assoc _ _ _).symm, .like operator inside⟩

theorem scanComparison_sound : Sound scanComparison Test := by
  intro input rest leaf scanned
  simp only [scanComparison, bind_eq_ok_iff, pure_eq_ok_iff] at scanned
  obtain ⟨property, _, first, _, _, second, comparator, _, third, _, _, fourth, value, _,
    fifth, equal⟩ := scanned
  cases equal
  rcases Path.scan_sound first with ⟨path, rfl, spells⟩
  rcases skipSpaces_eq_ok second with ⟨before, rfl, blanksBefore, -⟩
  obtain rfl := scanComparator_sound third
  rcases skipSpaces_eq_ok fourth with ⟨after, rfl, blanksAfter, -⟩
  rcases scanValue_sound fifth with ⟨text, rfl, inside⟩
  refine ⟨_, ?_, .compare spells blanksBefore blanksAfter inside⟩
  simp only [List.append_assoc]

/-- What the scanner of tests passes over is a test. -/
theorem scanTest_sound : Sound scanTest Test :=
  scanPresent_sound.either <| scanBetween_sound.either <| scanOneOf_sound.either <|
    scanLike_sound.either scanComparison_sound

/-- Blanks and a closing parenthesis end a value. -/
theorem closes_value {blanks : List Char} (rest : List Char) (allBlank : Blanks blanks) :
    Avoids isBareCharacter (blanks ++ ')' :: rest) :=
  avoids_bare_of_blanks allBlank ((avoids_cons _ _ _).mpr rfl)

/-- Blanks and a comma end a value. -/
theorem comma_ends_value {blanks : List Char} (rest : List Char)
    (allBlank : Blanks blanks) : Avoids isBareCharacter (blanks ++ ',' :: rest) :=
  avoids_bare_of_blanks allBlank ((avoids_cons _ _ _).mpr rfl)

theorem scanRange_complete : Complete scanRange Range (Avoids isBareCharacter) := by
  intro text rest range holds avoids
  cases holds with
  | @intro first second low high isLow isHigh =>
      have ends : Avoids isBareCharacter (second ++ rest) := by
        cases isHigh with
        | intro blanksBefore blanksAfter inside =>
            simp only [List.append_assoc, List.cons_append]
            exact comma_ends_value _ blanksBefore
      rw [List.append_assoc, scanRange, bind_of_ok (scanValue_complete isLow ends),
        bind_of_ok (scanValue_complete.commaThen value_solid isHigh avoids)]
      rfl

theorem range_solid : Solid Range := by
  intro text range holds
  cases holds with
  | intro isLow isHigh => exact (value_solid isLow).append _

theorem commaList_solid : Solid (CommaList Value) := by
  intro text values holds
  cases holds with
  | intro head tail => exact (value_solid head).append _

theorem parenthesized_avoids {α : Type} {item : Language α} {text : List Char} {value : α}
    {refused : Char → Bool} (holds : Parenthesized item text value)
    (outside : refused '(' = false) (rest : List Char) :
    Avoids refused (text ++ rest) := by
  cases holds with
  | intro blanksBefore inside blanksAfter => exact (avoids_cons _ _ _).mpr outside

/-- The place at which a test with an infix keyword shows its kind. -/
theorem Grammar.Operator.place {letter : Char} {word front : List Char} {property : String}
    (operator : Operator (letter :: word) front property)
    (lower : letter.isLower = true) (rest : List Char) :
    ∃ path before key after, front = path ++ (before ++ (key ++ after)) ∧
      Keyword (letter :: word) key ∧ Blanks after ∧
      PathFirst path before (key ++ (after ++ rest)) := by
  cases operator with
  | @intro path before key after _ spells someBefore isWord blanksAfter =>
      refine ⟨path, before, key, after, rfl, isWord, blanksAfter, ?_⟩
      exact {
        isPath := spells.2
        allBlank := someBefore.2
        solid := avoids_space_of_begins ((keyword_begins_bare isWord lower).append _)
        ends := avoids_path_of_avoids_bare (avoids_bare_of_someBlanks someBefore _) }

theorem Grammar.Operator.refuses_scanPresent {letter : Char} {word front : List Char}
    {property : String} (operator : Operator (letter :: word) front property)
    (lower : letter.isLower = true) (rest : List Char) :
    Refuses scanPresent (front ++ rest) := by
  rcases operator.place lower rest with ⟨path, before, key, after, rfl, isWord, -, place⟩
  have notOpen : Avoids (· == '(') (key ++ (after ++ rest)) :=
    ((keyword_begins_bare isWord lower).append _).avoids (isMark_of_outside rfl)
  simp only [List.append_assoc]
  exact place.refuses_scanPresent fun _ => notOpen

theorem Grammar.Operator.refuses_scanOperator {letter other : Char}
    {word others front : List Char} {property : String}
    (operator : Operator (letter :: word) front property)
    (lower : letter.isLower = true) (different : letter ≠ other) (rest : List Char) :
    Refuses (scanOperator (other :: others)) (front ++ rest) := by
  rcases operator.place lower rest with ⟨path, before, key, after, rfl, isWord, -, place⟩
  simp only [List.append_assoc]
  exact place.refuses_scanOperator (keyword_avoids isWord different _)

/-- A path is no test if neither a parenthesis nor a keyword nor a sign is where it is due. -/
theorem PathFirst.refuses_scanTest {path blanks rest : List Char}
    (place : PathFirst path blanks rest)
    (notOpen : Keyword ['e', 'x', 'i', 's', 't', 's'] path → Avoids (· == '(') rest)
    (noLetter : ∀ letter ∈ ['b', 'i', 'm'], Avoids (fun first => first.toLower == letter) rest)
    (noSign : Avoids (['=', '<', '>'].contains ·) rest) :
    Refuses scanTest (path ++ (blanks ++ rest)) := by
  have present := place.refuses_scanPresent notOpen
  have between : Refuses scanBetween (path ++ (blanks ++ rest)) := by
    rw [scanBetween]
    exact (place.refuses_scanOperator (noLetter 'b' (by decide))).bind _
  have oneOf : Refuses scanOneOf (path ++ (blanks ++ rest)) := by
    rw [scanOneOf]
    exact (place.refuses_scanOperator (noLetter 'i' (by decide))).bind _
  have like : Refuses scanLike (path ++ (blanks ++ rest)) := by
    rw [scanLike]
    exact (place.refuses_scanOperator (noLetter 'm' (by decide))).bind _
  have comparison := place.refuses_scanComparison noSign
  exact present.either (between.either (oneOf.either (like.either comparison)))

/-- An infix keyword in front of a parenthesis is not the start of a test. -/
theorem refuses_scanTest_of_keyword {letter : Char} {word key blanks : List Char}
    (isWord : Keyword (letter :: word) key)
    (lower : ∀ other ∈ letter :: word, other.isLower = true) (notExists : letter ≠ 'e')
    (allBlank : Blanks blanks) (rest : List Char) :
    Refuses scanTest (key ++ (blanks ++ '(' :: rest)) := by
  have place : PathFirst key blanks ('(' :: rest) := {
    isPath := .relative (.last (keyword_isName isWord (List.cons_ne_nil _ _) lower))
    allBlank := allBlank
    solid := (avoids_cons _ _ _).mpr rfl
    ends := avoids_path_of_avoids_bare
      (avoids_bare_of_blanks allBlank ((avoids_cons _ _ _).mpr rfl)) }
  apply place.refuses_scanTest
  · intro isExists
    exact (notExists (List.head_eq_of_cons_eq (isWord.symm.trans isExists))).elim
  · intro letter member
    apply (avoids_cons _ _ _).mpr
    rcases List.mem_cons.mp member with rfl | member
    · rfl
    rcases List.mem_cons.mp member with rfl | member
    · rfl
    · rw [List.mem_singleton.mp member]
      rfl
  · exact (avoids_cons _ _ _).mpr rfl

theorem Grammar.Operator.refuses_scanNegation {letter : Char} {word front rest : List Char}
    {property : String} (operator : Operator (letter :: word) front property)
    (lower : ∀ other ∈ letter :: word, other.isLower = true) (notExists : letter ≠ 'e')
    (opens : Begins (· == '(') rest) : Refuses scanNegation (front ++ rest) := by
  obtain ⟨path, before, key, after, rfl, isWord, blanksAfter, place⟩ :=
    operator.place (lower letter List.mem_cons_self) rest
  rcases opens with ⟨first, more, rfl, isOpen⟩
  rw [beq_iff_eq.mp isOpen] at place ⊢
  simp only [List.append_assoc]
  exact place.refuses_scanNegation fun _ _ =>
    refuses_scanTest_of_keyword isWord lower notExists blanksAfter more

theorem parenthesized_begins {α : Type} {item : Language α} {text : List Char} {value : α}
    (holds : Parenthesized item text value) : Begins (· == '(') text := by
  cases holds with
  | intro blanksBefore inside blanksAfter => exact ⟨'(', _, rfl, rfl⟩

theorem refuses_scan {input : List Char} (avoids : Avoids Path.isPathCharacter input) :
    Refuses Path.scan input := by
  apply refuses_of_no_success
  rintro ⟨path, rest⟩ scanned
  rcases Path.scan_sound scanned with ⟨text, rfl, spells⟩
  rcases spells.2.begins.append rest with ⟨first, more, equal, inside⟩
  exact Bool.false_ne_true ((avoids first more equal).symm.trans inside)

/-- Where no name begins, no keyword does. -/
theorem refuses_keyword_of_noName {letter : Char} {word input : List Char}
    (lower : letter.isLower = true) (noName : Avoids Path.isNameCharacter input) :
    Refuses (keyword (letter :: word)) input := by
  apply refuses_keyword
  rintro first more rfl
  apply beq_eq_false_iff_ne.mpr
  rintro rfl
  have outside := (avoids_cons _ _ _).mp noName
  rw [Path.isNameCharacter_of_toLower lower] at outside
  cases outside

/-- Every test begins with a path or could be taken for one. -/
theorem refuses_scanTest_of_noPath {input : List Char} (noPath : Refuses Path.scan input) :
    Refuses scanTest input := by
  have present : Refuses scanPresent input := by
    rw [scanPresent]
    exact (refuses_keyword_of_noName rfl (Path.avoids_name_of_refuses noPath)).bind _
  have between : Refuses scanBetween input := by
    rw [scanBetween]
    exact Refuses.bind (noPath.bind _) _
  have oneOf : Refuses scanOneOf input := by
    rw [scanOneOf]
    exact Refuses.bind (noPath.bind _) _
  have like : Refuses scanLike input := by
    rw [scanLike]
    exact Refuses.bind (noPath.bind _) _
  have comparison : Refuses scanComparison input := by
    rw [scanComparison]
    exact noPath.bind _
  exact present.either (between.either (oneOf.either (like.either comparison)))

/-- No test begins with a sign. -/
theorem refuses_scanTest_of_sign (comparator : Comparator) (rest : List Char) :
    Refuses scanTest (comparator.sign.toList ++ rest) :=
  refuses_scanTest_of_noPath (refuses_scan (sign_avoids comparator rest rfl rfl rfl))

/-! ## Every test is read -/

theorem scanPresent_complete {key blanks text rest : List Char} {property : String}
    (isWord : Keyword ['e', 'x', 'i', 's', 't', 's'] key) (allBlank : Blanks blanks)
    (inside : Parenthesized Path.Spells text property) :
    scanPresent (key ++ (blanks ++ (text ++ rest))) = .ok (.present property, rest) := by
  have scanPath : Complete Path.scan Path.Spells (Avoids isBareCharacter) :=
    fun _ _ _ spells avoids => Path.scan_complete spells (avoids_path_of_avoids_bare avoids)
  rw [scanPresent, bind_of_ok (keyword_append isWord _),
    bind_of_ok (skipSpaces_append allBlank (parenthesized_avoids inside rfl rest)),
    bind_of_ok (scanPath.parenthesized Path.spells_solid closes_value inside trivial)]
  rfl

/-- The place at which a comparison shows its kind. -/
theorem comparison_place {path before : List Char} {property : String}
    (spells : Path.Spells path property) (blanksBefore : Blanks before)
    (comparator : Comparator) (rest : List Char) :
    PathFirst path before (comparator.sign.toList ++ rest) where
  isPath := spells.2
  allBlank := blanksBefore
  solid := sign_avoids comparator rest rfl rfl rfl
  ends := avoids_path_of_avoids_bare
    (avoids_bare_of_blanks blanksBefore (sign_avoids comparator rest rfl rfl rfl))

theorem scanComparison_append {path before after text rest : List Char}
    {property value : String} {comparator : Comparator}
    (spells : Path.Spells path property) (blanksBefore : Blanks before)
    (blanksAfter : Blanks after) (inside : Value text value) (parted : Parted text rest) :
    scanComparison
        (path ++ (before ++ (comparator.sign.toList ++ (after ++ (text ++ rest))))) =
      .ok (.compare property comparator value, rest) := by
  have place := comparison_place spells blanksBefore comparator (after ++ (text ++ rest))
  have noEqual : Avoids (· == '=') (after ++ (text ++ rest)) := by
    apply blanksAfter.append_avoids (isMark_of_outside rfl)
    cases inside with
    | quoted isQuote quoted =>
        rcases isQuote with rfl | rfl
        · exact (avoids_cons _ _ _).mpr rfl
        · exact (avoids_cons _ _ _).mpr rfl
    | bare nonempty all =>
        cases text with
        | nil => exact (nonempty rfl).elim
        | cons first more =>
            have bare : isBareCharacter first = true := all first List.mem_cons_self
            exact (avoids_cons _ _ _).mpr (isMark_of_outside rfl first bare)
  rw [scanComparison,
    bind_of_ok (Path.scan_complete spells place.ends),
    bind_of_ok (skipSpaces_append blanksBefore place.solid),
    bind_of_ok (scanComparator_complete comparator noEqual),
    bind_of_ok (skipSpaces_append blanksAfter (value_solid.avoids inside rest)),
    bind_of_ok (scanValue_append inside parted)]
  rfl

/-- A sign behind a path rules out all tests but comparisons. -/
theorem scanTest_comparison {path before : List Char} {property : String}
    (spells : Path.Spells path property) (blanksBefore : Blanks before)
    (comparator : Comparator) (rest : List Char) :
    scanTest (path ++ (before ++ (comparator.sign.toList ++ rest))) =
      scanComparison (path ++ (before ++ (comparator.sign.toList ++ rest))) := by
  have place := comparison_place spells blanksBefore comparator rest
  have notOpen : Avoids (· == '(') (comparator.sign.toList ++ rest) :=
    sign_avoids comparator _ rfl rfl rfl
  have operators : ∀ {letter : Char} {word : List Char},
      ('=' : Char).toLower ≠ letter → ('<' : Char).toLower ≠ letter →
      ('>' : Char).toLower ≠ letter →
      Refuses (scanOperator (letter :: word))
        (path ++ (before ++ (comparator.sign.toList ++ rest))) := by
    intro letter word equal less greater
    exact place.refuses_scanOperator
      (sign_avoids comparator _ (beq_eq_false_iff_ne.mpr equal)
        (beq_eq_false_iff_ne.mpr less) (beq_eq_false_iff_ne.mpr greater))
  rw [scanTest, either_of_refuses (place.refuses_scanPresent fun _ => notOpen),
    either_of_refuses (by rw [scanBetween]; exact
      (operators (by decide) (by decide) (by decide)).bind _),
    either_of_refuses (by rw [scanOneOf]; exact
      (operators (by decide) (by decide) (by decide)).bind _),
    either_of_refuses (by rw [scanLike]; exact
      (operators (by decide) (by decide) (by decide)).bind _)]

/-- A test is read as a whole, whichever alternative it is. -/
theorem scanTest_append {text rest : List Char} {leaf : PropertyTest} (holds : Test text leaf)
    (parted : Parted text rest) : scanTest (text ++ rest) = .ok (leaf, rest) := by
  cases holds with
  | present isWord allBlank inside =>
      simp only [List.append_assoc]
      exact either_of_ok (scanPresent_complete isWord allBlank inside)
  | @between front text property low high operator inside =>
      have opens : Avoids isSpace (text ++ rest) := parenthesized_avoids inside rfl rest
      have scanned : scanBetween (front ++ (text ++ rest)) =
          .ok (.between property low high, rest) := by
        rw [scanBetween, bind_of_ok (scanOperator_complete rfl operator opens),
          bind_of_ok (scanRange_complete.parenthesized range_solid closes_value inside
            trivial)]
        rfl
      rw [List.append_assoc, scanTest,
        either_of_refuses (operator.refuses_scanPresent rfl _)]
      exact either_of_ok scanned
  | @oneOf front text property values operator inside =>
      have opens : Avoids isSpace (text ++ rest) := parenthesized_avoids inside rfl rest
      have closes : ∀ {blanks : List Char} (rest : List Char), Blanks blanks →
          Avoids isBareCharacter (blanks ++ ')' :: rest) ∧
            Refuses (commaThen scanValue) (blanks ++ ')' :: rest) := by
        intro blanks rest allBlank
        exact ⟨closes_value rest allBlank,
          refuses_commaThen _ allBlank ((avoids_cons _ _ _).mpr rfl)
            ((avoids_cons _ _ _).mpr rfl)⟩
      have scanned : scanOneOf (front ++ (text ++ rest)) =
          .ok (.oneOf property values, rest) := by
        rw [scanOneOf, bind_of_ok (scanOperator_complete rfl operator opens),
          bind_of_ok ((scanValue_complete.commaSeparated value_solid
            comma_ends_value).parenthesized commaList_solid closes inside trivial)]
        rfl
      have between : Refuses scanBetween (front ++ (text ++ rest)) := by
        rw [scanBetween]
        exact (operator.refuses_scanOperator rfl (by decide) _).bind _
      rw [List.append_assoc, scanTest,
        either_of_refuses (operator.refuses_scanPresent rfl _), either_of_refuses between]
      exact either_of_ok scanned
  | @like front text property pattern operator inside =>
      have opens : Avoids isSpace (text ++ rest) := parenthesized_avoids inside rfl rest
      have scanned : scanLike (front ++ (text ++ rest)) =
          .ok (.like property pattern, rest) := by
        rw [scanLike, bind_of_ok (scanOperator_complete rfl operator opens),
          bind_of_ok (scanValue_complete.parenthesized value_solid closes_value inside
            trivial)]
        rfl
      have between : Refuses scanBetween (front ++ (text ++ rest)) := by
        rw [scanBetween]
        exact (operator.refuses_scanOperator rfl (by decide) _).bind _
      have oneOf : Refuses scanOneOf (front ++ (text ++ rest)) := by
        rw [scanOneOf]
        exact (operator.refuses_scanOperator rfl (by decide) _).bind _
      rw [List.append_assoc, scanTest,
        either_of_refuses (operator.refuses_scanPresent rfl _), either_of_refuses between,
        either_of_refuses oneOf]
      exact either_of_ok scanned
  | @compare path before after text property value comparator spells blanksBefore
      blanksAfter inside =>
      have partedValue : Parted text rest := parted.of_append.of_append.of_append.of_append
      simp only [List.append_assoc]
      rw [scanTest_comparison spells blanksBefore comparator]
      exact scanComparison_append spells blanksBefore blanksAfter inside partedValue

end ContentApi.Condition
