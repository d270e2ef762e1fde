import ContentApi.Proofs.Condition.Locality
import ContentApi.Proofs.Path.Stopping

/-!
# Where conditions are rejected

A clause is rejected where its first test is missed as a comparison, because the alternatives in
front of the comparison are forgotten, or behind the conditions that were complete, because a
connective is given up with what stands behind it.  At five kinds of places in a simple condition
and at one kind behind a row of them the character could therefore have stood there.  At all
other places it is refused for good.
-/

namespace ContentApi.Condition

open ContentApi.Language Scanner Grammar

/-! ## What is given up -/

/-- The places in a simple condition at which the scanner has given up a reading. -/
inductive SimpleGivenUp : List Char → Char → Prop where
  /-- A slash behind which no name follows. -/
  | slash {path : List Char} {property : String} (spells : Path.Spells path property) :
      SimpleGivenUp path '/'
  /-- An infix keyword, or what begins like one. -/
  | operator {path before : List Char} {property : String} {character : Char}
      (spells : Path.Spells path property) (someBefore : SomeBlanks before)
      (isLetter : character.toLower ∈ ['b', 'i', 'm']) :
      SimpleGivenUp (path ++ before) character
  /-- A parenthesis behind the keyword `EXISTS`. -/
  | present {key blanks : List Char} (isWord : Keyword ['e', 'x', 'i', 's', 't', 's'] key)
      (allBlank : Blanks blanks) : SimpleGivenUp (key ++ blanks) '('
  /-- A path behind the keyword `NOT`. -/
  | negation {key blanks : List Char} {character : Char}
      (isWord : Keyword ['n', 'o', 't'] key) (someBlanks : SomeBlanks blanks)
      (inPath : Path.isPathCharacter character = true) :
      SimpleGivenUp (key ++ blanks) character
  /-- A quote with no closing one, or with a backslash that escapes nothing behind it. -/
  | quote {path before after : List Char} {property : String} {comparator : Comparator}
      {character : Char} (spells : Path.Spells path property) (blanksBefore : Blanks before)
      (blanksAfter : Blanks after) (isQuote : character = '\x27' ∨ character = '\x22') :
      SimpleGivenUp (path ++ (before ++ (comparator.sign.toList ++ after))) character

/-- A row of simple conditions joined with a connective, which may be a single one. -/
inductive Row (connective : Connective) : List Char → Prop where
  | intro {text row : List Char} {first : Condition} {others : List Condition}
      (head : Simple text first) (links : Star (Linked connective) row others) :
      Row connective (text ++ row)

/-- The places in a clause at which the scanner has given up a reading. -/
inductive GivenUp : List Char → Char → Prop where
  | inside {before blanks front : List Char} {character : Char} (blanksBefore : Blanks before)
      (allBlank : Blanks blanks) (givenUp : SimpleGivenUp front character) :
      GivenUp (before ++ '(' :: (blanks ++ front)) character
  /-- A connective behind which no condition follows, or what begins like one. -/
  | connective {before blanks text after : List Char} {connective : Connective}
      {character : Char} (blanksBefore : Blanks before) (allBlank : Blanks blanks)
      (row : Row connective text) (someAfter : SomeBlanks after)
      (isLetter : connective.word.head? = some character.toLower) :
      GivenUp (before ++ '(' :: (blanks ++ (text ++ after))) character

/-! ## What is given up could go on -/

/-- A keyword can be completed behind its first letter. -/
theorem keyword_of_letter {letter character : Char} {word : List Char}
    (isLetter : character.toLower = letter) (lower : Keyword word word) :
    Keyword (letter :: word) (character :: word) := by
  rw [Keyword, List.map_cons, isLetter, lower]

/-- Behind every path a comparison can be completed. -/
theorem test_equality {path : List Char} {property : String}
    (spells : Path.Spells path property) :
    Test (path ++ ['=', 'a']) (.compare property .equal "a") :=
  test_letter spells blanks_nil blanks_nil .equal

/-- Wherever a path begins, a comparison does. -/
theorem test_of_character {character : Char} (inPath : Path.isPathCharacter character = true) :
    ∃ back leaf, Test (character :: back) leaf := by
  rcases Bool.or_eq_true_iff.mp inPath with isName | isSlash
  · have spells : Path.Spells [character] (String.ofList [character]) :=
      ⟨String.toList_ofList.symm, .relative (.last (Path.isName_singleton isName))⟩
    exact ⟨['=', 'a'], _, test_equality spells⟩
  · obtain rfl := beq_iff_eq.mp isSlash
    have spells : Path.Spells ['/', 'a'] "/a" :=
      ⟨rfl, .rooted (.last (Path.isName_singleton rfl))⟩
    exact ⟨['a', '=', 'a'], _, test_equality spells⟩

/-- Every infix keyword is followed by values between parentheses. -/
theorem test_of_letter {path before : List Char} {property : String} {character : Char}
    (spells : Path.Spells path property) (someBefore : SomeBlanks before)
    (isLetter : character.toLower ∈ ['b', 'i', 'm']) :
    ∃ back leaf, Test (path ++ (before ++ character :: back)) leaf := by
  have operator : ∀ {letter : Char} {word : List Char}, character.toLower = letter →
      Keyword word word →
      Operator (letter :: word) (path ++ (before ++ (character :: word ++ []))) property :=
    fun same lower => .intro spells someBefore (keyword_of_letter same lower) blanks_nil
  rcases List.mem_cons.mp isLetter with isB | isLetter
  · have range : Range ['a', ',', 'a'] ("a", "a") :=
      .intro value_letter (.intro blanks_nil blanks_nil value_letter)
    have test := Test.between (operator isB rfl) (.intro blanks_nil range blanks_nil)
    simp only [List.append_assoc, List.cons_append] at test
    exact ⟨_, _, test⟩
  rcases List.mem_cons.mp isLetter with isI | isM
  · have values : CommaList Value ['a'] ["a"] := .intro value_letter .nil
    have test := Test.oneOf (operator isI rfl) (.intro blanks_nil values blanks_nil)
    simp only [List.append_assoc, List.cons_append] at test
    exact ⟨_, _, test⟩
  · have test := Test.like (operator (List.mem_singleton.mp isM) rfl)
      (.intro blanks_nil value_letter blanks_nil)
    simp only [List.append_assoc, List.cons_append] at test
    exact ⟨_, _, test⟩

theorem SimpleGivenUp.opens {front : List Char} {character : Char}
    (givenUp : SimpleGivenUp front character) : Opens Simple (front ++ [character]) := by
  cases givenUp with
  | slash spells =>
      rcases Path.spells_slash spells with ⟨longer, spells⟩
      have simple := Simple.test (test_equality spells)
      refine ⟨['a', '=', 'a'], .test (.compare longer .equal "a"), ?_⟩
      simpa only [List.append_assoc, List.cons_append, List.nil_append] using simple
  | operator spells someBefore isLetter =>
      rcases test_of_letter spells someBefore isLetter with ⟨back, leaf, test⟩
      have simple := Simple.test test
      refine ⟨back, .test leaf, ?_⟩
      simpa only [List.append_assoc, List.cons_append, List.nil_append] using simple
  | present isWord allBlank =>
      have simple := Simple.test
        (.present isWord allBlank (.intro blanks_nil Path.spells_letter blanks_nil))
      refine ⟨['a', ')'], .test (.present "a"), ?_⟩
      simpa only [List.append_assoc, List.cons_append, List.nil_append] using simple
  | negation isWord someBlanks inPath =>
      rcases test_of_character inPath with ⟨back, leaf, test⟩
      have negated := Simple.negation isWord someBlanks test
      refine ⟨back, .negation (.test leaf), ?_⟩
      simpa only [List.append_assoc, List.cons_append, List.nil_append] using negated
  | @quote path before after property comparator character spells blanksBefore blanksAfter
      isQuote =>
      have empty : Value (character :: ([] ++ [character])) (String.ofList []) :=
        .quoted isQuote .nil
      have test : Test _ (.compare property comparator (String.ofList [])) :=
        .compare spells blanksBefore blanksAfter empty
      refine ⟨[character], .test (.compare property comparator (String.ofList [])), .test ?_⟩
      simpa only [List.append_assoc, List.cons_append, List.nil_append] using test

/-- A clause goes on as the simple condition in it does. -/
theorem opens_inside {before blanks front : List Char} (blanksBefore : Blanks before)
    (allBlank : Blanks blanks) (opens : Opens Predicate front) :
    Opens Clause (before ++ '(' :: (blanks ++ front)) := by
  rcases opens with ⟨back, condition, predicate⟩
  have clause := Clause.intro blanksBefore (.intro allBlank predicate blanks_nil) blanks_nil
  refine ⟨back ++ [')'], condition, ?_⟩
  simpa only [List.append_assoc, List.cons_append, List.nil_append, List.append_nil]
    using clause

/-- A link can be completed behind the first letter of its connective. -/
theorem linked_of_letter {after : List Char} {connective : Connective} {character : Char}
    (someAfter : SomeBlanks after) (isLetter : connective.word.head? = some character.toLower) :
    ∃ back condition, Linked connective (after ++ character :: back) condition := by
  have simple := Simple.test (test_equality Path.spells_letter)
  have link : ∀ {key : List Char}, Keyword connective.word key →
      Linked connective (after ++ (key ++ ([' '] ++ (['a'] ++ ['=', 'a'])))) _ :=
    fun isWord => .intro someAfter isWord someBlanks_space simple
  cases connective with
  | and => exact ⟨_, _, link (keyword_of_letter (Option.some.inj isLetter).symm rfl)⟩
  | or => exact ⟨_, _, link (keyword_of_letter (Option.some.inj isLetter).symm rfl)⟩

theorem Row.join {text link : List Char} {connective : Connective} {condition : Condition}
    (row : Row connective text) (linked : Linked connective link condition) :
    ∃ longer, Predicate (text ++ link) longer := by
  cases row with
  | @intro text row first others head links =>
      have more : Star (Linked connective) (link ++ []) [condition] := .cons linked .nil
      rw [List.append_nil] at more
      have severalParts : others ++ [condition] ≠ [] :=
        List.append_ne_nil_of_right_ne_nil _ (List.cons_ne_nil _ _)
      rw [List.append_assoc]
      exact ⟨_, .joined head (links.append more) severalParts⟩

theorem GivenUp.opens {front : List Char} {character : Char} (givenUp : GivenUp front character) :
    Opens Clause (front ++ [character]) := by
  cases givenUp with
  | inside blanksBefore allBlank givenUp =>
      rcases givenUp.opens with ⟨back, condition, simple⟩
      have opens := opens_inside blanksBefore allBlank ⟨back, condition, .simple simple⟩
      simpa only [List.append_assoc, List.cons_append] using opens
  | @connective before blanks text after connective character blanksBefore allBlank row
      someAfter isLetter =>
      have opens : Opens Predicate (text ++ (after ++ [character])) := by
        rcases linked_of_letter someAfter isLetter with ⟨back, condition, link⟩
        rcases row.join link with ⟨longer, joined⟩
        refine ⟨back, longer, ?_⟩
        simpa only [List.append_assoc, List.cons_append, List.nil_append] using joined
      simpa only [List.append_assoc, List.cons_append] using
        opens_inside blanksBefore allBlank opens

/-! ## What is not given up is barred -/

theorem scanComparator_avoids {input : List Char} (refuses : Refuses scanComparator input) :
    Avoids (['=', '<', '>'].contains ·) input := by
  rintro first more rfl
  rcases refuses with ⟨rest, stopped⟩
  rw [scanComparator.eq_def] at stopped
  split at stopped
  · cases stopped
  · cases stopped
  · cases stopped
  · cases stopped
  · cases stopped
  · rename_i noEqual noLess noGreater
    simp only [List.contains_eq_mem, decide_eq_false_iff_not, List.mem_cons, List.not_mem_nil,
      or_false]
    rintro (rfl | rfl | rfl)
    · exact noEqual more rfl
    · exact noLess more rfl
    · exact noGreater more rfl

/-- Only an equality sign can make another sign of what is one. -/
theorem scanComparator_swap {comparator : Comparator} {rest back : List Char}
    (same : rest.head? = back.head?)
    (scanned : scanComparator (comparator.sign.toList ++ rest) = .ok (comparator, rest)) :
    scanComparator (comparator.sign.toList ++ back) = .ok (comparator, back) := by
  cases comparator with
  | equal => rfl
  | lessOrEqual => rfl
  | greaterOrEqual => rfl
  | less | greater =>
      apply scanComparator_complete
      apply avoids_of_head? same
      rintro first more rfl
      apply beq_eq_false_iff_ne.mpr
      rintro rfl
      cases scanned

/-- Behind a path, the character that is there decides which tests can follow. -/
theorem refuses_scanSimple_of_next {path before rest : List Char} {character : Char}
    (place : PathFirst path before (character :: rest))
    (noSign : Avoids (['=', '<', '>'].contains ·) (character :: rest))
    (noLetter : character.toLower ∉ ['b', 'i', 'm'])
    (notOpened : ¬(Keyword ['e', 'x', 'i', 's', 't', 's'] path ∧ character = '('))
    (notNegated : ¬(Keyword ['n', 'o', 't'] path ∧ before ≠ [] ∧
      Path.isPathCharacter character = true)) :
    Refuses scanSimple (path ++ (before ++ character :: rest)) := by
  have noTest : Refuses scanTest (path ++ (before ++ character :: rest)) := by
    apply place.refuses_scanTest
    · intro isWord
      apply (avoids_cons _ _ _).mpr
      exact beq_eq_false_iff_ne.mpr fun opened => notOpened ⟨isWord, opened⟩
    · intro letter member
      apply (avoids_cons _ _ _).mpr
      apply beq_eq_false_iff_ne.mpr
      rintro rfl
      exact noLetter member
    · exact noSign
  have noNegation : Refuses scanNegation (path ++ (before ++ character :: rest)) := by
    apply place.refuses_scanNegation
    intro isWord nonempty
    apply refuses_scanTest_of_noPath
    apply refuses_scan
    apply (avoids_cons _ _ _).mpr
    exact eq_false_of_ne_true fun inPath => notNegated ⟨isWord, nonempty, inPath⟩
  exact noNegation.either (noTest.map _)

/-- Where no sign stands behind a path, a reading without one is given up or none can follow. -/
theorem missing_sign_stopsAt {path before rest : List Char} {property : String}
    {character : Char} (spells : Path.Spells path property) (blanksBefore : Blanks before)
    (noName : Avoids Path.isNameCharacter (before ++ character :: rest))
    (solid : Avoids isSpace (character :: rest))
    (noSign : Avoids (['=', '<', '>'].contains ·) (character :: rest)) :
    SimpleGivenUp (path ++ before) character ∨ Bars scanSimple (path ++ before) character := by
  by_cases isSlash : before = [] ∧ character = '/'
  · rcases isSlash with ⟨rfl, rfl⟩
    rw [List.append_nil]
    exact Or.inl (.slash spells)
  by_cases isLetter : character.toLower ∈ ['b', 'i', 'm']
  · have lower : ∀ letter ∈ ['b', 'i', 'm'], letter.isLower = true := by simp
    have isName := Path.isNameCharacter_of_toLower (lower _ isLetter)
    have nonempty : before ≠ [] := by
      rintro rfl
      rw [(avoids_cons _ _ _).mp noName] at isName
      cases isName
    exact Or.inl (.operator spells ⟨nonempty, blanksBefore⟩ isLetter)
  by_cases isOpened : Keyword ['e', 'x', 'i', 's', 't', 's'] path ∧ character = '('
  · rcases isOpened with ⟨isWord, rfl⟩
    exact Or.inl (.present isWord blanksBefore)
  by_cases isNegated : Keyword ['n', 'o', 't'] path ∧ before ≠ [] ∧
      Path.isPathCharacter character = true
  · rcases isNegated with ⟨isWord, nonempty, inPath⟩
    exact Or.inl (.negation isWord ⟨nonempty, blanksBefore⟩ inPath)
  refine Or.inr fun back => ?_
  have next : (character :: rest).head? = (character :: back).head? := rfl
  have place : PathFirst path before (character :: back) := {
    isPath := spells.2
    allBlank := blanksBefore
    solid := avoids_of_head? next solid
    ends := Path.avoids_path_behind blanksBefore (avoids_swap noName back) isSlash }
  rw [List.append_assoc]
  exact refuses_scanSimple_of_next place (avoids_of_head? next noSign) isLetter isOpened isNegated

/-- Where no quote stands, the next character decides whether a value begins. -/
theorem scanValue_bars {character : Char} {rest : List Char}
    (refuses : Refuses scanValue (character :: rest))
    (noQuote : ¬(character = '\x27' ∨ character = '\x22')) : Bars scanValue [] character := by
  intro back
  have noBare : isBareCharacter character = false := by
    rcases refuses with ⟨stop, stopped⟩
    rw [scanValue, if_neg noQuote, scanBare] at stopped
    split at stopped
    · cases stopped
    · rename_i outside
      exact eq_false_of_ne_true outside
  refine ⟨character :: back, ?_⟩
  rw [List.nil_append, scanValue, if_neg noQuote, scanBare, if_neg]
  rw [List.head?_cons, Option.any_some, noBare]
  exact Bool.false_ne_true

/-- Behind a sign, nothing but a quote can be given up. -/
theorem missing_value_stopsAt {path before after rest : List Char} {property : String}
    {comparator : Comparator} {character : Char} (spells : Path.Spells path property)
    (blanksBefore : Blanks before) (blanksAfter : Blanks after)
    (solid : Avoids isSpace (character :: rest))
    (isSign : scanComparator (comparator.sign.toList ++ (after ++ character :: rest)) =
      .ok (comparator, after ++ character :: rest))
    (noValue : Refuses scanValue (character :: rest)) :
    SimpleGivenUp (path ++ (before ++ (comparator.sign.toList ++ after))) character ∨
      Bars scanSimple (path ++ (before ++ (comparator.sign.toList ++ after))) character := by
  by_cases isQuote : character = '\x27' ∨ character = '\x22'
  · exact Or.inl (.quote spells blanksBefore blanksAfter isQuote)
  refine Or.inr fun back => ?_
  have place := comparison_place spells blanksBefore comparator (after ++ character :: back)
  have same : (character :: rest).head? = (character :: back).head? := rfl
  have solidBack : Avoids isSpace (character :: back) := avoids_of_head? same solid
  have signed := scanComparator_swap (head?_swap same after) isSign
  have noNegation := place.refuses_scanNegation fun _ _ => refuses_scanTest_of_sign comparator _
  have noComparison : Refuses scanComparison
      (path ++ (before ++ (comparator.sign.toList ++ (after ++ character :: back)))) := by
    rw [scanComparison]
    refine .of_next place.scan ?_
    refine .of_next (skipSpaces_append blanksBefore place.solid) ?_
    refine .of_next signed ?_
    refine .of_next (skipSpaces_append blanksAfter solidBack) ?_
    exact (scanValue_bars noValue isQuote back).bind _
  have noTest : Refuses scanTest
      (path ++ (before ++ (comparator.sign.toList ++ (after ++ character :: back)))) := by
    rw [Refuses, scanTest_comparison spells blanksBefore]
    exact noComparison
  simp only [List.append_assoc]
  exact noNegation.either (noTest.map _)

theorem scanSimple_stopsAt : StopsAt scanSimple SimpleGivenUp := by
  intro input rest character stopped
  have inTest : scanTest input = .error (character :: rest) :=
    map_eq_error_iff.mp (either_eq_error stopped)
  have inComparison : scanComparison input = .error (character :: rest) :=
    either_eq_error (either_eq_error (either_eq_error (either_eq_error inTest)))
  rw [scanComparison] at inComparison
  rcases bind_eq_error_iff.mp inComparison with noPath | ⟨property, behind, isPath, behindPath⟩
  · rcases Path.scan_bars noPath with ⟨front, cut, bars⟩
    refine ⟨front, cut, Or.inr fun back => ?_⟩
    have noNegation : Refuses scanNegation (front ++ character :: back) := by
      rw [scanNegation]
      exact (refuses_keyword_of_noName rfl (Path.avoids_name_of_refuses (bars back))).bind _
    exact noNegation.either ((refuses_scanTest_of_noPath (bars back)).map _)
  have noName := Path.scan_ends isPath
  rcases Path.scan_sound isPath with ⟨path, rfl, spells⟩
  obtain ⟨before, behind, rfl, blanksBefore, solid, behindBlanks⟩ :=
    skipSpaces_bind_stopped behindPath
  rcases bind_eq_error_iff.mp behindBlanks with noSign | ⟨comparator, behind, isSign, behindSign⟩
  · obtain rfl := scanComparator_eq_error noSign
    exact ⟨path ++ before, (List.append_assoc _ _ _).symm, missing_sign_stopsAt spells
      blanksBefore noName solid (scanComparator_avoids ⟨_, noSign⟩)⟩
  obtain rfl := scanComparator_sound isSign
  rcases skipSpaces_bind_stopped behindSign with ⟨after, _, rfl, blanksAfter, solid, behindBlanks⟩
  rcases bind_eq_error_iff.mp behindBlanks with noValue | ⟨_, _, _, impossible⟩
  · obtain rfl := scanValue_eq_error noValue
    refine ⟨path ++ (before ++ (comparator.sign.toList ++ after)), ?_,
      missing_value_stopsAt spells blanksBefore blanksAfter solid isSign ⟨_, noValue⟩⟩
    simp only [List.append_assoc]
  · cases impossible

/-! ## Clauses -/

/-- No link begins where its connective cannot. -/
theorem connected_bars {connective : Connective} {blanks rest : List Char} {character : Char}
    (allBlank : Blanks blanks) (solid : Avoids isSpace (character :: rest))
    (notJoined : ¬(SomeBlanks blanks ∧ connective.word.head? = some character.toLower)) :
    Bars (connected connective.word) blanks character := by
  intro back
  have solidBack : Avoids isSpace (character :: back) :=
    (avoids_cons _ _ _).mpr ((avoids_cons _ _ _).mp solid)
  apply refuses_connected_of_letter allBlank solidBack
  intro nonempty letter isLetter
  apply (avoids_cons _ _ _).mpr
  apply beq_eq_false_iff_ne.mpr
  rintro rfl
  exact notJoined ⟨⟨nonempty, allBlank⟩, isLetter⟩

/-- Where links with one connective begin, or none does, a link with the other one is refused. -/
theorem refuses_connected_of_links {connective other : Connective} {row back : List Char}
    {conditions : List Condition} (links : Star (Linked other) row conditions)
    (different : other ≠ connective)
    (stops : conditions = [] → Refuses (connected connective.word) back) :
    Refuses (connected connective.word) (row ++ back) := by
  cases links with
  | nil => exact stops rfl
  | cons link others =>
      rw [List.append_assoc]
      exact refuses_connected link different _

/-- A predicate is read in the same way unless one of its connectives is given up behind it. -/
theorem scanPredicate_swap {input blanks rest : List Char} {condition : Condition}
    {character : Char} (allBlank : Blanks blanks) (solid : Avoids isSpace (character :: rest))
    (scanned : scanPredicate input = .ok (condition, blanks ++ character :: rest)) :
    ∃ text, input = text ++ (blanks ++ character :: rest) ∧
      ((∃ connective, Row connective text ∧ SomeBlanks blanks ∧
        connective.word.head? = some character.toLower) ∨
      ∀ back, scanPredicate (text ++ (blanks ++ character :: back)) =
        .ok (condition, blanks ++ character :: back)) := by
  simp only [scanPredicate_eq, bind_eq_ok_iff] at scanned
  rcases scanned with ⟨first, behind, simple, conjuncts, middle, conjoined, scanned⟩
  rcases scanSimple_local simple with ⟨head, rfl, isHead, headSwapped⟩
  rcases repeated_connected_swap conjoined with ⟨row, rfl, links, rowSwapped⟩
  cases conjuncts with
  | cons second others =>
      cases pure_eq_ok_iff.mp scanned
      refine ⟨head ++ row, (List.append_assoc _ _ _).symm, ?_⟩
      by_cases joined : SomeBlanks blanks ∧ Connective.and.word.head? = some character.toLower
      · exact Or.inl ⟨.and, .intro isHead links, joined⟩
      refine Or.inr fun back => ?_
      have same := head?_next blanks rest back character
      rw [List.append_assoc, scanPredicate_eq,
        bind_of_ok (headSwapped _ (head?_swap same row)),
        bind_of_ok (rowSwapped _ same (connected_bars allBlank solid joined back))]
      rfl
  | nil =>
      cases links
      simp only [bind_eq_ok_iff] at scanned
      rcases scanned with ⟨disjuncts, left, disjoined, scanned⟩
      rcases repeated_connected_swap disjoined with ⟨row, rfl, links, rowSwapped⟩
      obtain rfl : left = blanks ++ character :: rest := by
        cases disjuncts with
        | nil | cons => exact congrArg Prod.snd (pure_eq_ok_iff.mp scanned)
      refine ⟨head ++ row, (List.append_assoc head row _).symm, ?_⟩
      by_cases joined : SomeBlanks blanks ∧ Connective.or.word.head? = some character.toLower
      · exact Or.inl ⟨.or, .intro isHead links, joined⟩
      -- Only behind a single condition the other connective could follow.
      by_cases conjoined : disjuncts = [] ∧ SomeBlanks blanks ∧
          Connective.and.word.head? = some character.toLower
      · rcases conjoined with ⟨rfl, joined⟩
        cases links
        exact Or.inl ⟨.and, .intro isHead .nil, joined⟩
      refine Or.inr fun back => ?_
      have same := head?_next blanks rest back character
      have noAnd : Refuses (connected Connective.and.word)
          (row ++ (blanks ++ character :: back)) :=
        refuses_connected_of_links links (by decide) fun single =>
          connected_bars allBlank solid (fun joined => conjoined ⟨single, joined⟩) back
      rw [List.append_assoc, scanPredicate_eq,
        bind_of_ok (headSwapped _ (head?_swap same row)),
        bind_of_ok (repeated_of_refuses noAnd)]
      refine (bind_of_ok (rowSwapped _ same (connected_bars allBlank solid joined back))).trans ?_
      cases disjuncts with
      | nil | cons =>
          cases pure_eq_ok_iff.mp scanned
          rfl

/-- Between its parentheses a predicate is missed where its first condition is. -/
theorem missing_predicate_stopsAt {before blanks behind rest : List Char} {character : Char}
    (blanksBefore : Blanks before) (allBlank : Blanks blanks) (solid : Avoids isSpace behind)
    (missed : scanPredicate behind = .error (character :: rest)) :
    ∃ front, '(' :: (blanks ++ behind) = front ++ character :: rest ∧
      (GivenUp (before ++ front) character ∨
        Bars (parenthesized scanPredicate) front character) := by
  rcases scanSimple_stopsAt (scanPredicate_eq_error missed) with ⟨front, rfl, given | bars⟩
  · refine ⟨'(' :: (blanks ++ front), ?_, Or.inl (.inside blanksBefore allBlank given)⟩
    simp only [List.append_assoc, List.cons_append]
  refine ⟨'(' :: (blanks ++ front), ?_, Or.inr fun back => ?_⟩
  · simp only [List.append_assoc, List.cons_append]
  have noPredicate : Refuses scanPredicate (front ++ character :: back) := by
    rw [scanPredicate]
    exact (bars back).bind _
  simp only [List.append_assoc, List.cons_append]
  rw [parenthesized]
  refine .of_next (symbol_cons _ _) ?_
  exact .of_next (skipSpaces_append allBlank (avoids_swap solid back)) (noPredicate.bind _)

/-- Behind a predicate its parenthesis is missed, unless a connective is given up there. -/
theorem missing_closing_stopsAt {before blanks behind after rest : List Char} {character : Char}
    {condition : Condition} (blanksBefore : Blanks before) (allBlank : Blanks blanks)
    (solid : Avoids isSpace behind) (blanksAfter : Blanks after)
    (solidEnd : Avoids isSpace (character :: rest))
    (scanned : scanPredicate behind = .ok (condition, after ++ character :: rest))
    (notClosed : Avoids (· == ')') (character :: rest)) :
    ∃ front, '(' :: (blanks ++ behind) = front ++ character :: rest ∧
      (GivenUp (before ++ front) character ∨
        Bars (parenthesized scanPredicate) front character) := by
  rcases scanPredicate_swap blanksAfter solidEnd scanned with ⟨text, rfl, joined | swapped⟩
  · rcases joined with ⟨connective, row, someAfter, isLetter⟩
    refine ⟨'(' :: (blanks ++ (text ++ after)), ?_,
      Or.inl (.connective blanksBefore allBlank row someAfter isLetter)⟩
    simp only [List.append_assoc, List.cons_append]
  refine ⟨'(' :: (blanks ++ (text ++ after)), ?_, Or.inr fun back => ?_⟩
  · simp only [List.append_assoc, List.cons_append]
  have next : (character :: rest).head? = (character :: back).head? := rfl
  have solidText : Avoids isSpace (text ++ (after ++ character :: back)) :=
    avoids_of_head? (head?_swap (head?_swap next after) text) solid
  have notClosed := refuses_symbol (avoids_of_head? next notClosed)
  simp only [List.append_assoc, List.cons_append]
  rw [parenthesized]
  refine .of_next (symbol_cons _ _) ?_
  refine .of_next (skipSpaces_append allBlank solidText) ?_
  refine .of_next (swapped back) ?_
  exact .of_next (skipSpaces_append blanksAfter (avoids_of_head? next solidEnd))
    (notClosed.bind _)

/-- The parentheses of a clause stop as what is in them does, or where one of them is missed. -/
theorem scanParenthesized_stopsAt {before input rest : List Char} {character : Char}
    (blanksBefore : Blanks before)
    (missed : parenthesized scanPredicate input = .error (character :: rest)) :
    ∃ front, input = front ++ character :: rest ∧
      (GivenUp (before ++ front) character ∨
        Bars (parenthesized scanPredicate) front character) := by
  rw [parenthesized] at missed
  rcases bind_eq_error_iff.mp missed with notOpened | ⟨_, opened, isOpen, behindOpen⟩
  · obtain rfl := character_eq_error notOpened
    refine ⟨[], rfl, Or.inr fun back => refuses_parenthesized _ ?_⟩
    have next : (character :: rest).head? = (character :: back).head? := rfl
    exact avoids_of_head? next (avoids_of_refuses ⟨_, notOpened⟩)
  obtain rfl := symbol_eq_ok isOpen
  rcases skipSpaces_bind_stopped behindOpen with ⟨blanks, behind, rfl, allBlank, solid, stopped⟩
  rcases bind_eq_error_iff.mp stopped with missed | ⟨condition, left, scanned, stopped⟩
  · exact missing_predicate_stopsAt blanksBefore allBlank solid missed
  rcases skipSpaces_bind_stopped stopped with ⟨after, _, rfl, blanksAfter, solidEnd, atEnd⟩
  rcases bind_eq_error_iff.mp atEnd with notClosed | ⟨_, _, _, impossible⟩
  · obtain rfl := character_eq_error notClosed
    exact missing_closing_stopsAt blanksBefore allBlank solid blanksAfter solidEnd scanned
      (avoids_of_refuses ⟨_, notClosed⟩)
  · cases impossible

theorem scanClause_stopsAt : StopsAt scanClause GivenUp := by
  rw [scanClause_eq]
  refine stopsAt_surrounded (fun blanksBefore _ => scanParenthesized_stopsAt blanksBefore) ?_
  intro before behind after rest character condition _ _ _ scanned
  rcases scanPredicate_sound.parenthesized scanned with ⟨text, rfl, holds⟩
  exact ⟨text, rfl, Or.inr fun back => scanParenthesized_complete holds trivial⟩

end ContentApi.Condition
