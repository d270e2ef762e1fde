import ContentApi.Proofs.Condition.Tests
import Mathlib.Data.List.TakeWhile

/-!
# Reading conditions by their grammar

A clause compiles to a condition exactly if it stands for that condition in the grammar,
although the scanner never returns to a shorter reading and tries `AND` before `OR`.

Simple conditions in a row are followed in the form `Star LinkedAny`, in which each may have
a connective of its own.  The scanner takes the connective of the first link and goes on as
long as it stays the same.  What is left begins with the other connective or not at all, and
in front of the other connective no parenthesis closes, so a clause that mixes the two is
rejected.
-/

namespace ContentApi.Condition

open ContentApi.Language Scanner Grammar

/-! ## Simple conditions -/

theorem scanNegation_sound : Sound scanNegation Simple := by
  intro input rest condition scanned
  simp only [scanNegation, bind_eq_ok_iff, pure_eq_ok_iff] at scanned
  rcases scanned with ⟨_, _, first, _, _, second, leaf, _, third, equal⟩
  cases equal
  rcases keyword_eq_ok first with ⟨key, rfl, isWord⟩
  rcases spaces_eq_ok second with ⟨blanks, rfl, someBlanks, -⟩
  rcases scanTest_sound third with ⟨text, rfl, inside⟩
  refine ⟨_, ?_, .negation isWord someBlanks inside⟩
  simp only [List.append_assoc]

theorem scanSimple_sound : Sound scanSimple Simple := by
  have test : Sound (Condition.test <$> scanTest) Simple := by
    intro input rest condition scanned
    rcases map_eq_ok_iff.mp scanned with ⟨leaf, behind, found, equal⟩
    cases equal
    rcases scanTest_sound found with ⟨text, rfl, inside⟩
    exact ⟨text, rfl, .test inside⟩
  exact scanNegation_sound.either test

/-- A test is not taken for a negated one, even if its property is called `not`. -/
theorem refuses_scanNegation_of_test {text : List Char} {leaf : PropertyTest}
    (holds : Test text leaf) (rest : List Char) :
    Refuses scanNegation (text ++ rest) := by
  cases holds with
  | present isWord allBlank inside =>
      rw [List.append_assoc, scanNegation]
      exact (refuses_keyword (keyword_avoids isWord (by decide) _)).bind _
  | between operator inside =>
      rw [List.append_assoc]
      exact operator.refuses_scanNegation (by simp) (by decide)
        ((parenthesized_begins inside).append rest)
  | oneOf operator inside =>
      rw [List.append_assoc]
      exact operator.refuses_scanNegation (by simp) (by decide)
        ((parenthesized_begins inside).append rest)
  | like operator inside =>
      rw [List.append_assoc]
      exact operator.refuses_scanNegation (by simp) (by decide)
        ((parenthesized_begins inside).append rest)
  | @compare path before after text property value comparator spells blanksBefore
      blanksAfter inside =>
      simp only [List.append_assoc]
      exact (comparison_place spells blanksBefore comparator _).refuses_scanNegation
        fun _ _ => refuses_scanTest_of_sign comparator _

theorem test_begins {text : List Char} {leaf : PropertyTest} (holds : Test text leaf) :
    Begins isBareCharacter text := by
  have path : ∀ {path : List Char} {property : String}, Path.Spells path property →
      Begins isBareCharacter path := by
    intro path property spells
    rcases spells.2.begins with ⟨first, rest, rfl, inside⟩
    exact ⟨first, rest, rfl, isBareCharacter_of_path inside⟩
  have front : ∀ {word front : List Char} {property : String},
      Operator word front property → Begins isBareCharacter front := by
    intro word front property operator
    cases operator with
    | intro spells someBefore isWord blanksAfter => exact (path spells).append _
  cases holds with
  | present isWord allBlank inside => exact (keyword_begins_bare isWord rfl).append _
  | between operator inside => exact (front operator).append _
  | oneOf operator inside => exact (front operator).append _
  | like operator inside => exact (front operator).append _
  | compare spells blanksBefore blanksAfter inside => exact (path spells).append _

theorem simple_begins {text : List Char} {condition : Condition}
    (holds : Simple text condition) : Begins isBareCharacter text := by
  cases holds with
  | test inside => exact test_begins inside
  | negation isWord someBlanks inside => exact (keyword_begins_bare isWord rfl).append _

/-- A simple condition is read as a whole. -/
theorem scanSimple_append {text rest : List Char} {condition : Condition}
    (holds : Simple text condition) (parted : Parted text rest) :
    scanSimple (text ++ rest) = .ok (condition, rest) := by
  cases holds with
  | test inside =>
      rw [scanSimple, either_of_refuses (refuses_scanNegation_of_test inside rest)]
      exact map_eq_ok_iff.mpr ⟨_, rest, scanTest_append inside parted, rfl⟩
  | @negation key blanks text leaf isWord someBlanks inside =>
      have solid : Avoids isSpace (text ++ rest) :=
        avoids_space_of_begins ((test_begins inside).append rest)
      have scanned : scanNegation (key ++ (blanks ++ (text ++ rest))) =
          .ok (.negation (.test leaf), rest) := by
        rw [scanNegation, bind_of_ok (keyword_append isWord _),
          bind_of_ok (spaces_append someBlanks solid),
          bind_of_ok (scanTest_append inside parted.of_append.of_append)]
        rfl
      simp only [List.append_assoc]
      exact either_of_ok scanned

theorem scanSimple_complete : Complete scanSimple Simple (Avoids isBareCharacter) :=
  fun _ _ _ holds avoids => scanSimple_append holds (parted_of_avoids avoids)

/-! ## Connectives -/

theorem connected_sound (connective : Connective) :
    Sound (connected connective.word) (Linked connective) := by
  intro input rest condition scanned
  simp only [connected, bind_eq_ok_iff] at scanned
  rcases scanned with ⟨_, _, first, _, _, second, _, _, third, fourth⟩
  rcases spaces_eq_ok first with ⟨before, rfl, someBefore, -⟩
  rcases keyword_eq_ok second with ⟨key, rfl, isWord⟩
  rcases spaces_eq_ok third with ⟨after, rfl, someAfter, -⟩
  rcases scanSimple_sound fourth with ⟨text, rfl, inside⟩
  refine ⟨_, ?_, .intro someBefore isWord someAfter inside⟩
  simp only [List.append_assoc]

theorem connective_begins {connective : Connective} {key : List Char}
    (isWord : Keyword connective.word key) : Begins isBareCharacter key := by
  cases connective with
  | and => exact keyword_begins_bare isWord rfl
  | or => exact keyword_begins_bare isWord rfl

/-- Behind a connective between blanks it is the simple condition that is read. -/
theorem connected_eq {connective : Connective} {before key after text : List Char}
    {condition : Condition} (someBefore : SomeBlanks before)
    (isWord : Keyword connective.word key) (someAfter : SomeBlanks after)
    (inside : Simple text condition) (rest : List Char) :
    connected connective.word (before ++ (key ++ (after ++ (text ++ rest)))) =
      scanSimple (text ++ rest) := by
  have solidKey : Avoids isSpace (key ++ (after ++ (text ++ rest))) :=
    avoids_space_of_begins ((connective_begins isWord).append _)
  have solidText : Avoids isSpace (text ++ rest) :=
    avoids_space_of_begins ((simple_begins inside).append rest)
  rw [connected, bind_of_ok (spaces_append someBefore solidKey),
    bind_of_ok (keyword_append isWord _), bind_of_ok (spaces_append someAfter solidText)]

theorem connected_complete (connective : Connective) :
    Complete (connected connective.word) (Linked connective) (Avoids isBareCharacter) := by
  intro text rest condition holds avoids
  cases holds with
  | intro someBefore isWord someAfter inside =>
      simp only [List.append_assoc]
      rw [connected_eq someBefore isWord someAfter inside]
      exact scanSimple_complete inside avoids

/-- A link with the other connective is refused. -/
theorem refuses_connected {connective other : Connective} {text : List Char}
    {condition : Condition} (holds : Linked other text condition)
    (different : other ≠ connective) (rest : List Char) :
    Refuses (connected connective.word) (text ++ rest) := by
  cases holds with
  | @intro before key after text _ someBefore isWord someAfter inside =>
      have solidKey : Avoids isSpace (key ++ (after ++ (text ++ rest))) :=
        avoids_space_of_begins ((connective_begins isWord).append _)
      simp only [List.append_assoc]
      rw [connected]
      refine .of_next (spaces_append someBefore solidKey) ?_
      cases connective with
      | and =>
          cases other with
          | and => exact (different rfl).elim
          | or => exact (refuses_keyword (keyword_avoids isWord (by decide) _)).bind _
      | or =>
          cases other with
          | and => exact (refuses_keyword (keyword_avoids isWord (by decide) _)).bind _
          | or => exact (different rfl).elim

/-- A text that begins with the closing parenthesis of a clause, blanks aside. -/
def Closing (text : List Char) : Prop :=
  ∃ blanks rest, text = blanks ++ ')' :: rest ∧ Blanks blanks

theorem Closing.avoids_bare {text : List Char} (closing : Closing text) :
    Avoids isBareCharacter text := by
  rcases closing with ⟨blanks, rest, rfl, allBlank⟩
  exact closes_value rest allBlank

/-- No link begins where blanks or the first letter of its connective are missing. -/
theorem refuses_connected_of_letter {connective : Connective} {blanks rest : List Char}
    (allBlank : Blanks blanks) (solid : Avoids isSpace rest)
    (noLetter : blanks ≠ [] →
      ∀ letter ∈ connective.word.head?, Avoids (fun first => first.toLower == letter) rest) :
    Refuses (connected connective.word) (blanks ++ rest) := by
  rw [connected]
  cases blanks with
  | nil => exact (refuses_spaces solid).bind _
  | cons first more =>
      have noLetter := noLetter (List.cons_ne_nil _ _)
      have passed : spaces (first :: more ++ rest) = .ok ((), rest) :=
        spaces_append ⟨List.cons_ne_nil _ _, allBlank⟩ solid
      refine .of_next passed ?_
      cases connective with
      | and => exact (refuses_keyword (noLetter 'a' rfl)).bind _
      | or => exact (refuses_keyword (noLetter 'o' rfl)).bind _

theorem Closing.refuses_connected {text : List Char} (closing : Closing text)
    (connective : Connective) : Refuses (connected connective.word) text := by
  rcases closing with ⟨blanks, rest, rfl, allBlank⟩
  apply refuses_connected_of_letter allBlank ((avoids_cons _ _ _).mpr rfl)
  intro _ letter isLetter
  apply (avoids_cons _ _ _).mpr
  cases connective with
  | and =>
      cases isLetter
      rfl
  | or =>
      cases isLetter
      rfl

theorem linked_avoids_bare {connective : Connective} {text : List Char}
    {condition : Condition} (holds : Linked connective text condition) (rest : List Char) :
    Avoids isBareCharacter (text ++ rest) := by
  cases holds with
  | intro someBefore isWord someAfter inside =>
      rw [List.append_assoc]
      exact avoids_bare_of_someBlanks someBefore _

theorem linked_ne_nil {connective : Connective} {text : List Char} {condition : Condition}
    (holds : Linked connective text condition) : text ≠ [] := by
  cases holds with
  | intro someBefore isWord someAfter inside =>
      exact List.append_ne_nil_of_left_ne_nil someBefore.1 _

/-- Behind a row of links, or at the start of one, no path and no value goes on. -/
theorem row_avoids_bare {text rest : List Char} {parts : List (Connective × Condition)}
    (row : Star LinkedAny text parts) (closing : Closing rest) :
    Avoids isBareCharacter (text ++ rest) := by
  cases row with
  | nil => exact closing.avoids_bare
  | cons head tail =>
      rw [List.append_assoc]
      exact linked_avoids_bare head _

/--
Of a row of links the scanner takes those in front that have the given connective; the row
that is left begins with another one.
-/
theorem repeated_connected (connective : Connective) {text rest : List Char}
    {parts : List (Connective × Condition)} (row : Star LinkedAny text parts)
    (closing : Closing rest) :
    ∃ behind,
      repeated (connected connective.word) (text ++ rest) =
        .ok ((parts.takeWhile (·.1 = connective)).map Prod.snd, behind ++ rest) ∧
      Star LinkedAny behind (parts.dropWhile (·.1 = connective)) := by
  have cut : parts.takeWhile (·.1 = connective) ++ parts.dropWhile (·.1 = connective) =
      parts := List.takeWhile_append_dropWhile
  rw [← cut] at row
  rcases row.split with ⟨taken, behind, rfl, front, back⟩
  have links : Star (Linked connective) taken
      ((parts.takeWhile (·.1 = connective)).map Prod.snd) := by
    refine front.map ?_
    intro text part member linked
    have same := List.all_eq_true.mp List.all_takeWhile part member
    rwa [LinkedAny, of_decide_eq_true same] at linked
  have stops : Refuses (connected connective.word) (behind ++ rest) := by
    cases left : parts.dropWhile (·.1 = connective) with
    | nil =>
        rw [left] at back
        cases back
        exact closing.refuses_connected connective
    | cons part others =>
        have other : part.1 ≠ connective := by
          have kept := List.head?_dropWhile_not (·.1 = connective) parts
          rw [left] at kept
          simpa using kept
        rw [left] at back
        cases back with
        | cons head tail =>
            rw [List.append_assoc]
            exact refuses_connected head other _
  refine ⟨behind, ?_, back⟩
  rw [List.append_assoc]
  exact repeated_append (connected_complete connective) (fun _ _ => linked_ne_nil)
    (fun _ _ more linked => linked_avoids_bare linked more) links
    (row_avoids_bare back closing) stops

/-! ## Predicates -/

theorem scanPredicate_eq :
    scanPredicate = (do
      let first ← scanSimple
      match ← repeated (connected Connective.and.word) with
      | [] =>
          match ← repeated (connected Connective.or.word) with
          | [] => return first
          | others => return Connective.or.join (first :: others)
      | others => return Connective.and.join (first :: others)) :=
  rfl

theorem scanPredicate_sound : Sound scanPredicate Predicate := by
  intro input rest condition scanned
  simp only [scanPredicate_eq, bind_eq_ok_iff] at scanned
  rcases scanned with ⟨first, _, simple, conjuncts, behind, more, scanned⟩
  rcases scanSimple_sound simple with ⟨text, rfl, head⟩
  rcases (connected_sound .and).repeated more with ⟨row, rfl, links⟩
  cases conjuncts with
  | cons second others =>
      cases pure_eq_ok_iff.mp scanned
      exact ⟨text ++ row, (List.append_assoc _ _ _).symm,
        .joined head links (List.cons_ne_nil _ _)⟩
  | nil =>
      cases links
      simp only [List.nil_append, bind_eq_ok_iff] at scanned ⊢
      rcases scanned with ⟨disjuncts, behind, more, scanned⟩
      rcases (connected_sound .or).repeated more with ⟨row, rfl, links⟩
      cases disjuncts with
      | cons second others =>
          cases pure_eq_ok_iff.mp scanned
          exact ⟨text ++ row, (List.append_assoc _ _ _).symm,
            .joined head links (List.cons_ne_nil _ _)⟩
      | nil =>
          cases links
          cases pure_eq_ok_iff.mp scanned
          exact ⟨text, rfl, .simple head⟩

theorem scanPredicate_simple {text rest : List Char} {condition : Condition}
    (head : Simple text condition) (closing : Closing rest) :
    scanPredicate (text ++ rest) = .ok (condition, rest) := by
  rw [scanPredicate_eq, bind_of_ok (scanSimple_complete head closing.avoids_bare),
    bind_of_ok (repeated_of_refuses (closing.refuses_connected .and))]
  exact (bind_of_ok (repeated_of_refuses (closing.refuses_connected .or))).trans rfl

/--
The first connective decides of which kind a predicate is, and the predicate ends where
another connective stands.
-/
theorem scanPredicate_joined {text more rest : List Char} {first second : Condition}
    {connective : Connective} {parts : List (Connective × Condition)}
    (head : Simple text first) (row : Star LinkedAny more ((connective, second) :: parts))
    (closing : Closing rest) :
    ∃ behind,
      scanPredicate (text ++ (more ++ rest)) =
        .ok (connective.join
          (first :: second :: (parts.takeWhile (·.1 = connective)).map Prod.snd),
          behind ++ rest) ∧
      Star LinkedAny behind (parts.dropWhile (·.1 = connective)) := by
  have scanned := scanSimple_complete head (row_avoids_bare row closing)
  cases connective with
  | and =>
      rcases repeated_connected .and row closing with ⟨behind, repeats, back⟩
      refine ⟨behind, ?_, by simpa using back⟩
      rw [scanPredicate_eq, bind_of_ok scanned, bind_of_ok repeats]
      rfl
  | or =>
      rcases repeated_connected .and row closing with ⟨same, noAnd, row⟩
      rcases repeated_connected .or row closing with ⟨behind, repeats, back⟩
      refine ⟨behind, ?_, by simpa using back⟩
      rw [scanPredicate_eq, bind_of_ok scanned, bind_of_ok noAnd]
      exact (bind_of_ok repeats).trans rfl

/-- A predicate is read as a whole if its closing parenthesis follows. -/
theorem scanPredicate_complete : Complete scanPredicate Predicate Closing := by
  intro text rest condition holds closing
  cases holds with
  | simple inside => exact scanPredicate_simple inside closing
  | @joined text more connective first others head tail severalParts =>
      cases others with
      | nil => exact (severalParts rfl).elim
      | cons second others =>
          have row : Star LinkedAny more
              ((second :: others).map fun condition => (connective, condition)) :=
            tail.map fun _ _ _ linked => linked
          rcases scanPredicate_joined head row closing with ⟨behind, scanned, back⟩
          have allSame : ∀ part ∈ others.map fun condition => (connective, condition),
              decide (part.1 = connective) = true := by
            intro part member
            rcases List.mem_map.mp member with ⟨condition, -, rfl⟩
            exact decide_eq_true rfl
          rw [List.dropWhile_eq_nil_iff.mpr allSame] at back
          cases back
          have unpaired :
              (others.map fun condition => (connective, condition)).map Prod.snd = others := by
            rw [List.map_map]
            exact List.map_id others
          rw [List.takeWhile_eq_self_iff.mpr allSame, unpaired] at scanned
          rw [List.append_assoc, scanned, List.nil_append]

theorem predicate_solid : Solid Predicate := by
  have solid : ∀ {text : List Char} {condition : Condition}, Simple text condition →
      Begins (!isSpace ·) text := by
    intro text condition holds
    rcases simple_begins holds with ⟨first, rest, rfl, bare⟩
    exact ⟨first, rest, rfl, by simp [not_space_of_bare bare]⟩
  intro text condition holds
  cases holds with
  | simple inside => exact solid inside
  | joined head tail severalParts => exact (solid head).append _

/-- What is left of a mixed row stands in front of no closing parenthesis. -/
theorem scanPredicate_mixture {text rest : List Char}
    {parts : List (Connective × Condition)} (holds : Mixture text parts)
    (closing : Closing rest) :
    ∃ condition blanks left, scanPredicate (text ++ rest) = .ok (condition, blanks ++ left) ∧
      Blanks blanks ∧ Begins isBareCharacter left := by
  cases holds with
  | @intro text more first _ head tail hasAnd hasOr =>
      cases parts with
      | nil =>
          rcases hasAnd with ⟨part, member, -⟩
          cases member
      | cons part others =>
          rcases part with ⟨connective, second⟩
          rcases scanPredicate_joined head tail closing with ⟨behind, scanned, back⟩
          cases left : others.dropWhile (·.1 = connective) with
          | nil =>
              have allSame : ∀ part ∈ (connective, second) :: others,
                  part.1 = connective := by
                intro part member
                rcases List.mem_cons.mp member with rfl | inside
                · rfl
                · exact of_decide_eq_true (List.dropWhile_eq_nil_iff.mp left part inside)
              rcases hasAnd with ⟨andPart, andMember, isAnd⟩
              rcases hasOr with ⟨orPart, orMember, isOr⟩
              have same := (allSame andPart andMember).trans (allSame orPart orMember).symm
              rw [isAnd, isOr] at same
              cases same
          | cons part parts =>
              rw [left] at back
              cases back with
              | @cons _ others _ _ link links =>
                  cases link with
                  | @intro before key after text _ someBefore isWord someAfter inside =>
                      simp only [List.append_assoc] at scanned ⊢
                      exact ⟨_, before, _, scanned, someBefore.2,
                        (connective_begins isWord).append _⟩

/-! ## Clauses -/

/-- A clause is read as blanks, a predicate in parentheses, and blanks. -/
theorem scanClause_eq :
    scanClause = (do
      skipSpaces
      let condition ← parenthesized scanPredicate
      skipSpaces
      finished
      return condition) := by
  simp only [scanClause, parenthesized, bind_assoc, pure_bind]

theorem scanClause_sound {input rest : List Char} {condition : Condition}
    (scanned : scanClause input = .ok (condition, rest)) : Clause input condition := by
  rw [scanClause_eq] at scanned
  simp only [bind_eq_ok_iff, pure_eq_ok_iff] at scanned
  rcases scanned with ⟨_, _, first, _, _, inner, _, _, second, _, _, ended, equal⟩
  cases equal
  rcases finished_eq_ok ended with ⟨rfl, -⟩
  rcases skipSpaces_eq_ok first with ⟨before, rfl, blanksBefore, -⟩
  rcases scanPredicate_sound.parenthesized inner with ⟨text, rfl, inside⟩
  rcases skipSpaces_eq_ok second with ⟨after, rfl, blanksAfter, -⟩
  rw [List.append_nil]
  exact .intro blanksBefore inside blanksAfter

/-- A predicate in parentheses is read as a whole, whatever follows. -/
theorem scanParenthesized_complete :
    Complete (parenthesized scanPredicate) (Parenthesized Predicate) (fun _ => True) :=
  scanPredicate_complete.parenthesized predicate_solid
    fun rest allBlank => ⟨_, rest, rfl, allBlank⟩

theorem scanClause_complete {input : List Char} {condition : Condition}
    (holds : Clause input condition) : scanClause input = .ok (condition, []) := by
  cases holds with
  | @intro before text after _ blanksBefore inside blanksAfter =>
      have toEnd : skipSpaces (after ++ []) = .ok ((), []) :=
        skipSpaces_append blanksAfter (avoids_nil isSpace)
      rw [List.append_nil] at toEnd
      rw [scanClause_eq, bind_of_ok
          (skipSpaces_append blanksBefore (parenthesized_avoids inside rfl after)),
        bind_of_ok (scanParenthesized_complete inside trivial),
        bind_of_ok toEnd]
      rfl

theorem scanClause_mixed {input : List Char} (holds : MixedClause input) :
    Refuses scanClause input := by
  cases holds with
  | @intro before text after parts blanksBefore inside blanksAfter =>
      rw [scanClause_eq]
      refine .of_next
        (skipSpaces_append blanksBefore (parenthesized_avoids inside rfl after)) ?_
      refine Refuses.bind ?_ _
      cases inside with
      | @intro opened text closed _ blanksOpened mixture blanksClosed =>
          have closing : Closing (closed ++ ')' :: after) := ⟨_, after, rfl, blanksClosed⟩
          obtain ⟨condition, blanks, left, scanned, allBlank, begins⟩ :=
            scanPredicate_mixture mixture closing
          have solid : Avoids isSpace (text ++ (closed ++ ')' :: after)) := by
            cases mixture with
            | intro head tail hasAnd hasOr =>
                rw [List.append_assoc]
                exact avoids_space_of_begins ((simple_begins head).append _)
          have notClosed : Avoids (· == ')') left :=
            begins.avoids (isMark_of_outside rfl)
          simp only [List.cons_append, List.append_assoc, List.nil_append, parenthesized]
          refine .of_next (symbol_cons _ _) ?_
          refine .of_next (skipSpaces_append blanksOpened solid) ?_
          refine .of_next scanned ?_
          refine .of_next (skipSpaces_append allBlank (avoids_space_of_begins begins)) ?_
          exact (refuses_symbol notClosed).bind _

/-- A clause compiles to a condition exactly if it stands for it in the grammar. -/
theorem compile_eq_ok {clause : String} {condition : Condition} :
    compile clause = .ok condition ↔ Clause clause.toList condition := by
  rw [compile, Scanner.compile]
  constructor
  · intro compiled
    split at compiled
    · rename_i value rest scanned
      cases compiled
      exact scanClause_sound scanned
    · cases compiled
  · intro holds
    rw [scanClause_complete holds]

/--
Compiling is deciding the grammar: a clause is accepted with a condition exactly if it
stands for that condition, so it stands for one at most, and no clause that mixes the
connectives is accepted.
-/
theorem compile_iff_grammar :
    (∀ clause condition,
      compile clause = .ok condition ↔ Clause clause.toList condition) ∧
    (∀ text first second, Clause text first → Clause text second → first = second) ∧
    (∀ clause condition, MixedClause clause.toList → compile clause ≠ .ok condition) := by
  refine ⟨fun _ _ => compile_eq_ok, ?_, ?_⟩
  · intro text first second isFirst isSecond
    have same := (scanClause_complete isFirst).symm.trans (scanClause_complete isSecond)
    cases same
    rfl
  · intro clause condition mixed compiled
    rcases scanClause_mixed mixed with ⟨rest, stopped⟩
    have scanned := scanClause_complete (compile_eq_ok.mp compiled)
    rw [stopped] at scanned
    cases scanned

/-- A comparison of single characters for equality. -/
theorem simple_equality {name value : Char} (isName : Path.isNameCharacter name = true)
    (isBare : isBareCharacter value = true) :
    Simple [name, '=', value]
      (.test (.compare (String.ofList [name]) .equal (String.ofList [value]))) := by
  have spells : Path.Spells [name] (String.ofList [name]) :=
    ⟨String.toList_ofList.symm, .relative (.last (Path.isName_singleton isName))⟩
  have bare : Value [value] (String.ofList [value]) := by
    refine .bare (List.cons_ne_nil _ _) ?_
    intro character member
    rw [List.mem_singleton.mp member]
    exact isBare
  have derived : Test ([name] ++ ([] ++ (Comparator.equal.sign.toList ++ ([] ++ [value]))))
      (.compare (String.ofList [name]) .equal (String.ofList [value])) :=
    .compare spells blanks_nil blanks_nil bare
  exact .test derived

/-- One comparison is accepted, and with both connectives behind it the clause is not. -/
theorem compile_iff_grammar_mixed :
    Clause "(a=1)".toList (.test (.compare "a" .equal "1")) ∧
      compile "(a=1)" = .ok (.test (.compare "a" .equal "1")) ∧
      (∀ condition, Clause "(a=1)".toList condition →
        condition = .test (.compare "a" .equal "1")) ∧
      MixedClause "(a=1 AND b=2 OR c=3)".toList ∧
      ∀ condition, compile "(a=1 AND b=2 OR c=3)" ≠ .ok condition := by
  have first : Simple ['a', '=', '1'] (.test (.compare "a" .equal "1")) :=
    simple_equality rfl rfl
  have clause : Clause "(a=1)".toList (.test (.compare "a" .equal "1")) := by
    have derived := Clause.intro blanks_nil
      (.intro blanks_nil (Predicate.simple first) blanks_nil) blanks_nil
    simpa using derived
  have mixed : MixedClause "(a=1 AND b=2 OR c=3)".toList := by
    have isAnd : Keyword Connective.and.word ['A', 'N', 'D'] := rfl
    have isOr : Keyword Connective.or.word ['O', 'R'] := rfl
    have second : LinkedAny _ (.and, _) :=
      Linked.intro someBlanks_space isAnd someBlanks_space (@simple_equality 'b' '2' rfl rfl)
    have third : LinkedAny _ (.or, _) :=
      Linked.intro someBlanks_space isOr someBlanks_space (@simple_equality 'c' '3' rfl rfl)
    have mixture := Mixture.intro first (.cons second (.cons third .nil))
      ⟨_, List.mem_cons_self, rfl⟩ ⟨_, List.mem_cons_of_mem _ List.mem_cons_self, rfl⟩
    have derived := MixedClause.intro blanks_nil
      (.intro blanks_nil mixture blanks_nil) blanks_nil
    simpa using derived
  exact ⟨clause, (compile_iff_grammar.1 _ _).mpr clause,
    fun condition holds => compile_iff_grammar.2.1 _ _ _ holds clause, mixed,
    fun condition => compile_iff_grammar.2.2 _ condition mixed⟩

end ContentApi.Condition
