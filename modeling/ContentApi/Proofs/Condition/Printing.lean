import ContentApi.Condition.Printer
import ContentApi.Proofs.Condition.Reading

/-!
# Printing conditions and reading them again

The conditions that a clause can state are the well-formed ones, and a well-formed condition
is printed as a text that stands for it in the grammar.  That the printed text compiles to the
condition again is therefore a matter of the grammar alone: how properties are spelled and
which characters a value holds never has to be compared with the order of the alternatives.
-/

namespace ContentApi

/-- A test of a property path; a list of values is not empty. -/
def PropertyTest.WellFormed : PropertyTest → Prop
  | .oneOf property values => Path.IsPath property.toList ∧ values ≠ []
  | leaf => Path.IsPath leaf.property.toList

namespace Condition

open ContentApi.Language Grammar

/-- A test or a negated test. -/
inductive IsSimple : Condition → Prop where
  | test {leaf : PropertyTest} (wellFormed : leaf.WellFormed) : IsSimple (.test leaf)
  | negation {leaf : PropertyTest} (wellFormed : leaf.WellFormed) :
      IsSimple (.negation (.test leaf))

/-- A simple condition, or at least two of which all or any have to hold. -/
inductive WellFormed : Condition → Prop where
  | simple {condition : Condition} (isSimple : IsSimple condition) : WellFormed condition
  | all {parts : List Condition} (several : 2 ≤ parts.length)
      (simpleParts : ∀ part ∈ parts, IsSimple part) : WellFormed (.all parts)
  | any {parts : List Condition} (several : 2 ≤ parts.length)
      (simpleParts : ∀ part ∈ parts, IsSimple part) : WellFormed (.any parts)

/-! ## What clauses state is well formed -/

theorem test_wellFormed {text : List Char} {leaf : PropertyTest} (holds : Test text leaf) :
    leaf.WellFormed := by
  have path : ∀ {path : List Char} {property : String}, Path.Spells path property →
      Path.IsPath property.toList := by
    rintro path property ⟨rfl, isPath⟩
    exact isPath
  have front : ∀ {word front : List Char} {property : String},
      Operator word front property → Path.IsPath property.toList := by
    intro word front property operator
    cases operator with
    | intro spells someBefore isWord blanksAfter => exact path spells
  cases holds with
  | present isWord allBlank inside =>
      cases inside with
      | intro blanksBefore spells blanksAfter => exact path spells
  | between operator inside => exact front operator
  | oneOf operator inside =>
      have isPath := front operator
      cases inside with
      | intro blanksBefore values blanksAfter =>
          cases values
          exact ⟨isPath, List.cons_ne_nil _ _⟩
  | like operator inside => exact front operator
  | compare spells blanksBefore blanksAfter inside => exact path spells

theorem simple_isSimple {text : List Char} {condition : Condition}
    (holds : Simple text condition) : IsSimple condition := by
  cases holds with
  | test inside => exact .test (test_wellFormed inside)
  | negation isWord someBlanks inside => exact .negation (test_wellFormed inside)

theorem links_isSimple {connective : Connective} {text : List Char}
    {conditions : List Condition} (links : Star (Linked connective) text conditions) :
    ∀ condition ∈ conditions, IsSimple condition := by
  induction links with
  | nil =>
      intro condition member
      cases member
  | cons head tail ih =>
      intro condition member
      rcases List.mem_cons.mp member with rfl | inside
      · cases head with
        | intro someBefore isWord someAfter simple => exact simple_isSimple simple
      · exact ih condition inside

/-- A condition that a clause stands for is well formed. -/
theorem clause_wellFormed {text : List Char} {condition : Condition}
    (holds : Clause text condition) : WellFormed condition := by
  cases holds with
  | intro blanksBefore inside blanksAfter =>
      cases inside with
      | intro blanksOpened predicate blanksClosed =>
          cases predicate with
          | simple inside => exact .simple (simple_isSimple inside)
          | @joined _ _ connective first others head tail severalParts =>
              have several : 2 ≤ (first :: others).length := by
                have used := List.length_pos_iff.mpr severalParts
                rw [List.length_cons]
                omega
              have simpleParts : ∀ part ∈ first :: others, IsSimple part := by
                intro part member
                rcases List.mem_cons.mp member with rfl | inside
                · exact simple_isSimple head
                · exact links_isSimple tail part inside
              cases connective with
              | and => exact .all several simpleParts
              | or => exact .any several simpleParts

/-! ## What is printed stands for what it was printed from -/

theorem toList_intercalate (separator first : String) (rest : List String) :
    (separator.intercalate (first :: rest)).toList =
      first.toList ++ rest.flatMap fun text => separator.toList ++ text.toList := by
  induction rest generalizing first with
  | nil => simp
  | cons second rest ih =>
      rw [String.intercalate_cons_cons, String.toList_append, String.toList_append, ih,
        List.flatMap_cons]
      simp only [List.append_assoc]

/-- Every character is printed so that it is read as itself. -/
theorem quotedText_escape (value : List Char) :
    QuotedText '\x27' (value.flatMap escapeCharacter) value := by
  induction value with
  | nil => exact .nil
  | cons character rest ih =>
      rw [List.flatMap_cons, escapeCharacter]
      split
      · rename_i special
        exact .escaped (by rcases special with rfl | rfl <;> simp) ih
      · rename_i plain
        rcases not_or.mp plain with ⟨notBackslash, notQuote⟩
        exact .plain notQuote notBackslash ih

theorem value_print (value : String) : Value (printValue value).toList value := by
  have printed : (printValue value).toList =
      '\x27' :: (value.toList.flatMap escapeCharacter ++ ['\x27']) := by
    rw [printValue, String.toList_ofList, List.append_assoc]
    rfl
  have quoted := Value.quoted (Or.inl rfl) (quotedText_escape value.toList)
  rwa [← printed, String.ofList_toList] at quoted

/-- A text behind a comma without blanks. -/
theorem afterComma_print {α : Type} {item : Language α} {text : List Char} {value : α}
    (inside : item text value) : AfterComma item (',' :: text) value := by
  have derived := AfterComma.intro blanks_nil blanks_nil inside
  exact derived

theorem commaList_print {values : List String} (nonempty : values ≠ []) :
    CommaList Value (printValues values).toList values := by
  have others : ∀ values : List String,
      Star (AfterComma Value)
        (values.flatMap fun value => ',' :: (printValue value).toList) values := by
    intro values
    induction values with
    | nil => exact .nil
    | cons value rest ih =>
        rw [List.flatMap_cons]
        exact .cons (afterComma_print (value_print value)) ih
  cases values with
  | nil => exact (nonempty rfl).elim
  | cons value rest =>
      have derived := CommaList.intro (value_print value) (others rest)
      rw [printValues, List.map_cons, toList_intercalate, List.flatMap_map]
      exact derived

/-- A text between parentheses without blanks. -/
theorem parenthesized_print {α : Type} {item : Language α} {text : List Char} {value : α}
    (inside : item text value) : Parenthesized item ('(' :: (text ++ [')'])) value :=
  .intro blanks_nil inside blanks_nil

/-- An infix keyword is printed between two blanks. -/
theorem operator_print {word key : List Char} {property : String}
    (isPath : Path.IsPath property.toList) (isWord : Keyword word key) :
    Operator word (property.toList ++ ([' '] ++ (key ++ [' ']))) property :=
  .intro ⟨rfl, isPath⟩ someBlanks_space isWord someBlanks_space.2

theorem test_print {leaf : PropertyTest} (wellFormed : leaf.WellFormed) :
    Test leaf.print.toList leaf := by
  cases leaf with
  | compare property comparator value =>
      have isPath : Path.IsPath property.toList := wellFormed
      have derived : Test
          (property.toList ++
            ([] ++ (comparator.sign.toList ++ ([] ++ (printValue value).toList))))
          (.compare property comparator value) :=
        .compare ⟨rfl, isPath⟩ blanks_nil blanks_nil (value_print value)
      simpa [PropertyTest.print] using derived
  | present property =>
      have isPath : Path.IsPath property.toList := wellFormed
      have isWord : Keyword ['e', 'x', 'i', 's', 't', 's']
          ['E', 'X', 'I', 'S', 'T', 'S'] := rfl
      have spells : Path.Spells property.toList property := ⟨rfl, isPath⟩
      have derived := Test.present isWord blanks_nil (parenthesized_print spells)
      simpa [PropertyTest.print] using derived
  | between property low high =>
      have isPath : Path.IsPath property.toList := wellFormed
      have isWord : Keyword ['b', 'e', 't', 'w', 'e', 'e', 'n']
          ['B', 'E', 'T', 'W', 'E', 'E', 'N'] := rfl
      have range := Range.intro (value_print low) (afterComma_print (value_print high))
      have derived := Test.between (operator_print isPath isWord) (parenthesized_print range)
      simpa [PropertyTest.print] using derived
  | oneOf property values =>
      rcases wellFormed with ⟨isPath, nonempty⟩
      have isWord : Keyword ['i', 'n'] ['I', 'N'] := rfl
      have derived := Test.oneOf (operator_print isPath isWord)
        (parenthesized_print (commaList_print nonempty))
      simpa [PropertyTest.print] using derived
  | like property pattern =>
      have isPath : Path.IsPath property.toList := wellFormed
      have isWord : Keyword ['m', 'a', 't', 'c', 'h', 'e', 's']
          ['M', 'A', 'T', 'C', 'H', 'E', 'S'] := rfl
      have derived := Test.like (operator_print isPath isWord)
        (parenthesized_print (value_print pattern))
      simpa [PropertyTest.print] using derived

theorem simple_print {condition : Condition} (isSimple : IsSimple condition) :
    Simple condition.print.toList condition := by
  cases isSimple with
  | test wellFormed =>
      rw [print]
      exact .test (test_print wellFormed)
  | negation wellFormed =>
      have isWord : Keyword ['n', 'o', 't'] ['N', 'O', 'T'] := rfl
      have derived := Simple.negation isWord someBlanks_space (test_print wellFormed)
      simpa [print] using derived

/-- Parts behind the first one are printed as links with the connective. -/
theorem links_print {connective : Connective} {key : List Char} {parts : List Condition}
    (isWord : Keyword connective.word key) (simpleParts : ∀ part ∈ parts, IsSimple part) :
    Star (Linked connective)
      ((printParts parts).flatMap fun text => ' ' :: (key ++ ' ' :: text.toList)) parts := by
  induction parts with
  | nil => exact .nil
  | cons part rest ih =>
      have printed := simple_print (simpleParts part List.mem_cons_self)
      have link := Linked.intro someBlanks_space isWord someBlanks_space printed
      rw [printParts, List.flatMap_cons]
      exact .cons link (ih fun other member => simpleParts other (List.mem_cons_of_mem _ member))

/-- Several parts are printed as a predicate with the connective between them. -/
theorem joined_print {connective : Connective} {separator : String} {key : List Char}
    {parts : List Condition} (isWord : Keyword connective.word key)
    (spaced : separator.toList = ' ' :: (key ++ [' '])) (several : 2 ≤ parts.length)
    (simpleParts : ∀ part ∈ parts, IsSimple part) :
    Predicate (separator.intercalate (printParts parts)).toList (connective.join parts) := by
  cases parts with
  | nil => cases several
  | cons first others =>
      have severalParts : others ≠ [] := by
        rintro rfl
        cases several with
        | step impossible => cases impossible
      have head := simple_print (simpleParts first List.mem_cons_self)
      have tail := links_print isWord fun part member =>
        simpleParts part (List.mem_cons_of_mem _ member)
      have derived := Predicate.joined head tail severalParts
      rw [printParts, toList_intercalate, spaced]
      simpa using derived

theorem predicate_print {condition : Condition} (wellFormed : WellFormed condition) :
    Predicate condition.print.toList condition := by
  cases wellFormed with
  | simple isSimple => exact .simple (simple_print isSimple)
  | all several simpleParts =>
      have isWord : Keyword Connective.and.word ['A', 'N', 'D'] := rfl
      rw [print]
      exact joined_print isWord (by simp) several simpleParts
  | any several simpleParts =>
      have isWord : Keyword Connective.or.word ['O', 'R'] := rfl
      rw [print]
      exact joined_print isWord (by simp) several simpleParts

/-- A well-formed condition is printed as a clause that stands for it. -/
theorem clause_print {condition : Condition} (wellFormed : WellFormed condition) :
    Clause ("(" ++ condition.print ++ ")").toList condition := by
  have derived := Clause.intro blanks_nil
    (parenthesized_print (predicate_print wellFormed)) blanks_nil
  simpa using derived

/--
Compiling gives well-formed conditions only, and every well-formed condition is what the
clause compiles to that it is printed as, whatever its properties are called and whichever
characters stand in its values.
-/
theorem compile_inverts_print :
    (∀ clause condition, compile clause = .ok condition → WellFormed condition) ∧
    (∀ condition, WellFormed condition →
      compile ("(" ++ condition.print ++ ")") = .ok condition) := by
  refine ⟨?_, ?_⟩
  · intro clause condition compiled
    exact clause_wellFormed (compile_eq_ok.mp compiled)
  · intro condition wellFormed
    exact compile_eq_ok.mpr (clause_print wellFormed)

/-- Properties spelled like keywords, and values with every character that has a meaning. -/
def awkward : Condition :=
  .any [.negation (.test (.oneOf "Not" ["", "a'b\\c\n,)"])),
    .test (.compare "or" .lessOrEqual "('\"")]

/-- The awkward condition is well formed and survives printing and compiling. -/
theorem compile_inverts_print_awkward :
    awkward.print = "NOT Not IN ('','a\\'b\\\\c\n,)') OR or<='(\\'\"'" ∧ WellFormed awkward ∧
      compile ("(" ++ awkward.print ++ ")") = .ok awkward := by
  have wellFormed : WellFormed awkward := by
    refine .any (by decide) ?_
    intro part member
    rcases List.mem_cons.mp member with rfl | member
    · exact .negation ⟨.relative (.last ⟨by decide, List.all_eq_true.mp rfl⟩), by decide⟩
    · obtain rfl := List.mem_singleton.mp member
      exact .test (.relative (.last ⟨by decide, List.all_eq_true.mp rfl⟩))
  have compiled := compile_inverts_print.2 awkward wellFormed
  exact ⟨by decide +kernel, compile_inverts_print.1 _ _ compiled, compiled⟩

end Condition

end ContentApi
