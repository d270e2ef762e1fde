import ContentApi.Proofs.Condition.Reading
import ContentApi.Proofs.Stopping

/-!
# Conditions in front of other texts

A condition is read in the same way whatever stands behind the character that follows it.  That
character does matter: a run of bare characters goes on as long as it can, and so does a row of
links.  It is the only one that does, because each part of a condition is read as far as the
grammar lets it go on.
-/

namespace ContentApi.Condition

open ContentApi.Language Scanner Grammar

/-! ## Simple conditions -/

theorem endsBare_concat {text : List Char} {last : Char} :
    EndsBare (text ++ [last]) ↔ isBareCharacter last = true := by
  rw [EndsBare, List.getLast?_concat]
  rfl

/-- What ends with a parenthesis does not end with a bare character. -/
theorem not_endsBare_of_parenthesized {α : Type} {item : Language α} {text : List Char}
    {value : α} (holds : Parenthesized item text value) (front : List Char) :
    ¬EndsBare (front ++ text) := by
  cases holds with
  | @intro before inner after _ blanksBefore inside blanksAfter =>
      have closed : front ++ '(' :: (before ++ (inner ++ (after ++ [')']))) =
          (front ++ '(' :: (before ++ (inner ++ after))) ++ [')'] := by
        simp only [List.append_assoc, List.cons_append]
      rw [closed, endsBare_concat]
      exact Bool.false_ne_true

/-- A value that ends with a bare character goes on with more of them. -/
theorem Grammar.Value.extend {text run : List Char} {value : String} (holds : Value text value)
    (ends : EndsBare text) (all : ∀ character ∈ run, isBareCharacter character = true) :
    ∃ longer, Value (text ++ run) longer := by
  cases holds with
  | @quoted quote text value isQuote inside =>
      rw [← List.cons_append, endsBare_concat] at ends
      rcases isQuote with rfl | rfl <;> cases ends
  | bare nonempty bare =>
      refine ⟨_, .bare (List.append_ne_nil_of_left_ne_nil nonempty _) ?_⟩
      intro character member
      rcases List.mem_append.mp member with inText | inRun
      · exact bare character inText
      · exact all character inRun

theorem Grammar.Test.extend {text run : List Char} {leaf : PropertyTest} (holds : Test text leaf)
    (ends : EndsBare text) (all : ∀ character ∈ run, isBareCharacter character = true) :
    ∃ longer, Test (text ++ run) longer := by
  cases holds with
  | @present key blanks text property isWord allBlank inside =>
      rw [← List.append_assoc] at ends
      exact (not_endsBare_of_parenthesized inside _ ends).elim
  | between operator inside => exact (not_endsBare_of_parenthesized inside _ ends).elim
  | oneOf operator inside => exact (not_endsBare_of_parenthesized inside _ ends).elim
  | like operator inside => exact (not_endsBare_of_parenthesized inside _ ends).elim
  | @compare path before after text property value comparator spells blanksBefore blanksAfter
      inside =>
      simp only [← List.append_assoc] at ends
      rcases inside.extend (ends.of_append (value_solid inside).ne_nil) all with ⟨longer, holds⟩
      simp only [List.append_assoc]
      exact ⟨_, .compare spells blanksBefore blanksAfter holds⟩

theorem Grammar.Simple.extend {text run : List Char} {condition : Condition}
    (holds : Simple text condition) (ends : EndsBare text)
    (all : ∀ character ∈ run, isBareCharacter character = true) :
    ∃ longer, Simple (text ++ run) longer := by
  cases holds with
  | test inside =>
      rcases inside.extend ends all with ⟨leaf, longer⟩
      exact ⟨.test leaf, .test longer⟩
  | @negation key blanks text leaf isWord someBlanks inside =>
      rw [← List.append_assoc] at ends
      rcases inside.extend (ends.of_append (test_begins inside).ne_nil) all with ⟨leaf, longer⟩
      simp only [List.append_assoc]
      exact ⟨.negation (.test leaf), .negation isWord someBlanks longer⟩

/-- A simple condition is read as far as its last value goes. -/
theorem scanSimple_parted {text rest : List Char} {condition : Condition}
    (scanned : scanSimple (text ++ rest) = .ok (condition, rest)) : Parted text rest := by
  intro ends
  rcases scanSimple_sound scanned with ⟨same, cut, holds⟩
  obtain rfl := List.append_cancel_right cut
  have all : ∀ character ∈ rest.takeWhile isBareCharacter, isBareCharacter character = true :=
    List.all_eq_true.mp List.all_takeWhile
  rcases holds.extend ends all with ⟨longer, further⟩
  have whole := scanSimple_complete further (avoids_dropWhile isBareCharacter rest)
  rw [List.append_assoc, List.takeWhile_append_dropWhile, scanned] at whole
  have stays : rest = rest.dropWhile isBareCharacter := congrArg Prod.snd (Except.ok.inj whole)
  rw [stays]
  exact avoids_dropWhile isBareCharacter rest

theorem scanSimple_local : Local scanSimple Simple := by
  intro input rest condition scanned
  rcases scanSimple_sound scanned with ⟨text, rfl, holds⟩
  have parted := scanSimple_parted scanned
  refine ⟨text, rfl, holds, fun back same => ?_⟩
  exact scanSimple_append holds fun ends => avoids_of_head? same (parted ends)

/-! ## Links -/

theorem connected_local (connective : Connective) :
    Local (connected connective.word) (Linked connective) := by
  intro input rest condition scanned
  simp only [connected, bind_eq_ok_iff] at scanned
  rcases scanned with ⟨_, _, first, _, _, second, _, _, third, fourth⟩
  rcases spaces_eq_ok first with ⟨before, rfl, someBefore, -⟩
  rcases keyword_eq_ok second with ⟨key, rfl, isWord⟩
  rcases spaces_eq_ok third with ⟨after, rfl, someAfter, -⟩
  rcases scanSimple_local fourth with ⟨text, rfl, inside, swapped⟩
  refine ⟨before ++ (key ++ (after ++ text)), ?_, .intro someBefore isWord someAfter inside,
    fun back same => ?_⟩
  · simp only [List.append_assoc]
  · simp only [List.append_assoc]
    rw [connected_eq someBefore isWord someAfter inside]
    exact swapped back same

/-- A row of links is read in the same way unless another link follows. -/
theorem repeated_connected_swap {connective : Connective} {input rest : List Char}
    {conditions : List Condition}
    (scanned : repeated (connected connective.word) input = .ok (conditions, rest)) :
    ∃ row, input = row ++ rest ∧ Star (Linked connective) row conditions ∧
      ∀ back, rest.head? = back.head? → Refuses (connected connective.word) back →
        repeated (connected connective.word) (row ++ back) = .ok (conditions, back) :=
  repeated_swap (connected_local connective) (fun _ _ => linked_ne_nil) scanned

end ContentApi.Condition
