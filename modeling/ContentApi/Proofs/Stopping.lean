import ContentApi.Proofs.Rejection

/-!
# Characters in front of which clauses are rejected

A clause is rejected in front of a character, and the scanner that stopped there may have given up
a reading that could have gone on with it: of a repetition it keeps what was complete, and of
several alternatives it reports the last one.  At any other place the character is refused for
good.  `StopsAt` says this of a scanner and the places at which it gives something up.

That a character is refused for good is a matter of the texts that have it at its place, whatever
stands behind it.  So what has been read in front of it has to be read in the same way there, which
is what `Local` is about.
-/

namespace ContentApi

open ContentApi.Language

namespace Scanner

variable {α β : Type}

/-- A scanner stops in every text that begins so and has the character next. -/
def Bars (scanner : Scanner α) (front : List Char) (character : Char) : Prop :=
  ∀ back, Refuses scanner (front ++ character :: back)

/-- Where a scanner stops in front of a character, it has given something up or bars it. -/
def StopsAt (scanner : Scanner α) (givenUp : List Char → Char → Prop) : Prop :=
  ∀ ⦃input rest : List Char⦄ ⦃character : Char⦄, scanner input = .error (character :: rest) →
    ∃ front, input = front ++ character :: rest ∧
      (givenUp front character ∨ Bars scanner front character)

/-- A text of the language is read, and of what follows only the first character matters to it. -/
def Local (scanner : Scanner α) (language : Language α) : Prop :=
  ∀ ⦃input rest : List Char⦄ ⦃value : α⦄, scanner input = .ok (value, rest) →
    ∃ text, input = text ++ rest ∧ language text value ∧
      ∀ back, rest.head? = back.head? → scanner (text ++ back) = .ok (value, back)

/-- Texts that begin with the same character do so behind any text. -/
theorem head?_swap {rest back : List Char} (same : rest.head? = back.head?)
    (text : List Char) : (text ++ rest).head? = (text ++ back).head? := by
  rw [List.head?_append, List.head?_append, same]

/-- The first character of a text decides which class it avoids. -/
theorem avoids_of_head? {allowed : Char → Bool} {rest back : List Char}
    (same : rest.head? = back.head?) (avoids : Avoids allowed rest) : Avoids allowed back := by
  rintro first more rfl
  cases rest with
  | nil => cases same
  | cons other others =>
      cases same
      exact (avoids_cons _ _ _).mp avoids

theorem head?_next (front rest back : List Char) (next : Char) :
    (front ++ next :: rest).head? = (front ++ next :: back).head? := by
  cases front with
  | nil => rfl
  | cons => rfl

theorem avoids_swap {allowed : Char → Bool} {front rest : List Char} {next : Char}
    (avoids : Avoids allowed (front ++ next :: rest)) (back : List Char) :
    Avoids allowed (front ++ next :: back) :=
  avoids_of_head? (head?_next front rest back next) avoids

/-! ## Repetitions -/

/-- Successes of a step in a row. -/
inductive Runs (step : Scanner α) : List Char → List α → List Char → Prop where
  | nil {rest : List Char} : Runs step rest [] rest
  | cons {input behind rest : List Char} {value : α} {values : List α}
      (first : step input = .ok (value, behind)) (others : Runs step behind values rest) :
      Runs step input (value :: values) rest

theorem runs_repeatedAtMost (step : Scanner α) (bound : Nat) (input : List Char) :
    Runs step input (repeatedAtMost step bound input).1 (repeatedAtMost step bound input).2 := by
  induction bound generalizing input with
  | zero => exact .nil
  | succ bound ih =>
      rw [repeatedAtMost]
      cases scanned : step input with
      | error => exact .nil
      | ok success => exact .cons scanned (ih success.2)

theorem runs_of_repeated {step : Scanner α} {input rest : List Char} {values : List α}
    (scanned : repeated step input = .ok (values, rest)) : Runs step input values rest := by
  have runs := runs_repeatedAtMost step input.length input
  rwa [Except.ok.inj scanned] at runs

/-- A row of successes is all that is taken if another one is refused. -/
theorem Runs.repeated {step : Scanner α} {input rest : List Char} {values : List α}
    (shrinks : ∀ {input rest value}, step input = .ok (value, rest) →
      rest.length < input.length)
    (runs : Runs step input values rest) (stops : Refuses step rest) :
    repeated step input = .ok (values, rest) := by
  have within : ∀ bound, input.length ≤ bound →
      repeatedAtMost step bound input = (values, rest) := by
    induction runs with
    | nil =>
        rcases stops with ⟨stopped, refused⟩
        intro bound _
        cases bound with
        | zero => rfl
        | succ bound => rw [repeatedAtMost, refused]
    | @cons input _ _ _ _ first _ ih =>
        intro bound fits
        have shorter := shrinks first
        cases bound with
        | zero => omega
        | succ bound => simp only [repeatedAtMost, first, ih stops bound (by omega)]
  rw [Scanner.repeated, within _ (Nat.le_refl _)]

/-- Of what follows a row, only the first character matters. -/
theorem Runs.swap {step : Scanner α} {item : Language α} {input rest : List Char}
    {values : List α} (isLocal : Local step item) (runs : Runs step input values rest) :
    ∃ text, input = text ++ rest ∧ Star item text values ∧
      ∀ back, rest.head? = back.head? → Runs step (text ++ back) values back := by
  induction runs with
  | nil => exact ⟨[], rfl, .nil, fun _ _ => .nil⟩
  | cons first others ih =>
      rcases ih with ⟨more, rfl, star, swapped⟩
      rcases isLocal first with ⟨text, rfl, holds, firstSwapped⟩
      refine ⟨text ++ more, (List.append_assoc _ _ _).symm, .cons holds star, fun back same => ?_⟩
      rw [List.append_assoc]
      exact .cons (firstSwapped (more ++ back) (head?_swap same more)) (swapped back same)

/-- A repetition gives the same in front of a text with which one more success is refused. -/
theorem repeated_swap {step : Scanner α} {item : Language α} {input rest : List Char}
    {values : List α} (isLocal : Local step item)
    (nonempty : ∀ text value, item text value → text ≠ [])
    (scanned : repeated step input = .ok (values, rest)) :
    ∃ text, input = text ++ rest ∧ Star item text values ∧
      ∀ back, rest.head? = back.head? → Refuses step back →
        repeated step (text ++ back) = .ok (values, back) := by
  have shrinks : ∀ {input rest value}, step input = .ok (value, rest) →
      rest.length < input.length := by
    intro input rest value taken
    rcases isLocal taken with ⟨front, rfl, holds, -⟩
    have used := List.length_pos_iff.mpr (nonempty front value holds)
    rw [List.length_append]
    omega
  rcases (runs_of_repeated scanned).swap isLocal with ⟨text, cut, star, swapped⟩
  exact ⟨text, cut, star, fun back same stops => (swapped back same).repeated shrinks stops⟩

/-- Where a repetition ends, there is what the start and every success leave behind. -/
theorem Runs.ends {step : Scanner α} {input rest : List Char} {values : List α}
    {holds : List Char → Prop} (runs : Runs step input values rest) (start : holds input)
    (leaves : ∀ {input rest value}, step input = .ok (value, rest) → holds rest) : holds rest := by
  induction runs with
  | nil => exact start
  | cons first _ ih => exact ih (leaves first)

/-- Behind a list with commas there is what its last value leaves behind. -/
theorem commaSeparated_ends {scanner : Scanner α} {input rest : List Char} {values : List α}
    {holds : List Char → Prop}
    (leaves : ∀ {input rest value}, scanner input = .ok (value, rest) → holds rest)
    (scanned : commaSeparated scanner input = .ok (values, rest)) : holds rest := by
  simp only [commaSeparated, bind_eq_ok_iff, pure_eq_ok_iff] at scanned
  rcases scanned with ⟨value, behind, first, others, _, more, equal⟩
  cases equal
  refine (runs_of_repeated more).ends (leaves first) ?_
  intro input rest value scanned
  simp only [commaThen, bind_eq_ok_iff] at scanned
  rcases scanned with ⟨_, _, -, _, _, -, _, _, -, inside⟩
  exact leaves inside

/-! ## Whole clauses -/

/--
A whole clause is rejected inside what stands between its blanks, or behind it.  In the second
case what is read there has to be read in front of other texts too, unless something is given up.
-/
theorem stopsAt_surrounded {scanner : Scanner α} {givenUp : List Char → Char → Prop}
    (inside : ∀ {before behind rest : List Char} {character : Char}, Blanks before →
      Avoids isSpace behind → scanner behind = .error (character :: rest) →
        ∃ front, behind = front ++ character :: rest ∧
          (givenUp (before ++ front) character ∨ Bars scanner front character))
    (followed : ∀ {before behind after rest : List Char} {character : Char} {value : α},
      Blanks before → Blanks after → Avoids isSpace (character :: rest) →
      scanner behind = .ok (value, after ++ character :: rest) →
        ∃ text, behind = text ++ (after ++ character :: rest) ∧
          (givenUp (before ++ (text ++ after)) character ∨
            ∀ back, scanner (text ++ (after ++ character :: back)) =
              .ok (value, after ++ character :: back))) :
    StopsAt
      (do skipSpaces
          let value ← scanner
          skipSpaces
          finished
          return value) givenUp := by
  intro input rest character stopped
  rcases skipSpaces_bind_stopped stopped with ⟨before, behind, rfl, blanksBefore, solid, stopped⟩
  rcases bind_eq_error_iff.mp stopped with missed | ⟨value, left, scanned, stopped⟩
  · rcases inside blanksBefore solid missed with ⟨front, rfl, given | bars⟩
    · exact ⟨before ++ front, (List.append_assoc _ _ _).symm, Or.inl given⟩
    refine ⟨before ++ front, (List.append_assoc _ _ _).symm, Or.inr fun back => ?_⟩
    rw [List.append_assoc]
    exact .of_next (skipSpaces_append blanksBefore (avoids_swap solid back)) ((bars back).bind _)
  rcases skipSpaces_bind_stopped stopped with ⟨after, _, rfl, blanksAfter, solidEnd, stopped⟩
  rcases bind_eq_error_iff.mp stopped with unfinished | ⟨_, _, _, impossible⟩
  · obtain rfl := finished_eq_error unfinished
    rcases followed blanksBefore blanksAfter solidEnd scanned with ⟨text, rfl, given | swapped⟩
    · refine ⟨before ++ (text ++ after), ?_, Or.inl given⟩
      simp only [List.append_assoc]
    refine ⟨before ++ (text ++ after), ?_, Or.inr fun back => ?_⟩
    · simp only [List.append_assoc]
    have solidText : Avoids isSpace (text ++ (after ++ character :: back)) :=
      avoids_of_head? (head?_swap (head?_next after rest back character) text) solid
    have solidBack : Avoids isSpace (character :: back) :=
      (avoids_cons _ _ _).mpr ((avoids_cons _ _ _).mp solidEnd)
    have notFinished : Refuses finished (character :: back) := ⟨character :: back, rfl⟩
    simp only [List.append_assoc]
    refine .of_next (skipSpaces_append blanksBefore solidText) ?_
    refine .of_next (swapped back) ?_
    exact .of_next (skipSpaces_append blanksAfter solidBack) (notFinished.bind _)
  · cases impossible

end Scanner

/-! ## Lists that go on -/

namespace Language

variable {α : Type} {item : Language α}

theorem Star.append {first second : List Char} {front back : List α} (star : Star item first front)
    (more : Star item second back) : Star item (first ++ second) (front ++ back) := by
  induction star with
  | nil => exact more
  | cons head _ ih =>
      rw [List.append_assoc]
      exact .cons head ih

/-- A text of a language can follow a list of them behind a comma. -/
theorem CommaList.snoc {text after last : List Char} {values : List α} {value : α}
    (list : CommaList item text values) (allBlank : Blanks after) (holds : item last value) :
    CommaList item (text ++ (after ++ ',' :: last)) (values ++ [value]) := by
  cases list with
  | intro head tail =>
      have next : Star (AfterComma item) ((after ++ ',' :: ([] ++ last)) ++ []) [value] :=
        .cons (.intro allBlank blanks_nil holds) .nil
      rw [List.append_nil] at next
      rw [List.append_assoc]
      exact .intro head (tail.append next)

/-- If the texts of a language can go on, the last one of a row can. -/
theorem Star.extend {more : List Char}
    (goesOn : ∀ text value, item text value → ∃ longer, item (text ++ more) longer)
    {text : List Char} {values : List α} (star : Star item text values) (nonempty : values ≠ []) :
    ∃ longer, Star item (text ++ more) longer := by
  induction star with
  | nil => exact (nonempty rfl).elim
  | @cons text rest value values head tail ih =>
      cases values with
      | nil =>
          cases tail
          rcases goesOn text value head with ⟨longer, holds⟩
          have single := Star.cons holds .nil
          rw [List.append_nil] at single ⊢
          exact ⟨_, single⟩
      | cons =>
          rcases ih (List.cons_ne_nil _ _) with ⟨longer, others⟩
          rw [List.append_assoc]
          exact ⟨_, .cons head others⟩

theorem CommaList.extend {more : List Char}
    (goesOn : ∀ text value, item text value → ∃ longer, item (text ++ more) longer)
    {text : List Char} {values : List α} (list : CommaList item text values) :
    ∃ longer, CommaList item (text ++ more) longer := by
  cases list with
  | @intro text rest value values head tail =>
      cases values with
      | nil =>
          cases tail
          rcases goesOn text value head with ⟨longer, holds⟩
          have single := CommaList.intro holds .nil
          rw [List.append_nil] at single ⊢
          exact ⟨_, single⟩
      | cons =>
          have goesOnBehind : ∀ text value, AfterComma item text value →
              ∃ longer, AfterComma item (text ++ more) longer := by
            intro text value next
            cases next with
            | intro blanksBefore blanksAfter inside =>
                rcases goesOn _ _ inside with ⟨longer, holds⟩
                simp only [List.append_assoc, List.cons_append]
                exact ⟨longer, .intro blanksBefore blanksAfter holds⟩
          rcases tail.extend goesOnBehind (List.cons_ne_nil _ _) with ⟨longer, others⟩
          rw [List.append_assoc]
          exact ⟨_, .intro head others⟩

end Language

end ContentApi
