import ContentApi.Proofs.Stopping

/-!
# Where path clauses are rejected

A list of paths is complete behind each of its paths.  When a comma follows and no path behind it,
or a slash and no name, the scanner keeps the complete list, and the clause is rejected in front of
the comma or the slash, although either of them could stand there.
-/

namespace ContentApi.Path

open ContentApi.Language Scanner

/-- The places at which the scanner has given up a comma or a slash. -/
inductive GivenUp : List Char → Char → Prop where
  | comma {front : List Char} {paths : List String} (clause : Clause front paths) :
      GivenUp front ','
  | slash {before text : List Char} {paths : List String} (blanksBefore : Blanks before)
      (inside : CommaList Spells text paths) : GivenUp (before ++ text) '/'

/-! ## What is given up could go on -/

theorem Names.append {names : List Char} (areNames : Names names) {other : List Char}
    (isName : IsName other) : Names (names ++ '/' :: other) := by
  induction areNames with
  | last isFirst => exact .more isFirst (.last isName)
  | more isFirst _ ih =>
      rw [List.append_assoc]
      exact .more isFirst ih

/-- A path goes on with a slash and a name. -/
theorem spells_slash {text : List Char} {path : String} (spells : Spells text path) :
    ∃ longer, Spells (text ++ ['/', 'a']) longer := by
  have letter : IsName ['a'] := isName_singleton rfl
  refine ⟨String.ofList (text ++ ['/', 'a']), String.toList_ofList.symm, ?_⟩
  cases spells.2 with
  | relative areNames => exact .relative (areNames.append letter)
  | rooted areNames => exact .rooted (areNames.append letter)

theorem GivenUp.opens {front : List Char} {character : Char} (givenUp : GivenUp front character) :
    Opens Clause (front ++ [character]) := by
  cases givenUp with
  | @comma _ paths clause =>
      cases clause with
      | intro blanksBefore inside blanksAfter =>
          have longer := Clause.intro blanksBefore (inside.snoc blanksAfter spells_letter)
            blanks_nil
          refine ⟨['a'], paths ++ ["a"], ?_⟩
          simpa only [List.append_assoc, List.append_nil, List.cons_append, List.nil_append]
            using longer
  | @slash before text paths blanksBefore inside =>
      rcases inside.extend (fun _ _ => spells_slash) with ⟨paths, longer⟩
      refine ⟨['a'], paths, ?_⟩
      have clause := Clause.intro blanksBefore longer blanks_nil
      simpa only [List.append_assoc, List.append_nil, List.cons_append, List.nil_append]
        using clause

/-! ## What is not given up is barred -/

/-- A path is missed in front of a character with which none begins or goes on. -/
theorem scan_bars {input rest : List Char} {character : Char}
    (stopped : scan input = .error (character :: rest)) :
    ∃ front, input = front ++ character :: rest ∧ Bars scan front character := by
  rw [scan.eq_def] at stopped
  split at stopped
  · have inner := map_eq_error_iff.mp stopped
    obtain rfl := scanNames_eq_error inner
    have noName := scanNames_stopped inner
    refine ⟨['/'], rfl, fun back => ⟨character :: back, ?_⟩⟩
    rw [List.singleton_append, scan]
    apply map_eq_error_iff.mpr
    rw [scanNames, if_neg (by simp [noName])]
  · rename_i noSlash
    have inner := map_eq_error_iff.mp stopped
    obtain rfl := scanNames_eq_error inner
    refine ⟨[], rfl, fun back => Condition.refuses_scan ?_⟩
    apply (avoids_cons _ _ _).mpr
    rw [isPathCharacter, scanNames_stopped inner, Bool.false_or]
    apply beq_eq_false_iff_ne.mpr
    rintro rfl
    exact noSlash rest rfl

/-- Behind a path stands no character of its last name. -/
theorem continuation_ends (text : List Char) :
    Avoids isNameCharacter (continuation text).2 := by
  induction text with
  | nil => exact avoids_nil _
  | cons character rest ih =>
      rw [continuation]
      split
      · exact ih
      · rename_i notTaken
        apply (avoids_cons _ _ _).mpr
        rw [Bool.not_eq_true, Bool.or_eq_false_iff] at notTaken
        exact notTaken.1

theorem scanNames_ends {input rest names : List Char}
    (scanned : scanNames input = .ok (names, rest)) : Avoids isNameCharacter rest := by
  cases input with
  | nil => cases scanned
  | cons first more =>
      rw [scanNames] at scanned
      split at scanned
      · have ends := continuation_ends (first :: more)
        rwa [Except.ok.inj scanned] at ends
      · cases scanned

theorem scan_ends {input rest : List Char} {path : String}
    (scanned : scan input = .ok (path, rest)) : Avoids isNameCharacter rest := by
  rw [scan.eq_def] at scanned
  split at scanned
  all_goals
    rcases map_eq_ok_iff.mp scanned with ⟨names, behind, inner, equal⟩
    cases equal
    exact scanNames_ends inner

/-- A path ends in front of a character that is not of its last name and no slash at once. -/
theorem avoids_path_behind {blanks back : List Char} {character : Char} (allBlank : Blanks blanks)
    (noName : Avoids isNameCharacter (blanks ++ character :: back))
    (noSlash : ¬(blanks = [] ∧ character = '/')) :
    Avoids isPathCharacter (blanks ++ character :: back) := by
  cases blanks with
  | nil =>
      have outside := (avoids_cons _ _ _).mp noName
      apply (avoids_cons _ _ _).mpr
      rw [isPathCharacter, outside, Bool.false_or]
      exact beq_eq_false_iff_ne.mpr fun isSlash => noSlash ⟨rfl, isSlash⟩
  | cons first more =>
      exact (avoids_cons _ _ _).mpr (not_path_of_space (allBlank first List.mem_cons_self))

/-- A list of paths is read in the same way unless a comma or a slash is given up behind it. -/
theorem scanPaths_swap {before input after rest : List Char} {character : Char}
    {paths : List String} (blanksBefore : Blanks before) (blanksAfter : Blanks after)
    (solid : Avoids isSpace (character :: rest))
    (scanned : commaSeparated scan input = .ok (paths, after ++ character :: rest)) :
    ∃ text, input = text ++ (after ++ character :: rest) ∧
      (GivenUp (before ++ (text ++ after)) character ∨
        ∀ back, commaSeparated scan (text ++ (after ++ character :: back)) =
          .ok (paths, after ++ character :: back)) := by
  rcases scan_sound.commaSeparated scanned with ⟨text, rfl, inside⟩
  have noName : Avoids isNameCharacter (after ++ character :: rest) :=
    commaSeparated_ends scan_ends scanned
  refine ⟨text, rfl, ?_⟩
  by_cases isComma : character = ','
  · subst isComma
    exact Or.inl (.comma (.intro blanksBefore inside blanksAfter))
  by_cases isSlash : after = [] ∧ character = '/'
  · rcases isSlash with ⟨rfl, rfl⟩
    rw [List.append_nil]
    exact Or.inl (.slash blanksBefore inside)
  refine Or.inr fun back => ?_
  have goesOn : ∀ {blanks : List Char} (rest : List Char), Blanks blanks →
      Avoids isPathCharacter (blanks ++ ',' :: rest) := by
    intro blanks rest allBlank
    exact avoids_path_of_blanks allBlank ((avoids_cons _ _ _).mpr rfl)
  have ends : Avoids isPathCharacter (after ++ character :: back) :=
    avoids_path_behind blanksAfter (avoids_swap noName back) isSlash
  have stops : Refuses (commaThen scan) (after ++ character :: back) :=
    refuses_commaThen scan blanksAfter ((avoids_cons _ _ _).mpr ((avoids_cons _ _ _).mp solid))
      ((avoids_cons _ _ _).mpr (beq_eq_false_iff_ne.mpr isComma))
  exact scan_complete.commaSeparated spells_solid goesOn inside ⟨ends, stops⟩

theorem scanClause_stopsAt : StopsAt scanClause GivenUp := by
  refine stopsAt_surrounded ?_ scanPaths_swap
  intro before behind rest character blanksBefore solid missed
  rw [commaSeparated] at missed
  rcases bind_eq_error_iff.mp missed with noPath | ⟨path, left, -, others⟩
  · rcases scan_bars noPath with ⟨front, cut, bars⟩
    exact ⟨front, cut, Or.inr fun back => (bars back).bind _⟩
  · rcases repeated_bind_eq_error others with ⟨values, left, impossible⟩
    cases impossible

end ContentApi.Path
