import ContentApi.Proofs.Path

/-!
# The notation of path clauses

A `select` or `include` clause is a list of paths with commas between them and blanks anywhere
around them.  A path ends wherever a blank, a comma or the end of the clause follows, so a
clause compiles to some paths exactly if it is such a list of them.
-/

namespace ContentApi.Path

open ContentApi.Language Scanner

/-- Paths with commas between them, and with blanks anywhere around them. -/
inductive Clause : List Char → List String → Prop where
  | intro {before text after : List Char} {paths : List String}
      (blanksBefore : Blanks before) (inside : CommaList Spells text paths)
      (blanksAfter : Blanks after) : Clause (before ++ (text ++ after)) paths

theorem avoids_path_of_blanks {blanks rest : List Char} (allBlank : Blanks blanks)
    (avoids : Avoids isPathCharacter rest) : Avoids isPathCharacter (blanks ++ rest) :=
  allBlank.append_avoids (fun _ blank => not_path_of_space blank) avoids

theorem scanClause_sound {input rest : List Char} {paths : List String}
    (scanned : scanClause input = .ok (paths, rest)) : Clause input paths := by
  simp only [scanClause, bind_eq_ok_iff, pure_eq_ok_iff] at scanned
  rcases scanned with ⟨_, _, first, _, _, inner, _, _, second, _, _, ended, equal⟩
  cases equal
  rcases finished_eq_ok ended with ⟨rfl, -⟩
  rcases skipSpaces_eq_ok first with ⟨before, rfl, blanksBefore, -⟩
  rcases scan_sound.commaSeparated inner with ⟨text, rfl, inside⟩
  rcases skipSpaces_eq_ok second with ⟨after, rfl, blanksAfter, -⟩
  rw [List.append_nil]
  exact .intro blanksBefore inside blanksAfter

theorem scanClause_complete {input : List Char} {paths : List String}
    (holds : Clause input paths) : scanClause input = .ok (paths, []) := by
  have goesOn : ∀ {blanks : List Char} (rest : List Char), Blanks blanks →
      Avoids isPathCharacter (blanks ++ ',' :: rest) := by
    intro blanks rest allBlank
    exact avoids_path_of_blanks allBlank ((avoids_cons _ _ _).mpr rfl)
  cases holds with
  | @intro before text after _ blanksBefore inside blanksAfter =>
      have solid : Avoids isSpace (text ++ after) := by
        cases inside with
        | intro head tail =>
            rw [List.append_assoc]
            exact spells_solid.avoids head _
      have ends : Avoids isPathCharacter (after ++ []) :=
        avoids_path_of_blanks blanksAfter (avoids_nil _)
      have stops : Refuses (commaThen scan) (after ++ []) :=
        refuses_commaThen scan blanksAfter (avoids_nil _) (avoids_nil _)
      have toEnd : skipSpaces (after ++ []) = .ok ((), []) :=
        skipSpaces_append blanksAfter (avoids_nil _)
      rw [List.append_nil] at ends stops toEnd
      rw [scanClause, bind_of_ok (skipSpaces_append blanksBefore solid),
        bind_of_ok (scan_complete.commaSeparated spells_solid goesOn inside ⟨ends, stops⟩),
        bind_of_ok toEnd]
      rfl

/-- A clause compiles to some paths exactly if it is a list of them. -/
theorem compile_eq_ok {clause : String} {paths : List String} :
    compile clause = .ok paths ↔ Clause clause.toList paths := by
  rw [compile, Scanner.compile]
  constructor
  · intro compiled
    split at compiled
    · rename_i value rest scanned
      cases compiled
      exact scanClause_sound scanned
    · cases compiled
  · intro holds
    rw [scanClause_complete holds]

end ContentApi.Path
