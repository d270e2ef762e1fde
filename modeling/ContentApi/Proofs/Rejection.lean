import ContentApi.Proofs.Condition.Reading
import ContentApi.Proofs.Path.Clause

/-!
# Where clauses are rejected

The place at which a scanner stops says more than that the text is not accepted: what stands
in front of it could have gone on.  The invariant is that of viable prefixes, one for each
part of the notation (`StopsInside`): a text of the language begins with what the scanner has
passed over.

Of several alternatives only the last one is ever reported, and repetitions never stop, so
the invariant is needed for the last alternatives alone, which are comparisons.  A rejection
then counts the bytes of such a text (`points_behind_viable`).
-/

namespace ContentApi

open ContentApi.Language

/-! ## Bytes -/

namespace Rejection

theorem byteLength_append (front back : List Char) :
    byteLength (front ++ back) = byteLength front + byteLength back := by
  induction front with
  | nil => exact (Nat.zero_add _).symm
  | cons first rest ih =>
      rw [List.cons_append, byteLength, byteLength, ih, Nat.add_assoc]

theorem byteLength_eq (text : List Char) :
    byteLength text = (String.ofList text).utf8ByteSize := by
  induction text with
  | nil => rfl
  | cons first rest ih =>
      have cut : String.ofList (first :: rest) =
          String.singleton first ++ String.ofList rest := by
        rw [String.singleton_eq_ofList, ← String.ofList_append]
        rfl
      rw [byteLength, ih, cut, String.utf8ByteSize_append, String.utf8ByteSize_singleton]

/-- The rejection in front of a rest counts the bytes of what stands before it. -/
theorem column_before (front rest : List Char) :
    (before (front ++ rest) rest).column = (String.ofList front).utf8ByteSize + 1 := by
  rw [before, byteLength_append, Nat.add_sub_cancel, byteLength_eq]

end Rejection

/-! ## Where scanners stop -/

namespace Scanner

variable {α β : Type}

/-- Some text of a language begins so. -/
def Opens (language : Language α) (front : List Char) : Prop :=
  ∃ back value, language (front ++ back) value

/-- Where a scanner stops, a text of a language begins with what it has passed over. -/
def StopsInside (scanner : Scanner α) (language : Language β) : Prop :=
  ∀ ⦃input rest : List Char⦄,
    scanner input = .error rest → ∃ front, input = front ++ rest ∧ Opens language front

/-- Every text of a language begins with nothing. -/
theorem opens_nil {language : Language α} {text : List Char} {value : α}
    (holds : language text value) : Opens language [] :=
  ⟨text, value, holds⟩

/-- If two steps stop behind the first one, a text of its language has been passed over. -/
theorem Sound.bind_eq_error {scanner : Scanner α} {language : Language α}
    {next : α → Scanner β} {input rest : List Char} (sound : Sound scanner language)
    (stopped : (scanner >>= next) input = .error rest) :
    scanner input = .error rest ∨
      ∃ text behind value, input = text ++ behind ∧ language text value ∧
        next value behind = .error rest := by
  rcases bind_eq_error_iff.mp stopped with first | ⟨value, behind, scanned, second⟩
  · exact Or.inl first
  · rcases sound scanned with ⟨text, equal, holds⟩
    exact Or.inr ⟨text, behind, value, equal, holds, second⟩

/-- Blanks never stop a scanner. -/
theorem skipSpaces_bind_stopped {next : Unit → Scanner α} {input rest : List Char}
    (stopped : (skipSpaces >>= next) input = .error rest) :
    ∃ blanks behind, input = blanks ++ behind ∧ Blanks blanks ∧ Avoids isSpace behind ∧
      next () behind = .error rest := by
  rcases bind_eq_error_iff.mp stopped with impossible | ⟨_, behind, scanned, stopped⟩
  · cases impossible
  · rcases skipSpaces_eq_ok scanned with ⟨blanks, equal, allBlank, solid⟩
    exact ⟨blanks, behind, equal, allBlank, solid, stopped⟩

theorem skipSpaces_bind_eq_error {next : Unit → Scanner α} {input rest : List Char}
    (stopped : (skipSpaces >>= next) input = .error rest) :
    ∃ blanks behind, input = blanks ++ behind ∧ Blanks blanks ∧
      next () behind = .error rest := by
  rcases skipSpaces_bind_stopped stopped with ⟨blanks, behind, equal, allBlank, -, stopped⟩
  exact ⟨blanks, behind, equal, allBlank, stopped⟩

/-- Repetitions never stop a scanner. -/
theorem repeated_bind_eq_error {step : Scanner α} {next : List α → Scanner β}
    {input rest : List Char} (stopped : (repeated step >>= next) input = .error rest) :
    ∃ values behind, next values behind = .error rest := by
  rcases bind_eq_error_iff.mp stopped with impossible | ⟨values, behind, -, stopped⟩
  · cases impossible
  · exact ⟨values, behind, stopped⟩

theorem StopsInside.either {first second : Scanner α} {language : Language β}
    (stops : StopsInside second language) : StopsInside (either first second) language := by
  intro input rest stopped
  exact stops (either_eq_error stopped)

/-- A list with commas stops only in its first value. -/
theorem StopsInside.commaSeparated {scanner : Scanner α} {item : Language α}
    (stops : StopsInside scanner item) :
    StopsInside (commaSeparated scanner) (CommaList item) := by
  intro input rest stopped
  rw [Scanner.commaSeparated] at stopped
  rcases bind_eq_error_iff.mp stopped with first | ⟨value, behind, -, others⟩
  · rcases stops first with ⟨front, equal, back, value, holds⟩
    have single := CommaList.intro holds .nil
    rw [List.append_nil] at single
    exact ⟨front, equal, back, [value], single⟩
  · rcases repeated_bind_eq_error others with ⟨values, behind, impossible⟩
    cases impossible

theorem StopsInside.parenthesized {scanner : Scanner α} {item : Language α}
    (stops : StopsInside scanner item) (itemSound : Sound scanner item)
    (inhabited : Opens item []) :
    StopsInside (parenthesized scanner) (Parenthesized item) := by
  intro input rest stopped
  rw [Scanner.parenthesized] at stopped
  rcases bind_eq_error_iff.mp stopped with notOpened | ⟨_, opened, isOpen, behindOpen⟩
  · rcases inhabited with ⟨back, value, holds⟩
    obtain rfl := character_eq_error notOpened
    exact ⟨[], rfl, opens_nil (.intro blanks_nil holds blanks_nil)⟩
  obtain rfl := symbol_eq_ok isOpen
  rcases skipSpaces_bind_eq_error behindOpen with ⟨before, _, rfl, blanksBefore, stopped⟩
  rcases itemSound.bind_eq_error stopped with inner | ⟨text, _, value, rfl, holds, stopped⟩
  · rcases stops inner with ⟨front, rfl, back, value, holds⟩
    have derived := Parenthesized.intro blanksBefore holds blanks_nil
    refine ⟨'(' :: (before ++ front), ?_, back ++ ([] ++ [')']), value, ?_⟩
    · simp only [List.cons_append, List.append_assoc]
    · simpa only [List.cons_append, List.append_assoc] using derived
  rcases skipSpaces_bind_eq_error stopped with ⟨after, behind, rfl, blanksAfter, stopped⟩
  rcases bind_eq_error_iff.mp stopped with notClosed | ⟨_, _, _, impossible⟩
  · obtain rfl := character_eq_error notClosed
    have derived := Parenthesized.intro blanksBefore holds blanksAfter
    refine ⟨'(' :: (before ++ (text ++ after)), ?_, [')'], value, ?_⟩
    · simp only [List.cons_append, List.append_assoc]
    · simpa only [List.cons_append, List.append_assoc] using derived
  · cases impossible

/-- A whole clause is a text of a language with blanks around it. -/
theorem StopsInside.surrounded {scanner : Scanner α} {item clause : Language α}
    (stops : StopsInside scanner item) (itemSound : Sound scanner item)
    (wrap : ∀ {before text after : List Char} {value : α}, Blanks before → item text value →
      Blanks after → clause (before ++ (text ++ after)) value) :
    StopsInside
      (do skipSpaces
          let value ← scanner
          skipSpaces
          finished
          return value) clause := by
  intro input rest stopped
  rcases skipSpaces_bind_eq_error stopped with ⟨before, _, rfl, blanksBefore, stopped⟩
  rcases itemSound.bind_eq_error stopped with inner | ⟨text, _, value, rfl, inside, stopped⟩
  · rcases stops inner with ⟨front, rfl, back, value, holds⟩
    have derived := wrap blanksBefore holds blanks_nil
    refine ⟨before ++ front, (List.append_assoc _ _ _).symm, back, value, ?_⟩
    simpa only [List.append_assoc, List.append_nil] using derived
  rcases skipSpaces_bind_eq_error stopped with ⟨after, _, rfl, blanksAfter, stopped⟩
  rcases bind_eq_error_iff.mp stopped with unfinished | ⟨_, _, _, impossible⟩
  · obtain rfl := finished_eq_error unfinished
    have derived := wrap blanksBefore inside blanksAfter
    refine ⟨before ++ (text ++ after), ?_, [], value, ?_⟩
    · simp only [List.append_assoc]
    · rwa [List.append_nil]
  · cases impossible

end Scanner

/-! ## Path clauses -/

namespace Path

open Scanner

/-- A path of one character. -/
theorem spells_letter : Spells ['a'] "a" :=
  ⟨rfl, .relative (.last (isName_singleton rfl))⟩

theorem scanNames_eq_error {input rest : List Char} (stopped : scanNames input = .error rest) :
    rest = input := by
  cases input with
  | nil =>
      cases stopped
      rfl
  | cons first more =>
      rw [scanNames] at stopped
      split at stopped
      · cases stopped
      · cases stopped
        rfl

/-- A path is missed at its start or behind its leading slash. -/
theorem scan_stopsInside : StopsInside scan Spells := by
  intro input rest stopped
  rw [scan.eq_def] at stopped
  split at stopped
  · obtain rfl := scanNames_eq_error (map_eq_error_iff.mp stopped)
    exact ⟨['/'], rfl, ['a'], "/a", rfl, .rooted (.last (isName_singleton rfl))⟩
  · obtain rfl := scanNames_eq_error (map_eq_error_iff.mp stopped)
    exact ⟨[], rfl, opens_nil spells_letter⟩

/-- Where a clause of paths is rejected, one could have gone on. -/
theorem scanClause_stopsInside : StopsInside scanClause Clause :=
  scan_stopsInside.commaSeparated.surrounded scan_sound.commaSeparated .intro

end Path

/-! ## Conditions -/

namespace Condition

open Scanner Grammar

theorem value_letter : Value ['a'] "a" := by
  apply Value.bare (List.cons_ne_nil _ _)
  intro character member
  rw [List.mem_singleton.mp member]
  rfl

theorem scanBare_eq_error {input rest : List Char} (stopped : scanBare input = .error rest) :
    rest = input := by
  rw [scanBare] at stopped
  split at stopped
  · cases stopped
  · cases stopped
    rfl

theorem scanValue_eq_error {input rest : List Char} (stopped : scanValue input = .error rest) :
    rest = input := by
  cases input with
  | nil =>
      cases stopped
      rfl
  | cons first more =>
      rw [scanValue] at stopped
      split at stopped
      · split at stopped
        · cases stopped
        · cases stopped
          rfl
      · exact scanBare_eq_error stopped

theorem scanComparator_eq_error {input rest : List Char}
    (stopped : scanComparator input = .error rest) : rest = input := by
  rw [scanComparator.eq_def] at stopped
  split at stopped
  all_goals cases stopped
  rfl

/-- Whatever stands in front of its value, a comparison can be completed by a letter. -/
theorem test_letter {path before after : List Char} {property : String}
    (spells : Path.Spells path property) (blanksBefore : Blanks before)
    (blanksAfter : Blanks after) (comparator : Comparator) :
    Test (path ++ (before ++ (comparator.sign.toList ++ (after ++ ['a']))))
      (.compare property comparator "a") :=
  .compare spells blanksBefore blanksAfter value_letter

/-- A comparison is missed in its path, in front of its sign or in front of its value. -/
theorem scanComparison_stopsInside : StopsInside scanComparison Test := by
  intro input rest stopped
  rw [scanComparison] at stopped
  rcases Path.scan_sound.bind_eq_error stopped with
    noPath | ⟨path, _, property, rfl, spells, stopped⟩
  · rcases Path.scan_stopsInside noPath with ⟨front, rfl, back, property, spells⟩
    have derived := test_letter spells blanks_nil blanks_nil .equal
    rw [List.append_assoc] at derived
    exact ⟨front, rfl, _, _, derived⟩
  rcases skipSpaces_bind_eq_error stopped with ⟨before, _, rfl, blanksBefore, stopped⟩
  rcases bind_eq_error_iff.mp stopped with noSign | ⟨comparator, _, isSign, behindSign⟩
  · obtain rfl := scanComparator_eq_error noSign
    have derived := test_letter spells blanksBefore blanks_nil .equal
    rw [← List.append_assoc] at derived
    exact ⟨path ++ before, (List.append_assoc _ _ _).symm, _, _, derived⟩
  obtain rfl := scanComparator_sound isSign
  rcases skipSpaces_bind_eq_error behindSign with ⟨after, _, rfl, blanksAfter, stopped⟩
  rcases bind_eq_error_iff.mp stopped with noValue | ⟨_, _, _, impossible⟩
  · obtain rfl := scanValue_eq_error noValue
    have derived := test_letter spells blanksBefore blanksAfter comparator
    refine ⟨path ++ (before ++ (comparator.sign.toList ++ after)), ?_, ['a'],
      .compare property comparator "a", ?_⟩
    · simp only [List.append_assoc]
    · simpa only [List.append_assoc] using derived
  · cases impossible

theorem scanTest_stopsInside : StopsInside scanTest Test :=
  scanComparison_stopsInside.either.either.either.either

theorem scanSimple_stopsInside : StopsInside scanSimple Simple := by
  apply StopsInside.either
  intro input rest stopped
  rcases scanTest_stopsInside (map_eq_error_iff.mp stopped) with
    ⟨front, equal, back, leaf, holds⟩
  exact ⟨front, equal, back, .test leaf, .test holds⟩

/-- Behind a simple condition no connective is due, so a predicate stops only inside it. -/
theorem scanPredicate_eq_error {input rest : List Char}
    (stopped : scanPredicate input = .error rest) : scanSimple input = .error rest := by
  rw [scanPredicate] at stopped
  rcases bind_eq_error_iff.mp stopped with first | ⟨first, _, -, stopped⟩
  · exact first
  rcases repeated_bind_eq_error stopped with ⟨conjuncts, _, stopped⟩
  cases conjuncts with
  | cons second others => cases stopped
  | nil =>
      rcases repeated_bind_eq_error stopped with ⟨disjuncts, _, impossible⟩
      cases disjuncts <;> cases impossible

theorem scanPredicate_stopsInside : StopsInside scanPredicate Predicate := by
  intro input rest stopped
  rcases scanSimple_stopsInside (scanPredicate_eq_error stopped) with
    ⟨front, equal, back, condition, holds⟩
  exact ⟨front, equal, back, condition, .simple holds⟩

theorem opens_predicate : Opens Predicate [] :=
  opens_nil (.simple (.test (test_letter Path.spells_letter blanks_nil blanks_nil .equal)))

/-- Where a clause is rejected, one could have gone on. -/
theorem scanClause_stopsInside : StopsInside scanClause Clause := by
  have stops : StopsInside (parenthesized scanPredicate) (Parenthesized Predicate) :=
    scanPredicate_stopsInside.parenthesized scanPredicate_sound opens_predicate
  rw [scanClause_eq]
  exact stops.surrounded scanPredicate_sound.parenthesized .intro

end Condition

/-! ## Rejections -/

/--
A rejection of a clause by a compiler: its column is the byte behind some front of the clause,
it shows up to twelve characters of what is left, and the front can be completed to a clause
that is accepted.
-/
structure Rejection.PointsBehindViable {α : Type} (compile : String → Except Rejection α)
    (clause : String) (rejection : Rejection) : Prop where
  positive : 1 ≤ rejection.column
  within : rejection.column ≤ clause.utf8ByteSize + 1
  boundary : String.Pos.Raw.IsValid clause ⟨rejection.column - 1⟩
  viable : ∃ front rest : String,
    clause = front ++ rest ∧ front.utf8ByteSize = rejection.column - 1 ∧
      rejection.near = String.ofList (rest.toList.take 12) ∧
      ∃ suffix value, compile (front ++ suffix) = .ok value

/-- A clause is rejected where the scanner stops. -/
theorem Scanner.compile_eq_error {α : Type} {scanner : Scanner α} {clause : String}
    {rejection : Rejection} :
    scanner.compile clause = .error rejection ↔
      ∃ rest, scanner clause.toList = .error rest ∧ .before clause.toList rest = rejection := by
  rw [Scanner.compile]
  cases scanned : scanner clause.toList with
  | error rest => simp
  | ok success => simp

/-- A scanner that stops inside what is accepted is rejected behind a viable front. -/
theorem Scanner.StopsInside.pointsBehindViable {α : Type} {scanner : Scanner α}
    {language : Language α} {clause : String} {rejection : Rejection}
    (stops : StopsInside scanner language)
    (accepts : ∀ {text : List Char} {value : α}, language text value →
      scanner text = .ok (value, []))
    (rejected : scanner.compile clause = .error rejection) :
    rejection.PointsBehindViable scanner.compile clause := by
  rcases compile_eq_error.mp rejected with ⟨rest, stopped, rfl⟩
  rcases stops stopped with ⟨front, cut, back, value, holds⟩
  have split : clause = String.ofList front ++ String.ofList rest := by
    rw [← String.ofList_append, ← cut, String.ofList_toList]
  have column : (Rejection.before clause.toList rest).column =
      (String.ofList front).utf8ByteSize + 1 := by
    rw [cut, Rejection.column_before]
  refine ⟨?_, ?_, ?_, String.ofList front, String.ofList rest, split, ?_, ?_,
    String.ofList back, value, ?_⟩
  · rw [column]
    exact Nat.le_add_left 1 _
  · rw [column, split, String.utf8ByteSize_append]
    omega
  · rw [column, Nat.add_sub_cancel]
    exact String.Pos.Raw.isValid_iff_exists_append.mpr ⟨_, _, split, rfl⟩
  · rw [column, Nat.add_sub_cancel]
  · rw [String.toList_ofList]
    rfl
  · rw [Scanner.compile, ← String.ofList_append, String.toList_ofList, accepts holds]

/--
Whatever clause is rejected, be it a `where` clause or a list of paths: the rejection points
behind a text that some accepted clause begins with.
-/
theorem points_behind_viable :
    (∀ clause rejection, Condition.compile clause = .error rejection →
      rejection.PointsBehindViable Condition.compile clause) ∧
    (∀ clause rejection, Path.compile clause = .error rejection →
      rejection.PointsBehindViable Path.compile clause) := by
  constructor
  · intro clause rejection rejected
    exact Condition.scanClause_stopsInside.pointsBehindViable Condition.scanClause_complete
      rejected
  · intro clause rejection rejected
    exact Path.scanClause_stopsInside.pointsBehindViable Path.scanClause_complete rejected

/-- A connective without a condition behind it, and a slash without a name behind it. -/
theorem points_behind_viable_cutOff :
    Condition.compile "(größe>5 AND" = .error ⟨12, "AND"⟩ ∧
      Rejection.PointsBehindViable Condition.compile "(größe>5 AND" ⟨12, "AND"⟩ ∧
      Path.compile " /" = .error ⟨3, ""⟩ ∧
      Rejection.PointsBehindViable Path.compile " /" ⟨3, ""⟩ := by
  have clause : Condition.compile "(größe>5 AND" = .error ⟨12, "AND"⟩ := rfl
  have paths : Path.compile " /" = .error ⟨3, ""⟩ := rfl
  exact ⟨clause, points_behind_viable.1 _ _ clause, paths, points_behind_viable.2 _ _ paths⟩

end ContentApi
