import ContentApi.Proofs.Condition.Stopping

/-!
# The character a rejection points at

A rejection counts the bytes of a text that some accepted clause begins with, so its column is
past the end of a clause only if the whole clause could have gone on.  The character at the
column, however, is not always one that cannot stand there.  It can, exactly at the places where
the scanner has given something up (`Condition.GivenUp`, `Path.GivenUp`): the column then lies
in front of the character that no accepted clause has at its place.
-/

namespace ContentApi

open ContentApi.Language Scanner

section

variable {α : Type}

/-- Some accepted clause begins so. -/
def Viable (compile : String → Except Rejection α) (front : List Char) : Prop :=
  ∃ back value, compile (String.ofList (front ++ back)) = .ok value

/-- No accepted clause has the character at the column behind the text in front of it. -/
def Rejection.PointsAtRefused (compile : String → Except Rejection α) (clause : String)
    (rejection : Rejection) : Prop :=
  ∀ front character back, clause.toList = front ++ character :: back →
    rejection.column = (String.ofList front).utf8ByteSize + 1 →
      ¬Viable compile (front ++ [character])

/--
What a rejection says about the text in front of its column and about the character there.  It
points at a character that is refused unless the place is one that is given up.
-/
structure Rejection.Locates (compile : String → Except Rejection α)
    (givenUp : List Char → Char → Prop) (clause : String) (rejection : Rejection)
    (front rest : List Char) : Prop where
  cut : clause.toList = front ++ rest
  column : rejection.column = (String.ofList front).utf8ByteSize + 1
  near : rejection.near = String.ofList (rest.take 12)
  viable : Viable compile front
  pastEnd : clause.utf8ByteSize < rejection.column → Viable compile clause.toList
  refused : rejection.PointsAtRefused compile clause ↔
    ∀ character back, rest = character :: back → ¬givenUp front character

/-- What opens a text of the language that is accepted is viable, and nothing else is. -/
theorem viable_iff_opens {compile : String → Except Rejection α} {language : Language α}
    (accepts : ∀ {clause value}, compile clause = .ok value ↔ language clause.toList value)
    (front : List Char) : Viable compile front ↔ Opens language front := by
  simp only [Viable, Opens, accepts, String.toList_ofList]

/-- A character that bars a scanner is at its place in no accepted clause. -/
theorem Scanner.Bars.not_viable {scanner : Scanner α} {front : List Char} {character : Char}
    (bars : Bars scanner front character) : ¬Viable scanner.compile (front ++ [character]) := by
  rintro ⟨back, value, compiled⟩
  rcases bars back with ⟨rest, stopped⟩
  have rejected : scanner.compile (String.ofList (front ++ [character] ++ back)) =
      .error (.before (front ++ character :: back) rest) := by
    apply compile_eq_error.mpr
    rw [String.toList_ofList, List.append_assoc, List.singleton_append]
    exact ⟨rest, stopped, rfl⟩
  rw [rejected] at compiled
  cases compiled

/-- Every character takes a byte. -/
theorem Rejection.eq_nil_of_byteLength {text : List Char} (empty : byteLength text = 0) :
    text = [] := by
  cases text with
  | nil => rfl
  | cons first rest =>
      have width := first.utf8Size_pos
      rw [byteLength] at empty
      omega

/-- Nothing is left behind a column past the end. -/
theorem rest_eq_nil_of_column {clause : String} {front rest : List Char}
    (cut : clause.toList = front ++ rest)
    (pastEnd : clause.utf8ByteSize < (String.ofList front).utf8ByteSize + 1) : rest = [] := by
  have split : clause = String.ofList front ++ String.ofList rest := by
    rw [← String.ofList_append, ← cut, String.ofList_toList]
  apply Rejection.eq_nil_of_byteLength
  rw [split, String.utf8ByteSize_append] at pastEnd
  rw [Rejection.byteLength_eq]
  omega

/-- The number of bytes in front of a cut says where the cut is. -/
theorem cut_of_byteLength {front other rest behind : List Char}
    (cut : front ++ rest = other ++ behind)
    (same : Rejection.byteLength front = Rejection.byteLength other) :
    front = other ∧ rest = behind := by
  rcases List.append_eq_append_iff.mp cut with ⟨more, rfl, rfl⟩ | ⟨more, rfl, rfl⟩
  · rw [Rejection.byteLength_append] at same
    have empty : Rejection.byteLength more = 0 := by omega
    obtain rfl := Rejection.eq_nil_of_byteLength empty
    exact ⟨(List.append_nil front).symm, rfl⟩
  · rw [Rejection.byteLength_append] at same
    have empty : Rejection.byteLength more = 0 := by omega
    obtain rfl := Rejection.eq_nil_of_byteLength empty
    exact ⟨List.append_nil other, rfl⟩

/-- What a rejection points at is the first character behind the cut that its column makes. -/
theorem pointsAtRefused_iff {compile : String → Except Rejection α} {clause : String}
    {rejection : Rejection} {front rest : List Char} (cut : clause.toList = front ++ rest)
    (column : rejection.column = (String.ofList front).utf8ByteSize + 1) :
    rejection.PointsAtRefused compile clause ↔
      ∀ character back, rest = character :: back → ¬Viable compile (front ++ [character]) := by
  constructor
  · rintro points character back rfl
    exact points front character back cut column
  · intro refused other character back otherCut otherColumn
    have same : Rejection.byteLength front = Rejection.byteLength other := by
      rw [Rejection.byteLength_eq, Rejection.byteLength_eq]
      omega
    rcases cut_of_byteLength (cut.symm.trans otherCut) same with ⟨rfl, behind⟩
    exact refused character back behind

/-- A scanner is rejected where it stops, and there it has given something up or is barred. -/
theorem Scanner.StopsAt.locates {scanner : Scanner α} {language : Language α}
    {givenUp : List Char → Char → Prop} {clause : String} {rejection : Rejection}
    (stopsAt : StopsAt scanner givenUp) (stopsInside : StopsInside scanner language)
    (accepts : ∀ {clause value},
      scanner.compile clause = .ok value ↔ language clause.toList value)
    (opens : ∀ {front character}, givenUp front character → Opens language (front ++ [character]))
    (rejected : scanner.compile clause = .error rejection) :
    ∃ front rest, rejection.Locates scanner.compile givenUp clause front rest := by
  rcases compile_eq_error.mp rejected with ⟨rest, stopped, rfl⟩
  rcases stopsInside stopped with ⟨front, cut, opened⟩
  have column : (Rejection.before clause.toList rest).column =
      (String.ofList front).utf8ByteSize + 1 := by
    rw [cut, Rejection.column_before]
  have viable : Viable scanner.compile front := (viable_iff_opens accepts front).mpr opened
  refine ⟨front, rest, cut, column, rfl, viable, ?_, ?_⟩
  · intro pastEnd
    rw [column] at pastEnd
    rwa [cut, rest_eq_nil_of_column cut pastEnd, List.append_nil]
  · rw [pointsAtRefused_iff cut column]
    constructor
    · intro refused character back behind given
      exact refused character back behind ((viable_iff_opens accepts _).mpr (opens given))
    · rintro notGiven character back rfl
      rcases stopsAt stopped with ⟨same, sameCut, stops⟩
      obtain rfl := List.append_cancel_right (cut.symm.trans sameCut)
      rcases stops with given | bars
      · exact (notGiven character back rfl given).elim
      · exact bars.not_viable

end

/--
Whatever clause is rejected, the text in front of the column is what some accepted clause begins
with, and no accepted clause has the character at the column behind it unless the scanner has
given something up there.
-/
theorem points_at_refused_or_given_up (clause : String) (rejection : Rejection) :
    (Condition.compile clause = .error rejection →
      ∃ front rest, rejection.Locates Condition.compile Condition.GivenUp clause front rest) ∧
    (Path.compile clause = .error rejection →
      ∃ front rest, rejection.Locates Path.compile Path.GivenUp clause front rest) := by
  constructor
  · intro rejected
    exact Condition.scanClause_stopsAt.locates Condition.scanClause_stopsInside
      Condition.compile_eq_ok Condition.GivenUp.opens rejected
  · intro rejected
    exact Path.scanClause_stopsAt.locates Path.scanClause_stopsInside Path.compile_eq_ok
      Path.GivenUp.opens rejected

/-- A connective and a comma, given up with what stands behind them. -/
theorem points_at_refused_or_given_up_separator :
    Condition.compile "(a=1 AND b)" = .error ⟨6, "AND b)"⟩ ∧
      (∃ front rest, Rejection.Locates Condition.compile Condition.GivenUp "(a=1 AND b)"
        ⟨6, "AND b)"⟩ front rest) ∧
      Path.compile "a,,b" = .error ⟨2, ",,b"⟩ ∧
      ∃ front rest, Rejection.Locates Path.compile Path.GivenUp "a,,b" ⟨2, ",,b"⟩ front rest := by
  have clause : Condition.compile "(a=1 AND b)" = .error ⟨6, "AND b)"⟩ := rfl
  have paths : Path.compile "a,,b" = .error ⟨2, ",,b"⟩ := rfl
  exact ⟨clause, (points_at_refused_or_given_up _ _).1 clause, paths,
    (points_at_refused_or_given_up _ _).2 paths⟩

/-- Both compilers can point at a character that an accepted clause has there. -/
theorem not_always_pointsAtRefused :
    (¬∀ clause rejection, Condition.compile clause = .error rejection →
      rejection.PointsAtRefused Condition.compile clause) ∧
    ¬∀ clause rejection, Path.compile clause = .error rejection →
      rejection.PointsAtRefused Path.compile clause := by
  constructor
  · intro always
    have rejected : Condition.compile "(a=1 AND b)" = .error ⟨6, "AND b)"⟩ := rfl
    refine always _ _ rejected "(a=1 ".toList 'A' "ND b)".toList rfl rfl ?_
    exact ⟨"ND b=1)".toList, .all [.test (.compare "a" .equal "1"),
      .test (.compare "b" .equal "1")], rfl⟩
  · intro always
    have rejected : Path.compile "a,,b" = .error ⟨2, ",,b"⟩ := rfl
    exact always _ _ rejected ['a'] ',' [',', 'b'] rfl rfl ⟨['b'], ["a", "b"], rfl⟩

end ContentApi
