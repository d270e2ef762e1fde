import ContentApi.Proofs.Path.Clause
import ContentApi.Request.Context

/-!
# Lists of paths as they are written

Written out, a `select` or `include` clause is a row of paths that have blanks of their own on
both sides, with commas between them (`clauseOf`).  The notation shares the same blanks out in
another way: there they stand around the commas and around the whole row.  Both say the same
(`clause_iff_listed`), so a clause compiles to the paths of a row exactly if it is that row
written out, and a request with any other clause is refused with the clause in the error.
-/

namespace ContentApi

open ContentApi.Language

namespace Path

/-- A path as it stands in a clause, with blanks on both sides. -/
structure Placed where
  before : List Char
  path : String
  after : List Char
  blanksBefore : Blanks before
  isPath : IsPath path.toList
  blanksAfter : Blanks after

/-- A path with its blanks. -/
def Placed.text (placed : Placed) : List Char :=
  placed.before ++ (placed.path.toList ++ placed.after)

/-- The clause that lists some paths with commas between them. -/
def clauseOf (row : List Placed) : String :=
  String.ofList ([','].intercalate (row.map Placed.text))

/-- A clause is a list of one or more paths, the given ones in their order. -/
def Lists (clause : String) (paths : List String) : Prop :=
  ∃ first others, clause = clauseOf (first :: others) ∧
    paths = (first :: others).map Placed.path

/-! ## Blanks around commas and around paths -/

theorem intercalate_text (first : Placed) (others : List Placed) :
    [','].intercalate ((first :: others).map Placed.text) =
      first.before ++ (first.path.toList ++
        (first.after ++ others.flatMap fun placed => ',' :: placed.text)) := by
  induction others generalizing first with
  | nil => simp [Placed.text]
  | cons second rest ih =>
      have cut := ih second
      rw [List.map_cons] at cut ⊢
      rw [List.map_cons, List.intercalate_cons_cons, cut]
      simp [Placed.text]

/-- Behind a path the blanks up to the next comma belong to that comma. -/
theorem star_of_placed (others : List Placed) {gap : List Char} (blanksBefore : Blanks gap) :
    ∃ text after, gap ++ (others.flatMap fun placed => ',' :: placed.text) = text ++ after ∧
      Star (AfterComma Spells) text (others.map Placed.path) ∧ Blanks after := by
  induction others generalizing gap with
  | nil => exact ⟨[], gap, by simp, .nil, blanksBefore⟩
  | cons placed rest ih =>
      rcases ih placed.blanksAfter with ⟨text, after, whole, star, blanksAfter⟩
      have head : AfterComma Spells
          (gap ++ ',' :: (placed.before ++ placed.path.toList)) placed.path :=
        .intro blanksBefore placed.blanksBefore ⟨rfl, placed.isPath⟩
      refine ⟨_, after, ?_, .cons head star, blanksAfter⟩
      simp only [List.flatMap_cons, Placed.text, List.cons_append, List.append_assoc] at whole ⊢
      rw [whole]

theorem clause_of_placed (first : Placed) (others : List Placed) :
    Clause ([','].intercalate ((first :: others).map Placed.text))
      ((first :: others).map Placed.path) := by
  rcases star_of_placed others first.blanksAfter with ⟨text, after, whole, star, blanksAfter⟩
  have head : Spells first.path.toList first.path := ⟨rfl, first.isPath⟩
  have derived := Clause.intro first.blanksBefore (.intro head star) blanksAfter
  rwa [intercalate_text, whole, ← List.append_assoc first.path.toList]

/-- The blanks in front of a comma are those behind the path before it. -/
theorem exists_placed {rest : List Char} {paths : List String}
    (star : Star (AfterComma Spells) rest paths) {before text after : List Char} {path : String}
    (blanksBefore : Blanks before) (spells : Spells text path) (blanksAfter : Blanks after) :
    ∃ first others, before ++ (text ++ (rest ++ after)) =
        [','].intercalate ((first :: others).map Placed.text) ∧
      path :: paths = (first :: others).map Placed.path := by
  rcases spells with ⟨rfl, isPath⟩
  induction star generalizing before path with
  | nil =>
      refine ⟨⟨before, path, after, blanksBefore, isPath, blanksAfter⟩, [], ?_, rfl⟩
      simp [Placed.text]
  | @cons _ rest next paths head tail ih =>
      cases head with
      | @intro gap blanks _ _ blanksGap blanksNext inside =>
          rcases inside with ⟨rfl, nextIsPath⟩
          rcases ih blanksNext nextIsPath with ⟨second, others, whole, same⟩
          refine ⟨⟨before, path, gap, blanksBefore, isPath, blanksGap⟩, second :: others, ?_, ?_⟩
          · rw [List.map_cons, List.map_cons, List.intercalate_cons_cons, ← List.map_cons, ← whole]
            simp [Placed.text]
          · rw [same]
            rfl

/-- The notation of clauses is that of rows of paths which have their own blanks. -/
theorem clause_iff_listed {clause : String} {paths : List String} :
    Clause clause.toList paths ↔ Lists clause paths := by
  constructor
  · intro holds
    generalize written : clause.toList = text at holds
    cases holds with
    | @intro before _ after _ blanksBefore inside blanksAfter =>
        cases inside with
        | @intro text rest _ _ spells star =>
            rcases exists_placed star blanksBefore spells blanksAfter with
              ⟨first, others, whole, same⟩
            refine ⟨first, others, ?_, same⟩
            rw [clauseOf, ← whole, ← List.append_assoc text rest, ← written, String.ofList_toList]
  · rintro ⟨first, others, rfl, rfl⟩
    rw [clauseOf, String.toList_ofList]
    exact clause_of_placed first others

theorem compile_iff_listed {clause : String} {paths : List String} :
    compile clause = .ok paths ↔ Lists clause paths :=
  compile_eq_ok.trans clause_iff_listed

end Path

namespace Context

theorem readPaths_eq_ok_iff {parameter clause : String} {paths : List String} :
    readPaths parameter (some clause) = .ok paths ↔ Path.compile clause = .ok paths := by
  rw [readPaths]
  cases Path.compile clause <;> simp

/-- How the clause of a parameter is read. -/
structure ReadsListed (parameter clause : String) : Prop where
  compiled : ∀ paths, Path.compile clause = .ok paths ↔ Path.Lists clause paths
  read : ∀ paths, readPaths parameter (some clause) = .ok paths ↔ Path.Lists clause paths
  /-- Any other text is refused, and the error names the parameter and shows the text. -/
  refused : (¬∃ paths, Path.Lists clause paths) →
    readPaths parameter (some clause) = .error (.invalidSelect parameter clause)

/--
A clause compiles to some paths exactly if it lists one or more paths with commas between them
and blanks around them, and these are the listed ones, in their order and with repetitions.
So every row of paths is recovered from the clause in which it is written, and every other text
is refused.
-/
theorem readPaths_listed :
    (∀ parameter clause, ReadsListed parameter clause) ∧
      ∀ first others, Path.compile (Path.clauseOf (first :: others)) =
        .ok ((first :: others).map Path.Placed.path) := by
  refine ⟨?_, ?_⟩
  · intro parameter clause
    have read : ∀ paths, readPaths parameter (some clause) = .ok paths ↔
        Path.Lists clause paths := fun paths =>
      readPaths_eq_ok_iff.trans Path.compile_iff_listed
    refine ⟨fun paths => Path.compile_iff_listed, read, ?_⟩
    intro unlisted
    cases compiled : Path.compile clause with
    | ok paths => exact (unlisted ⟨paths, Path.compile_iff_listed.mp compiled⟩).elim
    | error rejection => rw [readPaths, compiled]
  · intro first others
    exact Path.compile_iff_listed.mpr ⟨first, others, rfl, rfl⟩

example : Path.compile "\t/owner/name , title\n,title " =
    .ok ["/owner/name", "title", "title"] := rfl

end Context

end ContentApi
