import ContentApi.Proofs.Json.Targets
import ContentApi.Request.Body

/-!
# Lists and single values in a body

A body from which a list of values is wanted holds an array of them or a single one.  The array
counts first: if each of its elements would do as a body of its own, the list consists of what is
in them.  Only otherwise the body is taken as one value, which may itself be read from an array;
and if it is none, wanting a list and wanting one value fail alike.
-/

namespace ContentApi.Body

open ContentApi.Json

variable {α : Type}

/-! ## Documents and their elements -/

/-- A body that holds some value and nothing else. -/
def IsDocument (bytes : List UInt8) : Prop :=
  ∃ value, extract .json ⟨bytes, false⟩ = .ok value

/-- A text that is an array, and the texts of its elements with the blanks around them. -/
inductive IsArrayOf : List UInt8 → List (List UInt8) → Prop where
  | empty {before inner after : List UInt8} (blankBefore : BlankBytes before)
      (blankInside : BlankBytes inner) (blankAfter : BlankBytes after) :
      IsArrayOf (before ++ 0x5b :: (inner ++ 0x5d :: after)) []
  | filled {before after : List UInt8} {elements : List (List UInt8)} {items : List Written}
      (blankBefore : BlankBytes before) (nonempty : elements ≠ [])
      (areValues : List.Forall₂ Holds elements items)
      (blankAfter : BlankBytes after) :
      IsArrayOf (before ++ 0x5b :: ([0x2c].intercalate elements ++ 0x5d :: after)) elements

theorem spellsItems_intercalate {elements : List (List UInt8)} {items : List Written}
    (pairs : List.Forall₂ Holds elements items) (nonempty : elements ≠ []) :
    SpellsItems ([0x2c].intercalate elements) items := by
  induction pairs with
  | nil => exact (nonempty rfl).elim
  | @cons element item elements items first others ih =>
      obtain ⟨before, text, after, blankBefore, inside, blankAfter, rfl⟩ := first
      cases others with
      | nil =>
          rw [List.intercalate_singleton]
          exact .last blankBefore inside blankAfter
      | cons second more =>
          rw [List.intercalate_cons_cons]
          simp only [List.append_assoc, List.singleton_append]
          exact .more blankBefore inside blankAfter (ih (List.cons_ne_nil _ _))

theorem exists_elements {inner : List UInt8} {items : List Written}
    (spells : SpellsItems inner items) (nonempty : items ≠ []) :
    ∃ elements, inner = [0x2c].intercalate elements ∧ List.Forall₂ Holds elements items := by
  induction items generalizing inner with
  | nil => exact (nonempty rfl).elim
  | cons item items ih =>
      cases spells with
      | last blankBefore inside blankAfter =>
          exact ⟨[_], List.intercalate_singleton.symm,
            .cons ⟨_, _, _, blankBefore, inside, blankAfter, rfl⟩ .nil⟩
      | more blankBefore inside blankAfter others =>
          obtain ⟨elements, rfl, pairs⟩ := ih others (List.cons_ne_nil _ _)
          refine ⟨_ :: elements, ?_, .cons ⟨_, _, _, blankBefore, inside, blankAfter, rfl⟩ pairs⟩
          cases pairs
          rw [List.intercalate_cons_cons]
          simp only [List.append_assoc, List.singleton_append]

variable {bytes : List UInt8} {written : Written} {items : List Written}

/-- The text of an array is an array of some elements. -/
theorem exists_isArrayOf (holds : Holds bytes (.array items .closed)) :
    ∃ elements, IsArrayOf bytes elements ∧ List.Forall₂ Holds elements items := by
  obtain ⟨before, text, after, blankBefore, inside, blankAfter, rfl⟩ := holds
  cases inside with
  | @array inner _ inside =>
      rw [List.cons_append, List.append_assoc, List.singleton_append]
      cases items with
      | nil => exact ⟨[], .empty blankBefore (inside.blank rfl) blankAfter, .nil⟩
      | cons item items =>
          obtain ⟨elements, rfl, pairs⟩ := exists_elements inside (List.cons_ne_nil _ _)
          have nonempty : elements ≠ [] := by
            rintro rfl
            cases pairs
          exact ⟨elements, .filled blankBefore nonempty pairs blankAfter, pairs⟩

/-- An array of elements is written as the items that they hold. -/
theorem IsArrayOf.holds {elements : List (List UInt8)} (isArray : IsArrayOf bytes elements) :
    ∃ items, Holds bytes (.array items .closed) ∧ List.Forall₂ Holds elements items := by
  cases isArray with
  | @empty before inner after blankBefore blankInside blankAfter =>
      refine ⟨[], ⟨before, _, after, blankBefore, .array (.nil blankInside), blankAfter, ?_⟩, .nil⟩
      rw [List.cons_append, List.append_assoc, List.singleton_append]
  | @filled before after _ items blankBefore nonempty areValues blankAfter =>
      refine ⟨items, ⟨before, _, after, blankBefore,
        .array (spellsItems_intercalate areValues nonempty), blankAfter, ?_⟩, areValues⟩
      rw [List.cons_append, List.append_assoc, List.singleton_append]

/-- A text holds one value only. -/
theorem holds_unique {other : Written} (holds : Holds bytes written) (also : Holds bytes other) :
    written = other := by
  obtain ⟨_, read, _⟩ := holds.written
  obtain ⟨_, readAgain, _⟩ := also.written
  exact (Prod.mk.inj (read.symm.trans readAgain)).1

/-- A document holds one value, which is complete. -/
theorem IsDocument.exists_holds (document : IsDocument bytes) :
    ∃ written value, Holds bytes written ∧ written.contents nestingLimit = .ok value := by
  obtain ⟨normal, taken⟩ := document
  cases read : (⟨bytes, false⟩ : Source).written with
  | mk written rest =>
      rw [extract, Target.read, read] at taken
      simp only [Target.json] at taken
      cases contents : written.contents nestingLimit with
      | error =>
          rw [contents] at taken
          cases taken
      | ok value =>
          rw [contents] at taken
          refine ⟨written, value, Source.holds_of_written read ?_, contents⟩
          cases finished : Source.endFault? ⟨bytes, false⟩ rest with
          | none => rfl
          | some fault =>
            rw [finished] at taken
            cases taken

/-! ## Taking values from a document -/

/-- What comes of a body in which a value was found or not. -/
def outcome : Option α → Except ApiError α
  | some value => .ok value
  | none => .error (.invalidArgument .unusableBody)

theorem outcome_eq_ok_iff {found : Option α} {value : α} :
    outcome found = .ok value ↔ found = some value := by
  cases found with
  | none => exact ⟨nofun, nofun⟩
  | some => exact ⟨fun same => congrArg some (Except.ok.inj same), fun same => by cases same; rfl⟩

theorem outcome_of_agrees {result : Except Fault α} {found : Option α}
    (agrees : Agrees result found) : result.mapError errorOf = outcome found := by
  cases agrees with
  | value => rfl
  | @fault fault ofText =>
      cases fault with
      | unreadable => exact (ofText rfl).elim
      | malformed | mismatch | truncated => rfl

section Document

variable {target : Target α} {value : Json}

/-- One value is taken from a document as it is taken from its complete value. -/
theorem extract_eq_outcome (composed : target.Composed) (holds : Holds bytes written)
    (taken : written.contents nestingLimit = .ok value) :
    extract target ⟨bytes, false⟩ = outcome (target.buffered value) := by
  obtain ⟨rest, read, finished⟩ := holds.written
  rw [← outcome_of_agrees (composed.faithful nestingLimit written value taken), extract,
    Target.read, read]
  simp only [finished]
  rw [bind_pure]

theorem extractList_eq_outcome (holds : Holds bytes written)
    (taken : written.contents nestingLimit = .ok value) :
    extractList target ⟨bytes, false⟩ = outcome (target.oneOrMany value) := by
  obtain ⟨rest, read, finished⟩ := holds.written
  rw [extractList, Target.readList, read]
  simp only [taken, finished, bind, Except.bind]
  cases target.oneOrMany value with
  | none => rfl
  | some values => rfl

end Document

theorem mapM_eq_some_iff {γ δ : Type} {take : γ → Option δ} {sources : List γ}
    {values : List δ} :
    sources.mapM take = some values ↔
      List.Forall₂ (fun source value => take source = some value) sources values := by
  induction sources generalizing values with
  | nil =>
      rw [List.forall₂_nil_left_iff, List.mapM_nil]
      exact ⟨fun same => (Option.some.inj same).symm, fun same => congrArg some same.symm⟩
  | cons source sources ih =>
      simp only [List.mapM_cons, List.forall₂_cons_left_iff, Option.bind_eq_bind,
        Option.bind_eq_some_iff, Option.pure_def, Option.some.injEq, ih]
      constructor
      · rintro ⟨value, first, others, rest, rfl⟩
        exact ⟨value, others, first, rest, rfl⟩
      · rintro ⟨value, others, first, rest, rfl⟩
        exact ⟨value, first, others, rest, rfl⟩

/-- The elements of an array would do as bodies iff the items of its complete value would. -/
theorem forall₂_extract_iff {target : Target α} (composed : target.Composed)
    {elements : List (List UInt8)} {items : List Written} {complete : List Json} {values : List α}
    (pairs : List.Forall₂ Holds elements items)
    (taken : List.Forall₂ (fun item value => item.contents nestingLimit = .ok value) items
      complete) :
    List.Forall₂ (fun element value => extract target ⟨element, false⟩ = .ok value) elements values ↔
      List.Forall₂ (fun value found => target.buffered value = some found) complete values := by
  induction pairs generalizing complete values with
  | nil =>
      cases taken
      rw [List.forall₂_nil_left_iff, List.forall₂_nil_left_iff]
  | cons holds _ ih =>
      cases taken with
      | cons first others =>
          simp only [List.forall₂_cons_left_iff, ih others, extract_eq_outcome composed holds first,
            outcome_eq_ok_iff]

/-- The elements of an array would do as bodies of their own. -/
def ElementsDo (target : Target α) (bytes : List UInt8) (values : List α) : Prop :=
  ∃ elements, IsArrayOf bytes elements ∧
    List.Forall₂ (fun element value => extract target ⟨element, false⟩ = .ok value) elements values

theorem elementsDo_iff {target : Target α} {value : Json} {values : List α}
    (composed : target.Composed) (holds : Holds bytes written)
    (taken : written.contents nestingLimit = .ok value) :
    ElementsDo target bytes values ↔ target.list.buffered value = some values := by
  constructor
  · rintro ⟨elements, isArray, extracted⟩
    obtain ⟨items, holdsArray, pairs⟩ := isArray.holds
    cases holds_unique holds holdsArray
    cases Written.evaluates_of_contents taken with
    | @array _ _ complete inside =>
        have complete := (Written.contents_of_items (Written.itemContents_succ items inside))
        exact mapM_eq_some_iff.mpr ((forall₂_extract_iff composed pairs complete).mp extracted)
  · intro found
    cases Written.evaluates_of_contents taken with
    | @array _ items complete inside =>
        obtain ⟨elements, isArray, pairs⟩ := exists_isArrayOf holds
        have complete := (Written.contents_of_items (Written.itemContents_succ items inside))
        exact ⟨elements, isArray,
          (forall₂_extract_iff composed pairs complete).mpr (mapM_eq_some_iff.mp found)⟩
    | _ => cases found

/--
What comes of a document from which a list is wanted: the values of its elements if it is an array
of such, else the value of the whole document alone, else the error of wanting one value.
-/
theorem extractList_of_document {target : Target α} (composed : target.Composed)
    (document : IsDocument bytes) :
    (∀ values, ElementsDo target bytes values →
      extractList target ⟨bytes, false⟩ = .ok values) ∧
    (∀ value, (¬∃ values, ElementsDo target bytes values) →
      extract target ⟨bytes, false⟩ = .ok value →
      extractList target ⟨bytes, false⟩ = .ok [value]) ∧
    ((¬∃ values, ElementsDo target bytes values) →
      (¬∃ value, extract target ⟨bytes, false⟩ = .ok value) →
      extract target ⟨bytes, false⟩ = .error (.invalidArgument .unusableBody) ∧
        extractList target ⟨bytes, false⟩ = .error (.invalidArgument .unusableBody)) := by
  obtain ⟨written, value, holds, taken⟩ := document.exists_holds
  have many : ∀ values, ElementsDo target bytes values ↔
      target.list.buffered value = some values := fun _ => elementsDo_iff composed holds taken
  rw [extract_eq_outcome composed holds taken, extractList_eq_outcome holds taken,
    Target.oneOrMany]
  simp only [many, outcome_eq_ok_iff]
  refine ⟨fun values listed => ?_, fun found unlisted single => ?_, fun unlisted refused => ?_⟩
  · rw [listed]
    rfl
  · rw [Option.eq_none_iff_forall_ne_some.mpr (not_exists.mp unlisted), single]
    rfl
  · rw [Option.eq_none_iff_forall_ne_some.mpr (not_exists.mp unlisted),
      Option.eq_none_iff_forall_ne_some.mpr (not_exists.mp refused)]
    exact ⟨rfl, rfl⟩

/-- The text `[1,2]`. -/
def pairBytes : List UInt8 := [0x5b, 0x31, 0x2c, 0x32, 0x5d]

theorem extractList_pair :
    IsDocument pairBytes ∧
      extractList .integer64 ⟨pairBytes, false⟩ = .ok [1, 2] ∧
      extractList Target.integer64.list ⟨pairBytes, false⟩ = .ok [[1, 2]] ∧
      extractList .boolean ⟨pairBytes, false⟩ = .error (.invalidArgument .unusableBody) := by
  have document : IsDocument pairBytes := ⟨.array [.integer 1, .integer 2], rfl⟩
  obtain ⟨written, value, holds, taken⟩ := document.exists_holds
  have read : Source.written ⟨pairBytes, false⟩ = _ := rfl
  cases holds_unique holds (Source.holds_of_written read rfl)
  cases Except.ok.inj (taken.symm.trans rfl)
  have composed : Target.integer64.Composed := .integerWhere _
  have elements : ElementsDo .integer64 pairBytes [1, 2] :=
    (elementsDo_iff composed holds taken).mpr rfl
  refine ⟨document, (extractList_of_document composed document).1 _ elements, ?_, ?_⟩
  · refine (extractList_of_document composed.list document).2.1 [1, 2] ?_ rfl
    rintro ⟨values, listed⟩
    exact nomatch (elementsDo_iff composed.list holds taken).mp listed
  · refine ((extractList_of_document .boolean document).2.2 ?_ ?_).2
    · rintro ⟨values, listed⟩
      exact nomatch (elementsDo_iff .boolean holds taken).mp listed
    · rintro ⟨value, single⟩
      exact nomatch single

end ContentApi.Body
