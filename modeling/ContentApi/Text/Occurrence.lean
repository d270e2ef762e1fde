/-!
# Occurrences of a mark

A text may be cut at a mark: at the start, if the text begins with the mark, or at the last
place where the mark occurs.  Both cuts are described by what the text is put together
from, see `cutPrefix?_eq_some_iff` and `cutLast?_eq_some_iff`.
-/

namespace ContentApi.Text

/-- The text behind a mark with which it begins. -/
def cutPrefix? : List Char → List Char → Option (List Char)
  | [], text => some text
  | _ :: _, [] => none
  | expected :: mark, character :: rest =>
      if expected = character then cutPrefix? mark rest else none

/-- The texts before and behind the last occurrence of a mark. -/
def cutLast? (mark : List Char) : List Char → Option (List Char × List Char)
  | [] => (cutPrefix? mark []).map fun behind => ([], behind)
  | character :: rest =>
      match cutLast? mark rest with
      | some (before, behind) => some (character :: before, behind)
      | none => (cutPrefix? mark (character :: rest)).map fun behind => ([], behind)

theorem cutPrefix?_eq_some_iff {mark text behind : List Char} :
    cutPrefix? mark text = some behind ↔ text = mark ++ behind := by
  induction mark generalizing text with
  | nil =>
      simp [cutPrefix?]
  | cons expected mark ih =>
      cases text with
      | nil =>
          simp [cutPrefix?]
      | cons character rest =>
          by_cases same : expected = character
          · simp [cutPrefix?, same, ih]
          · simp [cutPrefix?, same, Ne.symm same]

/-- A mark that is not found occurs nowhere. -/
theorem ne_append_of_cutLast?_eq_none {mark text : List Char}
    (absent : cutLast? mark text = none) (before behind : List Char) :
    text ≠ before ++ (mark ++ behind) := by
  induction text generalizing before with
  | nil =>
      intro whole
      cases before with
      | nil =>
          have found : cutPrefix? mark [] = some behind := cutPrefix?_eq_some_iff.mpr whole
          simp [cutLast?, found] at absent
      | cons _ _ =>
          simp at whole
  | cons character rest ih =>
      simp only [cutLast?] at absent
      split at absent
      · simp at absent
      · rename_i restAbsent
        intro whole
        cases before with
        | nil =>
            have found : cutPrefix? mark (character :: rest) = some behind :=
              cutPrefix?_eq_some_iff.mpr whole
            simp [found] at absent
        | cons _ before =>
            exact ih restAbsent before (List.cons.inj whole).2

/-- The cut is the one with the longest text before the mark. -/
theorem cutLast?_eq_some_iff {mark text before behind : List Char} :
    cutLast? mark text = some (before, behind) ↔
      text = before ++ (mark ++ behind) ∧
        ∀ other others, text = other ++ (mark ++ others) → other.length ≤ before.length := by
  induction text generalizing before behind with
  | nil =>
      simp only [cutLast?, Option.map_eq_some_iff, cutPrefix?_eq_some_iff, Prod.mk.injEq]
      constructor
      · rintro ⟨_, whole, rfl, rfl⟩
        refine ⟨whole, fun other _ cut => ?_⟩
        simp_all
      · rintro ⟨whole, _⟩
        simp_all
  | cons character rest ih =>
      simp only [cutLast?]
      split
      · rename_i found foundBehind restCut
        have ⟨restWhole, restLast⟩ := ih.mp restCut
        constructor
        · rintro ⟨rfl, rfl⟩
          refine ⟨by simp [restWhole], fun other others cut => ?_⟩
          cases other with
          | nil =>
              simp
          | cons _ other =>
              simpa using restLast other others (List.cons.inj cut).2
        · rintro ⟨whole, last⟩
          have atLeast := last (character :: found) foundBehind (by simp [restWhole])
          cases before with
          | nil =>
              simp at atLeast
          | cons _ before =>
              obtain ⟨rfl, restCut'⟩ := List.cons.inj whole
              have atMost := restLast before behind restCut'
              have sameLength : before.length = found.length := by
                simp at atLeast
                omega
              rw [restWhole] at restCut'
              obtain ⟨rfl, tails⟩ := List.append_inj restCut' sameLength.symm
              simp [List.append_cancel_left tails]
      · rename_i restAbsent
        simp only [Option.map_eq_some_iff, cutPrefix?_eq_some_iff, Prod.mk.injEq]
        constructor
        · rintro ⟨_, whole, rfl, rfl⟩
          refine ⟨whole, fun other others cut => ?_⟩
          cases other with
          | nil =>
              simp
          | cons _ other =>
              exact absurd (List.cons.inj cut).2
                (ne_append_of_cutLast?_eq_none restAbsent other others)
        · rintro ⟨whole, _⟩
          cases before with
          | nil =>
              exact ⟨behind, whole, rfl, rfl⟩
          | cons _ before =>
              exact absurd (List.cons.inj whole).2
                (ne_append_of_cutLast?_eq_none restAbsent before behind)

end ContentApi.Text
