import ContentApi.Text.Parenthesized

/-!
# Cutting at commas outside parentheses

The pieces of a text in front of a comma and behind it are those of the two parts, provided that
all parentheses are closed at the comma (`splitAtDepth_comma`).  A text without parentheses is
not cut as long as it has no comma or some parenthesis around it is open, and then it only goes
in front of the first piece of what follows (`splitAtDepth_append`).
-/

namespace ContentApi.Text

theorem splitAtDepth_ne_nil (depth : Nat) (text : List Char) : splitAtDepth depth text ≠ [] := by
  induction text generalizing depth with
  | nil => exact List.cons_ne_nil _ _
  | cons character rest ih =>
      rw [splitAtDepth]
      split
      · exact List.cons_ne_nil _ _
      · rw [ne_eq, List.modifyHead_eq_nil_iff]
        exact ih _

/-- Where all parentheses are closed, a comma cuts the text into two. -/
theorem splitAtDepth_comma {depth : Nat} {front : List Char}
    (closed : depthAtEnd depth front = 0) (back : List Char) :
    splitAtDepth depth (front ++ ',' :: back) =
      splitAtDepth depth front ++ splitAtDepth 0 back := by
  induction front generalizing depth with
  | nil =>
      obtain rfl : depth = 0 := closed
      rfl
  | cons character rest ih =>
      have closedBehind : depthAtEnd (depthAfter depth character) rest = 0 := closed
      rw [List.cons_append, splitAtDepth, splitAtDepth]
      split
      · rename_i cut
        rcases cut with ⟨rfl, rfl⟩
        have behind : splitAtDepth 0 (rest ++ ',' :: back) = _ := ih closedBehind
        rw [behind]
        rfl
      · rw [ih closedBehind]
        obtain ⟨piece, pieces, split⟩ :=
          List.exists_cons_of_ne_nil (splitAtDepth_ne_nil (depthAfter depth character) rest)
        rw [split]
        rfl

/-- Without parentheses the depth stays. -/
theorem depthAfter_of_plain (depth : Nat) {character : Char} (noOpening : character ≠ '(')
    (noClosing : character ≠ ')') : depthAfter depth character = depth := by
  rw [depthAfter]
  · exact noOpening
  · exact noClosing

section Plain

variable {depth : Nat} {text : List Char}

theorem depthAtEnd_append (depth : Nat) (front back : List Char) :
    depthAtEnd depth (front ++ back) = depthAtEnd (depthAtEnd depth front) back :=
  List.foldl_append

theorem depthAtEnd_of_plain (noOpening : '(' ∉ text) (noClosing : ')' ∉ text) :
    depthAtEnd depth text = depth := by
  induction text with
  | nil => rfl
  | cons character rest ih =>
      rw [List.mem_cons, not_or] at noOpening noClosing
      have step := depthAfter_of_plain depth (Ne.symm noOpening.1) (Ne.symm noClosing.1)
      show depthAtEnd (depthAfter depth character) rest = depth
      rw [step, ih noOpening.2 noClosing.2]

/-- A text that is not cut goes in front of the first piece of what follows. -/
theorem splitAtDepth_append (noOpening : '(' ∉ text) (noClosing : ')' ∉ text)
    (noCut : ',' ∈ text → depth ≠ 0) (rest : List Char) :
    splitAtDepth depth (text ++ rest) = (splitAtDepth depth rest).modifyHead (text ++ ·) := by
  induction text with
  | nil =>
      rw [List.nil_append]
      cases splitAtDepth depth rest <;> rfl
  | cons character more ih =>
      rw [List.mem_cons, not_or] at noOpening noClosing
      have step := depthAfter_of_plain depth (Ne.symm noOpening.1) (Ne.symm noClosing.1)
      have goesOn : ¬(character = ',' ∧ depth = 0) := by
        rintro ⟨rfl, atZero⟩
        exact noCut List.mem_cons_self atZero
      rw [List.cons_append, splitAtDepth, if_neg goesOn, step,
        ih noOpening.2 noClosing.2 fun member => noCut (List.mem_cons_of_mem _ member),
        List.modifyHead_modifyHead]
      rfl

theorem splitAtDepth_of_plain (noOpening : '(' ∉ text) (noClosing : ')' ∉ text)
    (noCut : ',' ∈ text → depth ≠ 0) : splitAtDepth depth text = [text] := by
  have pieces := splitAtDepth_append noOpening noClosing noCut []
  simpa [splitAtDepth] using pieces

end Plain

end ContentApi.Text
