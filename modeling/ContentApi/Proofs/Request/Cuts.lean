import ContentApi.Proofs.Fields
import ContentApi.Proofs.Text.Parenthesized
import ContentApi.Request.Projection
import Mathlib.Data.List.Forall2
import Mathlib.Data.List.Induction

/-!
# Where lists of relations are cut

Whatever a text is, cutting it outside parentheses loses nothing: its pieces with commas between
them are the text again, and a comma is a cut if and only if no parenthesis is open in front of
it.  The places of the cuts can be found in one pass that counts bytes (`rangesAtDepth`), and all
of them lie between characters.  A comma in front of which everything is closed therefore divides
a text into two that are cut, and read, each by itself: where both name a relation, the second
one overrides the first (`splitOutsideParentheses_lossless`).
-/

namespace ContentApi

namespace Text

/-! ## Pieces and commas -/

/-- Pieces with commas between them. -/
def joined (pieces : List (List Char)) : List Char :=
  [','].intercalate pieces

/-- Some pieces are cut at the comma between these two texts. -/
def CutAt (pieces : List (List Char)) (front back : List Char) : Prop :=
  ∃ before behind, before ≠ [] ∧ behind ≠ [] ∧ pieces = before ++ behind ∧
    joined before = front ∧ joined behind = back

theorem joined_cons {pieces : List (List Char)} (nonempty : pieces ≠ []) (piece : List Char) :
    joined (piece :: pieces) = piece ++ ',' :: joined pieces := by
  rw [joined, List.intercalate_cons_of_ne_nil nonempty, List.append_assoc]
  rfl

theorem joined_modifyHead {pieces : List (List Char)} (nonempty : pieces ≠ [])
    (character : Char) :
    joined (pieces.modifyHead (character :: ·)) = character :: joined pieces := by
  cases pieces with
  | nil => exact (nonempty rfl).elim
  | cons piece rest => exact List.intercalate_cons_cons_left

/-- The pieces of a text with commas between them are the text. -/
theorem joined_splitAtDepth (depth : Nat) (text : List Char) :
    joined (splitAtDepth depth text) = text := by
  induction text generalizing depth with
  | nil => rfl
  | cons character rest ih =>
      rw [splitAtDepth]
      split
      · rename_i cut
        rw [joined_cons (splitAtDepth_ne_nil 0 rest), ih, cut.1]
        rfl
      · rw [joined_modifyHead (splitAtDepth_ne_nil _ rest), ih]

/-- Behind every piece but the last one all parentheses are closed. -/
theorem depthAtEnd_joined {depth : Nat} {text : List Char} {before behind : List (List Char)}
    (pieces : splitAtDepth depth text = before ++ behind) (nonempty : before ≠ [])
    (notLast : behind ≠ []) : depthAtEnd depth (joined before) = 0 := by
  induction text generalizing depth before with
  | nil =>
      have one : before.length + behind.length = 1 := by
        rw [← List.length_append, ← pieces]
        rfl
      have front := List.length_pos_iff.mpr nonempty
      have back := List.length_pos_iff.mpr notLast
      omega
  | cons character rest ih =>
      obtain ⟨piece, more, rfl⟩ := List.exists_cons_of_ne_nil nonempty
      rw [splitAtDepth] at pieces
      split at pieces
      · rename_i cut
        obtain ⟨rfl, rfl⟩ := cut
        rw [List.cons_append, List.cons.injEq] at pieces
        obtain ⟨rfl, others⟩ := pieces
        cases more with
        | nil => rfl
        | cons next more =>
            rw [joined_cons (List.cons_ne_nil _ _)]
            exact ih others (List.cons_ne_nil _ _)
      · -- The character opens the first piece, and the cut lies behind it.
        obtain ⟨first, others, split⟩ :=
          List.exists_cons_of_ne_nil (splitAtDepth_ne_nil (depthAfter depth character) rest)
        rw [split, List.modifyHead_cons, List.cons_append, List.cons.injEq] at pieces
        obtain ⟨rfl, rfl⟩ := pieces
        have closed := ih split (List.cons_ne_nil _ _)
        rw [← List.modifyHead_cons, joined_modifyHead (List.cons_ne_nil _ _)]
        exact closed

/-- A text is cut at a comma if and only if all parentheses in front of it are closed. -/
theorem cutAt_iff (front back : List Char) :
    CutAt (splitAtDepth 0 (front ++ ',' :: back)) front back ↔ depthAtEnd 0 front = 0 := by
  constructor
  · rintro ⟨before, behind, nonempty, notLast, pieces, rfl, rfl⟩
    exact depthAtEnd_joined pieces nonempty notLast
  · intro closed
    exact ⟨splitAtDepth 0 front, splitAtDepth 0 back, splitAtDepth_ne_nil 0 front,
      splitAtDepth_ne_nil 0 back, splitAtDepth_comma closed back, joined_splitAtDepth 0 front,
      joined_splitAtDepth 0 back⟩

/-- What a text ends with is nothing, or the last character behind what the rest ends with. -/
theorem forall_suffix_concat {holds : List Char → Prop} (text : List Char) (character : Char) :
    (∀ tail, tail <:+ text ++ [character] → holds tail) ↔
      holds [] ∧ ∀ tail, tail <:+ text → holds (tail ++ [character]) := by
  simp only [List.suffix_concat_iff]
  constructor
  · intro all
    exact ⟨all [] (Or.inl rfl), fun tail ends => all _ (Or.inr ⟨tail, rfl, ends⟩)⟩
  · rintro ⟨empty, others⟩ tail (rfl | ⟨front, rfl, ends⟩)
    · exact empty
    · exact others front ends

/--
The depth at the end of a text is the most by which the opening parentheses outnumber the closing
ones in what the text ends with.
-/
theorem depthAtEnd_le_iff (text : List Char) (bound : Nat) :
    depthAtEnd 0 text ≤ bound ↔
      ∀ tail, tail <:+ text → tail.count '(' ≤ tail.count ')' + bound := by
  induction text using List.reverseRecOn generalizing bound with
  | nil => simp [depthAtEnd]
  | append_singleton text character ih =>
      have step : depthAtEnd 0 (text ++ [character]) = depthAfter (depthAtEnd 0 text) character :=
        depthAtEnd_append 0 text [character]
      rw [step, forall_suffix_concat]
      simp only [List.count_append, List.count_singleton, List.count_nil]
      by_cases opening : character = '('
      · subst opening
        cases bound with
        | zero =>
            refine iff_of_false (Nat.not_succ_le_zero _) ?_
            rintro ⟨_, others⟩
            have empty := others [] List.nil_suffix
            simp at empty
        | succ bound =>
            have before := ih bound
            simp [depthAfter, before, ← Nat.add_assoc]
      · by_cases closing : character = ')'
        · subst closing
          have before := ih (bound + 1)
          simp [depthAfter, before, Nat.add_assoc, Nat.add_comm 1 bound]
        · rw [depthAfter_of_plain _ opening closing, ih bound]
          simp [opening, closing]

/-- All parentheses are closed where no stretch in front opens more than it closes. -/
theorem depthAtEnd_eq_zero_iff (text : List Char) :
    depthAtEnd 0 text = 0 ↔ ∀ tail, tail <:+ text → tail.count '(' ≤ tail.count ')' := by
  rw [← Nat.le_zero, depthAtEnd_le_iff]
  rfl

/-! ## Slices -/

/--
The byte ranges of the pieces, found in one pass: the current piece begins at the byte `start`,
and the next character at the byte `place`.
-/
def rangesAtDepth (depth start place : Nat) : List Char → List (Nat × Nat)
  | [] => [(start, place)]
  | character :: rest =>
      if character = ',' ∧ depth = 0 then
        (start, place) :: rangesAtDepth 0 (place + 1) (place + 1) rest
      else
        rangesAtDepth (depthAfter depth character) start (place + character.utf8Size) rest

/-- A byte range of a text begins and ends between characters, and this piece is its slice. -/
def SlicesTo (text : String) (range : Nat × Nat) (piece : List Char) : Prop :=
  ∃ start stop : text.Pos, start.offset.byteIdx = range.1 ∧ stop.offset.byteIdx = range.2 ∧
    text.extract start stop = String.ofList piece

/-- The number of bytes of a text. -/
def byteCount (text : List Char) : Nat :=
  (String.ofList text).utf8ByteSize

theorem byteCount_append (front back : List Char) :
    byteCount (front ++ back) = byteCount front + byteCount back := by
  rw [byteCount, String.ofList_append, String.utf8ByteSize_append]
  rfl

theorem byteCount_singleton (character : Char) : byteCount [character] = character.utf8Size := by
  rw [byteCount, ← String.singleton_eq_ofList, String.utf8ByteSize_singleton]

theorem slicesTo_append (front piece back : List Char) :
    SlicesTo (String.ofList (front ++ (piece ++ back)))
      (byteCount front, byteCount (front ++ piece)) piece := by
  rw [String.ofList_append, String.ofList_append, byteCount_append]
  have start : (String.ofList front).rawEndPos.IsValid
      (String.ofList front ++ (String.ofList piece ++ String.ofList back)) :=
    String.Pos.Raw.isValid_rawEndPos.append_right _
  have stop : (String.ofList front + (String.ofList piece).rawEndPos).IsValid
      (String.ofList front ++ (String.ofList piece ++ String.ofList back)) :=
    (String.Pos.Raw.isValid_rawEndPos.append_right _).append_left _
  refine ⟨String.pos _ _ start, String.pos _ _ stop, rfl, rfl, ?_⟩
  apply String.toByteArray_inj.mp
  rw [String.toByteArray_extract, String.toByteArray_append]
  have behind := @ByteArray.extract_append_size_add (String.ofList front).toByteArray
    (String.ofList piece ++ String.ofList back).toByteArray 0
    (String.ofList piece).toByteArray.size
  refine behind.trans ?_
  rw [String.toByteArray_append]
  exact ByteArray.extract_append_eq_left rfl

theorem modifyHead_nil_append (pieces : List (List Char)) :
    pieces.modifyHead ([] ++ ·) = pieces := by
  cases pieces <;> rfl

/-- The ranges that one pass finds are those of the pieces. -/
theorem slices_splitAtDepth (depth : Nat) (before passed rest : List Char) :
    List.Forall₂ (SlicesTo (String.ofList (before ++ (passed ++ rest))))
      (rangesAtDepth depth (byteCount before) (byteCount (before ++ passed)) rest)
      ((splitAtDepth depth rest).modifyHead (passed ++ ·)) := by
  induction rest generalizing depth before passed with
  | nil =>
      have whole := slicesTo_append before passed []
      show List.Forall₂ _ [_] [passed ++ []]
      rw [List.append_nil] at whole ⊢
      exact .cons whole .nil
  | cons character rest ih =>
      rw [rangesAtDepth, splitAtDepth]
      split
      · rename_i cut
        obtain ⟨rfl, rfl⟩ := cut
        -- The piece ends in front of the comma, and the next one begins behind it.
        have piece := slicesTo_append before passed (',' :: rest)
        have next : byteCount (before ++ passed ++ [',']) = byteCount (before ++ passed) + 1 := by
          rw [byteCount_append, byteCount_singleton]
          rfl
        have behind := ih 0 (before ++ passed ++ [',']) []
        rw [modifyHead_nil_append, List.append_nil, next] at behind
        simp only [List.append_assoc, List.nil_append, List.singleton_append] at behind
        rw [List.modifyHead_cons, List.append_nil]
        exact .cons piece behind
      · have next : byteCount (before ++ (passed ++ [character])) =
            byteCount (before ++ passed) + character.utf8Size := by
          rw [← List.append_assoc, byteCount_append, byteCount_singleton]
        have behind := ih (depthAfter depth character) before (passed ++ [character])
        rw [next] at behind
        rw [List.modifyHead_modifyHead]
        simp only [List.append_assoc, List.singleton_append] at behind
        exact behind

/--
A cut of a text outside parentheses.  The pieces make up the text, the commas at which it is cut
are those with all parentheses in front of them closed, and the pieces are slices of it.
-/
structure CutsOutside (text : String) (pieces : List (List Char)) : Prop where
  whole : joined pieces = text.toList
  cut_iff : ∀ front back, text.toList = front ++ ',' :: back →
    (CutAt pieces front back ↔ depthAtEnd 0 front = 0)
  closed_iff : ∀ front back, text.toList = front ++ ',' :: back →
    (depthAtEnd 0 front = 0 ↔ ∀ tail, tail <:+ front → tail.count '(' ≤ tail.count ')')
  slices : List.Forall₂ (SlicesTo text) (rangesAtDepth 0 0 0 text.toList) pieces

theorem cutsOutside (text : String) :
    CutsOutside text (splitOutsideParentheses text.toList) := by
  refine ⟨joined_splitAtDepth 0 _, ?_, ?_, ?_⟩
  · intro front back cut
    rw [cut]
    exact cutAt_iff front back
  · intro front _ _
    exact depthAtEnd_eq_zero_iff front
  · have slices := slices_splitAtDepth 0 [] [] text.toList
    rw [modifyHead_nil_append, List.nil_append, List.nil_append, String.ofList_toList] at slices
    exact slices

/-- The characters of two texts with a comma between them. -/
theorem toList_comma (front back : String) :
    (front ++ "," ++ back).toList = front.toList ++ ',' :: back.toList := by
  rw [String.toList_append, String.toList_append, List.append_assoc]
  rfl

/-- Where all parentheses are closed, a comma divides a text into two that are cut by themselves. -/
theorem splitOutsideParentheses_comma {front : String} (closed : depthAtEnd 0 front.toList = 0)
    (back : String) :
    splitOutsideParentheses (front ++ "," ++ back).toList =
      splitOutsideParentheses front.toList ++ splitOutsideParentheses back.toList := by
  rw [toList_comma]
  exact splitAtDepth_comma closed back.toList

end Text

namespace Projection

open Text

/-- Where all parentheses are closed, the relations behind a comma override those in front. -/
theorem get?_ofRelations_comma {front : String} (closed : depthAtEnd 0 front.toList = 0)
    (back name : String) :
    (ofRelations (some (front ++ "," ++ back))).get? name =
      ((ofRelations (some back)).get? name).or ((ofRelations (some front)).get? name) := by
  simp only [ofRelations, Dictionary.get?_ofList]
  rw [splitOutsideParentheses_comma closed, List.filterMap_append, List.reverse_append,
    Fields.get?_append]

/--
Cutting a text outside parentheses loses nothing.  The pieces with commas between them are the
text, it is cut at a comma if and only if no parenthesis is open in front of it, where a closing
parenthesis without an opening one counts for nothing, and no cut lies inside a character.  So
behind a text with all parentheses closed a comma and another text are cut apart from it, and of
the relations that both name those of the second one count.
-/
theorem splitOutsideParentheses_lossless (front : String) :
    CutsOutside front (splitOutsideParentheses front.toList) ∧
      ∀ back : String, depthAtEnd 0 front.toList = 0 →
        splitOutsideParentheses (front ++ "," ++ back).toList =
            splitOutsideParentheses front.toList ++ splitOutsideParentheses back.toList ∧
          ∀ name, (ofRelations (some (front ++ "," ++ back))).get? name =
            ((ofRelations (some back)).get? name).or ((ofRelations (some front)).get? name) := by
  refine ⟨cutsOutside front, ?_⟩
  intro back closed
  exact ⟨splitOutsideParentheses_comma closed back, get?_ofRelations_comma closed back⟩

/-- A list with a stray closing parenthesis and with a comma between parentheses. -/
def strayRelations : String :=
  "owner),members(naïve,role)"

/-- The stray parenthesis counts for nothing, and a later entry overrides the listed one. -/
theorem splitOutsideParentheses_lossless_stray :
    depthAtEnd 0 strayRelations.toList = 0 ∧
      splitOutsideParentheses (strayRelations ++ "," ++ "members").toList =
          splitOutsideParentheses strayRelations.toList ++
            splitOutsideParentheses "members".toList ∧
        ∀ name, (ofRelations (some (strayRelations ++ "," ++ "members"))).get? name =
          ((ofRelations (some "members")).get? name).or
            ((ofRelations (some strayRelations)).get? name) := by
  have closed : depthAtEnd 0 strayRelations.toList = 0 := by decide
  exact ⟨closed, (splitOutsideParentheses_lossless strayRelations).2 "members" closed⟩

end Projection

end ContentApi
