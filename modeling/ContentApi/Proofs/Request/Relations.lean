import ContentApi.Proofs.Fields
import ContentApi.Proofs.Text.Listed
import ContentApi.Proofs.Text.Parenthesized
import ContentApi.Request.Projection

/-!
# Lists of relations as they are written

A `relations` value is a row of entries with commas between them.  An entry is a name, alone or
with a row of properties in parentheses behind it, and blanks may stand anywhere but inside a
name.  Such a row is cut where one entry ends and the next one begins, for the commas among the
properties have a parenthesis open around them.  Each entry is then read as it was written, so
that every listed relation gets the projection of its last entry (`ofRelations_recovers`).
-/

namespace ContentApi.Projection

open ContentApi.Language Text

/-- A name without commas and parentheses, with any blanks around it. -/
structure Labelled (text : List Char) (name : String) : Prop extends Named text name where
  noOpening : '(' ∉ name.toList
  noClosing : ')' ∉ name.toList

/--
An entry of a `relations` value, which stands for a name and, if there are parentheses, for the
properties in them.
-/
inductive Entry : Language (String × Option (List String)) where
  | bare {text : List Char} {name : String} (label : Labelled text name) :
      Entry text (name, none)
  | listed {text inner after : List Char} {name : String} {properties : List String}
      (label : Labelled text name) (inside : Row Labelled inner properties)
      (blankAfter : AllBlank after) :
      Entry (text ++ '(' :: (inner ++ ')' :: after)) (name, some properties)

/-- A projection shows what an entry lists, which is everything without parentheses. -/
inductive ShowsListed : Projection → Option (List String) → Prop where
  | everything : ShowsListed .everything none
  | only {names : NameSet} {properties : List String}
      (exactly : ∀ property, names.contains property = true ↔ property ∈ properties) :
      ShowsListed (.only names) (some properties)

/-- The relations to follow are the listed ones, and of each the last entry counts. -/
structure FollowsListed (entries : List (String × Option (List String)))
    (relations : Dictionary Projection) : Prop where
  last : ∀ front name properties back, entries = front ++ (name, properties) :: back →
    name ∉ back.map Prod.fst →
    ∃ projection, relations.get? name = some projection ∧ ShowsListed projection properties
  others : ∀ name, name ∉ entries.map Prod.fst → relations.get? name = none

/-- The projection of an entry by what it lists. -/
def ofListed : Option (List String) → Projection
  | none => .everything
  | some properties => .only (.ofList properties)

theorem showsListed (properties : Option (List String)) :
    ShowsListed (ofListed properties) properties := by
  cases properties with
  | none => exact .everything
  | some properties =>
      refine .only fun property => ?_
      rw [NameSet.contains_ofList, List.contains_iff_mem]

/-! ## Entries -/

variable {text inner after : List Char} {name : String} {properties : List String}

theorem Labelled.noOpening_text (label : Labelled text name) : '(' ∉ text :=
  label.padded.notMem rfl label.noOpening

theorem Labelled.noClosing_text (label : Labelled text name) : ')' ∉ text :=
  label.padded.notMem rfl label.noClosing

theorem Labelled.noComma_text (label : Labelled text name) : ',' ∉ text :=
  label.padded.notMem rfl label.noComma

theorem ofRelation?_blank (allBlank : AllBlank text) : ofRelation? text = none := by
  rw [ofRelation?, trim_eq_nil allBlank]
  rfl

theorem ofRelation?_bare (label : Labelled text name) :
    ofRelation? text = some (name, .everything) := by
  have nonempty := label.trimmed.nonempty
  rw [ofRelation?, label.padded.trim_eq label.trimmed]
  simp [nonempty, label.noOpening]

theorem listedNames_row (inside : Row Labelled inner properties) :
    listedNames inner = .ofList properties := by
  have row : Row Named inner properties := inside.mono fun _ _ label => label.toNamed
  rw [listedNames, row.tokens_eq]

/-- An entry with parentheses begins with its name and ends with its closing parenthesis. -/
theorem trim_listed (inner : List Char) (label : Labelled text name)
    (blankAfter : AllBlank after) :
    ∃ gap, AllBlank gap ∧ trim (text ++ '(' :: (inner ++ ')' :: after)) =
      name.toList ++ gap ++ '(' :: (inner ++ [')']) := by
  rcases label.padded with @⟨before, gap, blankBefore, blankGap⟩
  have trimmed : Trimmed (name.toList ++ gap ++ '(' :: (inner ++ [')'])) := by
    refine ⟨by simp, ?_, ?_⟩
    · rw [List.append_assoc]
      exact avoids_append label.trimmed.nonempty label.trimmed.begins _
    · simp only [List.reverse_append, List.reverse_cons, List.reverse_nil, List.nil_append,
        List.append_assoc, List.cons_append]
      exact (avoids_cons _ _ _).mpr rfl
  have padded : Padded (name.toList ++ gap ++ '(' :: (inner ++ [')'])) _ :=
    .intro blankBefore blankAfter
  simp only [List.append_assoc, List.cons_append, List.nil_append] at padded trimmed ⊢
  exact ⟨gap, blankGap, padded.trim_eq trimmed⟩

theorem ofRelation?_listed (label : Labelled text name) (inside : Row Labelled inner properties)
    (blankAfter : AllBlank after) :
    ofRelation? (text ++ '(' :: (inner ++ ')' :: after)) =
      some (name, .only (.ofList properties)) := by
  rcases trim_listed inner label blankAfter with ⟨gap, blankGap, trimmed⟩
  have front : ∀ character ∈ name.toList ++ gap, (character != '(') = true := by
    intro character member
    rw [bne_iff_ne]
    rintro rfl
    rcases List.mem_append.mp member with inName | inGap
    · exact label.noOpening inName
    · exact blankGap.notMem rfl inGap
  have named : trim (name.toList ++ gap) = name.toList := by
    have padded : Padded name.toList ([] ++ (name.toList ++ gap)) :=
      .intro (by intro _ member; cases member) blankGap
    exact padded.trim_eq label.trimmed
  rw [ofRelation?, trimmed]
  simp only [List.dropWhile_append_of_pos front, List.takeWhile_append_of_pos front]
  simp [named, listedNames_row inside]

theorem Entry.ofRelation?_eq {text : List Char} {entry : String × Option (List String)}
    (holds : Entry text entry) : ofRelation? text = some (entry.1, ofListed entry.2) := by
  cases holds with
  | bare label => exact ofRelation?_bare label
  | listed label inside blankAfter => exact ofRelation?_listed label inside blankAfter

/-! ## Rows of entries -/

theorem noOpening_row (inside : Row Labelled inner properties) : '(' ∉ inner :=
  inside.notMem rfl (by decide) fun _ _ label => label.noOpening_text

theorem noClosing_row (inside : Row Labelled inner properties) : ')' ∉ inner :=
  inside.notMem rfl (by decide) fun _ _ label => label.noClosing_text

theorem splitAtDepth_blank (allBlank : AllBlank text) : splitAtDepth 0 text = [text] :=
  splitAtDepth_of_plain (allBlank.notMem rfl) (allBlank.notMem rfl) fun comma =>
    (allBlank.notMem rfl comma).elim

theorem depthAtEnd_blank (allBlank : AllBlank text) : depthAtEnd 0 text = 0 :=
  depthAtEnd_of_plain (allBlank.notMem rfl) (allBlank.notMem rfl)

/-- At the end of an entry all its parentheses are closed. -/
theorem Entry.closed {text : List Char} {entry : String × Option (List String)}
    (holds : Entry text entry) : depthAtEnd 0 text = 0 := by
  cases holds with
  | bare label => exact depthAtEnd_of_plain label.noOpening_text label.noClosing_text
  | @listed text inner after _ _ label inside blankAfter =>
      have front : depthAtEnd 0 text = 0 :=
        depthAtEnd_of_plain label.noOpening_text label.noClosing_text
      have middle : depthAtEnd 1 inner = 1 :=
        depthAtEnd_of_plain (noOpening_row inside) (noClosing_row inside)
      rw [depthAtEnd_append, front]
      show depthAtEnd 1 (inner ++ ')' :: after) = 0
      rw [depthAtEnd_append, middle]
      exact depthAtEnd_blank blankAfter

/-- An entry is not cut, for a parenthesis is open at each of its commas. -/
theorem Entry.uncut {text : List Char} {entry : String × Option (List String)}
    (holds : Entry text entry) : splitAtDepth 0 text = [text] := by
  cases holds with
  | bare label =>
      exact splitAtDepth_of_plain label.noOpening_text label.noClosing_text fun comma =>
        (label.noComma_text comma).elim
  | @listed text inner after _ _ label inside blankAfter =>
      have opened : ∀ rest,
          splitAtDepth 0 ('(' :: rest) = (splitAtDepth 1 rest).modifyHead ('(' :: ·) :=
        fun _ => rfl
      have closed : ∀ rest,
          splitAtDepth 1 (')' :: rest) = (splitAtDepth 0 rest).modifyHead (')' :: ·) :=
        fun _ => rfl
      rw [splitAtDepth_append label.noOpening_text label.noClosing_text
          fun comma => (label.noComma_text comma).elim,
        opened, splitAtDepth_append (noOpening_row inside) (noClosing_row inside)
          fun _ => Nat.one_ne_zero,
        closed, splitAtDepth_blank blankAfter]
      rfl

/-- Every entry of a row is read as it was written, and blank pieces are passed over. -/
theorem filterMap_row {text : List Char} {entries : List (String × Option (List String))}
    (row : Row Entry text entries) :
    (splitOutsideParentheses text).filterMap ofRelation? =
      entries.map fun entry => (entry.1, ofListed entry.2) := by
  rw [splitOutsideParentheses]
  induction row with
  | blank allBlank =>
      rw [splitAtDepth_blank allBlank]
      simp [ofRelation?_blank allBlank]
  | last inside =>
      rw [inside.uncut]
      simp [inside.ofRelation?_eq]
  | skip allBlank others ih =>
      rw [splitAtDepth_comma (depthAtEnd_blank allBlank), splitAtDepth_blank allBlank,
        List.filterMap_append, ih]
      simp [ofRelation?_blank allBlank]
  | more inside others ih =>
      rw [splitAtDepth_comma inside.closed, inside.uncut, List.filterMap_append, ih]
      simp [inside.ofRelation?_eq]

/--
The relations of a row of entries are recovered from it.  Each listed name is followed with the
projection of its last entry, which shows everything if the name stands alone, and else the
properties in the parentheses, none if there are none.  No other relation is followed.
-/
theorem ofRelations_recovers {text : String} {entries : List (String × Option (List String))}
    (row : Row Entry text.toList entries) : FollowsListed entries (ofRelations (some text)) := by
  have found : ∀ name, (ofRelations (some text)).get? name =
      Fields.get? name (entries.map fun entry => (entry.1, ofListed entry.2)).reverse := by
    intro name
    rw [ofRelations, filterMap_row row, Dictionary.get?_ofList]
  refine ⟨?_, ?_⟩
  · rintro front name properties back rfl later
    refine ⟨ofListed properties, ?_, showsListed properties⟩
    rw [found, List.map_append, List.map_cons]
    apply Fields.get?_reverse_of_last
    rw [List.map_map]
    exact later
  · intro name absent
    rw [found, Fields.get?_eq_none_iff, List.map_reverse, List.mem_reverse, List.map_map]
    exact absent

/-- Empty entries, empty properties, empty parentheses and a name that is listed twice. -/
def paddedRelations : String :=
  " members ( id ,,\u3000role )\n,, owner,sites( ),\tmembers"

/-- Wide and narrow blanks are passed over, and the last entry of a name counts. -/
theorem ofRelations_recovers_padded :
    Row Entry paddedRelations.toList
        [("members", some ["id", "role"]), ("owner", none), ("sites", some []),
          ("members", none)] ∧
      FollowsListed
        [("members", some ["id", "role"]), ("owner", none), ("sites", some []),
          ("members", none)]
        (ofRelations (some paddedRelations)) := by
  have label : ∀ (before after : List Char) (name : String),
      AllBlank before ∧ AllBlank after ∧ Trimmed name.toList ∧
        ',' ∉ name.toList ∧ '(' ∉ name.toList ∧ ')' ∉ name.toList →
      Labelled (before ++ (name.toList ++ after)) name := by
    rintro before after name ⟨blankBefore, blankAfter, trimmed, noComma, noOpening, noClosing⟩
    exact ⟨⟨trimmed, noComma, .intro blankBefore blankAfter⟩, noOpening, noClosing⟩
  have nothing : AllBlank [] := by decide
  have space : AllBlank [' '] := by decide
  have newline : AllBlank ['\n'] := by decide
  have properties := Row.more (label [' '] [' '] "id" (by decide))
    (.skip nothing (.last (label ['\u3000'] [' '] "role" (by decide))))
  have members := Entry.listed (label [' '] [' '] "members" (by decide)) properties newline
  have owner := Entry.bare (label [' '] [] "owner" (by decide))
  have sites := Entry.listed (label [] [] "sites" (by decide)) (.blank space) nothing
  have again := Entry.bare (label ['\t'] [] "members" (by decide))
  have row : Row Entry paddedRelations.toList _ :=
    .more members (.skip nothing (.more owner (.more sites (.last again))))
  exact ⟨row, ofRelations_recovers row⟩

end ContentApi.Projection
