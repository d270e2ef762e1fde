import ContentApi.Content.Person
import ContentApi.Proofs.Json.Reading
import ContentApi.Settings

/-!
# Both ways to take a value

A target takes a value directly from what is written, or from the complete value that was taken
before.  Wherever there is a complete value, the two ways agree for every target that is composed
of the given ones: they take the same value, or neither takes one, and then the text is at fault
and not its reader.

What they could disagree on are the faults that only one of them meets.  A complete value has
closed brackets and complete literals and numerals, so the direct way meets none of those either;
and what it skips has been evaluated for the complete value.
-/

namespace ContentApi.Json

variable {α β : Type}

/-! ## Outcomes -/

theorem exists_of_map_ok {result : Except Fault α} {f : α → β} {value : β}
    (passed : result.map f = .ok value) : ∃ taken, result = .ok taken ∧ f taken = value := by
  cases result with
  | error => cases passed
  | ok taken =>
      cases passed
      exact ⟨taken, rfl, rfl⟩

theorem exists_of_bind_ok {result : Except Fault α} {next : α → Except Fault β} {value : β}
    (passed : result >>= next = .ok value) :
    ∃ taken, result = .ok taken ∧ next taken = .ok value := by
  cases result with
  | error => cases passed
  | ok taken => exact ⟨taken, rfl, passed⟩

/-- The same value is taken on both sides, or none is and the text is at fault. -/
inductive Agrees : Except Fault α → Option α → Prop where
  | value (value : α) : Agrees (.ok value) (some value)
  | fault {fault : Fault} (ofText : fault ≠ .unreadable) : Agrees (.error fault) none

namespace Agrees

variable {result : Except Fault α} {taken : Option α}

theorem map (agrees : Agrees result taken) (f : α → β) :
    Agrees (result.map f) (taken.map f) := by
  cases agrees with
  | value value => exact .value (f value)
  | fault ofText => exact .fault ofText

theorem bind (agrees : Agrees result taken) {next : α → Except Fault β} {after : α → Option β}
    (behind : ∀ value, Agrees (next value) (after value)) :
    Agrees (result >>= next) (taken >>= after) := by
  cases agrees with
  | value value => exact behind value
  | fault ofText => exact .fault ofText

theorem refusing (refused : Prop) [Decidable refused] {fault : Fault}
    (ofText : fault ≠ .unreadable) (value : α) :
    Agrees (if refused then .error fault else .ok value)
      (if refused then none else some value) := by
  split
  · exact .fault ofText
  · exact .value value

/-- Values that are taken one after another. -/
theorem mapM {γ δ : Type} {related : γ → δ → Prop} {direct : γ → Except Fault α}
    {buffered : δ → Option α} {sources : List γ} {values : List δ}
    (pairs : List.Forall₂ related sources values)
    (agrees : ∀ source value, related source value → Agrees (direct source) (buffered value)) :
    Agrees (sources.mapM direct) (values.mapM buffered) := by
  induction pairs with
  | nil => exact .value []
  | cons first _ ih =>
      rw [List.mapM_cons, List.mapM_cons]
      exact (agrees _ _ first).bind fun _ => ih.bind fun _ => .value _

end Agrees

/-! ## Complete values -/

namespace Written

/-- What is written, and its complete value, by the kinds of values. -/
inductive Evaluates : Nat → Written → Json → Prop where
  | null {depth : Nat} : Evaluates depth .null .null
  | boolean {depth : Nat} {value : Bool} : Evaluates depth (.boolean value) (.boolean value)
  | number {depth : Nat} {numeral : Numeral} {value : Number}
      (isNumber : numeral.number = .ok value) : Evaluates depth (.number numeral) (.number value)
  | string {depth : Nat} {literal : Literal} {value : String}
      (isText : literal.text = .ok value) : Evaluates depth (.string literal) (.string value)
  | array {depth : Nat} {items : List Written} {values : List Json}
      (inside : itemContents depth items = .ok values) :
      Evaluates (depth + 1) (.array items .closed) (.array values)
  | object {depth : Nat} {fields : List (Literal × Written)} {entries : List (String × Json)}
      (inside : fieldContents depth fields = .ok entries) :
      Evaluates (depth + 1) (.object fields .closed) (.object entries)

variable {depth : Nat} {written : Written} {value : Json}

theorem evaluates_of_contents (taken : written.contents depth = .ok value) :
    Evaluates depth written value := by
  cases written with
  | null =>
      rw [contents] at taken
      cases taken
      exact .null
  | boolean =>
      rw [contents] at taken
      cases taken
      exact .boolean
  | number numeral =>
      rw [contents] at taken
      obtain ⟨number, isNumber, rfl⟩ := exists_of_map_ok taken
      exact .number isNumber
  | string literal =>
      rw [contents] at taken
      obtain ⟨text, isText, rfl⟩ := exists_of_map_ok taken
      exact .string isText
  | array items ending =>
      cases depth with
      | zero => cases taken
      | succ depth =>
          rw [contents] at taken
          obtain ⟨values, inside, taken⟩ := exists_of_bind_ok taken
          cases ending with
          | closed =>
              cases taken
              exact .array inside
          | inside | stopped => cases taken
  | object fields ending =>
      cases depth with
      | zero => cases taken
      | succ depth =>
          rw [contents] at taken
          obtain ⟨entries, inside, taken⟩ := exists_of_bind_ok taken
          cases ending with
          | closed =>
              cases taken
              exact .object inside
          | inside | stopped => cases taken
  | broken => cases taken

theorem contents_of_items {depth : Nat} {items : List Written} {values : List Json}
    (taken : itemContents depth items = .ok values) :
    List.Forall₂ (fun item value => contents depth item = .ok value) items values := by
  induction items generalizing values with
  | nil =>
      rw [itemContents] at taken
      cases taken
      exact .nil
  | cons item items ih =>
      rw [itemContents] at taken
      obtain ⟨value, first, taken⟩ := exists_of_bind_ok taken
      obtain ⟨others, inside, taken⟩ := exists_of_bind_ok taken
      cases taken
      exact .cons first (ih inside)

theorem contents_of_fields {depth : Nat} {fields : List (Literal × Written)}
    {entries : List (String × Json)} (taken : fieldContents depth fields = .ok entries) :
    List.Forall₂ (fun field entry => field.1.text = .ok entry.1 ∧
      contents depth field.2 = .ok entry.2) fields entries := by
  induction fields generalizing entries with
  | nil =>
      rw [fieldContents] at taken
      cases taken
      exact .nil
  | cons field fields ih =>
      obtain ⟨name, written⟩ := field
      rw [fieldContents] at taken
      obtain ⟨text, named, taken⟩ := exists_of_bind_ok taken
      obtain ⟨value, first, taken⟩ := exists_of_bind_ok taken
      obtain ⟨others, inside, taken⟩ := exists_of_bind_ok taken
      cases taken
      exact .cons ⟨named, first⟩ (ih inside)

/-- What has a complete value has no fault but being of another form. -/
theorem misfit_of_evaluates (evaluates : Evaluates depth written value) :
    written.misfit = .mismatch := by
  cases evaluates with
  | number isNumber => rw [misfit, isNumber]
  | string isText => rw [misfit, isText]
  | _ => rfl

end Written

theorem Numeral.stop_of_number {numeral : Numeral} {number : Number}
    (isNumber : numeral.number = .ok number) : numeral.stop = none := by
  cases stopped : numeral.stop with
  | none => rfl
  | some fault =>
      rw [Numeral.number, Numeral.scaledNumber, stopped] at isNumber
      simp only at isNumber
      split at isNumber
      · cases isNumber
      · split at isNumber
        · cases isNumber
        · split at isNumber <;> cases isNumber

theorem Piece.stop_of_bytes {pieces : List Piece} {stop : Option Fault} {bytes : List UInt8}
    (isBytes : Piece.bytes stop pieces = .ok bytes) : stop = none := by
  fun_induction Piece.bytes stop pieces generalizing bytes with
  | case1 ended => exact ended
  | case3 _ _ ih | case6 _ _ _ _ _ _ ih | case9 _ _ _ _ ih =>
      obtain ⟨behind, inside, -⟩ := exists_of_map_ok isBytes
      exact ih inside
  | _ => cases isBytes

theorem Literal.stop_of_text {literal : Literal} {text : String}
    (isText : literal.text = .ok text) : literal.stop = none := by
  rw [Literal.text] at isText
  split at isText
  · cases isText
  · rename_i isBytes
    exact Piece.stop_of_bytes isBytes

namespace Written

theorem skipLiteral_of_text {literal : Literal} {text : String}
    (isText : literal.text = .ok text) : skipLiteral literal = .ok () := by
  rw [skipLiteral, Literal.stop_of_text isText]

theorem skipNumeral_of_number {numeral : Numeral} {number : Number}
    (isNumber : numeral.number = .ok number) : skipNumeral numeral = .ok () := by
  rw [skipNumeral, Numeral.stop_of_number isNumber]

mutual

/-- What has a complete value can be skipped. -/
theorem skip_of_contents : ∀ {depth : Nat} (written : Written) {value : Json},
    written.contents depth = .ok value → written.skip = .ok ()
  | _, .null, _, _ => rfl
  | _, .boolean _, _, _ => rfl
  | _, .number _, _, taken => by
      cases evaluates_of_contents taken with
      | number isNumber => exact skipNumeral_of_number isNumber
  | _, .string _, _, taken => by
      cases evaluates_of_contents taken with
      | string isText => exact skipLiteral_of_text isText
  | _, .array items _, _, taken => by
      cases evaluates_of_contents taken with
      | array inside =>
          rw [skip, skipItems_of_contents items inside]
          rfl
  | _, .object fields _, _, taken => by
      cases evaluates_of_contents taken with
      | object inside =>
          rw [skip, skipFields_of_contents fields inside]
          rfl
  | _, .broken _, _, taken => by cases evaluates_of_contents taken

theorem skipItems_of_contents : ∀ {depth : Nat} (items : List Written) {values : List Json},
    itemContents depth items = .ok values → skipItems items = .ok ()
  | _, [], _, _ => rfl
  | _, item :: rest, _, taken => by
      rw [itemContents] at taken
      obtain ⟨value, first, taken⟩ := exists_of_bind_ok taken
      obtain ⟨others, inside, _⟩ := exists_of_bind_ok taken
      rw [skipItems, skip_of_contents item first]
      exact skipItems_of_contents rest inside

theorem skipFields_of_contents : ∀ {depth : Nat} (fields : List (Literal × Written))
    {entries : List (String × Json)}, fieldContents depth fields = .ok entries →
    skipFields fields = .ok ()
  | _, [], _, _ => rfl
  | _, (name, written) :: rest, _, taken => by
      rw [fieldContents] at taken
      obtain ⟨text, named, taken⟩ := exists_of_bind_ok taken
      obtain ⟨value, first, taken⟩ := exists_of_bind_ok taken
      obtain ⟨others, inside, _⟩ := exists_of_bind_ok taken
      rw [skipFields, skipLiteral_of_text named]
      change (skip written >>= fun _ => skipFields rest) = _
      rw [skip_of_contents written first]
      exact skipFields_of_contents rest inside

end

mutual

/-- A value is the same if more arrays and objects may be entered. -/
theorem contents_succ : ∀ {depth : Nat} (written : Written) {value : Json},
    written.contents depth = .ok value → written.contents (depth + 1) = .ok value
  | _, .null, _, taken | _, .boolean _, _, taken | _, .number _, _, taken
  | _, .string _, _, taken => by
      rw [contents] at taken ⊢
      exact taken
  | _, .array items _, _, taken => by
      cases evaluates_of_contents taken with
      | array inside =>
          rw [contents, itemContents_succ items inside]
          rfl
  | _, .object fields _, _, taken => by
      cases evaluates_of_contents taken with
      | object inside =>
          rw [contents, fieldContents_succ fields inside]
          rfl
  | _, .broken _, _, taken => by cases evaluates_of_contents taken

theorem itemContents_succ : ∀ {depth : Nat} (items : List Written) {values : List Json},
    itemContents depth items = .ok values → itemContents (depth + 1) items = .ok values
  | _, [], _, taken => by
      rw [itemContents] at taken ⊢
      exact taken
  | _, item :: rest, _, taken => by
      rw [itemContents] at taken
      obtain ⟨value, first, taken⟩ := exists_of_bind_ok taken
      obtain ⟨others, inside, taken⟩ := exists_of_bind_ok taken
      rw [itemContents, contents_succ item first]
      change (itemContents _ rest >>= fun rest => .ok (value :: rest)) = _
      rw [itemContents_succ rest inside]
      exact taken

theorem fieldContents_succ : ∀ {depth : Nat} (fields : List (Literal × Written))
    {entries : List (String × Json)}, fieldContents depth fields = .ok entries →
    fieldContents (depth + 1) fields = .ok entries
  | _, [], _, taken => by
      rw [fieldContents] at taken ⊢
      exact taken
  | _, (name, written) :: rest, _, taken => by
      rw [fieldContents] at taken
      obtain ⟨text, named, taken⟩ := exists_of_bind_ok taken
      obtain ⟨value, first, taken⟩ := exists_of_bind_ok taken
      obtain ⟨others, inside, taken⟩ := exists_of_bind_ok taken
      rw [fieldContents, named]
      change (contents _ written >>= fun value => fieldContents _ rest >>= fun rest =>
        .ok ((text, value) :: rest)) = _
      rw [contents_succ written first]
      change (fieldContents _ rest >>= fun rest => .ok ((text, value) :: rest)) = _
      rw [fieldContents_succ rest inside]
      exact taken

end

end Written

/-! ## Targets -/

namespace Target

/-- Wherever there is a complete value, both ways agree. -/
def Faithful (target : Target α) : Prop :=
  ∀ depth written value, written.contents depth = .ok value →
    Agrees (target.direct depth written) (target.buffered value)

variable {target : Target α}

theorem agrees_misfit {depth : Nat} {written : Written} {value : Json}
    (taken : written.contents depth = .ok value) :
    Agrees (.error written.misfit : Except Fault α) none := by
  rw [Written.misfit_of_evaluates (Written.evaluates_of_contents taken)]
  exact .fault (by decide)

theorem faithful_json : json.Faithful := by
  intro depth written value taken
  simp only [json, taken]
  exact .value _

theorem faithful_boolean : boolean.Faithful := by
  intro depth written value taken
  have misfit : Agrees (.error written.misfit : Except Fault Bool) none := agrees_misfit taken
  cases Written.evaluates_of_contents taken with
  | boolean => exact .value _
  | null | number | string | array | object => exact misfit

theorem faithful_text : text.Faithful := by
  intro depth written value taken
  have misfit : Agrees (.error written.misfit : Except Fault String) none := agrees_misfit taken
  cases Written.evaluates_of_contents taken with
  | string isText =>
      simp only [text, isText]
      exact .value _
  | null | boolean | number | array | object => exact misfit

theorem faithful_integerWhere (allowed : Int → Bool) : (integerWhere allowed).Faithful := by
  intro depth written value taken
  have misfit : Agrees (.error written.misfit : Except Fault Int) none := agrees_misfit taken
  cases Written.evaluates_of_contents taken with
  | @number _ _ number isNumber =>
      simp only [integerWhere, isNumber]
      cases number with
      | double => exact .fault (by decide)
      | integer value =>
          change Agrees (if allowed value = true then .ok value else .error .mismatch)
            (if allowed value = true then some value else none)
          cases allowed value with
          | false => exact .fault (by decide)
          | true => exact .value value
  | null | boolean | string | array | object => exact misfit

theorem Faithful.map (faithful : target.Faithful) (f : α → β) : (target.map f).Faithful :=
  fun depth written value taken => (faithful depth written value taken).map f

theorem Faithful.optional (faithful : target.Faithful) : target.optional.Faithful := by
  intro depth written value taken
  have agrees := (faithful depth written value taken).map some
  cases Written.evaluates_of_contents taken with
  | null => exact .value none
  | boolean | number | string | array | object => exact agrees

theorem Faithful.list (faithful : target.Faithful) : target.list.Faithful := by
  intro depth written value taken
  have misfit : Agrees (.error written.misfit : Except Fault (List α)) none :=
    agrees_misfit taken
  cases Written.evaluates_of_contents taken with
  | @array _ items values inside =>
      have agrees := Agrees.mapM (Written.contents_of_items inside) (faithful _)
      have whole : target.list.buffered (.array values) = values.mapM target.buffered >>= some :=
        (bind_pure _).symm
      rw [whole]
      exact agrees.bind .value
  | object => exact misfit
  | null | boolean | number | string => cases depth <;> exact misfit

/-- The fields of a complete object are taken alike if their values are. -/
theorem Faithful.field (faithful : target.Faithful) (depth : Nat) (field : Literal × Written)
    (entry : String × Json)
    (taken : field.1.text = .ok entry.1 ∧ field.2.contents depth = .ok entry.2) :
    Agrees (target.fieldDirect depth field) (target.fieldBuffered entry) := by
  have agrees := (faithful depth field.2 entry.2 taken.2).map (entry.1, ·)
  rw [fieldDirect, taken.1]
  exact agrees

theorem Faithful.dictionary (faithful : target.Faithful) : target.dictionary.Faithful := by
  intro depth written value taken
  have misfit : Agrees (.error written.misfit : Except Fault (Dictionary α)) none :=
    agrees_misfit taken
  cases Written.evaluates_of_contents taken with
  | object inside =>
      have agrees := Agrees.mapM (Written.contents_of_fields inside) (faithful.field _)
      exact agrees.map Dictionary.ofList
  | array => exact misfit
  | null | boolean | number | string => cases depth <;> exact misfit

/-- The slots of a record are filled alike. -/
theorem Faithful.fill (faithful : target.Faithful) (names : List String) {depth : Nat}
    {fields : List (Literal × Written)} {entries : List (String × Json)}
    (pairs : List.Forall₂ (fun field entry => field.1.text = .ok entry.1 ∧
      field.2.contents depth = .ok entry.2) fields entries) (filled : List (String × α)) :
    Agrees (target.fillDirect names depth filled fields)
      (target.fillBuffered names filled entries) := by
  induction pairs generalizing filled with
  | nil => exact .value filled
  | @cons field entry _ _ first _ ih =>
      obtain ⟨literal, written⟩ := field
      obtain ⟨name, value⟩ := entry
      obtain ⟨named, taken⟩ := first
      rw [fillDirect, fillBuffered, named]
      change Agrees (if names.contains name = true then _ else _) _
      split
      · split
        · exact .fault (by decide)
        · exact (faithful depth written value taken).bind fun _ => ih _
      · rw [Written.skip_of_contents written taken]
        exact ih filled

theorem Faithful.record {field : Target α} (faithful : field.Faithful) (names : List String)
    (build : (String → Option α) → Option β) : (record names field build).Faithful := by
  intro depth written value taken
  have misfit : Agrees (.error written.misfit : Except Fault β) none :=
    agrees_misfit taken
  cases Written.evaluates_of_contents taken with
  | @array _ items values inside =>
      have pairs := Written.contents_of_items inside
      have sameLength : items.length = values.length := pairs.length_eq
      have taken := Agrees.mapM (List.forall₂_take names.length pairs) (faithful _)
      refine taken.bind fun found => ?_
      rw [← sameLength]
      -- Behind too few items the bracket is checked early, and it is closed.
      by_cases few : found.length < names.length
      all_goals
        simp only [few, if_true, if_false]
        cases build fun name => slot name (names.zip found) with
        | none => exact .fault (by decide)
        | some result => exact .refusing (names.length < items.length) (by decide) result
  | object inside =>
      refine (faithful.fill names (Written.contents_of_fields inside) []).bind fun filled => ?_
      cases build fun name => slot name filled with
      | none => exact .fault (by decide)
      | some result => exact .value result
  | null | boolean | number | string => cases depth <;> exact misfit

/-- The targets that are put together from the given ones. -/
inductive Composed : {α : Type} → Target α → Prop where
  | json : Composed .json
  | boolean : Composed .boolean
  | text : Composed .text
  | integerWhere (allowed : Int → Bool) : Composed (.integerWhere allowed)
  | map {α β : Type} {target : Target α} (f : α → β) (inner : Composed target) :
      Composed (target.map f)
  | optional {α : Type} {target : Target α} (inner : Composed target) : Composed target.optional
  | list {α : Type} {target : Target α} (inner : Composed target) : Composed target.list
  | dictionary {α : Type} {target : Target α} (inner : Composed target) :
      Composed target.dictionary
  | record {α β : Type} {field : Target α} (names : List String)
      (build : (String → Option α) → Option β) (inner : Composed field) :
      Composed (.record names field build)

theorem Composed.faithful (composed : target.Composed) : target.Faithful := by
  induction composed with
  | json => exact faithful_json
  | boolean => exact faithful_boolean
  | text => exact faithful_text
  | integerWhere allowed => exact faithful_integerWhere allowed
  | map f _ ih => exact ih.map f
  | optional _ ih => exact ih.optional
  | list _ ih => exact ih.list
  | dictionary _ ih => exact ih.dictionary
  | record names build _ ih => exact ih.record names build

/-- Whatever is taken from a text is taken through a composed target. -/
theorem composed_offered :
    Person.target.Composed ∧ Settings.target.Composed ∧ integer64.Composed ∧ octet.Composed ∧
      natural.Composed ∧ text.optional.Composed ∧ integer64.list.Composed ∧
      integer64.dictionary.Composed :=
  ⟨.record _ _ .text, .record _ _ (.map _ (.integerWhere _)), .integerWhere _, .integerWhere _,
    .map _ (.integerWhere _), .optional .text, .list (.integerWhere _),
    .dictionary (.integerWhere _)⟩

end Target

end ContentApi.Json
