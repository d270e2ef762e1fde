import ContentApi.Proofs.Language

/-!
# What scanners read

A scanner reads a language if what it passes over is a text of the language, and if it
passes over the whole of such a text whenever what follows cannot be taken for more of it.
The first half composes along the steps of a scanner.  The second half needs the boundary,
because scanners never return to a shorter reading.

`Refuses` is the third side: an alternative that is tried later is reached only if the
earlier ones refuse the text.
-/

namespace ContentApi.Scanner

open ContentApi.Language

variable {α β : Type}

/-- What a scanner passes over is a text of a language. -/
def Sound (scanner : Scanner α) (language : Language α) : Prop :=
  ∀ ⦃input rest : List Char⦄ ⦃value : α⦄,
    scanner input = .ok (value, rest) →
      ∃ text, input = text ++ rest ∧ language text value

/-- A scanner passes over the texts of a language if the right characters follow. -/
def Complete (scanner : Scanner α) (language : Language α) (follow : List Char → Prop) :
    Prop :=
  ∀ ⦃text rest : List Char⦄ ⦃value : α⦄,
    language text value → follow rest → scanner (text ++ rest) = .ok (value, rest)

/-- A scanner stops somewhere in a text. -/
def Refuses (scanner : Scanner α) (input : List Char) : Prop :=
  ∃ rest, scanner input = .error rest

/-! ## Steps in a row -/

theorem bind_of_ok {scanner : Scanner α} {next : α → Scanner β} {input rest : List Char}
    {value : α} (scanned : scanner input = .ok (value, rest)) :
    (scanner >>= next) input = next value rest := by
  show Except.bind (scanner input) _ = _
  rw [scanned]
  rfl

theorem bind_of_error {scanner : Scanner α} {next : α → Scanner β}
    {input rest : List Char} (stopped : scanner input = .error rest) :
    (scanner >>= next) input = .error rest := by
  show Except.bind (scanner input) _ = _
  rw [stopped]
  rfl

/-- Two steps succeed exactly if the second one succeeds behind the first one. -/
theorem bind_eq_ok_iff {scanner : Scanner α} {next : α → Scanner β} {input : List Char}
    {result : β × List Char} :
    (scanner >>= next) input = .ok result ↔
      ∃ value rest, scanner input = .ok (value, rest) ∧ next value rest = .ok result := by
  cases scanned : scanner input with
  | error stopped =>
      rw [bind_of_error scanned]
      simp
  | ok success =>
      rcases success with ⟨value, rest⟩
      rw [bind_of_ok scanned]
      constructor
      · intro behind
        exact ⟨value, rest, rfl, behind⟩
      · rintro ⟨_, _, equal, behind⟩
        cases equal
        exact behind

theorem pure_eq_ok_iff {value : α} {input : List Char} {result : α × List Char} :
    (pure value : Scanner α) input = .ok result ↔ (value, input) = result := by
  constructor
  · intro equal
    exact Except.ok.inj equal
  · intro equal
    rw [← equal]
    rfl

theorem map_eq_ok_iff {scanner : Scanner α} {f : α → β} {input : List Char}
    {result : β × List Char} :
    (f <$> scanner) input = .ok result ↔
      ∃ value rest, scanner input = .ok (value, rest) ∧ (f value, rest) = result := by
  have asBind : f <$> scanner = scanner >>= fun value => pure (f value) := rfl
  rw [asBind, bind_eq_ok_iff]
  simp only [pure_eq_ok_iff]

/-- Two steps stop where the first one stops, or where the second one stops behind it. -/
theorem bind_eq_error_iff {scanner : Scanner α} {next : α → Scanner β}
    {input rest : List Char} :
    (scanner >>= next) input = .error rest ↔
      scanner input = .error rest ∨
        ∃ value behind, scanner input = .ok (value, behind) ∧
          next value behind = .error rest := by
  cases scanned : scanner input with
  | error stopped =>
      rw [bind_of_error scanned]
      simp
  | ok success =>
      rcases success with ⟨value, behind⟩
      rw [bind_of_ok scanned]
      constructor
      · intro stopped
        exact Or.inr ⟨value, behind, rfl, stopped⟩
      · rintro (impossible | ⟨_, _, equal, stopped⟩)
        · cases impossible
        · cases equal
          exact stopped

theorem map_eq_error_iff {scanner : Scanner α} {f : α → β} {input rest : List Char} :
    (f <$> scanner) input = .error rest ↔ scanner input = .error rest := by
  have asBind : f <$> scanner = scanner >>= fun value => pure (f value) := rfl
  rw [asBind, bind_eq_error_iff]
  constructor
  · rintro (stopped | ⟨value, behind, -, impossible⟩)
    · exact stopped
    · cases impossible
  · exact Or.inl

theorem Refuses.bind {scanner : Scanner α} {input : List Char}
    (refuses : Refuses scanner input) (next : α → Scanner β) :
    Refuses (scanner >>= next) input := by
  rcases refuses with ⟨rest, stopped⟩
  exact ⟨rest, bind_of_error stopped⟩

theorem Refuses.map {scanner : Scanner α} {input : List Char} (refuses : Refuses scanner input)
    (f : α → β) : Refuses (f <$> scanner) input := by
  rcases refuses with ⟨rest, stopped⟩
  exact ⟨rest, map_eq_error_iff.mpr stopped⟩

theorem Refuses.of_next {scanner : Scanner α} {next : α → Scanner β}
    {input rest : List Char} {value : α} (scanned : scanner input = .ok (value, rest))
    (refuses : Refuses (next value) rest) : Refuses (scanner >>= next) input := by
  rw [Refuses, bind_of_ok scanned]
  exact refuses

/-- A scanner that gives nothing for a text refuses it. -/
theorem refuses_of_no_success {scanner : Scanner α} {input : List Char}
    (none : ∀ success, scanner input ≠ .ok success) : Refuses scanner input := by
  cases scanned : scanner input with
  | error rest => exact ⟨rest, scanned⟩
  | ok success => exact (none success scanned).elim

/-! ## Alternatives -/

theorem either_of_ok {first second : Scanner α} {input : List Char}
    {success : α × List Char} (scanned : first input = .ok success) :
    either first second input = .ok success := by
  rw [either, scanned]

theorem either_of_refuses {first second : Scanner α} {input : List Char}
    (refuses : Refuses first input) : either first second input = second input := by
  rcases refuses with ⟨rest, stopped⟩
  rw [either, stopped]

/-- Of two alternatives the second one says where they stop. -/
theorem either_eq_error {first second : Scanner α} {input rest : List Char}
    (stopped : either first second input = .error rest) : second input = .error rest := by
  rw [either] at stopped
  split at stopped
  · cases stopped
  · exact stopped

theorem Refuses.either {first second : Scanner α} {input : List Char}
    (firstRefuses : Refuses first input) (secondRefuses : Refuses second input) :
    Refuses (either first second) input := by
  rcases secondRefuses with ⟨rest, stopped⟩
  exact ⟨rest, (either_of_refuses firstRefuses).trans stopped⟩

theorem Sound.either {first second : Scanner α} {language : Language α}
    (firstSound : Sound first language) (secondSound : Sound second language) :
    Sound (either first second) language := by
  intro input rest value scanned
  cases tried : first input with
  | ok success =>
      rw [either_of_ok tried] at scanned
      exact firstSound (tried.trans scanned)
  | error stopped =>
      rw [either_of_refuses ⟨stopped, tried⟩] at scanned
      exact secondSound scanned

/-! ## Single characters -/

theorem character_cons {allowed : Char → Bool} {first : Char} (rest : List Char)
    (inside : allowed first = true) :
    character allowed (first :: rest) = .ok ((), rest) := by
  rw [character, if_pos inside]

theorem refuses_character {allowed : Char → Bool} {input : List Char}
    (avoids : Avoids allowed input) : Refuses (character allowed) input := by
  cases input with
  | nil => exact ⟨[], rfl⟩
  | cons first rest =>
      have outside := (avoids_cons allowed first rest).mp avoids
      refine ⟨first :: rest, ?_⟩
      rw [character, if_neg (by simp [outside])]

theorem character_eq_ok {allowed : Char → Bool} {input rest : List Char}
    (scanned : character allowed input = .ok ((), rest)) :
    ∃ first, input = first :: rest ∧ allowed first = true := by
  cases input with
  | nil => cases scanned
  | cons first more =>
      rw [character] at scanned
      split at scanned
      · rename_i inside
        cases scanned
        exact ⟨first, rfl, inside⟩
      · cases scanned

theorem avoids_of_refuses {allowed : Char → Bool} {input : List Char}
    (refuses : Refuses (character allowed) input) : Avoids allowed input := by
  rintro first more rfl
  rcases refuses with ⟨rest, stopped⟩
  cases inside : allowed first with
  | false => rfl
  | true =>
      rw [character_cons more inside] at stopped
      cases stopped

theorem character_eq_error {allowed : Char → Bool} {input rest : List Char}
    (stopped : character allowed input = .error rest) : rest = input := by
  cases input with
  | nil =>
      cases stopped
      rfl
  | cons first more =>
      rw [character] at stopped
      split at stopped
      · cases stopped
      · cases stopped
        rfl

@[simp]
theorem symbol_cons (wanted : Char) (rest : List Char) :
    symbol wanted (wanted :: rest) = .ok ((), rest) :=
  character_cons rest (beq_self_eq_true wanted)

theorem symbol_eq_ok {wanted : Char} {input rest : List Char}
    (scanned : symbol wanted input = .ok ((), rest)) : input = wanted :: rest := by
  rcases character_eq_ok scanned with ⟨first, rfl, equal⟩
  rw [beq_iff_eq.mp equal]

theorem refuses_symbol {wanted : Char} {input : List Char}
    (avoids : Avoids (· == wanted) input) : Refuses (symbol wanted) input :=
  refuses_character avoids

/-! ## Blanks -/

/-- Blanks are passed over up to the first character that is none. -/
theorem skipSpaces_append {blanks rest : List Char} (allBlank : Blanks blanks)
    (avoids : Avoids isSpace rest) : skipSpaces (blanks ++ rest) = .ok ((), rest) := by
  have kept : rest.dropWhile isSpace = rest := by
    cases rest with
    | nil => rfl
    | cons first more =>
        have outside := (avoids_cons isSpace first more).mp avoids
        rw [List.dropWhile_cons_of_neg (by simp [outside])]
  rw [skipSpaces, List.dropWhile_append_of_pos allBlank, kept]

theorem skipSpaces_eq_ok {input rest : List Char}
    (scanned : skipSpaces input = .ok ((), rest)) :
    ∃ blanks, input = blanks ++ rest ∧ Blanks blanks ∧ Avoids isSpace rest := by
  have dropped : input.dropWhile isSpace = rest := by
    rw [skipSpaces] at scanned
    cases scanned
    rfl
  refine ⟨input.takeWhile isSpace, ?_, ?_, ?_⟩
  · rw [← dropped, List.takeWhile_append_dropWhile]
  · intro character member
    exact List.all_eq_true.mp List.all_takeWhile character member
  · rw [← dropped]
    exact avoids_dropWhile isSpace input

theorem spaces_append {blanks rest : List Char} (some : SomeBlanks blanks)
    (avoids : Avoids isSpace rest) : spaces (blanks ++ rest) = .ok ((), rest) := by
  rcases some.begins with ⟨first, more, rfl, blank⟩
  have others : Blanks more := fun character member =>
    some.2 character (List.mem_cons_of_mem _ member)
  rw [spaces, List.cons_append, bind_of_ok (character_cons (more ++ rest) blank)]
  exact skipSpaces_append others avoids

theorem spaces_eq_ok {input rest : List Char} (scanned : spaces input = .ok ((), rest)) :
    ∃ blanks, input = blanks ++ rest ∧ SomeBlanks blanks ∧ Avoids isSpace rest := by
  rw [spaces, bind_eq_ok_iff] at scanned
  rcases scanned with ⟨_, behind, first, others⟩
  rcases character_eq_ok first with ⟨character, rfl, blank⟩
  rcases skipSpaces_eq_ok others with ⟨blanks, rfl, allBlank, avoids⟩
  refine ⟨character :: blanks, rfl, ⟨List.cons_ne_nil _ _, ?_⟩, avoids⟩
  intro other member
  rcases List.mem_cons.mp member with rfl | member
  · exact blank
  · exact allBlank other member

theorem refuses_spaces {input : List Char} (avoids : Avoids isSpace input) :
    Refuses spaces input :=
  (refuses_character avoids).bind _

/-! ## Keywords -/

theorem afterWord?_append {word text : List Char} (isWord : Keyword word text)
    (rest : List Char) : afterWord? word (text ++ rest) = some rest := by
  subst isWord
  induction text with
  | nil => rfl
  | cons first more ih =>
      simp only [List.map_cons, List.cons_append, afterWord?, if_true]
      exact ih

theorem afterWord?_eq_some {word input rest : List Char}
    (found : afterWord? word input = some rest) :
    ∃ text, input = text ++ rest ∧ Keyword word text := by
  induction word generalizing input with
  | nil =>
      cases found
      exact ⟨[], rfl, rfl⟩
  | cons letter word ih =>
      cases input with
      | nil => cases found
      | cons first more =>
          rw [afterWord?] at found
          split at found
          · rename_i same
            rcases ih found with ⟨text, rfl, isWord⟩
            refine ⟨first :: text, rfl, ?_⟩
            rw [Keyword, List.map_cons, same, isWord]
          · cases found

theorem keyword_append {word text : List Char} (isWord : Keyword word text)
    (rest : List Char) : keyword word (text ++ rest) = .ok ((), rest) := by
  rw [keyword, afterWord?_append isWord]

theorem keyword_eq_ok {word input rest : List Char}
    (scanned : keyword word input = .ok ((), rest)) :
    ∃ text, input = text ++ rest ∧ Keyword word text := by
  rw [keyword] at scanned
  split at scanned
  · rename_i behind found
    cases scanned
    exact afterWord?_eq_some found
  · cases scanned

/-- A keyword is refused where its first letter does not stand. -/
theorem refuses_keyword {letter : Char} {word input : List Char}
    (avoids : Avoids (fun first => first.toLower == letter) input) :
    Refuses (keyword (letter :: word)) input := by
  have missing : afterWord? (letter :: word) input = none := by
    cases input with
    | nil => rfl
    | cons first more =>
        have different := (avoids_cons _ first more).mp avoids
        rw [afterWord?, if_neg (by simpa using different)]
  exact ⟨input, by rw [keyword, missing]⟩

/-! ## Repetitions -/

theorem repeatedAtMost_sound {step : Scanner α} {item : Language α}
    (stepSound : Sound step item) (bound : Nat) (input : List Char) :
    ∃ text, input = text ++ (repeatedAtMost step bound input).2 ∧
      Star item text (repeatedAtMost step bound input).1 := by
  induction bound generalizing input with
  | zero => exact ⟨[], rfl, .nil⟩
  | succ bound ih =>
      rw [repeatedAtMost]
      cases scanned : step input with
      | error stopped => exact ⟨[], rfl, .nil⟩
      | ok success =>
          rcases success with ⟨value, rest⟩
          rcases stepSound scanned with ⟨text, rfl, head⟩
          rcases ih rest with ⟨more, equal, tail⟩
          refine ⟨text ++ more, ?_, .cons head tail⟩
          rw [List.append_assoc, ← equal]

/-- Where the step is refused at once, nothing is repeated. -/
theorem repeated_of_refuses {step : Scanner α} {input : List Char} (stops : Refuses step input) :
    repeated step input = .ok ([], input) := by
  rcases stops with ⟨stopped, refused⟩
  rw [repeated]
  cases input.length with
  | zero => rfl
  | succ bound => rw [repeatedAtMost, refused]

theorem Sound.repeated {step : Scanner α} {item : Language α}
    (stepSound : Sound step item) : Sound (repeated step) (Star item) := by
  intro input rest values scanned
  rcases repeatedAtMost_sound stepSound input.length input with ⟨text, equal, star⟩
  rw [Scanner.repeated] at scanned
  injection scanned with same
  rw [same] at equal star
  exact ⟨text, equal, star⟩

/--
A repetition passes over a whole row of texts if the step is refused behind it.  What
follows a text of the row is either the next one or what follows the row.
-/
theorem repeated_append {step : Scanner α} {item : Language α}
    {follow : List Char → Prop} {text rest : List Char} {values : List α}
    (stepComplete : Complete step item follow)
    (nonempty : ∀ text value, item text value → text ≠ [])
    (goesOn : ∀ text value more, item text value → follow (text ++ more))
    (star : Star item text values) (ends : follow rest) (stops : Refuses step rest) :
    repeated step (text ++ rest) = .ok (values, rest) := by
  have within : ∀ bound, text.length ≤ bound →
      repeatedAtMost step bound (text ++ rest) = (values, rest) := by
    induction star with
    | nil =>
        intro bound _
        rcases stops with ⟨stopped, refused⟩
        cases bound with
        | zero => rfl
        | succ bound => simp only [List.nil_append, repeatedAtMost, refused]
    | @cons text more value values head tail ih =>
        intro bound fits
        have used : 0 < text.length :=
          List.length_pos_iff.mpr (nonempty text value head)
        rw [List.length_append] at fits
        obtain ⟨bound, rfl⟩ : ∃ smaller, bound = smaller + 1 :=
          ⟨bound - 1, by omega⟩
        have follows : follow (more ++ rest) := by
          cases tail with
          | nil => exact ends
          | cons next others =>
              rw [List.append_assoc]
              exact goesOn _ _ _ next
        have scanned := stepComplete head follows
        rw [List.append_assoc, repeatedAtMost, scanned]
        simp only [ih bound (by omega)]
  rw [repeated, within _ (by simp)]

/-! ## The end of a clause -/

theorem finished_eq_ok {input rest : List Char} (scanned : finished input = .ok ((), rest)) :
    input = [] ∧ rest = [] := by
  cases input with
  | nil =>
      cases scanned
      exact ⟨rfl, rfl⟩
  | cons first more => cases scanned

theorem finished_eq_error {input rest : List Char} (stopped : finished input = .error rest) :
    rest = input := by
  cases input with
  | nil => cases stopped
  | cons first more =>
      cases stopped
      rfl

/-! ## Lists with commas -/

theorem Sound.commaThen {scanner : Scanner α} {item : Language α}
    (itemSound : Sound scanner item) : Sound (commaThen scanner) (AfterComma item) := by
  intro input rest value scanned
  simp only [Scanner.commaThen, bind_eq_ok_iff] at scanned
  rcases scanned with ⟨_, _, first, _, _, second, _, _, third, inside⟩
  rcases skipSpaces_eq_ok first with ⟨before, rfl, blanksBefore, -⟩
  obtain rfl := symbol_eq_ok second
  rcases skipSpaces_eq_ok third with ⟨after, rfl, blanksAfter, -⟩
  rcases itemSound inside with ⟨text, rfl, holds⟩
  refine ⟨before ++ ',' :: (after ++ text), ?_, .intro blanksBefore blanksAfter holds⟩
  simp only [List.append_assoc, List.cons_append]

theorem Complete.commaThen {scanner : Scanner α} {item : Language α}
    {follow : List Char → Prop} (itemComplete : Complete scanner item follow)
    (solid : Solid item) : Complete (commaThen scanner) (AfterComma item) follow := by
  intro text rest value holds follows
  cases holds with
  | @intro before after text _ blanksBefore blanksAfter inside =>
      simp only [List.append_assoc, List.cons_append, Scanner.commaThen]
      rw [bind_of_ok (skipSpaces_append blanksBefore (by simp [isSpace])),
        bind_of_ok (symbol_cons _ _),
        bind_of_ok (skipSpaces_append blanksAfter (solid.avoids inside rest))]
      exact itemComplete inside follows

/-- No further value is read if no comma stands behind the blanks. -/
theorem refuses_commaThen (scanner : Scanner α) {blanks rest : List Char}
    (allBlank : Blanks blanks) (noBlank : Avoids isSpace rest)
    (noComma : Avoids (· == ',') rest) : Refuses (commaThen scanner) (blanks ++ rest) := by
  rw [commaThen]
  exact .of_next (skipSpaces_append allBlank noBlank) ((refuses_symbol noComma).bind _)

theorem Sound.commaSeparated {scanner : Scanner α} {item : Language α}
    (itemSound : Sound scanner item) :
    Sound (commaSeparated scanner) (CommaList item) := by
  intro input rest values scanned
  simp only [Scanner.commaSeparated, bind_eq_ok_iff, pure_eq_ok_iff] at scanned
  rcases scanned with ⟨value, _, first, others, _, more, equal⟩
  cases equal
  rcases itemSound first with ⟨text, rfl, head⟩
  rcases itemSound.commaThen.repeated more with ⟨behind, rfl, tail⟩
  exact ⟨text ++ behind, (List.append_assoc _ _ _).symm, .intro head tail⟩

theorem Complete.commaSeparated {scanner : Scanner α} {item : Language α}
    {follow : List Char → Prop} (itemComplete : Complete scanner item follow)
    (solid : Solid item)
    (goesOn : ∀ {blanks : List Char} (rest : List Char),
      Blanks blanks → follow (blanks ++ ',' :: rest)) :
    Complete (commaSeparated scanner) (CommaList item)
      (fun rest => follow rest ∧ Refuses (Scanner.commaThen scanner) rest) := by
  intro text rest values holds ends
  rcases ends with ⟨follows, stops⟩
  have nextFollows : ∀ text value more, AfterComma item text value →
      follow (text ++ more) := by
    intro text value more next
    cases next with
    | intro blanksBefore blanksAfter inside =>
        simp only [List.append_assoc, List.cons_append]
        exact goesOn _ blanksBefore
  have nonempty : ∀ text value, AfterComma item text value → text ≠ [] := by
    intro text value next
    cases next
    exact List.append_ne_nil_of_right_ne_nil _ (List.cons_ne_nil _ _)
  cases holds with
  | @intro text more value values head tail =>
      have restFollows : follow (more ++ rest) := by
        cases tail with
        | nil => exact follows
        | cons next others =>
            rw [List.append_assoc]
            exact nextFollows _ _ _ next
      rw [List.append_assoc, Scanner.commaSeparated,
        bind_of_ok (itemComplete head restFollows),
        bind_of_ok (repeated_append (itemComplete.commaThen solid) nonempty nextFollows
          tail follows stops)]
      rfl

/-! ## Parentheses -/

theorem Sound.parenthesized {scanner : Scanner α} {item : Language α}
    (itemSound : Sound scanner item) :
    Sound (parenthesized scanner) (Parenthesized item) := by
  intro input rest value scanned
  simp only [Scanner.parenthesized, bind_eq_ok_iff, pure_eq_ok_iff] at scanned
  obtain ⟨_, _, opened, _, _, first, _, _, inside, _, _, second, _, _, closed, equal⟩ :=
    scanned
  cases equal
  obtain rfl := symbol_eq_ok opened
  rcases skipSpaces_eq_ok first with ⟨before, rfl, blanksBefore, -⟩
  rcases itemSound inside with ⟨text, rfl, holds⟩
  rcases skipSpaces_eq_ok second with ⟨after, rfl, blanksAfter, -⟩
  obtain rfl := symbol_eq_ok closed
  refine ⟨_, ?_, .intro blanksBefore holds blanksAfter⟩
  simp only [List.append_assoc, List.cons_append, List.nil_append]

theorem Complete.parenthesized {scanner : Scanner α} {item : Language α}
    {follow : List Char → Prop} (itemComplete : Complete scanner item follow)
    (solid : Solid item)
    (closes : ∀ {blanks : List Char} (rest : List Char),
      Blanks blanks → follow (blanks ++ ')' :: rest)) :
    Complete (parenthesized scanner) (Parenthesized item) (fun _ => True) := by
  intro text rest value holds _
  cases holds with
  | @intro before text after _ blanksBefore inside blanksAfter =>
      simp only [List.append_assoc, List.cons_append, List.nil_append,
        Scanner.parenthesized]
      rw [bind_of_ok (symbol_cons _ _),
        bind_of_ok (skipSpaces_append blanksBefore (solid.avoids inside _)),
        bind_of_ok (itemComplete inside (closes rest blanksAfter)),
        bind_of_ok (skipSpaces_append blanksAfter (by simp [isSpace])),
        bind_of_ok (symbol_cons _ _)]
      rfl

end ContentApi.Scanner
