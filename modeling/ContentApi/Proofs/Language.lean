import ContentApi.Scanner

/-!
# Languages

The notation of a clause is described without reference to the order in which it is read.
A language says which texts stand for which values.  The languages here are the parts that
the clauses have in common: blanks, keywords, repetitions, lists with commas, and
parentheses.
-/

namespace ContentApi

/-- Which texts stand for which values. -/
abbrev Language (α : Type) := List Char → α → Prop

namespace Language

variable {α : Type}

/-- Any number of blanks. -/
def Blanks (text : List Char) : Prop :=
  ∀ character ∈ text, Scanner.isSpace character = true

/-- Blanks, of which there is at least one. -/
def SomeBlanks (text : List Char) : Prop :=
  text ≠ [] ∧ Blanks text

/-- A keyword, given in lower case, in any case of its letters. -/
def Keyword (word text : List Char) : Prop :=
  text.map Char.toLower = word

/-- Any number of texts of a language, one behind the other. -/
inductive Star (item : Language α) : List Char → List α → Prop where
  | nil : Star item [] []
  | cons {text rest : List Char} {value : α} {values : List α}
      (head : item text value) (tail : Star item rest values) :
      Star item (text ++ rest) (value :: values)

/-- A comma with any blanks around it, and a text of a language behind it. -/
inductive AfterComma (item : Language α) : List Char → α → Prop where
  | intro {before after text : List Char} {value : α}
      (blanksBefore : Blanks before) (blanksAfter : Blanks after)
      (inside : item text value) :
      AfterComma item (before ++ ',' :: (after ++ text)) value

/-- One or more texts of a language with commas and any blanks between them. -/
inductive CommaList (item : Language α) : List Char → List α → Prop where
  | intro {text rest : List Char} {value : α} {values : List α}
      (head : item text value) (tail : Star (AfterComma item) rest values) :
      CommaList item (text ++ rest) (value :: values)

/-- A text of a language between parentheses, with any blanks inside them. -/
inductive Parenthesized (item : Language α) : List Char → α → Prop where
  | intro {before text after : List Char} {value : α}
      (blanksBefore : Blanks before) (inside : item text value)
      (blanksAfter : Blanks after) :
      Parenthesized item ('(' :: (before ++ (text ++ (after ++ [')'])))) value

/-- A text that begins with a character of a class. -/
def Begins (allowed : Char → Bool) (text : List Char) : Prop :=
  ∃ first rest, text = first :: rest ∧ allowed first = true

/-- A text that does not begin with a character of a class; it may be empty. -/
def Avoids (allowed : Char → Bool) (text : List Char) : Prop :=
  ∀ first rest, text = first :: rest → allowed first = false

/-- Whatever stands behind a text of the language, it can be told where it ends and its value. -/
def Definite (item : Language α) : Prop :=
  ∀ ⦃text other rest more : List Char⦄ ⦃value another : α⦄, item text value →
    item other another → text ++ rest = other ++ more → value = another ∧ rest = more

/-- The texts of a language are not empty and do not begin with a blank. -/
def Solid (item : Language α) : Prop :=
  ∀ ⦃text : List Char⦄ ⦃value : α⦄, item text value → Begins (!Scanner.isSpace ·) text

theorem blanks_nil : Blanks [] := by
  intro character member
  cases member

/-- One space is some blanks. -/
theorem someBlanks_space : SomeBlanks [' '] := by
  refine ⟨List.cons_ne_nil _ _, ?_⟩
  intro character member
  rw [List.mem_singleton.mp member]
  rfl

/-- A mark outside a class is none of its characters. -/
theorem isMark_of_outside {allowed : Char → Bool} {mark : Char}
    (outside : allowed mark = false) (character : Char) (inside : allowed character = true) :
    (character == mark) = false := by
  apply beq_eq_false_iff_ne.mpr
  rintro rfl
  rw [outside] at inside
  cases inside

@[simp]
theorem avoids_nil (allowed : Char → Bool) : Avoids allowed [] := by
  intro first rest equal
  cases equal

@[simp]
theorem avoids_cons (allowed : Char → Bool) (first : Char) (rest : List Char) :
    Avoids allowed (first :: rest) ↔ allowed first = false := by
  constructor
  · intro avoids
    exact avoids first rest rfl
  · intro outside other more equal
    cases equal
    exact outside

/-- What is left when a class has been passed over avoids it. -/
theorem avoids_dropWhile (allowed : Char → Bool) (text : List Char) :
    Avoids allowed (text.dropWhile allowed) := by
  intro first rest equal
  have kept := List.head?_dropWhile_not allowed text
  rw [equal] at kept
  simpa using kept

theorem Begins.append {allowed : Char → Bool} {text : List Char}
    (begins : Begins allowed text) (rest : List Char) :
    Begins allowed (text ++ rest) := by
  rcases begins with ⟨first, more, rfl, inside⟩
  exact ⟨first, more ++ rest, rfl, inside⟩

theorem Begins.ne_nil {allowed : Char → Bool} {text : List Char}
    (begins : Begins allowed text) : text ≠ [] := by
  rcases begins with ⟨first, more, rfl, inside⟩
  exact List.cons_ne_nil first more

/-- A text that begins with a character of one class avoids a disjoint class. -/
theorem Begins.avoids {allowed refused : Char → Bool} {text : List Char}
    (begins : Begins allowed text)
    (disjoint : ∀ character, allowed character = true → refused character = false) :
    Avoids refused text := by
  rcases begins with ⟨first, more, rfl, inside⟩
  exact (avoids_cons refused first more).mpr (disjoint first inside)

/-- What stands behind a blank is at the first text of a solid language. -/
theorem Solid.avoids {item : Language α} (solid : Solid item) {text : List Char}
    {value : α} (inside : item text value) (rest : List Char) :
    Avoids Scanner.isSpace (text ++ rest) :=
  ((solid inside).append rest).avoids fun character isSolid => by simpa using isSolid

/-- Blanks in front of a text that avoids a class without blanks avoid it too. -/
theorem Blanks.append_avoids {refused : Char → Bool} {blanks rest : List Char}
    (allBlank : Blanks blanks)
    (noBlank : ∀ character, Scanner.isSpace character = true → refused character = false)
    (avoids : Avoids refused rest) : Avoids refused (blanks ++ rest) := by
  cases blanks with
  | nil => exact avoids
  | cons first more =>
      exact (avoids_cons refused first (more ++ rest)).mpr
        (noBlank first (allBlank first List.mem_cons_self))

theorem SomeBlanks.begins {blanks : List Char} (some : SomeBlanks blanks) :
    Begins Scanner.isSpace blanks := by
  rcases some with ⟨nonempty, allBlank⟩
  cases blanks with
  | nil => exact (nonempty rfl).elim
  | cons first more => exact ⟨first, more, rfl, allBlank first List.mem_cons_self⟩

/-- Texts in a row can be cut where the list of their values is cut. -/
theorem Star.split {item : Language α} {front back : List α} :
    ∀ {text : List Char}, Star item text (front ++ back) →
      ∃ first second, text = first ++ second ∧ Star item first front ∧
        Star item second back := by
  induction front with
  | nil =>
      intro text star
      exact ⟨[], text, rfl, .nil, star⟩
  | cons value rest ih =>
      intro text star
      cases star with
      | cons head tail =>
          rcases ih tail with ⟨first, second, rfl, starFirst, starSecond⟩
          exact ⟨_, second, (List.append_assoc _ _ _).symm, .cons head starFirst,
            starSecond⟩

/-- A row of texts of one language is a row of another one that holds them all. -/
theorem Star.map {β : Type} {item : Language α} {other : Language β} {f : α → β}
    {text : List Char} {values : List α} (star : Star item text values)
    (holds : ∀ text, ∀ value ∈ values, item text value → other text (f value)) :
    Star other text (values.map f) := by
  induction star with
  | nil => exact .nil
  | cons head tail ih =>
      have member : ∀ text, ∀ value ∈ _, item text value → other text (f value) :=
        fun text value inside => holds text value (List.mem_cons_of_mem _ inside)
      exact .cons (holds _ _ List.mem_cons_self head) (ih member)

theorem Begins.append_ne_cons {mark : Char} {text : List Char} (begins : Begins (· != mark) text)
    (rest more : List Char) : text ++ rest ≠ mark :: more := by
  rcases begins with ⟨first, others, rfl, isOther⟩
  intro same
  obtain ⟨rfl, _⟩ := List.cons.inj same
  simp at isOther

theorem Definite.unique {item : Language α} (definite : Definite item) {text : List Char}
    {value another : α} (first : item text value) (second : item text another) :
    value = another :=
  (definite first second (rfl : text ++ [] = text ++ [])).1

/-- A row of texts is determined up to a mark with which none of them begins. -/
theorem Star.determined {item : Language α} (definite : Definite item) {mark : Char}
    (begins : ∀ text value, item text value → Begins (· != mark) text)
    {text other rest more : List Char} {values others : List α}
    (star : Star item text values) (second : Star item other others)
    (same : text ++ mark :: rest = other ++ mark :: more) : values = others ∧ rest = more := by
  induction star generalizing other others with
  | nil =>
      cases second with
      | nil => exact ⟨rfl, (List.cons.inj same).2⟩
      | cons head tail =>
          rw [List.append_assoc] at same
          exact ((begins _ _ head).append_ne_cons _ _ same.symm).elim
  | cons head tail ih =>
      cases second with
      | nil =>
          rw [List.append_assoc] at same
          exact ((begins _ _ head).append_ne_cons _ _ same).elim
      | cons otherHead otherTail =>
          rw [List.append_assoc, List.append_assoc] at same
          obtain ⟨rfl, behind⟩ := definite head otherHead same
          obtain ⟨rfl, sameRest⟩ := ih otherTail behind
          exact ⟨rfl, sameRest⟩

end Language

end ContentApi
