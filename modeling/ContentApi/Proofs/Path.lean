import ContentApi.Path
import ContentApi.Proofs.Scanner

/-!
# The notation of property paths

A path is a row of names with slashes between them, possibly with one slash in front.  The
scanner walks over it character by character and takes a slash only if a name follows, so it
reads the longest path there is.  Every path is therefore read to its end wherever neither a
name character nor a slash follows.
-/

namespace ContentApi.Path

open ContentApi.Language Scanner

/-- One or more name characters. -/
def IsName (text : List Char) : Prop :=
  text ≠ [] ∧ ∀ character ∈ text, isNameCharacter character = true

/-- Names with slashes between them. -/
inductive Names : List Char → Prop where
  | last {name : List Char} (isName : IsName name) : Names name
  | more {name rest : List Char} (isName : IsName name) (others : Names rest) :
      Names (name ++ '/' :: rest)

/-- Names with slashes between them, and possibly one in front. -/
inductive IsPath : List Char → Prop where
  | relative {names : List Char} (areNames : Names names) : IsPath names
  | rooted {names : List Char} (areNames : Names names) : IsPath ('/' :: names)

/-- A path stands for itself. -/
def Spells (text : List Char) (path : String) : Prop :=
  text = path.toList ∧ IsPath text

/-- A character of a path. -/
def isPathCharacter (character : Char) : Bool :=
  isNameCharacter character || character == '/'

theorem isPathCharacter_of_name {character : Char}
    (isName : isNameCharacter character = true) : isPathCharacter character = true := by
  rw [isPathCharacter, isName, Bool.true_or]

/-- What becomes a small letter is a letter. -/
theorem isAlpha_of_toLower {character : Char} (letter : character.toLower.isLower = true) :
    character.isAlpha = true := by
  show (character.isUpper || character.isLower) = true
  cases upper : character.isUpper with
  | true => rfl
  | false =>
      have unchanged : character.toLower = character := by
        apply dif_neg
        rintro ⟨above, below⟩
        have isUpper : character.isUpper = true := decide_eq_true ⟨above, below⟩
        rw [isUpper] at upper
        cases upper
      rw [← unchanged, letter, Bool.or_true]

/-- Letters are ASCII characters. -/
theorem toNat_of_isAlpha {character : Char} (letter : character.isAlpha = true) :
    character.toNat < 0x80 := by
  have upperBound : 'Z'.val.toNat = 90 := rfl
  have lowerBound : 'z'.val.toNat = 122 := rfl
  show character.val.toNat < 128
  rcases Bool.or_eq_true_iff.mp letter with upper | lower
  · have below := UInt32.le_iff_toNat_le.mp (of_decide_eq_true upper).2
    omega
  · have below := UInt32.le_iff_toNat_le.mp
      (of_decide_eq_true (Bool.and_eq_true_iff.mp lower).2)
    omega

/-- The letters of keywords are name characters. -/
theorem isNameCharacter_of_toLower {character : Char}
    (letter : character.toLower.isLower = true) : isNameCharacter character = true := by
  have alphabetic := isAlpha_of_toLower letter
  rw [isNameCharacter, Text.isAlphanumeric_of_ascii (toNat_of_isAlpha alphabetic),
    Char.isAlphanum, alphabetic]
  rfl

/-! ## Names -/

theorem IsName.begins {name : List Char} (isName : IsName name) :
    Begins isNameCharacter name := by
  rcases isName with ⟨nonempty, all⟩
  cases name with
  | nil => exact (nonempty rfl).elim
  | cons first rest => exact ⟨first, rest, rfl, all first List.mem_cons_self⟩

theorem IsName.append {name more : List Char} (isName : IsName name)
    (all : ∀ character ∈ more, isNameCharacter character = true) :
    IsName (name ++ more) := by
  refine ⟨List.append_ne_nil_of_left_ne_nil isName.1 more, ?_⟩
  intro character member
  rcases List.mem_append.mp member with inside | inside
  · exact isName.2 character inside
  · exact all character inside

theorem isName_singleton {character : Char} (inside : isNameCharacter character = true) :
    IsName [character] := by
  refine ⟨List.cons_ne_nil _ _, ?_⟩
  intro other member
  rw [List.mem_singleton.mp member]
  exact inside

theorem Names.begins {names : List Char} (areNames : Names names) :
    Begins isNameCharacter names := by
  cases areNames with
  | last isName => exact isName.begins
  | more isName others => exact isName.begins.append _

theorem IsPath.begins {path : List Char} (isPath : IsPath path) :
    Begins isPathCharacter path := by
  cases isPath with
  | relative areNames =>
      rcases areNames.begins with ⟨first, rest, rfl, inside⟩
      exact ⟨first, rest, rfl, isPathCharacter_of_name inside⟩
  | rooted areNames => exact ⟨'/', _, rfl, rfl⟩

theorem Names.all_isPathCharacter {names : List Char} (areNames : Names names) :
    ∀ character ∈ names, isPathCharacter character = true := by
  induction areNames with
  | last isName =>
      intro character member
      exact isPathCharacter_of_name (isName.2 character member)
  | more isName others ih =>
      intro character member
      rcases List.mem_append.mp member with inside | inside
      · exact isPathCharacter_of_name (isName.2 character inside)
      · rcases List.mem_cons.mp inside with rfl | inside
        · rfl
        · exact ih character inside

theorem IsPath.all_isPathCharacter {path : List Char} (isPath : IsPath path) :
    ∀ character ∈ path, isPathCharacter character = true := by
  cases isPath with
  | relative areNames => exact areNames.all_isPathCharacter
  | rooted areNames =>
      intro character member
      rcases List.mem_cons.mp member with rfl | inside
      · rfl
      · exact areNames.all_isPathCharacter character inside

theorem not_path_of_space {character : Char} (blank : isSpace character = true) :
    isPathCharacter character = false := by
  simp only [isSpace, Bool.or_eq_true, beq_iff_eq] at blank
  rcases blank with ((rfl | rfl) | rfl) | rfl <;> rfl

/-! ## Reading paths -/

/--
What `continuation` takes belongs to the path: it is names by itself if it begins with a
name character, and it continues any name in front of it.
-/
theorem continuation_sound (text : List Char) :
    text = (continuation text).1 ++ (continuation text).2 ∧
      (∀ name, IsName name → Names (name ++ (continuation text).1)) ∧
      (Begins isNameCharacter text → Names (continuation text).1) := by
  induction text with
  | nil =>
      refine ⟨rfl, ?_, ?_⟩
      · intro name isName
        rw [continuation, List.append_nil]
        exact .last isName
      · intro begins
        exact (begins.ne_nil rfl).elim
  | cons character rest ih =>
      rcases ih with ⟨whole, continues, starts⟩
      rw [continuation]
      split
      · rename_i taken
        refine ⟨?_, ?_, ?_⟩
        · rw [List.cons_append, ← whole]
        · intro name isName
          rcases Bool.or_eq_true _ _ ▸ taken with inside | slash
          · have longer : IsName (name ++ [character]) :=
              isName.append (isName_singleton inside).2
            have names := continues _ longer
            rwa [List.append_assoc] at names
          · rcases Bool.and_eq_true _ _ ▸ slash with ⟨isSlash, follows⟩
            obtain rfl := beq_iff_eq.mp isSlash
            refine .more isName (starts ?_)
            cases rest with
            | nil => cases follows
            | cons first more => exact ⟨first, more, rfl, follows⟩
        · rintro ⟨first, more, equal, inside⟩
          cases equal
          exact continues [character] (isName_singleton inside)
      · rename_i notTaken
        refine ⟨rfl, ?_, ?_⟩
        · intro name isName
          rw [List.append_nil]
          exact .last isName
        · rintro ⟨first, more, equal, inside⟩
          cases equal
          rw [inside, Bool.true_or] at notTaken
          exact (notTaken rfl).elim

theorem continuation_of_avoids {rest : List Char} (avoids : Avoids isPathCharacter rest) :
    continuation rest = ([], rest) := by
  cases rest with
  | nil => rfl
  | cons first more =>
      have outside := (avoids_cons isPathCharacter first more).mp avoids
      rcases Bool.or_eq_false_iff.mp outside with ⟨noName, noSlash⟩
      rw [continuation, noName, noSlash]
      rfl

theorem continuation_name {name : List Char}
    (all : ∀ character ∈ name, isNameCharacter character = true) (rest : List Char) :
    continuation (name ++ rest) =
      (name ++ (continuation rest).1, (continuation rest).2) := by
  induction name with
  | nil => rfl
  | cons first more ih =>
      have inside : isNameCharacter first = true := all first List.mem_cons_self
      rw [List.cons_append, continuation, inside,
        ih fun character member => all character (List.mem_cons_of_mem _ member)]
      rfl

/-- A row of names is taken to its end. -/
theorem continuation_names {names rest : List Char} (areNames : Names names)
    (avoids : Avoids isPathCharacter rest) :
    continuation (names ++ rest) = (names, rest) := by
  induction areNames with
  | last isName =>
      rw [continuation_name isName.2, continuation_of_avoids avoids, List.append_nil]
  | @more name others isName areOthers ih =>
      rcases areOthers.begins with ⟨first, more, rfl, inside⟩
      rw [List.append_assoc, continuation_name isName.2, List.cons_append, continuation]
      simp only [List.cons_append] at ih
      simp [inside, ih]

theorem scanNames_sound : ∀ ⦃input rest names : List Char⦄,
    scanNames input = .ok (names, rest) → input = names ++ rest ∧ Names names := by
  intro input rest names scanned
  cases input with
  | nil => cases scanned
  | cons first more =>
      rw [scanNames] at scanned
      split at scanned
      · rename_i inside
        rcases continuation_sound (first :: more) with ⟨whole, -, starts⟩
        injection scanned with same
        rw [same] at whole starts
        exact ⟨whole, starts ⟨first, more, rfl, inside⟩⟩
      · cases scanned

theorem scanNames_complete {names rest : List Char} (areNames : Names names)
    (avoids : Avoids isPathCharacter rest) :
    scanNames (names ++ rest) = .ok (names, rest) := by
  rcases areNames.begins with ⟨first, more, rfl, inside⟩
  have taken := continuation_names areNames avoids
  rw [List.cons_append] at taken ⊢
  rw [scanNames, if_pos inside, taken]

/-- What the scanner of paths passes over is a path. -/
theorem scan_sound : Sound scan Spells := by
  intro input rest path scanned
  rw [scan.eq_def] at scanned
  split at scanned
  · rcases map_eq_ok_iff.mp scanned with ⟨names, behind, inner, equal⟩
    cases equal
    rcases scanNames_sound inner with ⟨rfl, areNames⟩
    refine ⟨'/' :: names, rfl, ?_, .rooted areNames⟩
    rw [String.toList_ofList]
  · rcases map_eq_ok_iff.mp scanned with ⟨names, behind, inner, equal⟩
    cases equal
    rcases scanNames_sound inner with ⟨rfl, areNames⟩
    refine ⟨names, rfl, ?_, .relative areNames⟩
    rw [String.toList_ofList]

/-- A path is passed over to its end if no more characters of paths follow. -/
theorem scan_complete : Complete scan Spells (Avoids isPathCharacter) := by
  intro text rest path spells avoids
  rcases spells with ⟨equal, isPath⟩
  have value : path = String.ofList text := by
    rw [equal, String.ofList_toList]
  subst value
  clear equal
  cases isPath with
  | rooted areNames =>
      rw [List.cons_append, scan]
      exact map_eq_ok_iff.mpr ⟨_, rest, scanNames_complete areNames avoids, rfl⟩
  | relative areNames =>
      have noSlash : ∀ more, text ++ rest ≠ '/' :: more := by
        intro more equal
        rcases areNames.begins.append rest with ⟨first, others, same, inside⟩
        rw [same] at equal
        cases equal
        cases inside
      rw [scan.eq_2 _ noSlash]
      exact map_eq_ok_iff.mpr ⟨text, rest, scanNames_complete areNames avoids, rfl⟩

theorem scanNames_stopped {first : Char} {more rest : List Char}
    (stopped : scanNames (first :: more) = .error rest) : isNameCharacter first = false := by
  rw [scanNames] at stopped
  split at stopped
  · cases stopped
  · rename_i outside
    exact eq_false_of_ne_true outside

/-- Where a name begins, a path does. -/
theorem avoids_name_of_refuses {input : List Char} (refuses : Refuses scan input) :
    Avoids isNameCharacter input := by
  rintro first more rfl
  rcases refuses with ⟨rest, stopped⟩
  rw [scan.eq_def] at stopped
  split at stopped
  · rename_i slash
    cases slash
    rfl
  · exact scanNames_stopped (map_eq_error_iff.mp stopped)

theorem spells_solid : Solid Spells := by
  intro text path spells
  rcases spells.2.begins with ⟨first, rest, rfl, inside⟩
  refine ⟨first, rest, rfl, ?_⟩
  cases blank : isSpace first with
  | false => simp [blank]
  | true =>
      rw [not_path_of_space blank] at inside
      cases inside

end ContentApi.Path
