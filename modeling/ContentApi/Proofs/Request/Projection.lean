import ContentApi.Proofs.Request.Paths
import ContentApi.Proofs.Request.Reading
import ContentApi.Proofs.Text.Listed

/-!
# Projections of requests

The projection of a request is told by the names that one value lists and by the paths of its
`include` and `select` clauses.  The two are written in different notations, which agree on what
a name is as far as it matters: a path that a clause has been compiled to begins with a name,
behind one slash at most (`exists_topName`).  So a request that lists a name shows the listed
names and the first names of all its paths, and no others (`projection_ofRequest`).
-/

namespace ContentApi

open ContentApi.Language

/-! ## Sets of names -/

namespace NameSet

theorem isEmpty_ofList (names : List String) : (ofList names).isEmpty = names.isEmpty := by
  cases names with
  | nil => rfl
  | cons name rest =>
      have found : (ofList (name :: rest)).contains name = true := by
        simp [contains_ofList]
      cases empty : (ofList (name :: rest)).isEmpty with
      | false => rfl
      | true =>
          rw [Dictionary.isEmpty, List.isEmpty_iff] at empty
          rw [Dictionary.contains, Dictionary.get?, empty] at found
          cases found

theorem contains_foldl_add {added : List String} {names : NameSet} {wanted : String} :
    (added.foldl add names).contains wanted = true ↔
      wanted ∈ added ∨ names.contains wanted = true := by
  induction added generalizing names with
  | nil => simp
  | cons name rest ih =>
      rw [List.foldl_cons, ih, contains_add, Bool.or_eq_true, decide_eq_true_eq, List.mem_cons,
        or_left_comm, or_assoc, eq_comm]

end NameSet

/-! ## First names of paths -/

namespace Path

/-- A name stands in front of the first slash of a path, a leading slash aside. -/
structure IsTopName (path name : String) : Prop where
  nonempty : name.toList ≠ []
  noSlash : '/' ∉ name.toList
  begins : ∃ slash rest, path.toList = slash ++ (name.toList ++ rest) ∧
    (slash = [] ∨ slash = ['/']) ∧ (rest = [] ∨ ∃ more, rest = '/' :: more)

theorem takeWhile_noSlash {name rest : List Char} (noSlash : '/' ∉ name)
    (ends : rest = [] ∨ ∃ more, rest = '/' :: more) :
    (name ++ rest).takeWhile (· != '/') = name := by
  have inside : ∀ character ∈ name, (character != '/') = true := by
    intro character member
    rw [bne_iff_ne]
    rintro rfl
    exact noSlash member
  rw [List.takeWhile_append_of_pos inside]
  rcases ends with rfl | ⟨more, rfl⟩ <;> simp

/-- A path has at most one first name. -/
theorem IsTopName.topName_eq {path name : String} (top : IsTopName path name) :
    topName path = name := by
  rcases top with ⟨nonempty, noSlash, slash, rest, whole, isSlash, ends⟩
  have kept : (name.toList ++ rest).dropWhile (· == '/') = name.toList ++ rest := by
    cases letters : name.toList with
    | nil => exact (nonempty letters).elim
    | cons first more =>
        rw [letters, List.mem_cons, not_or] at noSlash
        exact List.dropWhile_cons_of_neg (by simpa using Ne.symm noSlash.1)
  have passed : path.toList.dropWhile (· == '/') = name.toList ++ rest := by
    rw [whole]
    rcases isSlash with rfl | rfl
    · exact kept
    · exact kept
  rw [topName, passed, takeWhile_noSlash noSlash ends, String.ofList_toList]

theorem Names.exists_name {names : List Char} (areNames : Names names) :
    ∃ name rest, names = name ++ rest ∧ IsName name ∧ (rest = [] ∨ ∃ more, rest = '/' :: more) := by
  cases areNames with
  | last isName => exact ⟨names, [], (List.append_nil _).symm, isName, Or.inl rfl⟩
  | more isName others => exact ⟨_, _, rfl, isName, Or.inr ⟨_, rfl⟩⟩

/-- A path begins with a name, behind one slash at most. -/
theorem exists_topName {path : String} (isPath : IsPath path.toList) :
    ∃ name, IsTopName path name := by
  have split : ∃ slash names, path.toList = slash ++ names ∧ (slash = [] ∨ slash = ['/']) ∧
      Names names := by
    generalize path.toList = text at isPath
    cases isPath with
    | relative areNames => exact ⟨[], _, rfl, Or.inl rfl, areNames⟩
    | rooted areNames => exact ⟨['/'], _, rfl, Or.inr rfl, areNames⟩
  rcases split with ⟨slash, names, whole, isSlash, areNames⟩
  rcases areNames.exists_name with ⟨name, rest, rfl, isName, ends⟩
  refine ⟨String.ofList name, ?_, ?_, slash, rest, ?_, isSlash, ends⟩
  all_goals rw [String.toList_ofList]
  · exact isName.1
  · intro member
    cases isName.2 '/' member
  · exact whole

theorem isPath_of_lists {clause : String} {paths : List String} (lists : Lists clause paths) :
    ∀ path ∈ paths, IsPath path.toList := by
  rcases lists with ⟨first, others, -, rfl⟩
  intro path member
  rcases List.mem_map.mp member with ⟨placed, -, rfl⟩
  exact placed.isPath

theorem isPath_of_readPaths {parameter : String} {value : Option String} {paths : List String}
    (read : Context.readPaths parameter value = .ok paths) :
    ∀ path ∈ paths, IsPath path.toList := by
  cases value with
  | none =>
      cases read
      intro path member
      cases member
  | some clause =>
      exact isPath_of_lists (compile_iff_listed.mp (Context.readPaths_eq_ok_iff.mp read))

end Path

/-! ## Projections of values -/

namespace Projection

open Text

/-- The names that a value lists, none if it is absent. -/
inductive ListsNames : Option String → List String → Prop where
  | absent : ListsNames none []
  | present {text : String} {names : List String} (row : Row Named text.toList names) :
      ListsNames (some text) names

variable {fields : Option String} {listed selected : List String}

theorem exists_listsNames (fields : Option String) : ∃ names, ListsNames fields names := by
  cases fields with
  | none => exact ⟨[], .absent⟩
  | some text =>
      rcases exists_row text.toList with ⟨names, row⟩
      exact ⟨names, .present row⟩

theorem ofFields_of_unlisted (unlisted : ListsNames fields []) :
    ofFields fields selected = .everything := by
  cases unlisted with
  | absent => rfl
  | present row =>
      rw [ofFields, listedNames, row.tokens_eq]
      rfl

/-- Every path of a list has a first name, which is what its characters say. -/
theorem mem_topNames (arePaths : ∀ path ∈ selected, Path.IsPath path.toList) {name : String} :
    name ∈ (selected.map Path.topName).filter (!·.isEmpty) ↔
      ∃ path ∈ selected, Path.IsTopName path name := by
  rw [List.mem_filter, List.mem_map]
  constructor
  · rintro ⟨⟨path, member, rfl⟩, -⟩
    rcases Path.exists_topName (arePaths path member) with ⟨name, top⟩
    refine ⟨path, member, ?_⟩
    rwa [top.topName_eq]
  · rintro ⟨path, member, top⟩
    refine ⟨⟨path, member, top.topName_eq⟩, ?_⟩
    have nonempty := top.nonempty
    simpa using nonempty

theorem ofFields_of_listed (lists : ListsNames fields listed) (nonempty : listed ≠ [])
    (arePaths : ∀ path ∈ selected, Path.IsPath path.toList) :
    ∃ names, ofFields fields selected = .only names ∧ ∀ name,
      names.contains name = true ↔
        name ∈ listed ∨ ∃ path ∈ selected, Path.IsTopName path name := by
  cases lists with
  | absent => exact (nonempty rfl).elim
  | present row =>
      have namesListed : listed.isEmpty = false := by simpa using nonempty
      refine ⟨((selected.map Path.topName).filter (!·.isEmpty)).foldl NameSet.add
        (.ofList listed), ?_, ?_⟩
      · rw [ofFields, listedNames, row.tokens_eq]
        simp only [NameSet.isEmpty_ofList, namesListed]
        rfl
      · intro name
        rw [NameSet.contains_foldl_add, mem_topNames arePaths, NameSet.contains_ofList,
          List.contains_iff_mem, or_comm]

theorem allows_ofFields (lists : ListsNames fields listed)
    (arePaths : ∀ path ∈ selected, Path.IsPath path.toList) {name : String} :
    (ofFields fields selected).allows name = true ↔
      listed = [] ∨ name ∈ listed ∨ ∃ path ∈ selected, Path.IsTopName path name := by
  by_cases empty : listed = []
  · subst empty
    rw [ofFields_of_unlisted lists]
    simp [allows]
  · rcases ofFields_of_listed lists empty arePaths with ⟨names, projection, contains⟩
    rw [projection, allows, contains]
    simp [empty]

end Projection

/-! ## Projections of requests -/

namespace Parameters

theorem first?_add (parameters : Parameters) (name value wanted : String) :
    (parameters.add name value).first? wanted =
      if name = wanted then (parameters.first? wanted).or (some value)
      else parameters.first? wanted := by
  rw [first?, values_add]
  split
  · rw [List.head?_append]
    rfl
  · rfl

end Parameters

namespace Context

variable {entityId : Option String} {request : Parameters} {context : Context}

/-- A value that is added to a clause is read only if there was none, so no path is lost. -/
theorem readPaths_subset_add {parameter name value : String} {paths more : List String}
    (read : readPaths parameter (request.first? parameter) = .ok paths)
    (readAdded : readPaths parameter ((request.add name value).first? parameter) = .ok more) :
    paths ⊆ more := by
  rw [Parameters.first?_add] at readAdded
  cases before : request.first? parameter with
  | none =>
      rw [before] at read
      cases read
      exact List.nil_subset more
  | some clause =>
      rw [before] at read readAdded
      rw [Option.some_or, ite_self, read] at readAdded
      cases readAdded
      exact List.Subset.refl paths

theorem fieldsOf_add {name value : String} (isClause : name ∈ ["include", "select"]) :
    fieldsOf (request.add name value) = fieldsOf request := by
  have other : name ≠ "fields" ∧ name ≠ "properties" := by
    simp only [List.mem_cons, List.not_mem_nil, or_false] at isClause
    rcases isClause with rfl | rfl <;> decide
  rw [fieldsOf, Parameters.first?_add, Parameters.first?_add, if_neg other.1, if_neg other.2,
    fieldsOf]

/-- The projection of a request, by the names that it lists and the paths that it names. -/
structure ProjectsListed (request : Parameters) (context : Context) : Prop where
  included : readPaths "include" (request.first? "include") = .ok context.included
  selected : readPaths "select" (request.first? "select") = .ok context.selected
  lists : ∃ listed, Projection.ListsNames (fieldsOf request) listed
  /-- Without a listed name everything is shown, whatever the paths are. -/
  everything : Projection.ListsNames (fieldsOf request) [] → context.projection = .everything
  only : ∀ listed, Projection.ListsNames (fieldsOf request) listed → listed ≠ [] →
    ∃ names, context.projection = .only names ∧ ∀ name,
      names.contains name = true ↔ name ∈ listed ∨
        ∃ path ∈ context.included ++ context.selected, Path.IsTopName path name
  topNamed : ∀ path ∈ context.included ++ context.selected, ∃ name, Path.IsTopName path name
  shown : ∀ path ∈ context.included ++ context.selected, ∀ name, Path.IsTopName path name →
    context.projection.allows name = true
  /-- With more paths a request that lists the same names shows no less. -/
  widened : ∀ otherId other wider, ofRequest otherId other = .ok wider →
    fieldsOf other = fieldsOf request → context.included ⊆ wider.included →
    context.selected ⊆ wider.selected →
    ∀ name, context.projection.allows name = true → wider.projection.allows name = true
  /-- So nothing is lost if a value of a clause is added. -/
  added : ∀ parameter ∈ ["include", "select"], ∀ otherId value wider,
    ofRequest otherId (request.add parameter value) = .ok wider →
    ∀ name, context.projection.allows name = true → wider.projection.allows name = true

theorem arePaths_ofRequest (read : ofRequest entityId request = .ok context) :
    ∀ path ∈ context.included ++ context.selected, Path.IsPath path.toList := by
  intro path member
  rcases List.mem_append.mp member with inside | inside
  · exact Path.isPath_of_readPaths (readFrom read).included path inside
  · exact Path.isPath_of_readPaths (readFrom read).selected path inside

theorem allows_ofRequest (read : ofRequest entityId request = .ok context) {listed : List String}
    (lists : Projection.ListsNames (fieldsOf request) listed) {name : String} :
    context.projection.allows name = true ↔ listed = [] ∨ name ∈ listed ∨
      ∃ path ∈ context.included ++ context.selected, Path.IsTopName path name := by
  rw [(readFrom read).projection]
  exact Projection.allows_ofFields lists (arePaths_ofRequest read)

theorem allows_of_subset (read : ofRequest entityId request = .ok context)
    {otherId : Option String} {other : Parameters} {wider : Context}
    (readOther : ofRequest otherId other = .ok wider) (sameFields : fieldsOf other = fieldsOf request)
    (moreIncluded : context.included ⊆ wider.included)
    (moreSelected : context.selected ⊆ wider.selected) {name : String}
    (allowed : context.projection.allows name = true) : wider.projection.allows name = true := by
  rcases Projection.exists_listsNames (fieldsOf request) with ⟨listed, lists⟩
  have otherLists : Projection.ListsNames (fieldsOf other) listed := sameFields ▸ lists
  rw [allows_ofRequest read lists] at allowed
  rw [allows_ofRequest readOther otherLists]
  rcases allowed with unlisted | named | ⟨path, member, top⟩
  · exact Or.inl unlisted
  · exact Or.inr (Or.inl named)
  · refine Or.inr (Or.inr ⟨path, ?_, top⟩)
    rcases List.mem_append.mp member with inside | inside
    · exact List.mem_append_left _ (moreIncluded inside)
    · exact List.mem_append_right _ (moreSelected inside)

/--
A request whose `fields` value, or `properties` value if there is no other, lists a name shows
the listed names and the first names of its `include` and `select` paths, and nothing else.
Every other request shows everything.  So further paths never hide what was shown.
-/
theorem projection_ofRequest (read : ofRequest entityId request = .ok context) :
    ProjectsListed request context := by
  have reads := readFrom read
  constructor
  case included => exact reads.included
  case selected => exact reads.selected
  case lists => exact Projection.exists_listsNames _
  case everything =>
    intro unlisted
    rw [reads.projection, Projection.ofFields_of_unlisted unlisted]
  case only =>
    intro listed lists nonempty
    rw [reads.projection]
    exact Projection.ofFields_of_listed lists nonempty (arePaths_ofRequest read)
  case topNamed =>
    intro path member
    exact Path.exists_topName (arePaths_ofRequest read path member)
  case shown =>
    intro path member name top
    rcases Projection.exists_listsNames (fieldsOf request) with ⟨listed, lists⟩
    exact (allows_ofRequest read lists).mpr (Or.inr (Or.inr ⟨path, member, top⟩))
  case widened =>
    intro otherId other wider readOther sameFields moreIncluded moreSelected name
    exact allows_of_subset read readOther sameFields moreIncluded moreSelected
  case added =>
    intro parameter isClause otherId value wider readAdded name
    have readsAdded := readFrom readAdded
    exact allows_of_subset read readAdded (fieldsOf_add isClause)
      (readPaths_subset_add reads.included readsAdded.included)
      (readPaths_subset_add reads.selected readsAdded.selected)

/-- A request that lists one name, beside blanks, and that names three paths. -/
def titledRequest : Parameters :=
  .ofPairs [("properties", "name"), ("fields", " title , ,"), ("include", "/owner/name, title"),
    ("select", "site")]

/-- The names of three paths are shown beside the listed one, and `properties` does not count. -/
theorem projection_ofRequest_titled :
    ∃ context, ofRequest none titledRequest = .ok context ∧
      ProjectsListed titledRequest context ∧
      context.projection = .only (.ofList ["owner", "site", "title"]) := by
  have read : ofRequest none titledRequest = .ok _ := rfl
  exact ⟨_, read, projection_ofRequest read, rfl⟩

end Context

end ContentApi
