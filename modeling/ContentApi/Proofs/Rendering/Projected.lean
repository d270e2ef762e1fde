import ContentApi.Expansion.Render
import ContentApi.Proofs.Fields
import Mathlib.Logic.Relation

/-!
# Bodies as projections

What a body holds is described by names (`IsShownAs`): an entity shows a property exactly if
its projection allows the name, and then what is embedded under the name, or else its own
property.  The description is the same at every level, with the projection of each entity
instead of that of the one around it.

So nothing that a projection hides has any influence on the body (`render_projects`).
-/

namespace ContentApi

/-! ## What a node is shown as -/

namespace Answer

/-- An answer that is passed on is shown as its value, its entities, or a list of these. -/
inductive IsPassedAs : Answer → Json → Prop where
  | scalar (value : Json) : IsPassedAs (.scalar value) value
  | sequence {items : List Answer} {bodies : List Json}
      (each : List.Forall₂ IsPassedAs items bodies) :
      IsPassedAs (.sequence items) (.array bodies)
  | page {info : PageInfo} {items : List Answer} {bodies : List Json}
      (each : List.Forall₂ IsPassedAs items bodies) :
      IsPassedAs (.page info items) (.array bodies)
  | entity {root : Entity} {body : Json} (shown : root.json = .ok body) :
      IsPassedAs (.entity root) body

end Answer

/-- What is said of a page with so many entries, in ascending order of name. -/
def PageInfo.described (info : PageInfo) (count : Nat) : List (String × Json) :=
  [("count", .natural count), ("hasMoreItems", .boolean info.hasMore),
      ("maxItems", .natural info.window.limit), ("skipCount", .natural info.window.skip)] ++
    (info.total.map fun total => ("totalItems", .natural total)).toList

namespace Node

mutual

/-- A node is shown as a value. -/
inductive IsShownAs : Node → Json → Prop where
  | scalar (value : Json) : IsShownAs (.scalar value) value
  | sequence {items : List Answer} {bodies : List Json}
      (each : List.Forall₂ Answer.IsPassedAs items bodies) :
      IsShownAs (.sequence items) (.array bodies)
  | page {info : PageInfo} {items : List Node} {entries : List Json} {source : Option Json}
      (each : List.Forall₂ IsShownAs items entries)
      (unfiltered : Option.Rel (fun entity body => entity.json = .ok body) info.source source) :
      IsShownAs (.page info items)
        (.object [("list",
          .object ([("entries", .array entries),
              ("pagination", .object (info.described items.length))] ++
            (source.map fun body => ("source", body)).toList))])
  | inlined {root : Entity} {projection : Projection}
      {embedded related : List (String × Node)} {omitted : List Omission} {entity : Json}
      (shown : HasProperties root projection embedded entity) :
      IsShownAs (.entity root projection embedded related true omitted) entity
  | alone {root : Entity} {projection : Projection} {embedded : List (String × Node)}
      {omitted : List Omission} {entity : Json}
      (shown : HasProperties root projection embedded entity) :
      IsShownAs (.entity root projection embedded [] false omitted)
        (.object [("entry", entity)])
  | accompanied {root : Entity} {projection : Projection}
      {embedded related : List (String × Node)} {omitted : List Omission} {entity : Json}
      {relations : List (String × Json)} (nonempty : related ≠ [])
      (shown : HasProperties root projection embedded entity)
      (beside : HasRelations related relations) :
      IsShownAs (.entity root projection embedded related false omitted)
        (.object [("entry", entity), ("relations", .object relations)])

/-- An entity with its projection, and with what is embedded in it, is shown as a value. -/
inductive HasProperties : Entity → Projection → List (String × Node) → Json → Prop where
  | value {root : Entity} {projection : Projection} {embedded : List (String × Node)}
      {body : Json} (own : root.json = .ok body)
      (noObject : ∀ fields, body ≠ .object fields) :
      HasProperties root projection embedded body
  | object {root : Entity} {projection : Projection} {embedded : List (String × Node)}
      {own fields : List (String × Json)} {values : String → Json}
      (isOwn : root.json = .ok (.object own))
      (inside : ∀ name node, projection.allows name = true →
        (Dictionary.ofList embedded).get? name = some node → IsShownAs node (values name))
      (exactly : ∀ name, Fields.get? name fields =
        if projection.allows name then
          (((Dictionary.ofList embedded).get? name).map fun _ => values name).or
            (Fields.get? name own)
        else none)
      (ascends : Fields.Ascending own → Fields.Ascending fields) :
      HasProperties root projection embedded (.object fields)

/-- What is related to an entity is shown under its names, whatever the projection is. -/
inductive HasRelations : List (String × Node) → List (String × Json) → Prop where
  | intro {related : List (String × Node)} {fields : List (String × Json)}
      {values : String → Json}
      (inside : ∀ name node,
        (Dictionary.ofList related).get? name = some node → IsShownAs node (values name))
      (exactly : ∀ name, Fields.get? name fields =
        ((Dictionary.ofList related).get? name).map fun _ => values name)
      (ascends : Fields.Ascending fields) : HasRelations related fields

end

/-! ## What a projection hides -/

/-- Two nodes differ in one place only, in what the projection there hides. -/
inductive DiffersUnseen : Node → Node → Prop where
  | properties {root other : Entity} {projection : Projection}
      {embedded related : List (String × Node)} {isInlined : Bool} {omitted : List Omission}
      {front hidden replaced back : List (String × Json)}
      (own : root.json = .ok (.object (front ++ (hidden ++ back))))
      (others : other.json = .ok (.object (front ++ (replaced ++ back))))
      (areHidden : ∀ field ∈ hidden ++ replaced, projection.allows field.1 = false) :
      DiffersUnseen (.entity root projection embedded related isInlined omitted)
        (.entity other projection embedded related isInlined omitted)
  | branches {root : Entity} {projection : Projection} {related : List (String × Node)}
      {isInlined : Bool} {omitted : List Omission}
      {front hidden replaced back : List (String × Node)}
      (areHidden : ∀ field ∈ hidden ++ replaced, projection.allows field.1 = false) :
      DiffersUnseen
        (.entity root projection (front ++ (hidden ++ back)) related isInlined omitted)
        (.entity root projection (front ++ (replaced ++ back)) related isInlined omitted)
  | item {info : PageInfo} {front back : List Node} {node other : Node}
      (inside : DiffersUnseen node other) :
      DiffersUnseen (.page info (front ++ node :: back)) (.page info (front ++ other :: back))
  | embedded {root : Entity} {projection : Projection} {related : List (String × Node)}
      {isInlined : Bool} {omitted : List Omission} {front back : List (String × Node)}
      {name : String} {node other : Node} (inside : DiffersUnseen node other) :
      DiffersUnseen
        (.entity root projection (front ++ (name, node) :: back) related isInlined omitted)
        (.entity root projection (front ++ (name, other) :: back) related isInlined omitted)
  | related {root : Entity} {projection : Projection} {embedded : List (String × Node)}
      {isInlined : Bool} {omitted : List Omission} {front back : List (String × Node)}
      {name : String} {node other : Node} (inside : DiffersUnseen node other) :
      DiffersUnseen
        (.entity root projection embedded (front ++ (name, node) :: back) isInlined omitted)
        (.entity root projection embedded (front ++ (name, other) :: back) isInlined omitted)

end Node

/-! ## What programs yield -/

/-- What a program yields is as wanted; it may also fail. -/
def Yields {α : Type} (wanted : α → Prop) : Except Json.WriteError α → Prop
  | .ok value => wanted value
  | .error _ => True

namespace Yields

variable {α β : Type} {wanted : α → Prop} {others : β → Prop}
  {program : Except Json.WriteError α}

theorem pure {value : α} (holds : wanted value) : Yields wanted (.ok value) :=
  holds

/-- Showing one entity yields its value. -/
theorem json (entity : Entity) : Yields (fun body => entity.json = .ok body) entity.json := by
  cases shown : entity.json with
  | error error => trivial
  | ok body => rfl

theorem bind {next : α → Except Json.WriteError β} (first : Yields wanted program)
    (continues : ∀ value, wanted value → Yields others (next value)) :
    Yields others (program >>= next) := by
  cases program with
  | error error => trivial
  | ok value => exact continues value first

theorem map {f : α → β} (yields : Yields wanted program)
    (turns : ∀ value, wanted value → others (f value)) : Yields others (f <$> program) := by
  cases program with
  | error error => trivial
  | ok value => exact turns value yields

end Yields

/-! ## Rendering -/

mutual

theorem Answer.yields_raw : ∀ answer : Answer, Yields (IsPassedAs answer) answer.raw
  | .scalar value => .pure (.scalar value)
  | .sequence items => by
      rw [raw]
      apply (yields_rawItems items).map
      intro bodies each
      exact .sequence each
  | .page info items => by
      rw [raw]
      apply (yields_rawItems items).map
      intro bodies each
      exact .page each
  | .entity root => by
      rw [raw]
      cases shown : root.json with
      | error error => trivial
      | ok body => exact .entity shown

theorem Answer.yields_rawItems :
    ∀ items : List Answer, Yields (List.Forall₂ IsPassedAs items) (rawItems items)
  | [] => .pure .nil
  | item :: rest => by
      rw [rawItems]
      apply (yields_raw item).bind
      intro body passed
      apply (yields_rawItems rest).map
      intro bodies each
      exact .cons passed each

end

/-- The source is the last field of a page, and it is shown as a whole. -/
theorem PageInfo.yields_sourceField (info : PageInfo) :
    Yields
      (fun fields => ∃ source,
        Option.Rel (fun entity body => entity.json = .ok body) info.source source ∧
          fields = (source.map fun body => ("source", body)).toList)
      info.sourceField := by
  unfold sourceField
  cases info.source with
  | none => exact .pure ⟨none, .none, rfl⟩
  | some source =>
      apply (Yields.json source).map
      intro body shown
      exact ⟨some body, .some shown, rfl⟩

/-- The paging data are built in ascending order of name. -/
theorem PageInfo.pagination_eq (info : PageInfo) (count : Nat) :
    info.pagination count = .object (info.described count) := by
  unfold pagination described
  cases info.total with
  | none =>
      simp only [Json.ofEntries, Fields.insertAll, List.nil_append, List.foldl_cons,
        List.foldl_nil, Fields.insert, String.reduceLT, if_true, if_false]
      rfl
  | some total =>
      simp only [Json.ofEntries, Fields.insertAll, List.cons_append, List.nil_append,
        List.foldl_cons, List.foldl_nil, Fields.insert, String.reduceLT, if_true, if_false]
      rfl

/-- So are the fields of a page. -/
theorem Node.list_eq (info : PageInfo) (entries : List Json) (source : Option Json) :
    list info entries (source.map fun body => ("source", body)).toList =
      .object [("list",
        .object ([("entries", .array entries),
            ("pagination", .object (info.described entries.length))] ++
          (source.map fun body => ("source", body)).toList))] := by
  unfold list
  rw [info.pagination_eq]
  cases source with
  | none =>
      simp only [Json.ofEntries, Fields.insertAll, Option.map_none, Option.toList_none,
        List.append_nil, List.foldl_cons, List.foldl_nil, Fields.insert, String.reduceLT,
        if_true]
  | some body =>
      simp only [Json.ofEntries, Fields.insertAll, Option.map_some, Option.toList_some,
        List.cons_append, List.nil_append, List.foldl_cons, List.foldl_nil, Fields.insert,
        String.reduceLT, if_true, if_false]

namespace Node

/-- And those of an entity with its relations. -/
theorem entry_eq (entity : Json) (relations : List (String × Json)) :
    entry entity relations =
      if relations.isEmpty then .object [("entry", entity)]
      else .object [("entry", entity), ("relations", .ofEntries relations)] := by
  unfold entry
  simp only [Json.ofEntries, Fields.insertAll, List.foldl_cons, List.foldl_nil,
    Fields.insert, String.reduceLT, if_true, if_false]

/-- The fields that are allowed, with what is embedded among them. -/
theorem hasProperties_mergeShown {root : Entity} {projection : Projection}
    {embedded : List (String × Node)} {own entries : List (String × Json)}
    (isOwn : root.json = .ok (.object own))
    (alike : Fields.Alike IsShownAs
      (embedded.filter fun field => projection.allows field.1) entries) :
    HasProperties root projection embedded
      (mergeShown (projection.apply (.object own)) entries) := by
  -- Of the entries of a name the last one counts, so both lists are read from the back.
  have behind := alike.reverse
  rw [← List.filter_reverse] at behind
  rcases behind.exists_values with ⟨values, inside, same⟩
  have areShown : ∀ name node, projection.allows name = true →
      (Dictionary.ofList embedded).get? name = some node → IsShownAs node (values name) := by
    intro name node allowed found
    rw [Dictionary.get?_ofList] at found
    apply inside
    rw [Fields.get?_filter, if_pos allowed, found]
  refine .object isOwn areShown ?_ ?_
  · intro name
    rw [Fields.get?_insertAll, Fields.get?_filter, Dictionary.get?_ofList, same,
      Fields.get?_filter]
    cases projection.allows name <;> rfl
  · intro ascending
    exact (ascending.filter _).insertAll entries

theorem hasRelations_ofEntries {related : List (String × Node)}
    {entries : List (String × Json)} (alike : Fields.Alike IsShownAs related entries) :
    HasRelations related (Fields.insertAll entries []) := by
  rcases alike.reverse.exists_values with ⟨values, inside, same⟩
  have areShown : ∀ name node,
      (Dictionary.ofList related).get? name = some node → IsShownAs node (values name) := by
    intro name node found
    rw [Dictionary.get?_ofList] at found
    exact inside name node found
  refine .intro areShown ?_ (Fields.ascending_nil.insertAll entries)
  intro name
  rw [Fields.get?_insertAll, Dictionary.get?_ofList, same]
  exact Option.or_none

mutual

/-- A node that is rendered is shown as described. -/
theorem yields_render : ∀ node : Node, Yields (IsShownAs node) node.render
  | .scalar value => .pure (.scalar value)
  | .sequence items => by
      rw [render]
      apply (Answer.yields_rawItems items).map
      intro bodies each
      exact .sequence each
  | .page info items => by
      rw [render]
      apply (yields_renderItems items).bind
      intro entries each
      apply info.yields_sourceField.map
      rintro _ ⟨source, unfiltered, rfl⟩
      rw [list_eq, ← each.length_eq]
      exact .page each unfiltered
  | .entity root projection embedded related isInlined omitted => by
      -- Whether anything stands beside the entity does not depend on what it is shown as.
      have beside : ∀ entity : Json, HasProperties root projection embedded entity →
          Yields (IsShownAs (.entity root projection embedded related isInlined omitted))
            (if isInlined then Except.ok entity
              else entry entity <$> renderFields related) := by
        intro entity shown
        cases isInlined with
        | true => exact .pure (.inlined shown)
        | false =>
            apply (yields_renderFields related).map
            intro relations alike
            rw [entry_eq]
            cases alike with
            | nil => exact .alone shown
            | cons same rest =>
                exact .accompanied (List.cons_ne_nil _ _) shown
                  (hasRelations_ofEntries (.cons same rest))
      rw [render]
      apply (Yields.json root).bind
      intro own isOwn
      cases own with
      | object fields =>
          have merges : Yields (HasProperties root projection embedded)
              (mergeShown (projection.apply (.object fields)) <$>
                renderShown projection embedded) := by
            apply (yields_renderShown projection embedded).map
            intro entries alike
            exact hasProperties_mergeShown isOwn alike
          exact merges.bind beside
      | null => exact beside _ (.value isOwn nofun)
      | boolean value => exact beside _ (.value isOwn nofun)
      | number value => exact beside _ (.value isOwn nofun)
      | string value => exact beside _ (.value isOwn nofun)
      | array items => exact beside _ (.value isOwn nofun)

theorem yields_renderItems :
    ∀ items : List Node, Yields (List.Forall₂ IsShownAs items) (renderItems items)
  | [] => .pure .nil
  | item :: rest => by
      rw [renderItems]
      apply (yields_render item).bind
      intro body shown
      apply (yields_renderItems rest).map
      intro bodies each
      exact .cons shown each

theorem yields_renderShown (projection : Projection) :
    ∀ fields : List (String × Node),
      Yields (Fields.Alike IsShownAs (fields.filter fun field => projection.allows field.1))
        (renderShown projection fields)
  | [] => .pure .nil
  | (name, node) :: rest => by
      rw [renderShown, List.filter_cons]
      split
      · apply (yields_render node).bind
        intro body shown
        apply (yields_renderShown projection rest).map
        intro entries alike
        exact .cons ⟨rfl, shown⟩ alike
      · exact yields_renderShown projection rest

theorem yields_renderFields :
    ∀ fields : List (String × Node),
      Yields (Fields.Alike IsShownAs fields) (renderFields fields)
  | [] => .pure .nil
  | (name, node) :: rest => by
      rw [renderFields]
      apply (yields_render node).bind
      intro body shown
      apply (yields_renderFields rest).map
      intro entries alike
      exact .cons ⟨rfl, shown⟩ alike

end

/-! ## What has no influence -/

theorem filter_of_hidden {projection : Projection} {front hidden back : List (String × Json)}
    (areHidden : ∀ field ∈ hidden, projection.allows field.1 = false) :
    projection.apply (.object (front ++ (hidden ++ back))) =
      projection.apply (.object (front ++ back)) := by
  have none : hidden.filter (fun field => projection.allows field.1) = [] := by
    rw [List.filter_eq_nil_iff]
    intro field member
    rw [areHidden field member]
    exact Bool.false_ne_true
  simp only [Projection.apply, List.filter_append, none, List.nil_append]

theorem renderShown_of_hidden {projection : Projection}
    {front hidden back : List (String × Node)}
    (areHidden : ∀ field ∈ hidden, projection.allows field.1 = false) :
    renderShown projection (front ++ (hidden ++ back)) =
      renderShown projection (front ++ back) := by
  induction front with
  | nil =>
      induction hidden with
      | nil => rfl
      | cons field rest ih =>
          rcases field with ⟨name, node⟩
          rcases List.forall_mem_cons.mp areHidden with ⟨isHidden, others⟩
          rw [← ih others, List.nil_append, List.nil_append, List.cons_append, renderShown,
            isHidden]
          rfl
  | cons field rest ih =>
      rcases field with ⟨name, node⟩
      rw [List.cons_append, List.cons_append, renderShown, renderShown, ih]

section Replacing

variable {node other : Node}

/-- Among items, embedded and related nodes, only what a node is rendered as counts. -/
theorem renderItems_replace (same : other.render = node.render) (front back : List Node) :
    renderItems (front ++ other :: back) = renderItems (front ++ node :: back) := by
  induction front with
  | nil => rw [List.nil_append, List.nil_append, renderItems, renderItems, same]
  | cons item rest ih => rw [List.cons_append, List.cons_append, renderItems, renderItems, ih]

theorem renderShown_replace (same : other.render = node.render) (projection : Projection)
    (name : String) (front back : List (String × Node)) :
    renderShown projection (front ++ (name, other) :: back) =
      renderShown projection (front ++ (name, node) :: back) := by
  induction front with
  | nil => rw [List.nil_append, List.nil_append, renderShown, renderShown, same]
  | cons field rest ih =>
      rcases field with ⟨key, child⟩
      rw [List.cons_append, List.cons_append, renderShown, renderShown, ih]

theorem renderFields_replace (same : other.render = node.render) (name : String)
    (front back : List (String × Node)) :
    renderFields (front ++ (name, other) :: back) =
      renderFields (front ++ (name, node) :: back) := by
  induction front with
  | nil => rw [List.nil_append, List.nil_append, renderFields, renderFields, same]
  | cons field rest ih =>
      rcases field with ⟨key, child⟩
      rw [List.cons_append, List.cons_append, renderFields, renderFields, ih]

end Replacing

theorem DiffersUnseen.render_eq {node other : Node} (differs : DiffersUnseen node other) :
    other.render = node.render := by
  induction differs with
  | properties own others areHidden =>
      rcases List.forall_mem_append.mp areHidden with ⟨hidden, replaced⟩
      rw [render, render, own, others]
      simp only [bind, Except.bind, filter_of_hidden hidden, filter_of_hidden replaced]
  | branches areHidden =>
      rcases List.forall_mem_append.mp areHidden with ⟨hidden, replaced⟩
      rw [render, render, renderShown_of_hidden hidden, renderShown_of_hidden replaced]
  | item inside ih => rw [render, render, renderItems_replace ih]
  | embedded inside ih => rw [render, render, renderShown_replace ih]
  | related inside ih => rw [render, render, renderFields_replace ih]

/--
A rendered node is shown as described, at every level, and its body is that of every node that
differs from it only in properties and embedded branches that are hidden, in any places.
-/
theorem render_projects {node : Node} {body : Json} (rendered : node.render = .ok body) :
    IsShownAs node body ∧
    ∀ other, Relation.ReflTransGen DiffersUnseen node other → other.render = .ok body := by
  constructor
  · have yields := yields_render node
    rw [rendered] at yields
    exact yields
  · intro other differs
    induction differs with
    | refl => exact rendered
    | tail _ step ih => exact step.render_eq.trans ih

/-- A record that has a secret, and that shows its number only. -/
def numbered (secret : Json) (embedded : List (String × Node)) : Node :=
  .entity
    (.record ⟨"records", none, [],
      .ok (.object [("number", .natural 7), ("secret", secret)])⟩)
    (.only (.ofList ["number"])) embedded [] false []

/-- Neither its secret nor what is embedded in it has an influence on its body. -/
theorem render_projects_numbered :
    (numbered .null []).render = .ok (.object [("entry", .object [("number", .natural 7)])]) ∧
      Relation.ReflTransGen DiffersUnseen (numbered .null [])
        (numbered (.boolean true) [("copy", numbered .null [])]) ∧
      (numbered (.boolean true) [("copy", numbered .null [])]).render =
        .ok (.object [("entry", .object [("number", .natural 7)])]) := by
  have rendered : (numbered .null []).render =
      .ok (.object [("entry", .object [("number", .natural 7)])]) := rfl
  have hidesSecret : (Projection.only (.ofList ["number"])).allows "secret" = false := rfl
  have hidesCopy : (Projection.only (.ofList ["number"])).allows "copy" = false := rfl
  have first : DiffersUnseen (numbered .null []) (numbered (.boolean true) []) := by
    refine @DiffersUnseen.properties _ _ _ [] [] false [] [("number", .natural 7)]
      [("secret", .null)] [("secret", .boolean true)] [] rfl rfl ?_
    simp [hidesSecret]
  have second : DiffersUnseen (numbered (.boolean true) [])
      (numbered (.boolean true) [("copy", numbered .null [])]) := by
    refine @DiffersUnseen.branches _ _ [] false [] [] [] [("copy", numbered .null [])] [] ?_
    simp [hidesCopy]
  have differs := (Relation.ReflTransGen.single first).tail second
  exact ⟨rendered, differs, (render_projects rendered).2 _ differs⟩

end Node

end ContentApi
