import ContentApi.Expansion.Render

/-!
# What a body depends on

A body shows some of the entities in a node, and rendering fails exactly if one of these
cannot be shown.  Which they are is said twice: as a property of an entity (`IsVisible`), and
as the list of them in the order of the body (`visible`), an entity in front of what is
embedded in it, what is embedded in front of what is related, and the items of a page in front
of its source.  The first failure in that list is the one that is reported
(`render_fails_iff`).
-/

namespace ContentApi

/-- A list of entities fails with the error of the first one that cannot be shown. -/
def FirstFailure (entities : List Entity) (error : Json.WriteError) : Prop :=
  ∃ front entity back, entities = front ++ entity :: back ∧
    (∀ earlier ∈ front, ∃ json, earlier.json = .ok json) ∧ entity.json = .error error

/-- The error for which an entity cannot be shown. -/
def Entity.failure? (entity : Entity) : Option Json.WriteError :=
  match entity.json with
  | .error error => some error
  | .ok _ => none

theorem firstFailure_iff {entities : List Entity} {error : Json.WriteError} :
    FirstFailure entities error ↔ entities.findSome? Entity.failure? = some error := by
  have fails : ∀ entity : Entity,
      entity.failure? = some error ↔ entity.json = .error error := by
    intro entity
    unfold Entity.failure?
    cases entity.json <;> simp
  have shows : ∀ entity : Entity,
      entity.failure? = none ↔ ∃ json, entity.json = .ok json := by
    intro entity
    unfold Entity.failure?
    cases entity.json <;> simp
  rw [List.findSome?_eq_some_iff, FirstFailure]
  simp only [fails, shows, and_comm]

theorem FirstFailure.unique {entities : List Entity} {error other : Json.WriteError}
    (first : FirstFailure entities error) (second : FirstFailure entities other) :
    error = other := by
  rw [firstFailure_iff] at first second
  exact Option.some.inj (first.symm.trans second)

/-! ## Entities that are shown -/

namespace Answer

/-- An entity is passed on in an answer: as such, in a sequence, or as an item of a page. -/
inductive Carries (entity : Entity) : Answer → Prop where
  | entity : Carries entity (.entity entity)
  | sequence {items : List Answer} {item : Answer} (member : item ∈ items)
      (inside : Carries entity item) : Carries entity (.sequence items)
  | page {info : PageInfo} {items : List Answer} {item : Answer} (member : item ∈ items)
      (inside : Carries entity item) : Carries entity (.page info items)

mutual

/-- The entities that are passed on in an answer. -/
def carried : Answer → List Entity
  | .scalar _ => []
  | .sequence items => carriedItems items
  | .page _ items => carriedItems items
  | .entity root => [root]

/-- The entities that are passed on in some answers. -/
def carriedItems : List Answer → List Entity
  | [] => []
  | item :: rest => carried item ++ carriedItems rest

end

end Answer

namespace Node

/--
An entity is visible in a node.  What is embedded in an entity is visible if the projection
allows its key and the properties of the entity are an object, and what is related to it if
the entity is not itself embedded.
-/
inductive IsVisible (entity : Entity) : Node → Prop where
  | passed {items : List Answer} {item : Answer} (member : item ∈ items)
      (inside : item.Carries entity) : IsVisible entity (.sequence items)
  | item {info : PageInfo} {items : List Node} {item : Node} (member : item ∈ items)
      (inside : IsVisible entity item) : IsVisible entity (.page info items)
  | source {info : PageInfo} {items : List Node} (isSource : info.source = some entity) :
      IsVisible entity (.page info items)
  | root {projection : Projection} {embedded related : List (String × Node)}
      {isInlined : Bool} {omitted : List Omission} :
      IsVisible entity (.entity entity projection embedded related isInlined omitted)
  | embedded {root : Entity} {projection : Projection}
      {embedded related : List (String × Node)} {isInlined : Bool} {omitted : List Omission}
      {name : String} {node : Node} {fields : List (String × Json)}
      (isObject : root.json = .ok (.object fields)) (allowed : projection.allows name = true)
      (member : (name, node) ∈ embedded) (inside : IsVisible entity node) :
      IsVisible entity (.entity root projection embedded related isInlined omitted)
  | related {root : Entity} {projection : Projection}
      {embedded related : List (String × Node)} {omitted : List Omission} {name : String}
      {node : Node} (member : (name, node) ∈ related) (inside : IsVisible entity node) :
      IsVisible entity (.entity root projection embedded related false omitted)

mutual

/-- The visible entities of a node, in the order of its body. -/
def visible : Node → List Entity
  | .scalar _ => []
  | .sequence items => Answer.carriedItems items
  | .page info items => visibleItems items ++ info.source.toList
  | .entity root projection embedded related isInlined _ =>
      let inside :=
        match root.json with
        | .ok (.object _) => visibleShown projection embedded
        | _ => []
      root :: (inside ++ if isInlined then [] else visibleFields related)

/-- The visible entities of the items of a page. -/
def visibleItems : List Node → List Entity
  | [] => []
  | node :: rest => visible node ++ visibleItems rest

/-- The visible entities of the embedded nodes that a projection shows. -/
def visibleShown (projection : Projection) : List (String × Node) → List Entity
  | [] => []
  | (name, node) :: rest =>
      (if projection.allows name then visible node else []) ++ visibleShown projection rest

/-- The visible entities of named nodes. -/
def visibleFields : List (String × Node) → List Entity
  | [] => []
  | (_, node) :: rest => visible node ++ visibleFields rest

end

end Node

/-! ## Listing what is visible -/

namespace Answer

variable {entity : Entity}

mutual

theorem mem_carried : ∀ answer : Answer, entity ∈ answer.carried ↔ answer.Carries entity
  | .scalar value => by
      constructor
      · intro member
        cases member
      · intro carries
        cases carries
  | .sequence items => by
      rw [carried, mem_carriedItems items]
      constructor
      · rintro ⟨item, member, inside⟩
        exact .sequence member inside
      · intro carries
        cases carries with
        | sequence member inside => exact ⟨_, member, inside⟩
  | .page info items => by
      rw [carried, mem_carriedItems items]
      constructor
      · rintro ⟨item, member, inside⟩
        exact .page member inside
      · intro carries
        cases carries with
        | page member inside => exact ⟨_, member, inside⟩
  | .entity root => by
      rw [carried, List.mem_singleton]
      constructor
      · rintro rfl
        exact .entity
      · intro carries
        cases carries
        rfl

theorem mem_carriedItems :
    ∀ items : List Answer, entity ∈ carriedItems items ↔ ∃ item ∈ items, item.Carries entity
  | [] => by simp [carriedItems]
  | item :: rest => by simp [carriedItems, mem_carried item, mem_carriedItems rest]

end

end Answer

namespace Node

variable {entity : Entity}

mutual

/-- The list of what is visible lists what is visible. -/
theorem mem_visible : ∀ node : Node, entity ∈ node.visible ↔ IsVisible entity node
  | .scalar value => by
      constructor
      · intro member
        cases member
      · intro isVisible
        cases isVisible
  | .sequence items => by
      rw [visible, Answer.mem_carriedItems items]
      constructor
      · rintro ⟨item, member, inside⟩
        exact .passed member inside
      · intro isVisible
        cases isVisible with
        | passed member inside => exact ⟨_, member, inside⟩
  | .page info items => by
      rw [visible, List.mem_append, mem_visibleItems items, Option.mem_toList]
      constructor
      · rintro (⟨item, member, inside⟩ | isSource)
        · exact .item member inside
        · exact .source isSource
      · intro isVisible
        cases isVisible with
        | item member inside => exact Or.inl ⟨_, member, inside⟩
        | source isSource => exact Or.inr isSource
  | .entity root projection embedded related isInlined omitted => by
      rw [visible, List.mem_cons, List.mem_append]
      constructor
      · rintro (rfl | inside | beside)
        · exact .root
        · split at inside
          · rename_i fields isObject
            rcases (mem_visibleShown projection embedded).mp inside with
              ⟨name, node, member, allowed, inside⟩
            exact .embedded isObject allowed member inside
          · cases inside
        · cases isInlined with
          | true => cases beside
          | false =>
              rcases (mem_visibleFields related).mp beside with ⟨name, node, member, inside⟩
              exact .related member inside
      · intro isVisible
        cases isVisible with
        | root => exact Or.inl rfl
        | embedded isObject allowed member inside =>
            refine Or.inr (Or.inl ?_)
            rw [isObject]
            exact (mem_visibleShown projection embedded).mpr ⟨_, _, member, allowed, inside⟩
        | related member inside =>
            exact Or.inr (Or.inr ((mem_visibleFields related).mpr ⟨_, _, member, inside⟩))

theorem mem_visibleItems :
    ∀ items : List Node, entity ∈ visibleItems items ↔ ∃ item ∈ items, IsVisible entity item
  | [] => by simp [visibleItems]
  | item :: rest => by simp [visibleItems, mem_visible item, mem_visibleItems rest]

theorem mem_visibleShown (projection : Projection) :
    ∀ fields : List (String × Node),
      entity ∈ visibleShown projection fields ↔
        ∃ name node, (name, node) ∈ fields ∧ projection.allows name = true ∧
          IsVisible entity node
  | [] => by simp [visibleShown]
  | (name, node) :: rest => by
      rw [visibleShown, List.mem_append, mem_visibleShown projection rest]
      constructor
      · rintro (first | ⟨other, child, member, allowed, inside⟩)
        · split at first
          · rename_i allowed
            exact ⟨name, node, List.mem_cons_self, allowed, (mem_visible node).mp first⟩
          · cases first
        · exact ⟨other, child, List.mem_cons_of_mem _ member, allowed, inside⟩
      · rintro ⟨other, child, member, allowed, inside⟩
        rcases List.mem_cons.mp member with same | member
        · cases same
          rw [if_pos allowed]
          exact Or.inl ((mem_visible node).mpr inside)
        · exact Or.inr ⟨other, child, member, allowed, inside⟩

theorem mem_visibleFields :
    ∀ fields : List (String × Node),
      entity ∈ visibleFields fields ↔
        ∃ name node, (name, node) ∈ fields ∧ IsVisible entity node
  | [] => by simp [visibleFields]
  | (name, node) :: rest => by
      rw [visibleFields, List.mem_append, mem_visible node, mem_visibleFields rest]
      constructor
      · rintro (first | ⟨other, child, member, inside⟩)
        · exact ⟨name, node, List.mem_cons_self, first⟩
        · exact ⟨other, child, List.mem_cons_of_mem _ member, inside⟩
      · rintro ⟨other, child, member, inside⟩
        rcases List.mem_cons.mp member with same | member
        · cases same
          exact Or.inl inside
        · exact Or.inr ⟨other, child, member, inside⟩

end

end Node

/-! ## Programs that report failures -/

/-- A program fails with the first failure of some entities, and succeeds if there is none. -/
def Reports {α : Type} (entities : List Entity) : Except Json.WriteError α → Prop
  | .ok _ => ∀ entity ∈ entities, ∃ json, entity.json = .ok json
  | .error error => FirstFailure entities error

namespace Reports

variable {α β : Type} {entities others : List Entity} {program : Except Json.WriteError α}

theorem pure (value : α) : Reports [] (.ok value) := by
  intro entity member
  cases member

/-- Showing one entity reports on it. -/
theorem json (entity : Entity) : Reports [entity] entity.json := by
  cases shown : entity.json with
  | error error => exact ⟨[], entity, [], rfl, List.forall_mem_nil _, shown⟩
  | ok body =>
      intro other member
      rw [List.mem_singleton.mp member]
      exact ⟨body, shown⟩

/-- What is shown later is reported on only if everything before could be shown. -/
theorem bind {next : α → Except Json.WriteError β} (reports : Reports entities program)
    (continues : ∀ value, program = .ok value → Reports others (next value)) :
    Reports (entities ++ others) (program >>= next) := by
  cases result : program with
  | error error =>
      rw [result] at reports
      rcases reports with ⟨front, entity, back, rfl, shown, failed⟩
      refine ⟨front, entity, back ++ others, ?_, shown, failed⟩
      rw [List.append_assoc, List.cons_append]
  | ok value =>
      rw [result] at reports
      have later := continues value result
      show Reports (entities ++ others) (next value)
      cases result : next value with
      | ok second =>
          rw [result] at later
          exact List.forall_mem_append.mpr ⟨reports, later⟩
      | error error =>
          rw [result] at later
          rcases later with ⟨front, entity, back, rfl, shown, failed⟩
          refine ⟨entities ++ front, entity, back, (List.append_assoc _ _ _).symm, ?_, failed⟩
          exact List.forall_mem_append.mpr ⟨reports, shown⟩

theorem map (reports : Reports entities program) (f : α → β) :
    Reports entities (f <$> program) := by
  cases result : program with
  | error error =>
      rw [result] at reports
      exact reports
  | ok value =>
      rw [result] at reports
      exact reports

theorem exists_error_iff (reports : Reports entities program) :
    (∃ error, program = .error error) ↔
      ∃ entity ∈ entities, ∃ error, entity.json = .error error := by
  cases result : program with
  | error error =>
      rw [result] at reports
      rcases reports with ⟨front, entity, back, rfl, -, failed⟩
      constructor
      · intro _
        exact ⟨entity, List.mem_append_right front List.mem_cons_self, error, failed⟩
      · intro _
        exact ⟨error, rfl⟩
  | ok value =>
      rw [result] at reports
      constructor
      · rintro ⟨error, impossible⟩
        cases impossible
      · rintro ⟨entity, member, error, failed⟩
        rcases reports entity member with ⟨json, shown⟩
        rw [shown] at failed
        cases failed

theorem eq_error_iff (reports : Reports entities program) (error : Json.WriteError) :
    program = .error error ↔ FirstFailure entities error := by
  constructor
  · intro result
    rw [result] at reports
    exact reports
  · intro first
    have fails : ∃ error, program = .error error := by
      rcases first with ⟨front, entity, back, rfl, -, failed⟩
      exact reports.exists_error_iff.mpr
        ⟨entity, List.mem_append_right front List.mem_cons_self, error, failed⟩
    rcases fails with ⟨other, result⟩
    rw [result] at reports ⊢
    rw [FirstFailure.unique reports first]

end Reports

/-! ## Rendering -/

mutual

theorem Answer.reports_raw : ∀ answer : Answer, Reports answer.carried answer.raw
  | .scalar value => .pure value
  | .sequence items => by
      rw [carried, raw]
      exact (reports_rawItems items).map Json.array
  | .page info items => by
      rw [carried, raw]
      exact (reports_rawItems items).map Json.array
  | .entity root => by
      rw [carried, raw]
      exact .json root

theorem Answer.reports_rawItems :
    ∀ items : List Answer, Reports (carriedItems items) (rawItems items)
  | [] => .pure []
  | item :: rest => by
      rw [carriedItems, rawItems]
      apply (reports_raw item).bind
      intro body _
      exact (reports_rawItems rest).map (body :: ·)

end

theorem PageInfo.reports_sourceField (info : PageInfo) :
    Reports info.source.toList info.sourceField := by
  unfold sourceField
  cases info.source with
  | none => exact .pure []
  | some source => exact (Reports.json source).map fun body => [("source", body)]

namespace Node

mutual

/-- Rendering a node reports on what is visible in it. -/
theorem reports_render : ∀ node : Node, Reports node.visible node.render
  | .scalar value => .pure value
  | .sequence items => by
      rw [visible, render]
      exact (Answer.reports_rawItems items).map Json.array
  | .page info items => by
      rw [visible, render]
      apply (reports_renderItems items).bind
      intro entries _
      exact info.reports_sourceField.map (list info entries)
  | .entity root projection embedded related isInlined omitted => by
      have beside : ∀ entity : Json,
          Reports (if isInlined then [] else visibleFields related)
            (if isInlined then Except.ok entity
              else entry entity <$> renderFields related) := by
        intro entity
        cases isInlined with
        | true => exact .pure entity
        | false => exact (reports_renderFields related).map (entry entity)
      rw [visible, render]
      apply (Reports.json root).bind
      intro own isOwn
      rw [isOwn]
      cases own with
      | object fields =>
          apply ((reports_renderShown projection embedded).map _).bind
          intro entity _
          exact beside entity
      | null => exact beside .null
      | boolean value => exact beside (.boolean value)
      | number value => exact beside (.number value)
      | string value => exact beside (.string value)
      | array items => exact beside (.array items)

theorem reports_renderItems :
    ∀ items : List Node, Reports (visibleItems items) (renderItems items)
  | [] => .pure []
  | item :: rest => by
      rw [visibleItems, renderItems]
      apply (reports_render item).bind
      intro body _
      exact (reports_renderItems rest).map (body :: ·)

theorem reports_renderShown (projection : Projection) :
    ∀ fields : List (String × Node),
      Reports (visibleShown projection fields) (renderShown projection fields)
  | [] => .pure []
  | (name, node) :: rest => by
      rw [visibleShown, renderShown]
      split
      · apply (reports_render node).bind
        intro body _
        exact (reports_renderShown projection rest).map ((name, body) :: ·)
      · exact reports_renderShown projection rest

theorem reports_renderFields :
    ∀ fields : List (String × Node), Reports (visibleFields fields) (renderFields fields)
  | [] => .pure []
  | (name, node) :: rest => by
      rw [visibleFields, renderFields]
      apply (reports_render node).bind
      intro body _
      exact (reports_renderFields rest).map ((name, body) :: ·)

end

/-- What a projection hides is not visible, wherever it stands. -/
theorem visibleShown_of_hidden {projection : Projection} {name : String} {hidden : Node}
    (isHidden : projection.allows name = false) (front back : List (String × Node)) :
    visibleShown projection (front ++ (name, hidden) :: back) =
      visibleShown projection (front ++ back) := by
  induction front with
  | nil =>
      rw [List.nil_append, visibleShown, isHidden]
      rfl
  | cons field rest ih =>
      rcases field with ⟨key, node⟩
      rw [List.cons_append, List.cons_append, visibleShown, visibleShown, ih]

/--
Rendering fails exactly on a visible failure: if and only if some visible entity cannot be
shown, and then with the error of the first one in the order of the body.  So an embedded node
whose key is hidden never breaks a response.
-/
theorem render_fails_iff :
    (∀ (node : Node) (entity : Entity), entity ∈ node.visible ↔ IsVisible entity node) ∧
    (∀ node : Node,
      (∃ error, node.render = .error error) ↔
        ∃ entity, IsVisible entity node ∧ ∃ error, entity.json = .error error) ∧
    (∀ (node : Node) (error : Json.WriteError),
      node.render = .error error ↔ FirstFailure node.visible error) ∧
    (∀ (root : Entity) (projection : Projection) (front back related : List (String × Node))
      (name : String) (hidden : Node) (isInlined : Bool) (omitted : List Omission)
      (error : Json.WriteError), projection.allows name = false →
      ((entity root projection (front ++ (name, hidden) :: back) related isInlined
          omitted).render = .error error ↔
        (entity root projection (front ++ back) related isInlined omitted).render =
          .error error)) := by
  refine ⟨fun node entity => mem_visible node, ?_, ?_, ?_⟩
  · intro node
    rw [node.reports_render.exists_error_iff]
    simp only [mem_visible]
  · intro node error
    exact node.reports_render.eq_error_iff error
  · intro root projection front back related name hidden isInlined omitted error isHidden
    rw [(reports_render _).eq_error_iff, (reports_render _).eq_error_iff, visible, visible,
      visibleShown_of_hidden isHidden]

/-- A node that cannot be shown. -/
def failing (reason : String) : Node :=
  .leaf (.record ⟨"records", none, [], .error ⟨reason, none⟩⟩) .everything

/-- A record that shows only its owner; neither its owner nor its site can be shown. -/
def ownerShown (embedded : List (String × Node)) : Node :=
  .entity (.record ⟨"records", none, [], .ok (.object [])⟩) (.only (.ofList ["owner"])) embedded
    [] false []

/-- Its site is hidden, so that it fails for the owner, and does so without the site too. -/
theorem render_fails_iff_ownerShown :
    (Projection.only (.ofList ["owner"])).allows "site" = false ∧
      ((ownerShown [("owner", failing "owner"), ("site", failing "site")]).render =
          .error ⟨"owner", none⟩ ↔
        (ownerShown [("owner", failing "owner")]).render = .error ⟨"owner", none⟩) ∧
      (ownerShown [("owner", failing "owner"), ("site", failing "site")]).render =
        .error ⟨"owner", none⟩ ∧
      (ownerShown [("site", failing "site")]).render =
        .ok (.object [("entry", .object [])]) := by
  have isHidden : (Projection.only (.ofList ["owner"])).allows "site" = false := rfl
  refine ⟨isHidden, ?_, rfl, rfl⟩
  exact render_fails_iff.2.2.2 _ _ [("owner", failing "owner")] [] [] "site" (failing "site")
    false [] ⟨"owner", none⟩ isHidden

end Node

end ContentApi
