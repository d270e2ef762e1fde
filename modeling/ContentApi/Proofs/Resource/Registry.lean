import ContentApi.Resource.Registry

/-!
# What a registry finds

Registering resources keeps a registry coherent: under the name of a collection stands the
resource of that collection, and under a relation of a collection stands that relationship.
Whatever is found in a coherent registry therefore addresses what it was looked up by.
-/

namespace ContentApi.Registry

/-- Every resource stands under the name that it is the resource of. -/
structure Coherent (registry : Registry) : Prop where
  collections : ∀ {api : Api} {name : String} {resource : Resource},
    registry.collections.get? (api, name) = some resource →
    resource.key = name ∧ resource.kind = .entities
  relationships : ∀ {api : Api} {collection relation : String} {resource : Resource},
    registry.relationships.get? (api, collection, relation) = some resource →
    resource.key = Resource.relationshipKey collection relation ∧
      resource.kind = .relationship collection

namespace Coherent

variable {registry : Registry}

theorem empty : Coherent {} where
  collections := by
    intro api name resource found
    cases found
  relationships := by
    intro api collection relation resource found
    cases found

theorem addCollection (coherent : Coherent registry) (api : Api) (name : String)
    (methods : List Method) : Coherent (registry.addCollection api name methods) where
  collections := by
    intro other wanted resource found
    rw [Registry.addCollection, Table.get?_set] at found
    split at found
    · rename_i same
      cases same
      cases found
      exact ⟨rfl, rfl⟩
    · exact coherent.collections found
  relationships := coherent.relationships

theorem addRelationship (coherent : Coherent registry) (api : Api)
    (collection relation : String) (methods : List Method) :
    Coherent (registry.addRelationship api collection relation methods) where
  collections := coherent.collections
  relationships := by
    intro other wanted name resource found
    rw [Registry.addRelationship, Table.get?_set] at found
    split at found
    · rename_i same
      cases same
      cases found
      exact ⟨rfl, rfl⟩
    · exact coherent.relationships found

/-- The resource of a collection addresses the entities of that collection. -/
theorem of_collection? (coherent : Coherent registry) {api : Api} {name : String}
    {method : Method} {resource : Resource}
    (found : registry.collection? api name method = some resource) :
    resource.key = name ∧ resource.kind = .entities := by
  unfold Registry.collection? at found
  exact coherent.collections (Option.filter_eq_some_iff.mp found).1

/-- A relation that is found among those of a collection is a relationship of it. -/
theorem of_relations (coherent : Coherent registry) {api : Api} {collection name : String}
    {names : NameSet} {method : Method} {resource : Resource}
    (found : (registry.relations api collection names method).get? name = some resource) :
    resource.key = Resource.relationshipKey collection name ∧
      resource.kind = .relationship collection := by
  unfold Registry.relations at found
  rw [Dictionary.get?_ofList] at found
  have member := List.mem_reverse.mp (Fields.mem_of_get? found)
  rcases List.mem_filterMap.mp member with ⟨listed, _, isEntry⟩
  rcases Option.map_eq_some_iff.mp isEntry with ⟨registered, isRegistered, isPair⟩
  cases isPair
  unfold Registry.relation? at isRegistered
  exact coherent.relationships (Option.filter_eq_some_iff.mp isRegistered).1

end Coherent

/-- Only the relations that are asked for are found. -/
theorem mem_names_of_relations {registry : Registry} {api : Api} {collection name : String}
    {names : NameSet} {method : Method} {resource : Resource}
    (found : (registry.relations api collection names method).get? name = some resource) :
    name ∈ names.names := by
  unfold Registry.relations at found
  rw [Dictionary.get?_ofList] at found
  have member := List.mem_reverse.mp (Fields.mem_of_get? found)
  obtain ⟨listed, isListed, isEntry⟩ := List.mem_filterMap.mp member
  obtain ⟨_, _, isPair⟩ := Option.map_eq_some_iff.mp isEntry
  cases isPair
  exact isListed

end ContentApi.Registry
