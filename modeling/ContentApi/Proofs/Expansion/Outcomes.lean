import ContentApi.Expansion.Branch
import ContentApi.Proofs.Fields

/-!
# What is shown of outcomes

The nodes that are shown of some outcomes stand in ascending order of name, and each of them
is the node of one of the outcomes with its name.
-/

namespace ContentApi.Branch

theorem inlined_eq_mapValues (nodes : Fields Node) :
    inlined nodes = Fields.mapValues Node.inlined nodes :=
  rfl

/-- A change of nodes that keeps their marks can be made before or after marking them. -/
theorem inlined_mapValues {change : Node → Node}
    (keepsMarks : ∀ node, change node.inlined = (change node).inlined) (nodes : Fields Node) :
    Fields.mapValues change (inlined nodes) = inlined (Fields.mapValues change nodes) := by
  simp only [inlined, Fields.mapValues, List.map_map]
  congr 1
  funext entry
  simp [keepsMarks]

theorem resolved_ascends (outcomes : List (String × Outcome)) :
    Fields.Ascending (resolved outcomes) :=
  Fields.ascending_nil.insertAll _

/-- A node that is shown under a name is that of an outcome with the name. -/
theorem mem_of_get?_resolved {name : String} {node : Node}
    {outcomes : List (String × Outcome)}
    (found : Fields.get? name (resolved outcomes) = some node) :
    (name, Except.ok (some node)) ∈ outcomes := by
  rw [resolved, Fields.get?_insertAll, Fields.get?, Option.or_none] at found
  have member := List.mem_reverse.mp (Fields.mem_of_get? found)
  obtain ⟨⟨key, outcome⟩, listed, isShown⟩ := List.mem_filterMap.mp member
  cases outcome with
  | error fault => simp at isShown
  | ok answer =>
      cases answer with
      | none => simp at isShown
      | some other =>
          obtain ⟨rfl, rfl⟩ : key = name ∧ other = node := by simpa using isShown
          exact listed

end ContentApi.Branch
