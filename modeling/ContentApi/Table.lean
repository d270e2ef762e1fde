/-!
# Finite tables

A table maps finitely many keys to values and has no order that anyone can see.  The
latest value set for a key is the one it has.
-/

namespace ContentApi

/-- Finitely many keys with a value each. -/
structure Table (κ α : Type) where
  /-- The entries, of which the first with a key counts. -/
  entries : List (κ × α)
deriving Repr

namespace Table

variable {κ α : Type} [DecidableEq κ]

/-- The table without entries. -/
def empty : Table κ α := ⟨[]⟩

instance : EmptyCollection (Table κ α) := ⟨empty⟩

/-- The value of a key. -/
def get? (table : Table κ α) (key : κ) : Option α :=
  table.entries.lookup key

/-- Gives a key a value and drops the value it had. -/
def set (table : Table κ α) (key : κ) (value : α) : Table κ α :=
  ⟨(key, value) :: table.entries.filter fun entry => entry.1 ≠ key⟩

/-- Whether a key has a value. -/
def contains (table : Table κ α) (key : κ) : Bool :=
  (table.get? key).isSome

@[simp]
theorem get?_empty (key : κ) : (empty : Table κ α).get? key = none :=
  rfl

theorem lookup_filter_ne (entries : List (κ × α)) {key wanted : κ}
    (different : wanted ≠ key) :
    (entries.filter fun entry => entry.1 ≠ key).lookup wanted =
      entries.lookup wanted := by
  induction entries with
  | nil => rfl
  | cons entry rest ih =>
      obtain ⟨found, value⟩ := entry
      by_cases same : found = key
      · subst same
        have unequal : (wanted == found) = false := by simpa using different
        simpa [List.lookup_cons, unequal] using ih
      · simp only [ne_eq, same, not_false_eq_true, decide_true, List.filter_cons_of_pos]
        rw [List.lookup_cons, List.lookup_cons]
        split
        · rfl
        · exact ih

/-- Looking up after setting: the key has the new value, all others keep theirs. -/
theorem get?_set (table : Table κ α) (key wanted : κ) (value : α) :
    (table.set key value).get? wanted =
      if wanted = key then some value else table.get? wanted := by
  by_cases same : wanted = key
  · simp [get?, set, same]
  · have unequal : (wanted == key) = false := by simpa using same
    simp only [get?, set, List.lookup_cons, unequal, same, if_false]
    exact lookup_filter_ne table.entries same

end Table

end ContentApi
