import ContentApi.Proofs.Store.History
import Mathlib.Algebra.Group.Nat.Defs

/-!
# Generated ids

An id that a store generates is its collection with a number, which counts the ids that were
generated there (`reply_nextId`).  So ids of one collection differ as long as the numbers do
not run over (`reply_nextId_ne`).  What is stored does not matter to the number.
-/

namespace ContentApi.Store

variable {maxPageSize : Nat} {history : List AnyRequest} {collection : String}

theorem generatedId_injective (collection : String) :
    Function.Injective (generatedId collection) := by
  intro number other same
  have digits : number.toNat.repr = other.toNat.repr := by
    unfold generatedId at same
    rw [String.append_assoc, String.append_assoc] at same
    exact (String.append_right_inj _).mp ((String.append_right_inj _).mp same)
  apply UInt64.toNat.inj
  calc number.toNat
    _ = Nat.ofDigitChars 10 number.toNat.repr.toList 0 := by
        rw [Nat.toList_repr, Nat.ofDigitChars_toDigits (by decide) (by decide)]
    _ = Nat.ofDigitChars 10 other.toNat.repr.toList 0 := by
        rw [digits]
    _ = other.toNat := by
        rw [Nat.toList_repr, Nat.ofDigitChars_toDigits (by decide) (by decide)]

theorem generatedId_ne_empty (collection : String) (number : UInt64) :
    (generatedId collection number).isEmpty = false := by
  rw [String.isEmpty_eq_false_iff]
  simp [generatedId, String.append_eq_empty_iff]

/-- The reply to a request for an id tells how many ids were generated before. -/
theorem reply_nextId (maxPageSize : Nat) (history : List AnyRequest) (collection : String) :
    ((after maxPageSize history).handle (.nextId collection)).1 =
      .ok (generatedId collection (UInt64.ofNat (generatedIn history collection + 1))) := by
  rw [handle, counter_after, UInt64.ofNat_add]
  rfl

/-- Behind a request for an id more ids were generated than in front of it. -/
theorem generatedIn_take_lt {time later : Nat}
    (generates : history[time]? = some ⟨_, .nextId collection⟩) (before : time < later) :
    generatedIn (history.take time) collection < generatedIn (history.take later) collection := by
  have upTo : history.take (time + 1) = history.take time ++ [⟨_, .nextId collection⟩] := by
    rw [List.take_add_one, generates]
    rfl
  have less : generatedIn (history.take (time + 1)) collection ≤
      generatedIn (history.take later) collection :=
    (List.take_sublist_take_left before).countP_le
  rw [upTo, generatedIn_concat, if_pos (AnyRequest.generates_iff.mpr rfl)] at less
  exact less

theorem generatedIn_take_le (time : Nat) :
    generatedIn (history.take time) collection ≤ generatedIn history collection :=
  (List.take_sublist time history).countP_le

theorem reply_nextId_ne {time later : Nat}
    (bound : generatedIn history collection < 2 ^ 64)
    (first : history[time]? = some ⟨_, .nextId collection⟩)
    (second : history[later]? = some ⟨_, .nextId collection⟩) (before : time < later) :
    ((after maxPageSize (history.take time)).handle (.nextId collection)).1 ≠
      ((after maxPageSize (history.take later)).handle (.nextId collection)).1 := by
  intro same
  rw [reply_nextId, reply_nextId] at same
  have numbers := congrArg UInt64.toNat (generatedId_injective collection (Except.ok.inj same))
  -- Both counts are below the bound, so the numbers are the counts themselves.
  have less := generatedIn_take_lt first before
  have within := generatedIn_take_lt second (Nat.lt_add_one later)
  have all : generatedIn (history.take (later + 1)) collection ≤ _ := generatedIn_take_le _
  rw [UInt64.toNat_ofNat', UInt64.toNat_ofNat'] at numbers
  omega

end ContentApi.Store
