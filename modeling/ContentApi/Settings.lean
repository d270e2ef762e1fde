import ContentApi.Json.Target

/-!
# Settings

The settings of a service are read from a JSON text.  Every setting has a default, so an
empty object is enough.
-/

namespace ContentApi

/-- The settings of a service. -/
structure Settings where
  /-- How many branches may be nested below the addressed entity. -/
  maxDepth : Nat := 16
  /-- How many items a listing shows at most. -/
  maxPageSize : Nat := 100
  /-- How many requests may wait for the store. -/
  channelCapacity : Nat := 32
deriving DecidableEq, Inhabited, Repr

namespace Settings

/-- The settings with the given values, and the defaults for the others. -/
def ofValues (setting : String → Option Nat) : Option Settings :=
  let default : Settings := {}
  some
    { maxDepth := (setting "maxDepth").getD default.maxDepth
      maxPageSize := (setting "maxPageSize").getD default.maxPageSize
      channelCapacity := (setting "channelCapacity").getD default.channelCapacity }

/-- Settings in a text. -/
def target : Json.Target Settings :=
  .record ["maxDepth", "maxPageSize", "channelCapacity"] .natural ofValues

/-- The settings in a text. -/
def ofText (text : String) : Except Json.Fault Settings :=
  target.read (.ofString text)

/-- The greatest number of requests that may wait for a store. -/
def greatestCapacity : Nat := 0x1fffffffffffffff

/-- Whether so many requests may wait for a store. -/
def isUsableCapacity (capacity : Nat) : Bool :=
  0 < capacity && capacity ≤ greatestCapacity

end Settings

end ContentApi
