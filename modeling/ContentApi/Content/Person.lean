import ContentApi.Json.Target

/-!
# People

A person is an entity of the collection `people`.  The id of a person may be left empty,
and the store then assigns one.
-/

namespace ContentApi

/-- A registered person. -/
structure Person where
  /-- The id; empty as long as none is assigned. -/
  id : String
  firstName : String
  lastName : String
  email : String
deriving DecidableEq, Repr

namespace Person

/-- The properties of a person. -/
def json (person : Person) : Json :=
  .ofEntries
    [("id", .string person.id), ("firstName", .string person.firstName),
      ("lastName", .string person.lastName), ("email", .string person.email)]

/-- The person with the given values of its properties; only the id may be missing. -/
def ofProperties (property : String → Option String) : Option Person := do
  let firstName ← property "firstName"
  let lastName ← property "lastName"
  let email ← property "email"
  return ⟨(property "id").getD "", firstName, lastName, email⟩

/-- A person in the body of a request. -/
def target : Json.Target Person :=
  .record ["id", "firstName", "lastName", "email"] .text ofProperties

end Person

end ContentApi
