import ContentApi.Error
import ContentApi.Json.Target

/-!
# Request bodies

The body of a request is one JSON value of a wanted form, or an array of such values in
place of which a single one will do.  Only two causes of failure are told apart: the body
could not be fetched, or it is not of the wanted form.
-/

namespace ContentApi.Body

variable {α : Type}

/-- The error for a body from which no value can be taken. -/
def errorOf : Json.Fault → ApiError
  | .unreadable => .body
  | _ => .invalidArgument .unusableBody

/-- The value in a body. -/
def extract (target : Json.Target α) (body : Json.Source) : Except ApiError α :=
  (target.read body).mapError errorOf

/-- The values in a body. -/
def extractList (target : Json.Target α) (body : Json.Source) :
    Except ApiError (List α) :=
  (target.readList body).mapError errorOf

end ContentApi.Body
