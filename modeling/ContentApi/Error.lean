import ContentApi.Scanner
import ContentApi.Text.Quoted

/-!
# Errors

An `ApiError` is the cause for which a request is refused, and a `BranchFault` the cause
for which one branch of a response is left out.  The wording of both is in their `message`
functions.
-/

namespace ContentApi

/-- What is wrong with the paging parameters or with an argument in general. -/
inductive ArgumentError where
  /-- A paging parameter is no signed numeral of 32 bits; both are quoted. -/
  | unreadablePaging (skip limit : Option String)
  | negativePaging
  /-- The body of the request is not of the wanted form. -/
  | unusableBody
  /-- An entity of this collection was to be stored without an id. -/
  | missingId (collection : String)
  /-- A resource was executed without the id of an entity. -/
  | idNeeded (resource : String)
  | other (text : String)
deriving DecidableEq, Repr

/-- The text for a body that cannot be read. -/
def unreadableBodyText : String :=
  "Could not read content from HTTP request body."

/-- The wording of an argument error. -/
def ArgumentError.message : ArgumentError → String
  | .unreadablePaging skip limit =>
      "Invalid paging parameters: skipCount=" ++ Text.quotedOption skip ++
        ", maxItems=" ++ Text.quotedOption limit
  | .negativePaging => "Negative values not supported."
  | .unusableBody => unreadableBodyText
  | .missingId collection => collection ++ " entity has no unique id"
  | .idNeeded resource => resource ++ " needs an entity id"
  | .other text => text

/-- Why a `where` clause is refused. -/
inductive QueryError where
  /-- The clause stops being acceptable at some place. -/
  | rejected (clause : String) (rejection : Rejection)
  | other (text : String)
deriving DecidableEq, Repr

/-- The wording of a query error. -/
def QueryError.message : QueryError → String
  | .rejected clause rejection => clause ++ ", " ++ rejection.message
  | .other text => text

/-- Why a request is refused. -/
inductive ApiError where
  | invalidArgument (cause : ArgumentError)
  /-- A `select` or `include` clause, named by its parameter, is not acceptable. -/
  | invalidSelect (parameter clause : String)
  | invalidQuery (cause : QueryError)
  | notFound (what : String)
  | permissionDenied (what : String)
  /-- The body of the request could not be fetched. -/
  | body
  /-- The store does not answer any more. -/
  | storeClosed
  | internal (text : String)
deriving DecidableEq, Repr

namespace ApiError

/-- The wording of an error. -/
def message : ApiError → String
  | .invalidArgument cause => "Invalid argument: " ++ cause.message
  | .invalidSelect parameter clause => "Invalid " ++ parameter ++ " clause: " ++ clause
  | .invalidQuery cause => "Invalid query: " ++ cause.message
  | .notFound what => "Not found: " ++ what
  | .permissionDenied what => "Permission denied: " ++ what
  | .body => unreadableBodyText
  | .storeClosed => "Store closed"
  | .internal text => "Internal error: " ++ text

/-- The HTTP status of an error. -/
def status : ApiError → Nat
  | .invalidArgument _ => 400
  | .invalidSelect _ _ => 400
  | .invalidQuery _ => 400
  | .notFound _ => 404
  | .permissionDenied _ => 403
  | .body => 500
  | .storeClosed => 500
  | .internal _ => 500

end ApiError

/-- Why a branch of a response is left out. -/
inductive BranchFault where
  | notFound (what : String)
  | permissionDenied (what : String)
  | failed (error : ApiError)
deriving DecidableEq, Repr

namespace BranchFault

/-- The fault of a branch whose execution ended with an error. -/
def ofError : ApiError → BranchFault
  | .notFound what => .notFound what
  | .permissionDenied what => .permissionDenied what
  | error => .failed error

/-- Whether such a fault is to be expected: the target is gone or hidden. -/
def isExpected : BranchFault → Bool
  | .failed _ => false
  | _ => true

/-- The wording of a fault. -/
def message : BranchFault → String
  | .notFound what => "not found: " ++ what
  | .permissionDenied what => "permission denied: " ++ what
  | .failed error => "branch failed: " ++ error.message

end BranchFault

end ContentApi
