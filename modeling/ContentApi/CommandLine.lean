import ContentApi.Json.Printer
import ContentApi.Service

/-!
# The command line

The command line names an entity of the demonstration content, and possibly a relation,
request parameters and a file with settings.  The answer is the body of the response in a
readable layout, or the wording of the error.
-/

namespace ContentApi.CommandLine

/-- An option that takes a value. -/
inductive Flag where
  | entity
  | id
  | relation
  | parameter
  | settings
deriving DecidableEq, Repr

/-- The option with a name of several letters. -/
def Flag.ofName? : String → Option Flag
  | "entity" => some .entity
  | "id" => some .id
  | "relation" => some .relation
  | "param" => some .parameter
  | "config" => some .settings
  | _ => none

/-- The option with a name of one letter. -/
def Flag.ofLetter? : Char → Option Flag
  | 'e' => some .entity
  | 'i' => some .id
  | 'r' => some .relation
  | 'p' => some .parameter
  | 'c' => some .settings
  | _ => none

/-- What an argument means by itself. -/
inductive Argument where
  | help
  | version
  /-- An option with the value that is attached to it, if there is one. -/
  | option (flag : Flag) (attached : Option String)
  /-- No more options follow. -/
  | endOfOptions
  | unknown
deriving DecidableEq, Repr

/-- The value behind an equals sign, if a text starts with one. -/
def afterEquals? : List Char → Option String
  | '=' :: value => some (String.ofList value)
  | _ => none

/-- An argument with a name of several letters, possibly with a value. -/
def Argument.ofName (text : List Char) : Argument :=
  let name := String.ofList (text.takeWhile (· != '='))
  let attached := afterEquals? (text.dropWhile (· != '='))
  match Flag.ofName? name with
  | some flag => .option flag attached
  | none =>
      if attached.isSome then .unknown
      else if name = "help" then .help
      else if name = "version" then .version
      else .unknown

/-- The value that is attached to a letter; an equals sign in front of it is dropped. -/
def attachedValue? : List Char → Option String
  | [] => none
  | '=' :: value => some (String.ofList value)
  | value => some (String.ofList value)

/-- The meaning of an argument. -/
def Argument.ofText (text : List Char) : Argument :=
  match text with
  | ['-', '-'] => .endOfOptions
  | '-' :: '-' :: name => .ofName name
  | '-' :: letter :: rest =>
      match Flag.ofLetter? letter with
      | some flag => .option flag (attachedValue? rest)
      | none =>
          if letter = 'h' then .help
          else if letter = 'V' then .version
          else .unknown
  | _ => .unknown

/-- Whether an argument can be the value of the option in front of it. -/
def isValue (text : String) : Bool :=
  match text.toList with
  | '-' :: _ :: _ => false
  | _ => true

/-- What is asked for on the command line. -/
structure Invocation where
  entity : String
  id : String
  relation : Option String
  parameters : List (String × String)
  /-- The path of the file with the settings. -/
  settings : Option String
deriving DecidableEq, Repr

/-- What is known of an invocation while the arguments are read. -/
structure Draft where
  entity : Option String := none
  id : Option String := none
  relation : Option String := none
  parameters : List (String × String) := []
  settings : Option String := none

/-- A request parameter in the form `name=value`. -/
def parameter? (text : String) : Option (String × String) :=
  let name := text.toList.takeWhile (· != '=')
  (afterEquals? (text.toList.dropWhile (· != '='))).map (String.ofList name, ·)

namespace Draft

/-- Sets a value that may be set only once. -/
def once (current : Option String) (value : String) : Option (Option String) :=
  if current.isSome then none else some (some value)

/--
Adds the value of an option.  Only request parameters may be given repeatedly, and only
the path of a file must not be empty.
-/
def add (draft : Draft) (flag : Flag) (value : String) : Option Draft :=
  match flag with
  | .entity => (once draft.entity value).map fun entity => { draft with entity }
  | .id => (once draft.id value).map fun id => { draft with id }
  | .relation => (once draft.relation value).map fun relation => { draft with relation }
  | .settings =>
      if value.isEmpty then none
      else (once draft.settings value).map fun settings => { draft with settings }
  | .parameter =>
      (parameter? value).map fun parameter =>
        { draft with parameters := draft.parameters ++ [parameter] }

/-- The invocation, if the entity and its id are known. -/
def finish (draft : Draft) : Option Invocation := do
  let entity ← draft.entity
  let id ← draft.id
  return ⟨entity, id, draft.relation, draft.parameters, draft.settings⟩

end Draft

/-- What the program is asked to do. -/
inductive Command where
  | help
  | version
  | answer (invocation : Invocation)
deriving DecidableEq, Repr

namespace Command

/-- Reads the arguments from left to right; nothing if they cannot be used. -/
def ofArguments (draft : Draft) : List String → Option Command
  | [] => draft.finish.map .answer
  | argument :: rest =>
      match Argument.ofText argument.toList with
      | .help => some .help
      | .version => some .version
      | .unknown => none
      | .endOfOptions => if rest.isEmpty then draft.finish.map .answer else none
      | .option flag (some value) =>
          match draft.add flag value with
          | none => none
          | some draft => ofArguments draft rest
      | .option flag none =>
          match rest with
          | [] => none
          | value :: rest =>
              if isValue value then
                match draft.add flag value with
                | none => none
                | some draft => ofArguments draft rest
              else none

/-- The file that a command needs to have read. -/
def settingsPath? : Command → Option String
  | .answer invocation => invocation.settings
  | _ => none

end Command

/-- What a run of the program comes to. -/
structure Report where
  exitCode : Nat
  output : String := ""
  errors : String := ""
deriving DecidableEq, Repr

namespace Report

/-- The report of a run that ends with an error. -/
def failure (message : String) : Report where
  exitCode := 1
  errors := "error: " ++ message ++ "\n"

/-- The report for arguments that cannot be used. -/
def misuse : Report where
  exitCode := 2
  errors := "error: invalid arguments\n"

/-- The report for a service that cannot be started. -/
def collapse : Report where
  exitCode := 101

end Report

/-- The name and the version of the program. -/
def versionText : String := "rest-expansion 0.1.0\n"

/-- What the program does, and its options. -/
def helpText : String :=
  "\n".intercalate
    ["Expands a resource of the demo content model and prints the response body",
      "",
      "Usage: rest-expansion [OPTIONS] --entity <ENTITY> --id <ID>",
      "",
      "Options:",
      "  -e, --entity <ENTITY>      Entity collection, e.g. `sites`",
      "  -i, --id <ID>              Entity id",
      "  -r, --relation <RELATION>  Relationship of the entity to list instead, " ++
        "e.g. `members`",
      "  -p, --param <PARAMS>       Query parameter as name=value; repeatable",
      "  -c, --config <CONFIG>      JSON configuration file",
      "  -h, --help                 Print help",
      "  -V, --version              Print version",
      ""]

/-- The wording for settings that cannot be used. -/
def describe : Json.Fault → String
  | .malformed => "malformed text"
  | .mismatch => "unexpected value"
  | .truncated => "unexpected end of text"
  | .unreadable => "unreadable text"

/-- The settings of a run, given the text of the file or the reason for lacking it. -/
def readSettings (path : Option String) (file : Except String String) :
    Except String Settings :=
  match path with
  | none => .ok {}
  | some path =>
      match file with
      | .error reason => .error ("cannot read " ++ path ++ ": " ++ reason)
      | .ok text =>
          (Settings.ofText text).mapError fun fault =>
            "invalid config " ++ path ++ ": " ++ describe fault

/-- The wording of an error with its HTTP status. -/
def describeError (error : ApiError) : String :=
  error.message ++ " (" ++ toString error.status ++ ")"

/-- Fills the store of a service and answers an invocation. -/
def answer (service : Service) (invocation : Invocation) :
    StateM Store (Except String Json) := do
  match ← (Demo.seed Store.connection).run with
  | .error error => return .error error.message
  | .ok () =>
      let body ←
        (service.get Store.connection invocation.entity invocation.id invocation.relation
          (.ofPairs invocation.parameters)).run
      return body.mapError describeError

/-- The report of a command, given the text of the file that it needs. -/
def report (file : Except String String) : Command → Report
  | .help => { exitCode := 0, output := helpText }
  | .version => { exitCode := 0, output := versionText }
  | .answer invocation =>
      match readSettings invocation.settings file with
      | .error message => .failure message
      | .ok settings =>
          match Service.start? settings with
          | none => .collapse
          | some service =>
              match ((answer service invocation).run service.initialStore).1 with
              | .ok body => { exitCode := 0, output := body.pretty ++ "\n" }
              | .error message => .failure message

end ContentApi.CommandLine
