import ObjectDepot.Call
import ObjectDepot.Http.Route
import ObjectDepot.Json.Reader
import ObjectDepot.Json.Writer

/-!
# Requests and answers

What the service is asked and what it answers, and the parts of both that are JSON: the members that
the body of a request must have, and the bodies of answers.
-/

namespace ObjectDepot.Http

/-- A request. -/
structure Request where
  method : String
  target : String
  login : Option String
  authorization : String
  body : Bytes

/-- The answer of a request that succeeds, or is turned away before the store is asked. -/
structure Reply where
  status : Nat
  body : Json

/-- The answer to a request. -/
inductive Response where
  | json (status : Nat) (body : Json)
  | methodNotAllowed (allowed : List Method)
  | notFound
  | crashed (cause : Fault)

/-- How many bytes of a body are read. -/
def uploadLimit : Nat := 2621440

/-- Whether a body is longer than what is read of one. -/
def Request.tooLong (request : Request) : Bool :=
  uploadLimit < request.body.length

/-- The members of a request's body; an empty body has none. A body that is too long is not looked at: the
request is given up. A body within the limit is read however deep it nests. -/
def Request.members (request : Request) : Except Failure Json.Members :=
  if request.tooLong then .error (.fault .aborted)
  else if request.body.isEmpty then .ok []
  else
    match Json.ofBytes? request.body with
    | some (.object members) => .ok members
    | some _ => .error (.rejected (.badRequest .notAnObject))
    | none => .error (.rejected (.badRequest .notJson))

/-- The value of a member, null if there is none. -/
def field (members : Json.Members) (key : String) : Json :=
  (members.get? key).getD .null

/-- The members of one item of a list. -/
def itemMembers? : Json → Option Json.Members
  | .object members => some members
  | _ => none

/-- The items of a member that must be a list of objects; an absent one has none. -/
def items (members : Json.Members) (key : String) : Except Failure (List Json.Members) :=
  let flawed : Except Failure (List Json.Members) :=
    .error (.rejected (.badRequest (.itemsNotObjects key)))
  match members.get? key with
  | none => .ok []
  | some (.array values) =>
    match values.mapM itemMembers? with
    | some items => .ok items
    | none => flawed
  | some _ => flawed

/-- A hash and a payload from an item of a push. -/
def pushedObject (item : Json.Members) : Except Failure (Bytes × Bytes) := do
  let hash ← Hash.ofJson (field item "hash")
  let data ← payloadOfJson (field item "data")
  return (hash, data)

/-- A name and a hash from an item of a push. -/
def pushedReference (item : Json.Members) : Except Failure (Json × Bytes) := do
  let hash ← Hash.ofJson (field item "hash")
  return (field item "name", hash)

/-- A text made of the digits of bytes. -/
def hexText (bytes : Bytes) : Json :=
  .string (Hex.encode bytes)

/-- The hashes of an answer. -/
def hashesBody (hashes : List Bytes) : Json :=
  .object [("hashes", .array (hashes.map hexText))]

/-- The summary of a repository in an answer. -/
def summaryBody (summary : RepositorySummary) : Json :=
  .object [("name", .string summary.name), ("hash_algorithm", .string summary.algorithm.name),
    ("default_branch", .string summary.defaultBranch), ("owner", summary.owner)]

/-- The listing of a repository in an answer. -/
def listingBody (listing : Listing) : Json :=
  .object [
    ("normal", .array (listing.normal.map fun (name, hash) =>
      .object [("name", .string name), ("hash", hexText hash)])),
    ("symbolic", .array (listing.symbolic.map fun (name, target) =>
      .object [("name", .string name), ("target", .string target)])),
    ("kv", .array (listing.keyValue.map fun (key, value) =>
      .object [("key", .string key), ("value", .string value)]))]

end ObjectDepot.Http
