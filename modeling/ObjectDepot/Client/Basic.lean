import ObjectDepot.Client.Fault
import ObjectDepot.Codec.Percent
import ObjectDepot.Digest.Sha1
import ObjectDepot.Digest.Sha256
import ObjectDepot.Entries
import ObjectDepot.Http.Caller
import ObjectDepot.Http.Route
import ObjectDepot.Json.Writer

/-!
# The client

A client belongs to one repository of a remote service. A `Call` says what it sends and what it
makes of the answer; `perform` does both over any way of sending.
-/

namespace ObjectDepot

/-- A client of one repository. The address of the service has no slash at its end. -/
structure Client where
  repository : String
  address : String
  credentials : Option (String × String)

namespace Client

/-- The host that a client asks if it is given no address. -/
def defaultHost : String := "http://localhost:8000"

/-- The address that a client asks if it is given none. -/
def defaultAddress : String := defaultHost ++ "/api/git"

/-- The address that variables name, or else the default one. -/
def addressIn (variableOf : String → Option String) : String :=
  (variableOf "GIT_STORE_REMOTE_URL").getD defaultAddress

/-- The client of a repository at an address. -/
def connect (repository address : String) (credentials : Option (String × String)) : Client where
  repository := repository
  address := String.ofList (address.toList.reverse.dropWhile (· == '/')).reverse
  credentials := credentials

/-- The client of a repository at an address, both given as values. -/
def connect? (repository address : Json) (credentials : Option (String × String)) :
    Except ValueFault Client :=
  match repository, address with
  | .string name, .string address => .ok (connect name address credentials)
  | .string _, address => .error (.addressNotText address)
  | _, _ => .error .notQuotable

/-- The `Authorization` header of a client; without credentials there is none. -/
def authorization (client : Client) : Except Charset.Fault (Option String) :=
  match client.credentials with
  | some (name, password) => (Http.basicHeader name password).map some
  | none => .ok none

/-- What a client sends. -/
structure Request where
  method : Http.Method
  url : String
  payload : Option Json

/-- The bytes of what is sent. -/
def Request.body (request : Request) : Bytes :=
  match request.payload with
  | some payload => payload.toBytes
  | none => []

/-- What comes back: a body that is no JSON is absent. A body is JSON however deep it nests. -/
structure Reply where
  status : Int
  body : Option Json
  text : String

/-- An answer by which the remote service refuses a call. -/
structure RemoteError where
  status : Int
  error : Json
  detail : Json

/-- The words for a refusal. -/
def RemoteError.message (refusal : RemoteError) : String :=
  toString refusal.status ++ " " ++ refusal.error.plain ++ ": " ++ refusal.detail.plain

/-- Why a call of the client fails. -/
inductive Failure where
  | remote (refusal : RemoteError)
  | fault (cause : ValueFault)

/-- The hexadecimal hash of a payload as the store expects it. -/
def hashText (data : Bytes) (sha256 : Bool) : String :=
  if sha256 then Hex.encode (Sha256.digest data)
  else Hex.encode (Sha1.digest data) ++ String.ofList (List.replicate 24 '0')

/-- The calls of a client. Names and hashes are sent as they are given. Of a key that is pushed
more than once the first place and the last value count. -/
inductive Call where
  | create (sha256 : Json)
  | addObject (data : Bytes) (sha256 : Bool)
  | getObject (hash : Json)
  | listObjects
  | upsertReference (name hash : Json)
  | deleteReference (name : Json)
  | getReference (name : Json)
  | resolveReferences (names : Json)
  | listReferences
  | push (objects : List (Json.Key × Bytes)) (references : List (Json.Key × Json))
  | setDefaultBranch (name : Json)

/-- What a call of the client answers. -/
inductive Value where
  | json (value : Json)
  | bytes (bytes : Bytes)

/-- The path of the repository at the service. -/
def repositoryPath (client : Client) : String :=
  Percent.quote [] client.repository

/-- The path of one of its references. -/
def referencePath (client : Client) : Json → Except ValueFault String
  | .string name => .ok (client.repositoryPath ++ "/refs/" ++ Percent.quote ['/'] name)
  | _ => .error .notQuotable

/-- A request for a path of the service. -/
def requestFor (client : Client) (method : Http.Method) (path : String)
    (payload : Option Json) : Request :=
  ⟨method, client.address ++ "/" ++ path, payload⟩

/-- What a call sends. -/
def request (client : Client) : Call → Except ValueFault Request
  | .create sha256 =>
    .ok (client.requestFor .post "repos"
      (some (.object [("name", .string client.repository), ("sha256", sha256)])))
  | .addObject data sha256 =>
    .ok (client.requestFor .post (client.repositoryPath ++ "/objects")
      (some (.object [("hash", .string (hashText data sha256)),
        ("data", .string (Hex.encode data))])))
  | .getObject hash =>
    .ok (client.requestFor .get (client.repositoryPath ++ "/objects/" ++ hash.plain) none)
  | .listObjects => .ok (client.requestFor .get (client.repositoryPath ++ "/objects") none)
  | .upsertReference name hash => do
    return client.requestFor .put (← client.referencePath name) (some (.object [("hash", hash)]))
  | .deleteReference name => do
    return client.requestFor .delete (← client.referencePath name) none
  | .getReference name => do
    return client.requestFor .get (← client.referencePath name) none
  | .resolveReferences names => do
    return client.requestFor .post (client.repositoryPath ++ "/resolve")
      (some (.object [("names", .array (← elements names))]))
  | .listReferences => .ok (client.requestFor .get (client.repositoryPath ++ "/refs") none)
  | .push objects references =>
    .ok (client.requestFor .post (client.repositoryPath ++ "/push") (some (.object [
      ("objects", .array ((Entries.ofList objects).map fun (hash, data) =>
        .object [("hash", hash.value), ("data", .string (Hex.encode data))])),
      ("refs", .array ((Entries.ofList references).map fun (name, hash) =>
        .object [("name", name.value), ("hash", hash)]))])))
  | .setDefaultBranch name =>
    .ok (client.requestFor .put (client.repositoryPath ++ "/default-branch")
      (some (.object [("name", name)])))

/-- The body of an answer, unless its status says that the call was refused. -/
def Reply.accepted (reply : Reply) : Except Failure Json := do
  let body := reply.body.getD (.object [])
  if 400 ≤ reply.status then
    let error ← (memberOr body "error" (.string "HTTPError")).mapError .fault
    let detail ← (memberOr body "detail" (.string reply.text)).mapError .fault
    throw (.remote ⟨reply.status, error, detail⟩)
  else return body

/-- What a call makes of the body of its answer. -/
def Call.read : Call → Json → Except ValueFault Value
  | .addObject data sha256, _ => .ok (.json (.string (hashText data sha256)))
  | .getObject _, body => do return .bytes (← hexBytes (← entry body "data"))
  | .listObjects, body | .resolveReferences _, body => do return .json (← entry body "hashes")
  | .upsertReference .., body | .deleteReference _, body => do
    return .json (← entry body "previous")
  | .getReference _, body => do return .json (← entry body "hash")
  | .setDefaultBranch _, body => do return .json (← entry body "default_branch")
  | .create _, body | .listReferences, body | .push .., body => .ok (.json body)

/-- Makes a call over a way of sending requests. -/
def perform {m : Type → Type} [Monad m] (send : Request → m Reply) (client : Client)
    (call : Call) : m (Except Failure Value) := do
  match client.request call with
  | .error cause => return .error (.fault cause)
  | .ok request =>
    let reply ← send request
    return do
      let body ← reply.accepted
      (call.read body).mapError .fault

end Client

end ObjectDepot
