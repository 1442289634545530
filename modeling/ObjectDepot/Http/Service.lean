import ObjectDepot.Http.Caller
import ObjectDepot.Http.Message

/-!
# The service

`Service.respond` answers a request. A request works in a transaction: one that is rejected, or
stopped by a fault, leaves the store as it was and sends no event. Only the owner of a repository
may change it, but for the successor who accepts it.
-/

namespace ObjectDepot.Http

open Procedure

/-- A service: the short name of the default branch of new repositories, and the accounts. -/
structure Service where
  branch : String
  accounts : List Account

/-- The owner of a repository and the one who may become it, in an answer. -/
def ownersReply {ρ : Type} [RepositoryBackend ρ] : Procedure ρ Reply := do
  let repository ← content
  return ⟨200, .object [("owner", .string (RepositoryBackend.owner repository)),
    ("pending_owner", .string (RepositoryBackend.pendingOwner repository))]⟩

namespace Service

variable {σ ρ : Type} [RepositoryBackend ρ] (service : Service) (request : Request)

/-- The account that sends the request. -/
def caller : Procedure σ (Option String) :=
  orFault (Http.caller service.accounts request.login request.authorization)

/-- Fails unless the owner of the repository sends the request. -/
def gate : Procedure ρ Unit := do
  RepositoryBackend.ensureOwner (callerValue (← service.caller request))

/-- Creates a repository for whoever is logged in. -/
def createRepository [StoreBackend σ ρ] : Procedure σ Reply := do
  let members ← ofExcept request.members
  match ← service.caller request with
  | none =>
    return ⟨401, .object [("error", .string "NotAuthenticated"),
      ("detail", .string "Log in first")]⟩
  | some account =>
    match (members.get? "sha256").getD (.bool true) with
    | .bool sha256 =>
      let name := (members.get? "name").getD (.string "")
      let summary ← StoreBackend.createRepository service.branch name (.string account)
        (.string (Algorithm.ofFlag sha256).name)
      return ⟨201, summaryBody summary⟩
    | _ => reject (.badRequest .sha256NotBoolean)

/-- Stores one object. -/
def addObject : Procedure ρ Reply := do
  service.gate request
  let members ← ofExcept request.members
  let hash ← ofExcept (Hash.ofJson (field members "hash"))
  let data ← ofExcept (payloadOfJson (field members "data"))
  RepositoryBackend.putObject hash data
  return ⟨201, .object [("hash", hexText hash)]⟩

/-- Points one reference at an object. -/
def putReference (name : String) : Procedure ρ Reply := do
  service.gate request
  let members ← ofExcept request.members
  let hash ← ofExcept (Hash.ofJson (field members "hash"))
  let previous ← RepositoryBackend.upsertReference (.string name) hash
  return ⟨200, .object [("name", .string name), ("hash", hexText hash),
    ("previous", hexText previous)]⟩

/-- Deletes one reference. -/
def deleteReference (name : String) : Procedure ρ Reply := do
  service.gate request
  let previous ← RepositoryBackend.deleteReference (.string name)
  return ⟨200, .object [("name", .string name), ("previous", hexText previous)]⟩

/-- Applies a push. -/
def push : Procedure ρ Reply := do
  service.gate request
  let members ← ofExcept request.members
  let objects ← ofExcept ((← ofExcept (items members "objects")).mapM pushedObject)
  let references ← ofExcept ((← ofExcept (items members "refs")).mapM pushedReference)
  RepositoryBackend.push objects references
  return ⟨200, .object [("status", .string "pushed"), ("objects", .int objects.length),
    ("refs", .int references.length)]⟩

/-- Sets the default branch. -/
def setDefaultBranch : Procedure ρ Reply := do
  service.gate request
  let members ← ofExcept request.members
  let branch ← RepositoryBackend.setDefaultBranch ((members.get? "name").getD (.string ""))
  return ⟨200, .object [("default_branch", .string branch)]⟩

/-- Names a successor to the owner. -/
def transfer : Procedure ρ Reply := do
  let account ← service.caller request
  let members ← ofExcept request.members
  RepositoryBackend.transferOwnership (callerValue account)
    ((members.get? "owner").getD (.string ""))
  ownersReply

/-- Makes the sender the owner. -/
def accept : Procedure ρ Reply := do
  RepositoryBackend.acceptOwnership (callerValue (← service.caller request))
  ownersReply

/-- Resolves a list of names. -/
def resolve : Procedure ρ Reply := do
  let members ← ofExcept request.members
  match (members.get? "names").getD (.array []) with
  | .array names => return ⟨200, hashesBody (← RepositoryBackend.resolveReferences (.array names))⟩
  | _ => reject (.badRequest .namesNotAList)

/-- Shows one object. -/
def showObject (text : String) : Procedure ρ Reply := do
  let hash ← ofExcept (Hash.ofJson (.string text))
  let data ← RepositoryBackend.getObject hash
  return ⟨200, .object [("hash", hexText hash), ("data", hexText data)]⟩

/-- Shows one reference. -/
def showReference (name : String) : Procedure ρ Reply := do
  let hash ← RepositoryBackend.getReference (.string name)
  return ⟨200, .object [("name", .string name), ("hash", hexText hash)]⟩

/-- Answers what is asked of a repository. -/
def handleResource (method : Method) : Resource → Procedure ρ Reply
  | .push => service.push request
  | .objects =>
    if method = .get then do return ⟨200, hashesBody (RepositoryBackend.objectHashes (← content))⟩
    else service.addObject request
  | .object hash => showObject hash
  | .references => do return ⟨200, listingBody (RepositoryBackend.listing (← content))⟩
  | .reference name =>
    match method with
    | .get => showReference name
    | .delete => service.deleteReference request name
    | _ => service.putReference request name
  | .resolve => resolve request
  | .defaultBranch => service.setDefaultBranch request
  | .transfer => service.transfer request
  | .accept => service.accept request

/-- Answers what is asked of an endpoint by a method that it takes. -/
def handle [StoreBackend σ ρ] (method : Method) : Endpoint → Procedure σ Reply
  | .repositories => service.createRepository request
  | .repository name resource =>
    StoreBackend.within (.string name) (service.handleResource request method resource)

/-- Answers a rejection. -/
def rejection (error : StoreError) : Response :=
  .json error.status (.object [("error", .string error.kind), ("detail", .string error.message)])

/-- Answers a request. -/
def respond [StoreBackend σ ρ] : StateM (Work σ) Response := do
  let path := pathOf request.target
  match Endpoint.ofPath? path with
  | none => return .notFound
  | some endpoint =>
    match (Method.ofName? request.method).filter (· ∈ endpoint.methods) with
    | none => return .methodNotAllowed endpoint.methods
    | some method =>
      match ← (atomically (service.handle request method endpoint)).run with
      | .ok reply => return .json reply.status reply.body
      | .error (.rejected error) =>
        modify fun work => { work with
          log := work.log ++ [.requestRejected method.name (String.ofList path) error] }
        return rejection error
      | .error (.fault cause) => return .crashed cause

end Service

end ObjectDepot.Http
