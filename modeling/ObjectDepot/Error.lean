import ObjectDepot.Codec.Hex
import ObjectDepot.Json.Display

/-!
# What can go wrong

A `StoreError` is a rejection by the rules of the store. It belongs to a family: the caller sent bad
input, the call does not fit the contents, or the caller may not do it. A `Fault` is anything else
that stops a call. `message` gives the words of both.
-/

namespace ObjectDepot

/-- What is wrong with the body of a request. -/
inductive RequestFlaw where
  | notJson
  | notAnObject
  | sha256NotBoolean
  | namesNotAList
  | itemsNotObjects (field : String)
  | payloadNotHex
  deriving DecidableEq

/-- The words for a flaw. -/
def RequestFlaw.message : RequestFlaw → String
  | .notJson => "Body is not valid JSON"
  | .notAnObject => "Body must be a JSON object"
  | .sha256NotBoolean => "sha256 must be true or false"
  | .namesNotAList => "names must be a list"
  | .itemsNotObjects field => field ++ " must be a list of objects"
  | .payloadNotHex => "Object data must be hex encoded"

/-- The families of rejections. -/
inductive Family where
  | validation
  | state
  | authorization
  deriving DecidableEq

/-- The public name of a family. -/
def Family.name : Family → String
  | .validation => "GitStoreValidationError"
  | .state => "GitStoreStateError"
  | .authorization => "GitStoreAuthorizationError"

/-- The public name of all rejections together. -/
def Family.rootName : String := "GitStoreError"

/-- The status with which a family answers a request. -/
def Family.status : Family → Nat
  | .validation => 400
  | .state => 409
  | .authorization => 403

/-- A rejection by the rules of the store. Names and callers are kept as they were given. -/
inductive StoreError where
  | emptyPayload
  | emptyHash
  | malformedHash (value : Json)
  | invalidName (name : Json)
  | emptyDefaultBranch
  | noData
  | badRequest (flaw : RequestFlaw)
  | hashMismatch (given actual : Bytes)
  | objectAlreadyExists (hash : Bytes)
  | objectNotFound (hash : Bytes)
  | referenceNotFound (name : Json)
  | noReferences
  | repositoryNotFound (name : Json)
  | repositoryAlreadyExists (name : Json)
  | noPendingOwner
  | notOwner (caller : Json)

namespace StoreError

/-- The family of a rejection. -/
def family : StoreError → Family
  | .emptyPayload | .emptyHash | .malformedHash _ | .invalidName _ | .emptyDefaultBranch | .noData
  | .badRequest _ => .validation
  | .hashMismatch .. | .objectAlreadyExists _ | .objectNotFound _ | .referenceNotFound _
  | .noReferences | .repositoryNotFound _ | .repositoryAlreadyExists _ | .noPendingOwner => .state
  | .notOwner _ => .authorization

/-- The public name of a rejection. -/
def kind : StoreError → String
  | .emptyPayload => "EmptyPayload"
  | .emptyHash => "EmptyHash"
  | .malformedHash _ => "MalformedHash"
  | .invalidName _ => "InvalidName"
  | .emptyDefaultBranch => "EmptyDefaultBranch"
  | .noData => "NoData"
  | .badRequest _ => "BadRequest"
  | .hashMismatch .. => "HashMismatch"
  | .objectAlreadyExists _ => "ObjectAlreadyExists"
  | .objectNotFound _ => "ObjectNotFound"
  | .referenceNotFound _ => "ReferenceNotFound"
  | .noReferences => "NoReferences"
  | .repositoryNotFound _ => "RepositoryNotFound"
  | .repositoryAlreadyExists _ => "RepositoryAlreadyExists"
  | .noPendingOwner => "NoPendingOwner"
  | .notOwner _ => "NotOwner"

/-- The status with which a rejection answers a request: that of its family, but 404 where
something was not found. -/
def status : StoreError → Nat
  | .objectNotFound _ | .referenceNotFound _ | .repositoryNotFound _ => 404
  | error => error.family.status

/-- The words for a rejection. -/
def message : StoreError → String
  | .emptyPayload => "Object is empty"
  | .emptyHash => "Hash is empty"
  | .malformedHash value => "Hash is malformed: " ++ value.literal
  | .invalidName name => "Name is invalid: " ++ name.literal
  | .emptyDefaultBranch => "Default branch is empty"
  | .noData => "No objects or refs to push"
  | .badRequest flaw => flaw.message
  | .hashMismatch given actual =>
    "Hash mismatch: got " ++ Hex.encode given ++ ", data hashes to " ++ Hex.encode actual
  | .objectAlreadyExists hash => "Object already exists: " ++ Hex.encode hash
  | .objectNotFound hash => "Object not found: " ++ Hex.encode hash
  | .referenceNotFound name => "Ref not found: " ++ name.plain
  | .noReferences => "No refs"
  | .repositoryNotFound name => "Repository not found: " ++ name.plain
  | .repositoryAlreadyExists name => "Repository already exists: " ++ name.plain
  | .noPendingOwner => "No ownership transfer is pending"
  | .notOwner caller => "Unauthorized account: " ++ caller.literal

end StoreError

/-- A failure outside the rules of the store. Work is `aborted` by the caller who gives up a transaction,
and by the service to which too long a body is sent. -/
inductive Fault where
  | unknownAlgorithm (value : Json)
  | slotOverflow
  | notIterable (value : Json)
  | notHashable (value : Json)
  | credentialsNotAscii
  | aborted

/-- The words for a fault. -/
def Fault.message : Fault → String
  | .unknownAlgorithm value => "unknown hash algorithm " ++ value.literal
  | .slotOverflow => "negative count"
  | .notIterable value => Text.singleQuoted value.typeName ++ " object is not iterable"
  | .notHashable value => "unhashable type: " ++ Text.singleQuoted value.typeName
  | .credentialsNotAscii => "string argument should contain only ASCII characters"
  | .aborted => "aborted"

/-- The status with which a fault answers a request: the service is at fault, but for a request that it
gives up. -/
def Fault.status : Fault → Nat
  | .aborted => 400
  | _ => 500

/-- Why a call fails. -/
inductive Failure where
  | rejected (error : StoreError)
  | fault (cause : Fault)

/-- The words for a failure. -/
def Failure.message : Failure → String
  | .rejected error => error.message
  | .fault cause => cause.message

end ObjectDepot
