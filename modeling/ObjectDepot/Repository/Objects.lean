import ObjectDepot.Repository.Basic

/-!
# Objects of a repository

An object is stored under the digest of its payload and never changes.
-/

namespace ObjectDepot.Repository

open Procedure

/-- The object under a hash. -/
def findObject? (repository : Repository) (hash : Bytes) : Option StoredObject :=
  repository.objects.find? (·.hash == hash)

/-- Whether there is an object under a hash. -/
def hasObject (repository : Repository) (hash : Bytes) : Bool :=
  (repository.findObject? hash).isSome

/-- The hashes of all objects, the oldest first. -/
def objectHashes (repository : Repository) : List Bytes :=
  repository.objects.map (·.hash)

/-- The payload under a hash. -/
def getObject (hash : Bytes) : Procedure Repository Bytes := do
  match (← content).findObject? hash with
  | some object => return object.data
  | none => reject (.objectNotFound hash)

/-- Stores a payload under its hash, which must be the digest of the payload. -/
def putObject (hash data : Bytes) : Procedure Repository Unit := do
  let repository ← content
  let actual := Hash.digest repository.algorithm data
  if data.isEmpty then reject .emptyPayload
  else if Hash.isZero hash then reject .emptyHash
  else if actual ≠ hash then reject (.hashMismatch hash actual)
  else if repository.hasObject hash then reject (.objectAlreadyExists hash)
  else
    update fun repository => { repository with objects := repository.objects ++ [⟨hash, data⟩] }
    note (.objectAdded repository.name hash data.length)
    emit (.objectAdded repository.name hash)

end ObjectDepot.Repository
