import ObjectDepot.Store

/-!
# Backends

The operations of the library over whatever holds the data. `RepositoryBackend` has those on the
repository at hand, `StoreBackend` those that lead to a repository. Calls and requests are written
once, over any backend. Here is the backend in which each repository holds its own objects and
references; `Tables` is another, in which all repositories share their tables.
-/

namespace ObjectDepot

/-- The references of a repository as they are listed. -/
structure Listing where
  normal : List (String × Bytes)
  symbolic : List (String × String)
  keyValue : List (String × String)
  deriving DecidableEq

/-- The listing of a repository: its references by position, the head and the hash algorithm. -/
def Repository.listing (repository : Repository) : Listing where
  normal := repository.listedReferences.map fun row => (row.name, row.hash)
  symbolic := [("HEAD", repository.defaultBranch)]
  keyValue := [("object-format", repository.algorithm.name)]

/-- The operations on the repository at hand. -/
class RepositoryBackend (ρ : Type) where
  summary : ρ → RepositorySummary
  owner : ρ → String
  pendingOwner : ρ → String
  hasObject : ρ → Bytes → Bool
  objectHashes : ρ → List Bytes
  listing : ρ → Listing
  putObject : Bytes → Bytes → Procedure ρ Unit
  getObject : Bytes → Procedure ρ Bytes
  upsertReference : Json → Bytes → Procedure ρ Bytes
  deleteReference : Json → Procedure ρ Bytes
  getReference : Json → Procedure ρ Bytes
  resolveReferences : Json → Procedure ρ (List Bytes)
  push : List (Bytes × Bytes) → List (Json × Bytes) → Procedure ρ Unit
  setDefaultBranch : Json → Procedure ρ String
  ensureOwner : Json → Procedure ρ Unit
  transferOwnership : Json → Json → Procedure ρ Unit
  acceptOwnership : Json → Procedure ρ Unit

/-- The operations on a store. `within` works on the repository that a value names, as it is stored
when the work begins. `createRepository` is given the short name of the default branch first. -/
class StoreBackend (σ : Type) (ρ : outParam Type) where
  within : {α : Type} → Json → Procedure ρ α → Procedure σ α
  createRepository : String → Json → Json → Json → Procedure σ RepositorySummary
  shown : σ → Store

instance : RepositoryBackend Repository where
  summary := Repository.summary
  owner := Repository.owner
  pendingOwner := Repository.pendingOwner
  hasObject := Repository.hasObject
  objectHashes := Repository.objectHashes
  listing := Repository.listing
  putObject := Repository.putObject
  getObject := Repository.getObject
  upsertReference := Repository.upsertReference
  deleteReference := Repository.deleteReference
  getReference := Repository.getReference
  resolveReferences := Repository.resolveReferences
  push := Repository.push
  setDefaultBranch := Repository.setDefaultBranch
  ensureOwner := Repository.ensureOwner
  transferOwnership := Repository.transferOwnership
  acceptOwnership := Repository.acceptOwnership

instance : StoreBackend Store Repository where
  within := Store.within
  createRepository := Store.createRepository
  shown := id

end ObjectDepot
