import ObjectDepot.Repository.Objects

/-!
# References of a repository

A new reference comes last in the listing. When a reference is deleted, the last one moves into its
place, so the listing is in the order of insertion only until the first deletion.
-/

namespace ObjectDepot

namespace Repository

open Procedure

/-- The row of a reference. -/
def findReference? (repository : Repository) (name : String) : Option Reference :=
  repository.references.find? (·.name == name)

/-- The row of the reference that a value names. -/
def lookupReference? (repository : Repository) (name : Json) : Option Reference :=
  (lookupKey? name).bind repository.findReference?

/-- The greatest position in use, zero if there is none. -/
def lastPosition (repository : Repository) : Nat :=
  repository.references.foldl (fun last row => max last row.position) 0

/-- The rows by position. -/
def listedReferences (repository : Repository) : List Reference :=
  repository.references.mergeSort fun a b => a.position ≤ b.position

/-- The hash that a reference points at. -/
def getReference (name : Json) : Procedure Repository Bytes := do
  match (← content).lookupReference? name with
  | some row => return row.hash
  | none => reject (.referenceNotFound name)

/-- The hash that a name resolves to: zero for a name that is missing, and for a value that is no
text. -/
def resolveName (repository : Repository) : Json → Except Fault Bytes
  | .string name => .ok (((repository.findReference? name).map (·.hash)).getD Hash.zero)
  | .array items => .error (.notHashable (.array items))
  | .object members => .error (.notHashable (.object members))
  | _ => .ok Hash.zero

/-- The hashes that a list of names resolves to. -/
def resolveNames (repository : Repository) (names : List Json) : Except Fault (List Bytes) :=
  names.mapM repository.resolveName

/-- Resolves all names in turn, however many there are. -/
def resolveReferences (names : Json) : Procedure Repository (List Bytes) := do
  match names.elements? with
  | some elements => orFault ((← content).resolveNames elements)
  | none => orFault (.error (.notIterable names))

/-- Tells that a reference now points at `hash` and pointed at `previous`. -/
def noteReference (name : Json) (hash previous : Bytes) : Procedure Repository Unit := do
  let repository ← content
  note (.referenceChanged repository.name name hash previous)
  emit (.referenceChanged repository.name name hash previous)

/-- The table with a row added at the end of the listing. -/
def insertReference (repository : Repository) (name : String) (hash : Bytes) : Repository :=
  { repository with
    references := repository.references ++ [⟨repository.lastPosition + 1, name, hash⟩] }

/-- The table with the hash of a name replaced. -/
def replaceReference (repository : Repository) (name : String) (hash : Bytes) : Repository :=
  { repository with
    references := repository.references.map fun row =>
      if row.name = name then { row with hash := hash } else row }

/-- The table without a row, whose position the last row takes over. -/
def eraseReference (repository : Repository) (removed : Reference) : Repository :=
  let last := repository.lastPosition
  { repository with
    references := (repository.references.filter (·.name != removed.name)).map fun row =>
      if removed.position ≠ last ∧ row.position = last then
        { row with position := removed.position }
      else row }

/-- Points a reference at a stored object. The value is the hash before, zero for a new one. -/
def upsertReference (name : Json) (hash : Bytes) : Procedure Repository Bytes := do
  let repository ← content
  match validName? name with
  | none => reject (.invalidName name)
  | some text =>
    if Hash.isZero hash then reject .emptyHash
    else if !repository.hasObject hash then reject (.objectNotFound hash)
    else
      match repository.findReference? text with
      | none =>
        update fun repository => repository.insertReference text hash
        noteReference name hash Hash.zero
        return Hash.zero
      | some row =>
        update fun repository => repository.replaceReference text hash
        noteReference name hash row.hash
        return row.hash

/-- Removes a reference. The value is the hash it pointed at. -/
def deleteReference (name : Json) : Procedure Repository Bytes := do
  let repository ← content
  if repository.lastPosition = 0 then reject .noReferences
  else
    match repository.lookupReference? name with
    | none => reject (.referenceNotFound name)
    | some row =>
      update fun repository => repository.eraseReference row
      noteReference name Hash.zero row.hash
      return row.hash

end Repository

end ObjectDepot
