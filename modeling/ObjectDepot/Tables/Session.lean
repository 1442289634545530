import ObjectDepot.Backend
import ObjectDepot.Tables.Basic

/-!
# Operations on tables

The operations of the library on a repository in the shared tables. A `Session` is the tables with the
row of a repository as it was read. Each query is told the repository, and each statement changes one
row by its key, but for the one that moves the last reference.
-/

namespace ObjectDepot

/-- The tables, and the row of the repository at hand as it was read. -/
structure Session where
  tables : Tables
  row : Row RepositoryRow

namespace Session

open Procedure

/-! ## Objects -/

/-- The row of the object under a hash. -/
def findObject? (session : Session) (hash : Bytes) : Option (Row ObjectRow) :=
  session.tables.objects.first? fun row => row.repository == session.row.id && row.hash == hash

/-- Whether there is an object under a hash. -/
def hasObject (session : Session) (hash : Bytes) : Bool :=
  (session.findObject? hash).isSome

/-- The hashes of all objects, the oldest first. -/
def objectHashes (session : Session) : List Bytes :=
  (session.tables.objectsOf session.row.id).map (·.value.hash)

/-- The tables with a row for an object. -/
def insertObject (hash data : Bytes) (session : Session) : Session :=
  { session with
    tables.objects := session.tables.objects.insert ⟨session.row.id, hash, data⟩ }

/-- The payload under a hash. -/
def getObject (hash : Bytes) : Procedure Session Bytes := do
  match (← content).findObject? hash with
  | some object => return object.value.data
  | none => reject (.objectNotFound hash)

/-- Stores a payload under its hash, which must be the digest of the payload. -/
def putObject (hash data : Bytes) : Procedure Session Unit := do
  let session ← content
  let actual := Hash.digest session.row.value.algorithm data
  if data.isEmpty then reject .emptyPayload
  else if Hash.isZero hash then reject .emptyHash
  else if actual ≠ hash then reject (.hashMismatch hash actual)
  else if session.hasObject hash then reject (.objectAlreadyExists hash)
  else
    update (insertObject hash data)
    note (.objectAdded session.row.value.name hash data.length)
    emit (.objectAdded session.row.value.name hash)

/-! ## References -/

/-- The row of a reference. -/
def findReference? (session : Session) (name : String) : Option (Row ReferenceRow) :=
  session.tables.references.first? fun row =>
    row.repository == session.row.id && row.name == name

/-- The row of the reference that a value names. -/
def lookupReference? (session : Session) (name : Json) : Option (Row ReferenceRow) :=
  (lookupKey? name).bind session.findReference?

/-- The greatest position in use, zero if there is none. -/
def lastPosition (session : Session) : Nat :=
  (session.tables.referencesOf session.row.id).foldl
    (fun last row => max last row.value.position) 0

/-- The rows of the references by position. -/
def listedReferences (session : Session) : List (Row ReferenceRow) :=
  (session.tables.referencesOf session.row.id).mergeSort fun a b =>
    a.value.position ≤ b.value.position

/-- The listing: the references by position, the head and the hash algorithm. -/
def listing (session : Session) : Listing where
  normal := session.listedReferences.map fun row => (row.value.name, row.value.hash)
  symbolic := [("HEAD", session.row.value.defaultBranch)]
  keyValue := [("object-format", session.row.value.algorithm.name)]

/-- The tables with a row for a reference that comes last in the listing. -/
def insertReference (name : String) (hash : Bytes) (session : Session) : Session :=
  { session with
    tables.references := session.tables.references.insert
      ⟨session.row.id, name, hash, session.lastPosition + 1⟩ }

/-- The tables with the hash of a reference replaced. -/
def saveReference (id : Nat) (hash : Bytes) (session : Session) : Session :=
  { session with
    tables.references := session.tables.references.update (·.id == id) ({ · with hash := hash }) }

/-- The tables without a reference. -/
def dropReference (id : Nat) (session : Session) : Session :=
  { session with tables.references := session.tables.references.delete id }

/-- The tables with the reference at one position moved to another. -/
def moveReference (position place : Nat) (session : Session) : Session :=
  { session with
    tables.references := session.tables.references.update
      (fun row => row.value.repository == session.row.id && row.value.position == position)
      ({ · with position := place }) }

/-- The tables without a reference, whose position the last one takes over. -/
def eraseReference (removed : Row ReferenceRow) (session : Session) : Session :=
  let last := session.lastPosition
  let rest := session.dropReference removed.id
  if removed.value.position ≠ last then rest.moveReference last removed.value.position else rest

/-- The hash that a reference points at. -/
def getReference (name : Json) : Procedure Session Bytes := do
  match (← content).lookupReference? name with
  | some row => return row.value.hash
  | none => reject (.referenceNotFound name)

/-- The names and hashes of the references that one of several values names. -/
def namedReferences (session : Session) (names : List Json) : List (String × Bytes) :=
  let keys := names.filterMap lookupKey?
  (session.tables.references.select fun row =>
    row.repository == session.row.id && keys.contains row.name).map fun row =>
      (row.value.name, row.value.hash)

/-- The hash that a name resolves to among some: zero for a name that is missing, and for a value that
is no text. -/
def resolveName (found : List (String × Bytes)) : Json → Except Fault Bytes
  | .string name => .ok ((found.lookup name).getD Hash.zero)
  | .array items => .error (.notHashable (.array items))
  | .object members => .error (.notHashable (.object members))
  | _ => .ok Hash.zero

/-- Resolves all names in turn, with one query that takes any number of them. -/
def resolveReferences (names : Json) : Procedure Session (List Bytes) := do
  match names.elements? with
  | some elements =>
    let found := (← content).namedReferences elements
    orFault (elements.mapM (resolveName found))
  | none => orFault (.error (.notIterable names))

/-- Tells that a reference now points at `hash` and pointed at `previous`. -/
def noteReference (name : Json) (hash previous : Bytes) : Procedure Session Unit := do
  let session ← content
  note (.referenceChanged session.row.value.name name hash previous)
  emit (.referenceChanged session.row.value.name name hash previous)

/-- Points a reference at a stored object. The value is the hash before, zero for a new one. -/
def upsertReference (name : Json) (hash : Bytes) : Procedure Session Bytes := do
  let session ← content
  match validName? name with
  | none => reject (.invalidName name)
  | some text =>
    if Hash.isZero hash then reject .emptyHash
    else if !session.hasObject hash then reject (.objectNotFound hash)
    else
      match session.findReference? text with
      | none =>
        update (insertReference text hash)
        noteReference name hash Hash.zero
        return Hash.zero
      | some row =>
        update (saveReference row.id hash)
        noteReference name hash row.value.hash
        return row.value.hash

/-- Removes a reference. The value is the hash it pointed at. -/
def deleteReference (name : Json) : Procedure Session Bytes := do
  let session ← content
  if session.lastPosition = 0 then reject .noReferences
  else
    match session.lookupReference? name with
    | none => reject (.referenceNotFound name)
    | some row =>
      update (eraseReference row)
      noteReference name Hash.zero row.value.hash
      return row.value.hash

/-- Points a reference at a hash, or deletes it where the hash is zero. -/
def changeReference (name : Json) (hash : Bytes) : Procedure Session Unit := do
  if Hash.isZero hash then
    let _ ← deleteReference name
  else
    let _ ← upsertReference name hash

/-! ## Pushes -/

/-- Applies a push as one unit. -/
def push (objects : List (Bytes × Bytes)) (references : List (Json × Bytes)) :
    Procedure Session Unit := do
  if objects.isEmpty && references.isEmpty then reject .noData
  else
    atomically do
      objects.forM fun (hash, data) => putObject hash data
      references.forM fun (name, hash) => changeReference name hash
    note (.pushApplied (← content).row.value.name objects.length references.length)

/-! ## Branch and owner -/

/-- The public face of the repository. -/
def summary (session : Session) : RepositorySummary :=
  ⟨session.row.value.name, session.row.value.algorithm, session.row.value.defaultBranch,
    .string session.row.value.owner⟩

/-- Changes the row at hand, and saves it. -/
def save (f : RepositoryRow → RepositoryRow) (session : Session) : Session where
  tables := { session.tables with
    repositories := session.tables.repositories.update (·.id == session.row.id) f }
  row := { session.row with value := f session.row.value }

/-- Sets the default branch by its short name. The value is its full name. -/
def setDefaultBranch (name : Json) : Procedure Session String := do
  let session ← content
  match name with
  | .string "" => reject .emptyDefaultBranch
  | .string short =>
    let branch := branchFolder ++ short
    update (save ({ · with defaultBranch := branch }))
    note (.defaultBranchSet session.row.value.name branch)
    return branch
  | _ => reject (.invalidName name)

/-- Fails unless the caller is the owner. -/
def ensureOwner (caller : Json) : Procedure Session Unit := do
  if Repository.isAccount caller (← content).row.value.owner then return ()
  else reject (.notOwner caller)

/-- Names a successor. -/
def transferOwnership (caller newOwner : Json) : Procedure Session Unit := do
  ensureOwner caller
  match validName? newOwner with
  | none => reject (.invalidName newOwner)
  | some successor =>
    update (save ({ · with pendingOwner := successor }))
    note (.transferStarted (← content).row.value.name successor)

/-- Makes the caller the owner, if the caller is the successor that was named last. -/
def acceptOwnership (caller : Json) : Procedure Session Unit := do
  let session ← content
  let successor := session.row.value.pendingOwner
  if successor = "" then reject .noPendingOwner
  else if Repository.isAccount caller successor then
    update (save ({ · with owner := successor, pendingOwner := "" }))
    note (.transferred session.row.value.name successor)
  else reject (.notOwner caller)

end Session

namespace Tables

open Procedure

/-- The row of the repository that a value names. -/
def lookup? (tables : Tables) (name : Json) : Option (Row RepositoryRow) :=
  (lookupKey? name).bind fun key => tables.repositories.first? (·.name == key)

/-- Runs a procedure on the tables, with the row of the repository that a value names. -/
def within {α : Type} (name : Json) (procedure : Procedure Session α) : Procedure Tables α :=
  ExceptT.mk fun work =>
    match work.content.lookup? name with
    | none => (.error (.rejected (.repositoryNotFound name)), work)
    | some row =>
      let (outcome, after) := procedure.run { work with content := ⟨work.content, row⟩ }
      (outcome, { after with content := after.content.tables })

/-- The tables with a row for a repository. -/
def insertRepository (row : RepositoryRow) (tables : Tables) : Tables :=
  { tables with repositories := tables.repositories.insert row }

/-- Creates a repository. The name must be new, and the owner may not be null. -/
def createRepository (branch : String) (name owner algorithm : Json) :
    Procedure Tables RepositorySummary := do
  match validName? name with
  | none => reject (.invalidName name)
  | some text =>
    let algorithm ← orFault (Algorithm.ofJson algorithm)
    match (← content).repositories.first? (·.name == text), lookupKey? owner with
    | none, some account =>
      let row : RepositoryRow := ⟨text, algorithm, branchFolder ++ branch, account, ""⟩
      update (insertRepository row)
      note (.repositoryCreated text algorithm owner)
      return ⟨row.name, row.algorithm, row.defaultBranch, owner⟩
    | _, _ => reject (.repositoryAlreadyExists name)

end Tables

instance : RepositoryBackend Session where
  summary := Session.summary
  owner session := session.row.value.owner
  pendingOwner session := session.row.value.pendingOwner
  hasObject := Session.hasObject
  objectHashes := Session.objectHashes
  listing := Session.listing
  putObject := Session.putObject
  getObject := Session.getObject
  upsertReference := Session.upsertReference
  deleteReference := Session.deleteReference
  getReference := Session.getReference
  resolveReferences := Session.resolveReferences
  push := Session.push
  setDefaultBranch := Session.setDefaultBranch
  ensureOwner := Session.ensureOwner
  transferOwnership := Session.transferOwnership
  acceptOwnership := Session.acceptOwnership

instance : StoreBackend Tables Session where
  within := Tables.within
  createRepository := Tables.createRepository
  shown := Tables.store

end ObjectDepot
