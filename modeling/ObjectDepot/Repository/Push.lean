import ObjectDepot.Repository.References

/-!
# Pushes

A push stores objects and then changes references, all of it or nothing.
-/

namespace ObjectDepot.Repository

open Procedure

/-- Points a reference at a hash, or deletes it where the hash is zero. -/
def changeReference (name : Json) (hash : Bytes) : Procedure Repository Unit := do
  if Hash.isZero hash then
    let _ ← deleteReference name
  else
    let _ ← upsertReference name hash

/-- The operations of a push in their order. -/
def applyPush (objects : List (Bytes × Bytes)) (references : List (Json × Bytes)) :
    Procedure Repository Unit := do
  objects.forM fun (hash, data) => putObject hash data
  references.forM fun (name, hash) => changeReference name hash

/-- Applies a push as one unit. -/
def push (objects : List (Bytes × Bytes)) (references : List (Json × Bytes)) :
    Procedure Repository Unit := do
  if objects.isEmpty && references.isEmpty then reject .noData
  else
    atomically (applyPush objects references)
    note (.pushApplied (← content).name objects.length references.length)

end ObjectDepot.Repository
