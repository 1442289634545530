import ObjectDepot.Repository.Basic

/-!
# Branch and owner of a repository

Ownership passes in two steps: the owner names a successor, and the successor accepts.
-/

namespace ObjectDepot.Repository

open Procedure

/-- Whether a caller is the account with a name; nobody is the account without one. -/
def isAccount (caller : Json) (account : String) : Bool :=
  validName? caller == some account

/-- Sets the default branch by its short name. The value is its full name. -/
def setDefaultBranch (name : Json) : Procedure Repository String := do
  let repository ← content
  match name with
  | .string "" => reject .emptyDefaultBranch
  | .string short =>
    let branch := branchFolder ++ short
    update fun repository => { repository with defaultBranch := branch }
    note (.defaultBranchSet repository.name branch)
    return branch
  | _ => reject (.invalidName name)

/-- Fails unless the caller is the owner. -/
def ensureOwner (caller : Json) : Procedure Repository Unit := do
  if isAccount caller (← content).owner then return ()
  else reject (.notOwner caller)

/-- Names a successor. -/
def transferOwnership (caller newOwner : Json) : Procedure Repository Unit := do
  ensureOwner caller
  match validName? newOwner with
  | none => reject (.invalidName newOwner)
  | some successor =>
    update fun repository => { repository with pendingOwner := successor }
    note (.transferStarted (← content).name successor)

/-- Makes the caller the owner, if the caller is the successor that was named last. -/
def acceptOwnership (caller : Json) : Procedure Repository Unit := do
  let repository ← content
  if repository.pendingOwner = "" then reject .noPendingOwner
  else if isAccount caller repository.pendingOwner then
    let successor := repository.pendingOwner
    update fun repository => { repository with owner := successor, pendingOwner := "" }
    note (.transferred repository.name successor)
  else reject (.notOwner caller)

end ObjectDepot.Repository
