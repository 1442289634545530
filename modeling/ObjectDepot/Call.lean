import ObjectDepot.Backend

/-!
# Calls of the library

The public operations as data: a `RepositoryCall` on one repository, a `Call` on the store, and a
`Step`, which is a call, a transaction over further steps, or a step whose failure its caller catches. A
transaction that fails, or that its caller gives up, undoes all its steps.

Each call names its repository, and works on it as it is stored when the call begins. A caller that keeps
a row which it read earlier, and passes it on after the row has changed, is not modelled.
-/

namespace ObjectDepot

/-- An operation on a repository. -/
inductive RepositoryCall where
  | describe
  | put (hash data : Bytes)
  | get (hash : Bytes)
  | has (hash : Bytes)
  | listObjects
  | upsert (name : Json) (hash : Bytes)
  | delete (name : Json)
  | getReference (name : Json)
  | resolve (names : Json)
  | listReferences
  | push (objects : List (Bytes × Bytes)) (references : List (Json × Bytes))
  | setDefaultBranch (name : Json)
  | ensureOwner (caller : Json)
  | transfer (caller newOwner : Json)
  | accept (caller : Json)

/-- An operation on the store. A new repository is given the algorithm by its name. -/
inductive Call where
  | create (name owner algorithm : Json)
  | inRepository (name : Json) (call : RepositoryCall)
  | dump

/-- A call, a transaction that its caller may give up at the end, or a step whose caller goes on where
it fails. -/
inductive Step where
  | call (call : Call)
  | transaction (steps : List Step) (giveUp : Bool)
  | attempt (step : Step)

/-- What a step answers. -/
inductive Answer where
  | done
  | summary (summary : RepositorySummary)
  | bytes (bytes : Bytes)
  | flag (flag : Bool)
  | hashes (hashes : List Bytes)
  | listing (listing : Listing)
  | branch (name : String)
  | owners (owner pendingOwner : String)
  | repositories (store : Store)
  | answers (answers : List Answer)

open Procedure

section

variable {ρ : Type} [RepositoryBackend ρ]

/-- The owner of a repository and the one who may become it. -/
def ownersAnswer : Procedure ρ Answer := do
  let repository ← content
  return .owners (RepositoryBackend.owner repository) (RepositoryBackend.pendingOwner repository)

/-- Performs an operation on the repository at hand. -/
def RepositoryCall.perform : RepositoryCall → Procedure ρ Answer
  | .describe => do return .summary (RepositoryBackend.summary (← content))
  | .put hash data => do
    RepositoryBackend.putObject hash data
    return .done
  | .get hash => do return .bytes (← RepositoryBackend.getObject hash)
  | .has hash => do return .flag (RepositoryBackend.hasObject (← content) hash)
  | .listObjects => do return .hashes (RepositoryBackend.objectHashes (← content))
  | .upsert name hash => do return .bytes (← RepositoryBackend.upsertReference name hash)
  | .delete name => do return .bytes (← RepositoryBackend.deleteReference name)
  | .getReference name => do return .bytes (← RepositoryBackend.getReference name)
  | .resolve names => do return .hashes (← RepositoryBackend.resolveReferences names)
  | .listReferences => do return .listing (RepositoryBackend.listing (← content))
  | .push objects references => do
    RepositoryBackend.push objects references
    return .done
  | .setDefaultBranch name => do return .branch (← RepositoryBackend.setDefaultBranch name)
  | .ensureOwner caller => do
    RepositoryBackend.ensureOwner caller
    return .done
  | .transfer caller newOwner => do
    RepositoryBackend.transferOwnership caller newOwner
    ownersAnswer
  | .accept caller => do
    RepositoryBackend.acceptOwnership caller
    ownersAnswer

end

section

variable {σ ρ : Type} [RepositoryBackend ρ] [StoreBackend σ ρ]

/-- Performs an operation on the store. `branch` is the short name of the default branch of new
repositories. -/
def Call.perform (branch : String) : Call → Procedure σ Answer
  | .create name owner algorithm => do
    return .summary (← StoreBackend.createRepository branch name owner algorithm)
  | .inRepository name call => StoreBackend.within name call.perform
  | .dump => do return .repositories (StoreBackend.shown (← content))

mutual
/-- Performs a step. An attempt answers what its step answers, or nothing if that fails. -/
def Step.perform (branch : String) : Step → Procedure σ Answer
  | .call call => call.perform branch
  | .attempt step => do
    try
      let answer ← step.perform branch
      pure (.answers [answer])
    catch _ => pure (.answers [])
  | .transaction steps giveUp => atomically do
    let answers ← performAll branch steps
    if giveUp then throw (.fault .aborted)
    else return .answers answers

/-- Performs steps in their order up to the first that fails. -/
def performAll (branch : String) : List Step → Procedure σ (List Answer)
  | [] => return []
  | step :: steps => do
    let answer ← step.perform branch
    return answer :: (← performAll branch steps)
end

end

end ObjectDepot
