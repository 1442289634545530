import ObjectDepot.Hash

/-!
# Work on the contents of a store

A `Procedure` reads and changes some contents, queues events and writes log records, and ends with a
value or a failure. A failure by itself undoes nothing: `atomically` does, for the contents and the
queued events. What is in the log stays there.
-/

namespace ObjectDepot

/-- An observation for those who follow a store. The zero hash stands for absence. -/
inductive Event where
  | objectAdded (repository : String) (hash : Bytes)
  | referenceChanged (repository : String) (name : Json) (hash previous : Bytes)

/-- How much a log record matters. -/
inductive LogLevel where
  | info
  | warning
  deriving DecidableEq

/-- The name of a level. -/
def LogLevel.name : LogLevel → String
  | .info => "INFO"
  | .warning => "WARNING"

/-- A record of the log. -/
inductive LogRecord where
  | objectAdded (repository : String) (hash : Bytes) (size : Nat)
  | referenceChanged (repository : String) (name : Json) (hash previous : Bytes)
  | pushApplied (repository : String) (objects references : Nat)
  | repositoryCreated (name : String) (algorithm : Algorithm) (owner : Json)
  | defaultBranchSet (repository branch : String)
  | transferStarted (repository newOwner : String)
  | transferred (repository owner : String)
  | requestRejected (method path : String) (error : StoreError)

namespace LogRecord

/-- The level of a record. -/
def level : LogRecord → LogLevel
  | .requestRejected .. => .warning
  | _ => .info

/-- The part of the program that writes a record. -/
def logger : LogRecord → String
  | .objectAdded .. => "git_store.object_store"
  | .referenceChanged .. => "git_store.references"
  | .pushApplied .. => "git_store.batch"
  | .repositoryCreated .. | .defaultBranchSet .. | .transferStarted .. | .transferred .. =>
    "git_store.metadata"
  | .requestRejected .. => "git_store.views"

/-- The words of a record. -/
def message : LogRecord → String
  | .objectAdded repository hash size =>
    "object added repo=" ++ repository ++ " hash=" ++ Hex.encode hash ++ " size=" ++ toString size
  | .referenceChanged repository name hash previous =>
    "ref changed repo=" ++ repository ++ " name=" ++ name.plain ++ " hash=" ++ Hex.encode hash
      ++ " previous=" ++ Hex.encode previous
  | .pushApplied repository objects references =>
    "push applied repo=" ++ repository ++ " objects=" ++ toString objects ++ " refs="
      ++ toString references
  | .repositoryCreated name algorithm owner =>
    "repository created name=" ++ name ++ " algorithm=" ++ algorithm.name ++ " owner="
      ++ owner.plain
  | .defaultBranchSet repository branch =>
    "default branch set repo=" ++ repository ++ " branch=" ++ branch
  | .transferStarted repository newOwner =>
    "ownership transfer started repo=" ++ repository ++ " pending_owner=" ++ newOwner
  | .transferred repository owner =>
    "ownership transferred repo=" ++ repository ++ " owner=" ++ owner
  | .requestRejected method path error =>
    method ++ " " ++ path ++ " rejected: " ++ error.message

end LogRecord

/-- Contents under work: the contents as changed so far, the events that the commit will send, and
the log. -/
structure Work (σ : Type) where
  content : σ
  events : List Event
  log : List LogRecord

/-- Work that has not begun. -/
def Work.start {σ : Type} (content : σ) : Work σ :=
  ⟨content, [], []⟩

/-- A computation on contents under work. -/
abbrev Procedure (σ α : Type) := ExceptT Failure (StateM (Work σ)) α

namespace Procedure

variable {σ τ α : Type}

/-- The contents as they are now. -/
def content : Procedure σ σ := do
  return (← get).content

/-- Changes the contents. -/
def update (f : σ → σ) : Procedure σ Unit :=
  modify fun work => { work with content := f work.content }

/-- Queues an event. -/
def emit (event : Event) : Procedure σ Unit :=
  modify fun work => { work with events := work.events ++ [event] }

/-- Writes a log record. -/
def note (record : LogRecord) : Procedure σ Unit :=
  modify fun work => { work with log := work.log ++ [record] }

/-- Fails by the rules of the store. -/
def reject (error : StoreError) : Procedure σ α :=
  throw (.rejected error)

/-- Takes over the outcome of a calculation that may end in a fault. -/
def orFault : Except Fault α → Procedure σ α
  | .ok value => pure value
  | .error cause => throw (.fault cause)

/-- Runs a procedure so that a failure leaves the contents and the queued events as they were. -/
def atomically (procedure : Procedure σ α) : Procedure σ α :=
  ExceptT.mk fun work =>
    match procedure.run work with
    | (.ok value, after) => (.ok value, after)
    | (.error failure, after) =>
      (.error failure, { after with content := work.content, events := work.events })

end Procedure

end ObjectDepot
