import ObjectDepot.Repository.Push
import ObjectDepot.Repository.Ownership

/-!
# The store

A store is a list of repositories with distinct names. `within` runs a procedure on one repository
and leaves all others alone.
-/

namespace ObjectDepot

/-- The repositories in the order in which they were created. -/
structure Store where
  repositories : List Repository
  deriving DecidableEq

/-- The public face of a repository. The owner of a new one is shown as it was given. -/
structure RepositorySummary where
  name : String
  algorithm : Algorithm
  defaultBranch : String
  owner : Json

/-- The summary of a stored repository. -/
def Repository.summary (repository : Repository) : RepositorySummary :=
  ⟨repository.name, repository.algorithm, repository.defaultBranch, .string repository.owner⟩

namespace Store

open Procedure

/-- The store without repositories. -/
def empty : Store := ⟨[]⟩

/-- The repository with a name. -/
def find? (store : Store) (name : String) : Option Repository :=
  store.repositories.find? (·.name == name)

/-- The repository that a value names. -/
def lookup? (store : Store) (name : Json) : Option Repository :=
  (lookupKey? name).bind store.find?

/-- Puts a repository in the place of the one with its name. -/
def replace (store : Store) (repository : Repository) : Store :=
  ⟨store.repositories.map fun other =>
    if other.name = repository.name then repository else other⟩

/-- Runs a procedure on the repository that a value names, as it is stored now. -/
def within {α : Type} (name : Json) (procedure : Procedure Repository α) : Procedure Store α :=
  ExceptT.mk fun work =>
    match work.content.lookup? name with
    | none => (.error (.rejected (.repositoryNotFound name)), work)
    | some repository =>
      let (outcome, after) := procedure.run { work with content := repository }
      (outcome, { after with content := work.content.replace after.content })

/-- Creates a repository. `branch` is the short name of its default branch. An owner that is no text
is stored by its literal; the null value is no owner. -/
def createRepository (branch : String) (name owner algorithm : Json) :
    Procedure Store RepositorySummary := do
  match validName? name with
  | none => reject (.invalidName name)
  | some text =>
    let algorithm ← orFault (Algorithm.ofJson algorithm)
    match (← content).find? text, lookupKey? owner with
    | none, some account =>
      let repository : Repository := ⟨text, algorithm, branchFolder ++ branch, account, "", [], []⟩
      update fun store => ⟨store.repositories ++ [repository]⟩
      note (.repositoryCreated text algorithm owner)
      return { repository.summary with owner := owner }
    | _, _ => reject (.repositoryAlreadyExists name)

end Store

end ObjectDepot
