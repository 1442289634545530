import ObjectDepot.Work

/-!
# Repositories

A repository holds objects in the order in which they came and a table of references. Each reference
has a position, counted from one, that gives its place in listings.
-/

namespace ObjectDepot

/-- A payload under its hash. -/
structure StoredObject where
  hash : Bytes
  data : Bytes
  deriving DecidableEq

/-- A row of the reference table. -/
structure Reference where
  position : Nat
  name : String
  hash : Bytes
  deriving DecidableEq

/-- A repository. The pending owner is empty unless a transfer waits to be accepted. -/
structure Repository where
  name : String
  algorithm : Algorithm
  defaultBranch : String
  owner : String
  pendingOwner : String
  objects : List StoredObject
  references : List Reference
  deriving DecidableEq

/-- A name that may be given to something: a text that is not empty. -/
def validName? : Json → Option String
  | .string name => if name = "" then none else some name
  | _ => none

/-- Whether a value may be given to something as its name. -/
def isValidName (value : Json) : Bool :=
  (validName? value).isSome

/-- The text under which a value is looked up in a table: a value that is no text by its literal,
and the null value not at all. -/
def lookupKey? : Json → Option String
  | .null => none
  | value => some value.plain

/-- What stands before the short name of a branch. -/
def branchFolder : String := "refs/heads/"

end ObjectDepot
