import ObjectDepot.Store

/-!
# Tables

A store in three tables, which all repositories share. The rows of objects and of references name
their repository by its key. The keys of a table are given out in one sequence for all repositories,
and none is given twice. `Tables.store` shows what the tables stand for. The columns of a hash are
shown as its bytes, where the tables have their digits.

The tables do not refuse a row: that the names, hashes and positions of a repository stay distinct is
what the operations on the tables see to.
-/

namespace ObjectDepot

/-- A row of a table under its key. -/
structure Row (α : Type) where
  id : Nat
  value : α
  deriving DecidableEq

/-- A table: its rows, and the last key that was given out. -/
structure Table (α : Type) where
  rows : List (Row α)
  serial : Nat
  deriving DecidableEq

namespace Table

variable {α : Type}

/-- The table without rows. -/
def empty : Table α := ⟨[], 0⟩

/-- The rows that fit, by their keys. -/
def select (table : Table α) (fits : α → Bool) : List (Row α) :=
  (table.rows.filter fun row => fits row.value).mergeSort fun a b => a.id ≤ b.id

/-- The first row that fits. -/
def first? (table : Table α) (fits : α → Bool) : Option (Row α) :=
  (table.select fits).head?

/-- Adds a row under a new key. -/
def insert (table : Table α) (value : α) : Table α :=
  ⟨table.rows ++ [⟨table.serial + 1, value⟩], table.serial + 1⟩

/-- Changes the rows that fit. -/
def update (table : Table α) (fits : Row α → Bool) (f : α → α) : Table α :=
  { table with
    rows := table.rows.map fun row => if fits row then { row with value := f row.value } else row }

/-- Removes the row with a key. -/
def delete (table : Table α) (id : Nat) : Table α :=
  { table with rows := table.rows.filter (·.id != id) }

end Table

/-- A row of the table of repositories. -/
structure RepositoryRow where
  name : String
  algorithm : Algorithm
  defaultBranch : String
  owner : String
  pendingOwner : String
  deriving DecidableEq

/-- A row of the table of objects. -/
structure ObjectRow where
  repository : Nat
  hash : Bytes
  data : Bytes
  deriving DecidableEq

/-- A row of the table of references. -/
structure ReferenceRow where
  repository : Nat
  name : String
  hash : Bytes
  position : Nat
  deriving DecidableEq

/-- The tables of a store. -/
structure Tables where
  repositories : Table RepositoryRow
  objects : Table ObjectRow
  references : Table ReferenceRow
  deriving DecidableEq

namespace Tables

/-- The tables of the store without repositories. -/
def empty : Tables := ⟨.empty, .empty, .empty⟩

/-- The objects of the repository with a key, the oldest first. -/
def objectsOf (tables : Tables) (repository : Nat) : List (Row ObjectRow) :=
  tables.objects.select (·.repository == repository)

/-- The references of the repository with a key, the oldest first. -/
def referencesOf (tables : Tables) (repository : Nat) : List (Row ReferenceRow) :=
  tables.references.select (·.repository == repository)

end Tables

/-- The object in a row. -/
def ObjectRow.object (row : ObjectRow) : StoredObject :=
  ⟨row.hash, row.data⟩

/-- The reference in a row. -/
def ReferenceRow.reference (row : ReferenceRow) : Reference :=
  ⟨row.position, row.name, row.hash⟩

namespace Tables

/-- The repository for which a row stands, with all that belongs to it. -/
def record (tables : Tables) (row : Row RepositoryRow) : Repository where
  name := row.value.name
  algorithm := row.value.algorithm
  defaultBranch := row.value.defaultBranch
  owner := row.value.owner
  pendingOwner := row.value.pendingOwner
  objects := (tables.objectsOf row.id).map (·.value.object)
  references := (tables.referencesOf row.id).map (·.value.reference)

/-- The store for which tables stand. -/
def store (tables : Tables) : Store :=
  ⟨(tables.repositories.select fun _ => true).map tables.record⟩

end Tables

end ObjectDepot
