/-!
# Entries by key

A list of keys with values in which each key stands once, in the order in which the keys first came.
-/

namespace ObjectDepot.Entries

variable {κ α : Type} [BEq κ]

/-- Sets the value of a key: in place where the key is present, else at the end. -/
def set (entries : List (κ × α)) (key : κ) (value : α) : List (κ × α) :=
  if entries.any (·.1 == key) then
    entries.map fun entry => if entry.1 == key then (entry.1, value) else entry
  else entries ++ [(key, value)]

/-- The entries of a list of pairs: a repeated key keeps its first place and its last value. -/
def ofList (pairs : List (κ × α)) : List (κ × α) :=
  pairs.foldl (fun entries pair => set entries pair.1 pair.2) []

end ObjectDepot.Entries
