import Mathlib.Data.List.Basic
import Mathlib.Data.List.Nodup
import Mathlib.Tactic.Lemma
import ObjectDepot.Call
import ObjectDepot.Entries

/-!
# Swap-remove lists

The plain list of names and hashes that a reference table stands for. A name is pointed at a hash in
place, or at the end where it is new; when a name goes, the last entry moves into its slot. `replay`
does operations one after another. `remove_last` and `remove_middle` say what a removal makes of a
list that is split at the name.
-/

namespace ObjectDepot

/-- Names with hashes in the order of a listing. -/
abbrev SwapList := List (String × Bytes)

namespace SwapList

/-- Points a name at a hash: in place where the name is present, else at the end. -/
def point (entries : SwapList) (name : String) (hash : Bytes) : SwapList :=
  Entries.set entries name hash

/-- Removes the entry in a slot. The last entry moves into the slot. -/
def removeSlot (entries : SwapList) (slot : Nat) : SwapList :=
  match entries.getLast? with
  | some last => (List.set entries slot last).dropLast
  | none => []

/-- Removes the entry of a name, if there is one. -/
def remove (entries : SwapList) (name : String) : SwapList :=
  match entries.findIdx? (·.1 == name) with
  | some slot => entries.removeSlot slot
  | none => entries

/-- What an operation that succeeds makes of the entries. -/
def apply (entries : SwapList) : RepositoryCall → SwapList
  | .upsert name hash =>
    match validName? name with
    | some text => entries.point text hash
    | none => entries
  | .delete name =>
    match lookupKey? name with
    | some text => entries.remove text
    | none => entries
  | _ => entries

/-- What operations make of no entries, one after another. -/
def replay (calls : List RepositoryCall) : SwapList :=
  calls.foldl apply []

variable {entries front middle : SwapList} {name : String} {hash : Bytes}
  {entry last : String × Bytes}

/-- The names of the entries. -/
def names (entries : SwapList) : List String :=
  entries.map (·.1)

/-- The names on both sides of an entry. -/
lemma names_split {back : SwapList} :
    names (front ++ (name, hash) :: back) = front.names ++ name :: back.names :=
  List.map_append

/-- The entries have other names than one that is absent. -/
lemma ne_of_absent (absent : name ∉ entries.names) : ∀ entry ∈ entries, entry.1 ≠ name := by
  rintro entry member rfl
  exact absent (List.mem_map_of_mem member)

/-- One more operation is replayed last. -/
lemma replay_concat (calls : List RepositoryCall) (call : RepositoryCall) :
    replay (calls ++ [call]) = (replay calls).apply call :=
  List.foldl_concat apply [] call calls

/-- A new name comes last. -/
lemma point_absent (absent : name ∉ entries.names) :
    entries.point name hash = entries ++ [(name, hash)] := by
  have nowhere : entries.any (·.1 == name) = false := by
    simpa only [List.any_eq_false, beq_iff_eq] using ne_of_absent absent
  rw [point, Entries.set, if_neg (by simp [nowhere])]

/-- A name that is present keeps its slot. -/
lemma point_present (present : name ∈ entries.names) :
    entries.point name hash =
      entries.map fun entry => if entry.1 = name then (entry.1, hash) else entry := by
  have somewhere : entries.any (·.1 == name) := by
    simpa [names] using present
  rw [point, Entries.set, if_pos somewhere]
  simp only [beq_iff_eq]

/-- A name is removed where it stands. -/
lemma remove_eq {back : SwapList} (absent : name ∉ front.names) :
    remove (front ++ (name, hash) :: back) name =
      removeSlot (front ++ (name, hash) :: back) front.length := by
  have before : front.findIdx? (·.1 == name) = none := by
    simpa only [List.findIdx?_eq_none_iff, beq_eq_false_iff_ne] using ne_of_absent absent
  have slot : (front ++ (name, hash) :: back).findIdx? (·.1 == name) = some front.length := by
    simp [List.findIdx?_append, before, List.findIdx?_cons]
  rw [remove, slot]

/-- The last entry leaves nothing behind. -/
lemma remove_last (absent : name ∉ front.names) :
    remove (front ++ [(name, hash)]) name = front := by
  rw [remove_eq absent, removeSlot, List.getLast?_concat]
  simp

/-- Into the slot of any other entry moves the last. -/
lemma remove_middle (absent : name ∉ front.names) :
    remove (front ++ (name, hash) :: (middle ++ [last])) name = front ++ last :: middle := by
  have ends : (front ++ (name, hash) :: (middle ++ [last])).getLast? = some last := by
    rw [← List.cons_append, ← List.append_assoc, List.getLast?_concat]
  have moved : (last :: (middle ++ [last])).dropLast = last :: middle := by
    rw [← List.cons_append, List.dropLast_concat]
  rw [remove_eq absent, removeSlot, ends]
  simp [moved]

example : replay [.upsert (.string "a") [1], .upsert (.string "b") [2], .upsert (.string "c") [3],
    .upsert (.string "a") [4], .delete (.string "a")] = [("c", [3]), ("b", [2])] := by decide

/-- A removal leaves the other names, if not their order. -/
lemma names_remove {back : SwapList} (absent : name ∉ front.names) :
    (remove (front ++ (name, hash) :: back) name).names.Perm (front.names ++ back.names) := by
  have left : (remove (front ++ (name, hash) :: back) name).Perm (front ++ back) := by
    rcases List.eq_nil_or_concat' back with rfl | ⟨middle, last, rfl⟩
    · rw [remove_last absent, List.append_nil]
    · rw [remove_middle absent]
      exact List.Perm.append_left front (List.perm_append_singleton last middle).symm
  have names := left.map (·.1)
  rwa [List.map_append] at names

end SwapList

end ObjectDepot
