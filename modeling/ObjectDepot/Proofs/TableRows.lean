import Mathlib.Data.List.Nodup
import Mathlib.Tactic.Lemma
import ObjectDepot.Tables.Basic

/-!
# Rows of a table

The keys of a table grow from row to row (`Table.Ordered`), whatever statements are made. So the rows of
a query come in the order of the table (`Ordered.select`), and a row is told by its key
(`Ordered.eq_of_id`). A query sees what a statement does to its own rows and nothing else
(`select_insert`, `select_update`, `select_delete`).
-/

namespace ObjectDepot.Table

variable {α : Type} {table : Table α} {a b : Row α} {fits : α → Bool} {found : Row α → Bool} {f : α → α}

/-- The keys grow from row to row, and none is greater than the last that was given out. -/
structure Ordered (table : Table α) : Prop where
  keys : table.rows.Pairwise fun a b => a.id < b.id
  bound : ∀ row ∈ table.rows, row.id ≤ table.serial

/-- A table without rows is in order. -/
lemma ordered_empty : (empty : Table α).Ordered := ⟨.nil, nofun⟩

/-- A query of a table without rows has no rows. -/
lemma select_empty : (empty : Table α).select fits = [] := List.mergeSort_nil

/-- A new row comes last and has the greatest key. -/
lemma Ordered.insert (ordered : table.Ordered) (value : α) : (table.insert value).Ordered where
  keys := by
    refine List.pairwise_append.2 ⟨ordered.keys, List.pairwise_singleton _ _, ?_⟩
    intro a member b new
    obtain rfl := List.mem_singleton.1 new
    exact Nat.lt_succ_of_le (ordered.bound a member)
  bound row member := by
    rcases List.mem_append.1 member with old | new
    · exact Nat.le_succ_of_le (ordered.bound row old)
    · obtain rfl := List.mem_singleton.1 new
      exact Nat.le_refl _

/-- A row as a statement leaves it that changes the rows that fit. -/
def change (found : Row α → Bool) (f : α → α) (row : Row α) : Row α :=
  if found row then { row with value := f row.value } else row

/-- A changed row keeps its key. -/
@[simp] lemma id_change (row : Row α) : (change found f row).id = row.id := by
  unfold change
  split <;> rfl

/-- A row that fits is changed. -/
lemma change_of_found (fit : found a) : change found f a = { a with value := f a.value } := if_pos fit

/-- A row that does not fit stays. -/
lemma change_of_not_found (unfit : found a = false) : change found f a = a :=
  if_neg (by simp [unfit])

/-- What a change does not touch it leaves distinct. -/
lemma nodup_change {κ : Type} {key : α → κ} {rows : List (Row α)} (keeps : ∀ a, key (f a) = key a)
    (distinct : (rows.map fun row => key row.value).Nodup) :
    ((rows.map (change found f)).map fun row => key row.value).Nodup := by
  have same : ∀ row ∈ rows, key (change found f row).value = key row.value := by
    intro row _
    unfold change
    split
    case isTrue => exact keeps _
    case isFalse => rfl
  rw [List.map_map]
  exact (List.map_congr_left same).symm ▸ distinct

/-- The keys of a table are those of before. -/
lemma map_id_update : (table.update found f).rows.map (·.id) = table.rows.map (·.id) := by
  simp only [update, ← change.eq_def, List.map_map, Function.comp_def, id_change]

/-- Changed rows keep their keys. -/
lemma Ordered.update (ordered : table.Ordered) (found : Row α → Bool) (f : α → α) :
    (table.update found f).Ordered where
  keys := List.pairwise_map.2 (by simpa [← change.eq_def] using ordered.keys)
  bound row member := by
    obtain ⟨before, old, rfl⟩ := List.mem_map.1 member
    exact (id_change before).symm ▸ ordered.bound before old

/-- What is left of a table in order is in order. -/
lemma Ordered.delete (ordered : table.Ordered) (id : Nat) : (table.delete id).Ordered where
  keys := ordered.keys.filter _
  bound row member := ordered.bound row (List.mem_filter.1 member).1

/-- A row is told by its key. -/
lemma Ordered.eq_of_id (ordered : table.Ordered) (first : a ∈ table.rows) (second : b ∈ table.rows)
    (same : a.id = b.id) : a = b := by
  have distinct : (table.rows.map (·.id)).Nodup :=
    List.pairwise_map.2 (ordered.keys.imp fun less => Nat.ne_of_lt less)
  exact List.inj_on_of_nodup_map distinct first second same

/-- The rows that fit come in the order of the table. -/
lemma Ordered.select (ordered : table.Ordered) (fits : α → Bool) :
    table.select fits = table.rows.filter fun row => fits row.value := by
  have sorted : (table.rows.filter fun row => fits row.value).Pairwise
      fun a b => decide (a.id ≤ b.id) = true :=
    (ordered.keys.filter _).imp fun less => decide_eq_true (Nat.le_of_lt less)
  exact List.mergeSort_of_pairwise sorted

/-- The first row that fits is the first one of the table. -/
lemma Ordered.first? (ordered : table.Ordered) (fits : α → Bool) :
    table.first? fits = table.rows.find? fun row => fits row.value := by
  rw [Table.first?, ordered.select, List.head?_filter]

/-- A row of a query is one of the table that fits. -/
lemma Ordered.mem_select (ordered : table.Ordered) :
    a ∈ table.select fits ↔ a ∈ table.rows ∧ fits a.value := by
  rw [ordered.select, List.mem_filter]

/-- A query sees a new row last, if it fits. -/
lemma Ordered.select_insert (ordered : table.Ordered) (value : α) (fits : α → Bool) :
    (table.insert value).select fits =
      table.select fits ++ if fits value then [⟨table.serial + 1, value⟩] else [] := by
  rw [(ordered.insert value).select, ordered.select, Table.insert, List.filter_append]
  cases fit : fits value <;> simp [fit]

/-- A query sees changed rows, if they still fit where they did. -/
lemma Ordered.select_update (ordered : table.Ordered) (found : Row α → Bool)
    (keeps : ∀ row ∈ table.rows, found row → fits (f row.value) = fits row.value) :
    (table.update found f).select fits = (table.select fits).map (change found f) := by
  rw [(ordered.update found f).select, ordered.select, Table.update, List.filter_map]
  refine congrArg (List.map (change found f)) (List.filter_congr fun row member => ?_)
  cases fit : found row with
  | true => simpa [fit] using keeps row member fit
  | false => simp [fit]

/-- A query does not see a row any more that was removed. -/
lemma Ordered.select_delete (ordered : table.Ordered) (id : Nat) (fits : α → Bool) :
    (table.delete id).select fits = (table.select fits).filter (·.id != id) := by
  rw [(ordered.delete id).select, ordered.select, Table.delete, List.filter_filter, List.filter_filter]
  simp only [Bool.and_comm]

end ObjectDepot.Table
