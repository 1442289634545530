import Mathlib.Data.List.Basic
import Mathlib.Data.List.Perm.Basic
import ObjectDepot.Proofs.SwapList

/-!
# Numbered rows

The rows of a swap-remove list carry its entries with consecutive positions. `numberFrom_append`,
`split_of_mem` and `move_last` are what a deletion from the table needs: the rows are split where the
list is, and the last row takes over a position.
-/

namespace ObjectDepot

/-- The rows of entries, with consecutive positions from a number on. -/
def numberFrom : Nat → SwapList → List Reference
  | _, [] => []
  | position, entry :: rest => ⟨position, entry.1, entry.2⟩ :: numberFrom (position + 1) rest

variable {start : Nat} {entries first second : SwapList} {row : Reference}

/-- The positions are consecutive. -/
lemma positions_numberFrom :
    (numberFrom start entries).map (·.position) = List.range' start entries.length := by
  induction entries generalizing start with
  | nil => rfl
  | cons entry rest ih =>
    simp only [numberFrom, List.map_cons, List.length_cons, List.range'_succ, ih]

/-- The rows are in the order of their positions. -/
lemma sorted_numberFrom :
    (numberFrom start entries).Pairwise fun a b => a.position ≤ b.position := by
  have ordered : ((numberFrom start entries).map (·.position)).Pairwise (· ≤ ·) := by
    rw [positions_numberFrom]
    exact List.pairwise_le_range'
  exact List.pairwise_map.1 ordered

/-- The names stay in their order. -/
lemma names_numberFrom : (numberFrom start entries).map (·.name) = entries.names := by
  induction entries generalizing start with
  | nil => rfl
  | cons entry rest ih =>
    simp only [numberFrom, List.map_cons, ih]
    rfl

/-- The rows still tell the entries. -/
lemma entries_numberFrom :
    (numberFrom start entries).map (fun row => (row.name, row.hash)) = entries := by
  induction entries generalizing start with
  | nil => rfl
  | cons entry rest ih => simp only [numberFrom, List.map_cons, ih]

/-- Entries in a row are numbered through. -/
lemma numberFrom_append :
    numberFrom start (first ++ second) =
      numberFrom start first ++ numberFrom (start + first.length) second := by
  induction first generalizing start with
  | nil => rfl
  | cons entry rest ih =>
    simp only [List.cons_append, numberFrom, ih, List.length_cons, Nat.add_assoc,
      Nat.add_comm 1 rest.length]

/-- Every position is in the range. -/
lemma position_of_mem (member : row ∈ numberFrom start entries) :
    start ≤ row.position ∧ row.position < start + entries.length := by
  have listed : row.position ∈ (numberFrom start entries).map (·.position) :=
    List.mem_map_of_mem member
  rw [positions_numberFrom] at listed
  exact List.mem_range'_1.1 listed

/-- The list is split at the entry of a row, as far from its start as the position says. -/
lemma split_of_mem (member : row ∈ numberFrom start entries) :
    ∃ front back : SwapList, entries = front ++ (row.name, row.hash) :: back ∧
      row.position = start + front.length := by
  induction entries generalizing start with
  | nil => cases member
  | cons entry rest ih =>
    rcases List.mem_cons.1 member with rfl | member
    · exact ⟨[], rest, rfl, rfl⟩
    · obtain ⟨front, back, rfl, position⟩ := ih member
      refine ⟨entry :: front, back, rfl, ?_⟩
      rw [position, List.length_cons]
      omega

/-- New hashes do not change the numbers. -/
lemma map_numberFrom {name : String} {hash : Bytes} :
    ((numberFrom start entries).map fun row =>
        if row.name = name then { row with hash := hash } else row) =
      numberFrom start
        (entries.map fun entry => if entry.1 = name then (entry.1, hash) else entry) := by
  induction entries generalizing start with
  | nil => rfl
  | cons entry rest ih =>
    simp only [numberFrom, List.map_cons, ih, List.cons.injEq, and_true]
    split <;> rfl

/-- A name that is absent selects no row. -/
lemma filter_numberFrom {name : String} (absent : name ∉ entries.names) :
    (numberFrom start entries).filter (·.name != name) = numberFrom start entries := by
  rw [List.filter_eq_self]
  intro row member
  have listed : row.name ∈ (numberFrom start entries).map (·.name) := List.mem_map_of_mem member
  rw [names_numberFrom] at listed
  simp only [bne_iff_ne, ne_eq]
  rintro rfl
  exact absent listed

/-- The row of the last position takes over another, unless that is the last itself. -/
def moveLast (last position : Nat) (row : Reference) : Reference :=
  if position ≠ last ∧ row.position = last then { row with position := position } else row

/-- Rows of earlier positions do not move. -/
lemma moveLast_numberFrom {last position : Nat} (before : start + entries.length ≤ last) :
    (numberFrom start entries).map (moveLast last position) = numberFrom start entries := by
  have stays : ∀ row ∈ numberFrom start entries, moveLast last position row = row := by
    intro row member
    obtain ⟨_, bound⟩ := position_of_mem member
    rw [moveLast, if_neg (by omega)]
  exact (List.map_congr_left stays).trans (List.map_id' _)

variable {front back : SwapList} {name : String} {hash : Bytes}

/-- Without the row of a name there is a gap in the numbers. -/
lemma filter_split (before : name ∉ front.names) (behind : name ∉ back.names) :
    (numberFrom 1 (front ++ (name, hash) :: back)).filter (·.name != name) =
      numberFrom 1 front ++ numberFrom (front.length + 2) back := by
  rw [numberFrom_append, List.filter_append, filter_numberFrom before, numberFrom,
    List.filter_cons_of_neg (by simp), filter_numberFrom behind, Nat.add_comm 1]

/-- The last row, which takes over the position of a row that goes, closes the gap. -/
lemma move_last (before : name ∉ front.names) (behind : name ∉ back.names) :
    (((numberFrom 1 (front ++ (name, hash) :: back)).filter (·.name != name)).map
        (moveLast (front ++ (name, hash) :: back).length (1 + front.length))).Perm
      (numberFrom 1 (SwapList.remove (front ++ (name, hash) :: back) name)) := by
  rw [filter_split before behind, List.map_append,
    moveLast_numberFrom (by simp only [List.length_append, List.length_cons]; omega)]
  -- either the row that goes is the last itself, or the last row moves in front of the middle
  rcases List.eq_nil_or_concat' back with rfl | ⟨middle, last, rfl⟩
  · rw [SwapList.remove_last before]
    simp [numberFrom]
  · have moved : moveLast (front ++ (name, hash) :: (middle ++ [last])).length (1 + front.length)
        ⟨front.length + 2 + middle.length, last.1, last.2⟩ = ⟨1 + front.length, last.1, last.2⟩ := by
      rw [moveLast, if_pos]
      simp only [List.length_append, List.length_cons, List.length_nil]
      omega
    rw [numberFrom_append, List.map_append, numberFrom, numberFrom, List.map_singleton, moved,
      moveLast_numberFrom (by simp only [List.length_append, List.length_cons]; omega),
      SwapList.remove_middle before, numberFrom_append, numberFrom, Nat.add_comm 1 front.length]
    exact List.Perm.append_left _ (List.perm_append_singleton _ _)

end ObjectDepot
