import Mathlib.Data.List.Nodup
import Mathlib.Tactic.Lemma

/-!
# Lists in which each key stands once

The tables of a repository and the list of repositories are searched by a key. Where no key stands
twice, `find?_key_iff` says that the search finds exactly the members.
-/

namespace ObjectDepot.Keys

variable {α κ : Type} [BEq κ] {key : α → κ} {l : List α} {k : κ} {a : α}

/-- A change of the members that keeps their keys does not change where they are found. -/
lemma find?_map_of_key {f : α → α} (keeps : ∀ x, key (f x) = key x) :
    (l.map f).find? (key · == k) = (l.find? (key · == k)).map f := by
  rw [List.find?_map]
  simp only [Function.comp_def, keeps]

variable [LawfulBEq κ]

/-- What is found under a key is there, and has the key. -/
lemma mem_of_find? (h : l.find? (key · == k) = some a) : a ∈ l ∧ key a = k :=
  ⟨List.mem_of_find?_eq_some h, by simpa using List.find?_some h⟩

/-- A search fails where the key is absent. -/
lemma find?_key_none : l.find? (key · == k) = none ↔ k ∉ l.map key := by
  simp only [List.find?_eq_none, beq_iff_eq, List.mem_map, not_exists, not_and]

/-- Something is found under exactly the keys that are there. -/
lemma find?_key_isSome : (l.find? (key · == k)).isSome ↔ k ∈ l.map key := by
  rw [← not_iff_not, ← find?_key_none, Option.not_isSome_iff_eq_none]

/-- A search finds the one member with the key. -/
lemma find?_key_iff (nodup : (l.map key).Nodup) :
    l.find? (key · == k) = some a ↔ a ∈ l ∧ key a = k := by
  constructor
  · exact mem_of_find?
  · rintro ⟨ha, rfl⟩
    have found : (l.find? (key · == key a)).isSome := find?_key_isSome.2 (List.mem_map_of_mem ha)
    obtain ⟨b, e⟩ := Option.isSome_iff_exists.1 found
    obtain ⟨hb, same⟩ := mem_of_find? e
    rw [e, List.inj_on_of_nodup_map nodup hb ha same]

end ObjectDepot.Keys
