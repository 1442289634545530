import ObjectDepot.Proofs.Histories
import ObjectDepot.Proofs.Numbering

/-!
# The reference table as a swap-remove list

A repository `Lists` some entries when its rows are the numbered entries in any order. `Lists.changed`
says that every change acts on the entries as `SwapList.apply` does; with `Lists.listing` it makes the
table of any history a refinement of a plain list.
-/

namespace ObjectDepot

open Procedure

namespace Repository

/-- The rows of a repository are the numbered entries in any order, under distinct names that are not
empty. -/
structure Lists (repository : Repository) (entries : SwapList) : Prop where
  rows : repository.references.Perm (numberFrom 1 entries)
  distinct : entries.names.Nodup
  named : "" ∉ entries.names

variable {repository after : Repository} {entries : SwapList} {name : String} {hash : Bytes}
  {row : Reference} {key : Json}

/-- The positions are 1, 2, … up to the number of rows. -/
lemma Lists.positions (lists : Lists repository entries) :
    (repository.references.map (·.position)).Perm (List.range' 1 entries.length) := by
  rw [← positions_numberFrom]
  exact lists.rows.map _

/-- The names are those of the entries. -/
lemma Lists.names (lists : Lists repository entries) :
    (repository.references.map (·.name)).Perm entries.names := by
  rw [← names_numberFrom]
  exact lists.rows.map _

/-- There are as many rows as entries. -/
lemma Lists.length (lists : Lists repository entries) :
    repository.references.length = entries.length := by
  simpa using lists.positions.length_eq

/-- No position is taken twice. -/
lemma Lists.nodup_positions (lists : Lists repository entries) :
    (repository.references.map (·.position)).Nodup :=
  lists.positions.nodup_iff.2 List.nodup_range'

/-- No name is given twice. -/
lemma Lists.nodup_names (lists : Lists repository entries) :
    (repository.references.map (·.name)).Nodup :=
  lists.names.nodup_iff.2 lists.distinct

/-- The greatest of the first positions is the last. -/
lemma foldl_max_range' (n : Nat) : (List.range' 1 n).foldl max 0 = n := by
  induction n with
  | zero => rfl
  | succ n ih =>
    rw [List.range'_1_concat, List.foldl_concat, ih]
    omega

/-- The greatest position in use is the number of entries. -/
lemma Lists.lastPosition (lists : Lists repository entries) :
    repository.lastPosition = entries.length := by
  have folded : repository.lastPosition =
      (repository.references.map (·.position)).foldl max 0 := List.foldl_map.symm
  rw [folded, lists.positions.foldl_eq 0, foldl_max_range']

/-- The rows by position are the numbered entries. -/
lemma Lists.listedReferences (lists : Lists repository entries) :
    repository.listedReferences = numberFrom 1 entries := by
  have sorted : repository.listedReferences.Pairwise fun a b =>
      decide (a.position ≤ b.position) = true := by
    refine List.pairwise_mergeSort ?_ ?_ _
    · intro a b c
      simp only [decide_eq_true_eq]
      exact Nat.le_trans
    · intro a b
      simpa using Nat.le_total a.position b.position
  simp only [decide_eq_true_eq] at sorted
  have same : repository.listedReferences.Perm (numberFrom 1 entries) :=
    (List.mergeSort_perm _ _).trans lists.rows
  -- sorted lists with the same members are equal where no two members have one position
  refine List.Perm.eq_of_pairwise ?_ sorted sorted_numberFrom same
  intro a b ha hb le le'
  have member : a ∈ repository.references := (List.mergeSort_perm _ _).mem_iff.1 ha
  have member' : b ∈ repository.references := lists.rows.mem_iff.2 hb
  exact List.inj_on_of_nodup_map lists.nodup_positions member member' (Nat.le_antisymm le le')

/-- The references are listed in the order of the entries. -/
lemma Lists.listing (lists : Lists repository entries) : repository.listing.normal = entries := by
  have listed : repository.listing.normal =
    repository.listedReferences.map fun row => (row.name, row.hash) := rfl
  rw [listed, lists.listedReferences, entries_numberFrom]

/-- A table without rows lists nothing. -/
lemma Lists.nil (empty : repository.references = []) : Lists repository [] where
  rows := by rw [empty]; exact List.Perm.refl _
  distinct := List.nodup_nil
  named := List.not_mem_nil

/-- A name that is found is one of the entries. -/
lemma Lists.find?_isSome (lists : Lists repository entries) :
    (repository.findReference? name).isSome ↔ name ∈ entries.names := by
  rw [← lists.names.mem_iff]
  exact Keys.find?_key_isSome

/-- A new reference comes last. -/
lemma Lists.insert (lists : Lists repository entries) (full : name ≠ "")
    (absent : name ∉ entries.names) :
    Lists (repository.insertReference name hash) (entries.point name hash) := by
  rw [SwapList.point_absent absent]
  refine ⟨?_, ?_, ?_⟩
  · have grown := lists.rows.append_right [(⟨entries.length + 1, name, hash⟩ : Reference)]
    rw [numberFrom_append, insertReference, lists.lastPosition, Nat.add_comm 1]
    exact grown
  · simp only [SwapList.names, List.map_append, List.map_cons, List.map_nil]
    exact List.nodup_append'.2
      ⟨lists.distinct, List.nodup_singleton _, List.disjoint_singleton.2 absent⟩
  · simp only [SwapList.names, List.map_append, List.map_cons, List.map_nil, List.mem_append,
      List.mem_singleton, not_or]
    exact ⟨lists.named, full.symm⟩

/-- A reference that is pointed elsewhere keeps its slot. -/
lemma Lists.replace (lists : Lists repository entries) (present : name ∈ entries.names) :
    Lists (repository.replaceReference name hash) (entries.point name hash) := by
  have names : (entries.point name hash).names = entries.names := by
    rw [SwapList.point_present present, SwapList.names, List.map_map]
    refine List.map_congr_left fun entry _ => ?_
    simp only [Function.comp_apply]
    split <;> rfl
  refine ⟨?_, by rw [names]; exact lists.distinct, by rw [names]; exact lists.named⟩
  rw [SwapList.point_present present, ← map_numberFrom]
  exact lists.rows.map _

/-- A reference that is deleted goes as an entry goes. -/
lemma Lists.erase (lists : Lists repository entries) (member : row ∈ repository.references) :
    Lists (repository.eraseReference row) (entries.remove row.name) := by
  obtain ⟨front, back, rfl, position⟩ := split_of_mem (lists.rows.mem_iff.1 member)
  have distinct : (front.names ++ row.name :: back.names).Nodup := by
    rw [← SwapList.names_split]
    exact lists.distinct
  obtain ⟨absent, rest⟩ := List.nodup_cons.1 (List.nodup_middle.1 distinct)
  obtain ⟨before, behind⟩ := not_or.1 (mt List.mem_append.2 absent)
  have names : (SwapList.remove (front ++ (row.name, row.hash) :: back) row.name).names.Perm
    (front.names ++ back.names) := SwapList.names_remove before
  refine ⟨?_, names.nodup_iff.2 rest, ?_⟩
  · have moved := (lists.rows.filter (·.name != row.name)).map
      (moveLast (front ++ (row.name, row.hash) :: back).length row.position)
    have erased : (repository.eraseReference row).references =
      (repository.references.filter (·.name != row.name)).map
        (moveLast repository.lastPosition row.position) := rfl
    rw [erased, lists.lastPosition]
    rw [position] at moved ⊢
    exact moved.trans (move_last before behind)
  · intro member
    refine lists.named ?_
    rw [SwapList.names_split]
    exact List.mem_append.2 ((List.mem_append.1 (names.mem_iff.1 member)).imp_right
      (List.mem_cons_of_mem _))

/-- A change that touches no reference leaves the entries as they are. -/
lemma Lists.of_references (lists : Lists repository entries)
    (same : after.references = repository.references) : Lists after entries :=
  ⟨same ▸ lists.rows, lists.distinct, lists.named⟩

/-- Every change acts on the entries as its operation does on a plain list. -/
lemma Lists.changed {call : RepositoryCall} {sent : List Event} (lists : Lists repository entries)
    (change : repository.Change call after sent) : Lists after (entries.apply call) := by
  cases change with
  | read reading =>
    cases call <;> first | exact lists | cases reading
  | insert valid _ _ fresh =>
    obtain ⟨_, full⟩ := eq_of_validName? valid
    rw [SwapList.apply, valid]
    exact lists.insert full (by rw [← lists.find?_isSome, fresh]; simp)
  | replace valid _ _ found =>
    rw [SwapList.apply, valid]
    exact lists.replace (lists.find?_isSome.1 (by rw [found]; rfl))
  | erase _ found =>
    obtain ⟨text, named, found⟩ := Option.bind_eq_some_iff.1 found
    obtain ⟨member, rfl⟩ := Keys.mem_of_find? found
    rw [SwapList.apply, named]
    exact lists.erase member
  | put => exact lists.of_references rfl
  | branch => exact lists.of_references rfl
  | propose => exact lists.of_references rfl
  | accept => exact lists.of_references rfl

/-- A repository lists what the operations committed on it make of a plain list. -/
lemma lists_invariant :
    Invariant fun repository calls _ => Lists repository (SwapList.replay calls) where
  created _ _ _ _ := .nil rfl
  changed repository before told call after sent lists change := by
    rw [SwapList.replay_concat]
    exact lists.changed change

/-- A deletion finds nothing to delete where no entry is left. -/
lemma Lists.noReferences_iff (lists : Lists repository entries) :
    outcome (deleteReference key) repository = .error (.rejected .noReferences) ↔ entries = [] := by
  rw [outcome_deleteReference, ← List.length_eq_zero_iff, ← lists.lastPosition]
  constructor
  · intro h
    split at h
    case isTrue none => exact none
    case isFalse => cases found : repository.lookupReference? key <;> rw [found] at h <;> cases h
  · intro none
    rw [if_pos none]

/-- It does not find its name where there are entries, but none of that name. -/
lemma Lists.referenceNotFound_iff (lists : Lists repository entries) :
    outcome (deleteReference key) repository = .error (.rejected (.referenceNotFound key)) ↔
      entries ≠ [] ∧ ∀ text, lookupKey? key = some text → text ∉ entries.names := by
  have lacks : repository.lookupReference? key = none ↔
      ∀ text, lookupKey? key = some text → text ∉ entries.names := by
    rw [lookupReference?, Option.bind_eq_none_iff]
    refine forall₂_congr fun text _ => ?_
    rw [← lists.find?_isSome, Option.not_isSome_iff_eq_none]
  rw [← lacks, outcome_deleteReference, ne_eq, ← List.length_eq_zero_iff, ← lists.lastPosition]
  constructor
  · intro h
    split at h
    case isTrue => cases h
    case isFalse some =>
      refine ⟨some, ?_⟩
      cases found : repository.lookupReference? key with
      | none => rfl
      | some row =>
        rw [found] at h
        cases h
  · rintro ⟨some, found⟩
    rw [if_neg some, found]

end Repository

/-- In every history the reference table of a repository is that of the swap-remove list on which the
committed operations are replayed: the positions are 1, 2, … without gap or repetition, the names are
distinct and not empty, and a deletion fails as it does on the list. -/
theorem references_refine_swapList (actions : List Action) (repository : Repository)
    (present : repository ∈ (History.ofActions actions).work.content.repositories) :
    (repository.references.map (·.position)).Perm
        (List.range' 1 repository.references.length) ∧
      (repository.references.map (·.position)).Nodup ∧
      (repository.references.map (·.name)).Nodup ∧
      (∀ row ∈ repository.references, row.name ≠ "") ∧
      repository.listing.normal =
        SwapList.replay (callsOn repository.name (History.ofActions actions).calls) ∧
      ∀ name : Json,
        (outcome (Repository.deleteReference name) repository = .error (.rejected .noReferences) ↔
          repository.listing.normal = []) ∧
        (outcome (Repository.deleteReference name) repository =
            .error (.rejected (.referenceNotFound name)) ↔
          repository.listing.normal ≠ [] ∧ ∀ text, lookupKey? name = some text →
            text ∉ SwapList.names repository.listing.normal) := by
  have lists := History.invariant Repository.lists_invariant actions repository present
  rw [lists.listing]
  refine ⟨?_, lists.nodup_positions, lists.nodup_names, ?_, rfl,
    fun name => ⟨lists.noReferences_iff, lists.referenceNotFound_iff⟩⟩
  · rw [lists.length]
    exact lists.positions
  · intro row member empty
    exact lists.named (lists.names.mem_iff.1 (empty ▸ List.mem_map_of_mem member))

/-- In the short history the last reference moves into the slot of the one that is deleted. -/
theorem references_refine_swapList_sample :
    History.sampleRepository ∈ (History.ofActions History.sample).work.content.repositories ∧
      (History.sampleRepository.references.map (·.position)).Perm [1] ∧
      SwapList.replay (callsOn "depot" (History.ofActions History.sample).calls) =
        [("b", Hash.digest .sha256 [1])] ∧
      outcome (Repository.deleteReference (.string "a")) History.sampleRepository =
        .error (.rejected (.referenceNotFound (.string "a"))) := by
  have present := History.mem_sample
  obtain ⟨positions, _, _, _, listed, deletion⟩ :=
    references_refine_swapList History.sample History.sampleRepository present
  have normal : History.sampleRepository.listing.normal = [("b", Hash.digest .sha256 [1])] := by
    decide +kernel
  refine ⟨present, positions, listed.symm.trans normal, (deletion _).2.2 ?_⟩
  rw [normal]
  decide +kernel

end ObjectDepot
