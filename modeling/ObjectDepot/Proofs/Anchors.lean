import ObjectDepot.Proofs.Addressing
import ObjectDepot.Proofs.ReferenceTable

/-!
# References to objects

Every reference of a repository points at one of its objects. That is checked only when a reference is
pointed; `Anchored.changed` shows that no later change can undo it, and `anchored_invariant` that it
holds along every history.
-/

namespace ObjectDepot

open Procedure

namespace Repository

/-- Every row of the reference table points at a stored object. -/
def Anchored (repository : Repository) : Prop :=
  ∀ row ∈ repository.references, repository.hasObject row.hash

variable {repository after : Repository} {entries : SwapList} {name : String} {hash data : Bytes}
  {key : Json}

/-- Objects stay when another comes. -/
lemma hasObject_addObject {other : Bytes} (h : repository.hasObject other) :
    (repository.addObject hash data).hasObject other := by
  rw [hasObject_iff_mem] at h ⊢
  have listed : (repository.addObject hash data).objectHashes =
    repository.objectHashes ++ [hash] := List.map_append
  rw [listed]
  exact List.mem_append_left _ h

/-- A new row points where it was checked. -/
lemma Anchored.insert (anchored : Anchored repository) (there : repository.hasObject hash) :
    Anchored (repository.insertReference name hash) := by
  intro row member
  rcases List.mem_append.1 member with old | new
  · exact anchored row old
  · obtain rfl := List.mem_singleton.1 new
    exact there

/-- A reference that is pointed at an object that is there leaves all references anchored. -/
lemma Anchored.replace (anchored : Anchored repository) (there : repository.hasObject hash) :
    Anchored (repository.replaceReference name hash) := by
  intro row member
  obtain ⟨old, before, rfl⟩ := List.mem_map.1 member
  split
  case isTrue => exact there
  case isFalse => exact anchored old before

/-- The row that moves into the place of another keeps its hash. -/
lemma Anchored.erase {removed : Reference} (anchored : Anchored repository) :
    Anchored (repository.eraseReference removed) := by
  intro row member
  obtain ⟨old, kept, rfl⟩ := List.mem_map.1 member
  -- a row may take over another position, but never another hash
  have before := anchored old (List.mem_of_mem_filter kept)
  split
  case isTrue => exact before
  case isFalse => exact before

/-- No change leaves a reference without its object. -/
lemma Anchored.changed {call : RepositoryCall} {sent : List Event} (anchored : Anchored repository)
    (change : repository.Change call after sent) : Anchored after := by
  cases change with
  | put => exact fun row member => hasObject_addObject (anchored row member)
  | insert _ _ there _ => exact anchored.insert there
  | replace _ _ there _ => exact anchored.replace there
  | erase => exact anchored.erase
  | read => exact anchored
  | branch => exact anchored
  | propose => exact anchored
  | accept => exact anchored

/-- In every history the references point at objects. -/
lemma anchored_invariant : Invariant fun repository _ _ => Anchored repository where
  created _ _ _ _ := nofun
  changed _ _ _ _ _ _ anchored change := anchored.changed change

/-- A hash that a name gives is that of a row. -/
lemma mem_of_getReference (h : outcome (getReference key) repository = .ok hash) :
    ∃ row ∈ repository.references, row.hash = hash := by
  rw [outcome_getReference] at h
  cases found : repository.lookupReference? key with
  | none =>
    rw [found] at h
    cases h
  | some row =>
    rw [found] at h
    cases h
    obtain ⟨_, _, found⟩ := Option.bind_eq_some_iff.1 found
    exact ⟨row, (Keys.mem_of_find? found).1, rfl⟩

/-- What a reference points at can be had. -/
lemma Anchored.get (anchored : Anchored repository)
    (h : outcome (getReference key) repository = .ok hash) :
    ∃ data, outcome (getObject hash) repository = .ok data := by
  obtain ⟨row, member, rfl⟩ := mem_of_getReference h
  exact hasObject_iff_get.1 (anchored row member)

/-- Whoever follows a name to its object never finds the object missing. -/
lemma Anchored.follow (anchored : Anchored repository) :
    outcome (getReference key >>= getObject) repository ≠
      .error (.rejected (.objectNotFound hash)) := by
  intro h
  rw [outcome, run_bind, run_getReference] at h
  cases found : repository.lookupReference? key with
  | none =>
    simp only [Work.start, found] at h
    cases h
  | some row =>
    have told : outcome (getReference key) repository = .ok row.hash := by
      rw [outcome_getReference, found]
    obtain ⟨data, had⟩ := anchored.get told
    simp only [Work.start, found] at h
    cases had.symm.trans h

/-- A name that is listed gives the hash that is listed with it. -/
lemma Lists.get (lists : Lists repository entries) (listed : (name, hash) ∈ entries) :
    outcome (getReference (.string name)) repository = .ok hash := by
  have numbered : (name, hash) ∈ (numberFrom 1 entries).map fun row => (row.name, row.hash) := by
    rw [entries_numberFrom]
    exact listed
  obtain ⟨row, member, e⟩ := List.mem_map.1 numbered
  cases e
  have found : repository.lookupReference? (.string row.name) = some row :=
    (Keys.find?_key_iff lists.nodup_names).2 ⟨lists.rows.mem_iff.2 member, rfl⟩
  rw [outcome_getReference, found]

end Repository

/-- In every history each reference that is listed is found with the hash that is listed, which is a
slot that is not zero, and its object can be had. No name leads to an object that there is not. -/
theorem references_anchored (actions : List Action) (repository : Repository)
    (present : repository ∈ (History.ofActions actions).work.content.repositories) :
    (∀ name hash, (name, hash) ∈ repository.listing.normal →
      hash.length = 32 ∧ hash ≠ Hash.zero ∧
        outcome (Repository.getReference (.string name)) repository = .ok hash ∧
        ∃ data, outcome (Repository.getObject hash) repository = .ok data) ∧
    ∀ name hash,
      outcome (Repository.getReference name >>= Repository.getObject) repository ≠
        .error (.rejected (.objectNotFound hash)) := by
  have lists := History.invariant Repository.lists_invariant actions repository present
  have addressed := History.invariant Repository.addressed_invariant actions repository present
  have anchored := History.invariant Repository.anchored_invariant actions repository present
  constructor
  · intro name hash listed
    rw [lists.listing] at listed
    have named := lists.get listed
    obtain ⟨data, had⟩ := anchored.get named
    obtain ⟨_, filled, nonzero, _⟩ := addressed.get had
    exact ⟨filled, nonzero, named, data, had⟩
  · exact fun _ _ => anchored.follow

/-- In the short history the reference that is left leads to the pushed object. -/
theorem references_anchored_sample :
    History.sampleRepository ∈ (History.ofActions History.sample).work.content.repositories ∧
      ("b", Hash.digest .sha256 [1]) ∈ History.sampleRepository.listing.normal ∧
      ∃ data, outcome (Repository.getObject (Hash.digest .sha256 [1])) History.sampleRepository =
        .ok data := by
  have present := History.mem_sample
  have listed : ("b", Hash.digest .sha256 [1]) ∈ History.sampleRepository.listing.normal := by
    decide +kernel
  obtain ⟨resolved, _⟩ := references_anchored History.sample History.sampleRepository present
  exact ⟨present, listed, (resolved _ _ listed).2.2.2⟩

end ObjectDepot
