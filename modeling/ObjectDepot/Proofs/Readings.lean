import ObjectDepot.Proofs.Anchors
import ObjectDepot.Proofs.Mirror

/-!
# Reading references

A reference is read by its own name, among other names, or off the listing. All three readings are told
by what the name points at, `Repository.target?`: `outcome_getReference_text`, `outcome_resolveReferences`
and `Lists.target?_iff` say how. Since nothing points at the zero hash (`Anchored.nonzero`), a name that
resolves to zero is one that is missing.
-/

namespace ObjectDepot

open Procedure

namespace Repository

variable {repository : Repository} {entries : SwapList} {hashes : List Bytes} {name : String}
  {hash : Bytes}

/-- A reference is found by its name if the name points at something. -/
lemma outcome_getReference_text :
    outcome (getReference (.string name)) repository = match repository.target? name with
      | some hash => .ok hash
      | none => .error (.rejected (.referenceNotFound (.string name))) := by
  have looked : repository.lookupReference? (.string name) = repository.findReference? name := rfl
  rw [outcome_getReference, looked, target?]
  cases repository.findReference? name <;> rfl

/-- A reference is got if it points somewhere, as that. -/
lemma get_iff_target? :
    outcome (getReference (.string name)) repository = .ok hash ↔
      repository.target? name = some hash := by
  rw [outcome_getReference_text]
  cases repository.target? name <;> simp

/-- Names resolve to what they point at, and to zero where they point at nothing. -/
lemma resolveNames_texts (names : List String) :
    repository.resolveNames (names.map .string) =
      .ok (names.map fun name => (repository.target? name).getD Hash.zero) := by
  rw [resolveNames, List.mapM_map]
  exact List.mapM_pure

/-- Names are resolved to where they point, or else to zero. -/
lemma outcome_resolveReferences (names : List String) :
    outcome (resolveReferences (.array (names.map .string))) repository =
      .ok (names.map fun name => (repository.target? name).getD Hash.zero) := by
  have resolved : outcome (resolveReferences (.array (names.map .string))) repository =
      (repository.resolveNames (names.map .string)).mapError .fault :=
    congrArg Prod.fst (run_orFault _ _)
  rw [resolved, resolveNames_texts]
  rfl

/-- No reference points at the zero hash. -/
lemma Anchored.nonzero (anchored : Anchored repository) (addressed : Addressed repository hashes)
    (pointed : repository.target? name = some hash) : hash ≠ Hash.zero := by
  obtain ⟨data, had⟩ := anchored.get (get_iff_target?.2 pointed)
  obtain ⟨_, _, nonzero, _⟩ := addressed.get had
  exact nonzero

end Repository

/-- In every history a list of names is resolved to as many hashes. Where a hash is zero its name is
missing, and where it is not the name has this hash. A name has the hash that is listed with it, and is
listed once. -/
theorem reference_readings_agree (actions : List Action) (repository : Repository)
    (present : repository ∈ (History.ofActions actions).work.content.repositories)
    (names : List String) :
    (∃ hashes, outcome (Repository.resolveReferences (.array (names.map .string))) repository =
        .ok hashes ∧
      hashes.length = names.length ∧
      ∀ (i : Nat) name hash, names[i]? = some name → hashes[i]? = some hash →
        outcome (Repository.getReference (.string name)) repository =
          if hash = Hash.zero then .error (.rejected (.referenceNotFound (.string name)))
          else .ok hash) ∧
    (∀ name hash, outcome (Repository.getReference (.string name)) repository = .ok hash ↔
      (name, hash) ∈ repository.listing.normal) ∧
    (repository.listing.normal.map (·.1)).Nodup := by
  have lists := History.invariant Repository.lists_invariant actions repository present
  have addressed := History.invariant Repository.addressed_invariant actions repository present
  have anchored := History.invariant Repository.anchored_invariant actions repository present
  rw [lists.listing]
  refine ⟨⟨_, Repository.outcome_resolveReferences names, List.length_map _, ?_⟩, ?_, lists.distinct⟩
  · intro i name hash asked resolved
    rw [List.getElem?_map, asked, Option.map_some] at resolved
    obtain rfl := Option.some.inj resolved
    rw [Repository.outcome_getReference_text]
    cases pointed : repository.target? name with
    | none => exact (if_pos rfl).symm
    | some hash => exact (if_neg (anchored.nonzero addressed pointed)).symm
  · intro name hash
    rw [Repository.get_iff_target?]
    exact lists.target?_iff

/-- In the repository of the short history the name that is left has a hash, as often as it is asked for,
and the others, the empty one too, are missing. -/
theorem reference_readings_agree_sample :
    History.sampleRepository ∈ (History.ofActions History.sample).work.content.repositories ∧
      outcome (Repository.resolveReferences
          (.array (["b", "a", "", "b"].map .string))) History.sampleRepository =
        .ok [Hash.digest .sha256 [1], Hash.zero, Hash.zero, Hash.digest .sha256 [1]] ∧
      outcome (Repository.getReference (.string "b")) History.sampleRepository =
        .ok (Hash.digest .sha256 [1]) ∧
      outcome (Repository.getReference (.string "")) History.sampleRepository =
        .error (.rejected (.referenceNotFound (.string ""))) := by
  have present := History.mem_sample
  have resolved : outcome (Repository.resolveReferences
      (.array (["b", "a", "", "b"].map .string))) History.sampleRepository =
    .ok [Hash.digest .sha256 [1], Hash.zero, Hash.zero, Hash.digest .sha256 [1]] := by rfl
  have nonzero : Hash.digest .sha256 [1] ≠ Hash.zero := by decide +kernel
  obtain ⟨⟨hashes, told, _, agree⟩, _, _⟩ := reference_readings_agree History.sample
    History.sampleRepository present ["b", "a", "", "b"]
  obtain rfl := Except.ok.inj (told.symm.trans resolved)
  refine ⟨present, resolved, ?_, agree 2 "" Hash.zero rfl rfl⟩
  rw [agree 0 "b" _ rfl rfl, if_neg nonzero]

end ObjectDepot
