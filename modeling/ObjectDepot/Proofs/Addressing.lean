import ObjectDepot.Proofs.Histories

/-!
# Content addressing

Every object of a repository stands under the digest of its payload, once, and in the order in which
the objects were put. `Addressed.changed` is the step and `addressed_invariant` the run.
-/

namespace ObjectDepot

open Procedure

namespace Hash

/-- A digest that is filled up has the size of a slot. -/
lemma length_fill {raw : Bytes} (short : raw.length ≤ size) : (fill raw).length = size := by
  rw [fill, List.length_append, List.length_replicate]
  omega

/-- A digest fits into a slot. -/
lemma length_rawDigest (algorithm : Algorithm) (message : Bytes) :
    (algorithm.rawDigest message).length ≤ size := by
  cases algorithm with
  | sha1 =>
    rw [Algorithm.rawDigest, Sha1.digest_length]
    decide
  | sha256 =>
    rw [Algorithm.rawDigest, Sha256.digest_length]
    decide

/-- Every digest of an algorithm fills a slot. -/
lemma length_digest (algorithm : Algorithm) (message : Bytes) :
    (digest algorithm message).length = size :=
  length_fill (length_rawDigest algorithm message)

/-- What does not count as zero is not the zero hash. -/
lemma ne_zero {hash : Bytes} (nonzero : isZero hash = false) : hash ≠ zero := by
  rintro rfl
  exact absurd nonzero (by decide)

/-- A hash that fills a slot is zero only if it is the slot of zeros. -/
lemma isZero_iff {hash : Bytes} (filled : hash.length = size) : isZero hash ↔ hash = zero := by
  rw [isZero, zero, Bool.and_eq_true, decide_eq_true_eq, List.all_eq_true, List.eq_replicate_iff]
  simp only [beq_iff_eq, filled, Nat.le_refl, true_and]

end Hash

/-- The hashes of the objects that operations put, in their order. -/
def putHashes (calls : List RepositoryCall) : List Bytes :=
  calls.filterMap fun
    | .put hash _ => some hash
    | _ => none

/-- An object under the digest of its payload. -/
structure StoredObject.Addressed (algorithm : Algorithm) (object : StoredObject) : Prop where
  full : object.data ≠ []
  nonzero : Hash.isZero object.hash = false
  digest : Hash.digest algorithm object.data = object.hash

namespace Repository

/-- The objects of a repository stand under the digests of their payloads, each once, in the order of
some hashes. -/
structure Addressed (repository : Repository) (hashes : List Bytes) : Prop where
  objects : ∀ object ∈ repository.objects, object.Addressed repository.algorithm
  distinct : repository.objectHashes.Nodup
  order : repository.objectHashes = hashes

variable {repository after : Repository} {hashes : List Bytes} {hash data : Bytes}

/-- An object is there if its hash is listed. -/
lemma hasObject_iff_mem : repository.hasObject hash ↔ hash ∈ repository.objectHashes :=
  Keys.find?_key_isSome

/-- An object is there if its payload can be had. -/
lemma hasObject_iff_get :
    repository.hasObject hash ↔ ∃ data, outcome (getObject hash) repository = .ok data := by
  rw [hasObject, outcome_getObject]
  cases repository.findObject? hash with
  | none => simp
  | some object => simp

/-- A payload that can be had is that of an object. -/
lemma mem_of_getObject (h : outcome (getObject hash) repository = .ok data) :
    ⟨hash, data⟩ ∈ repository.objects := by
  rw [outcome_getObject] at h
  cases found : repository.findObject? hash with
  | none =>
    rw [found] at h
    cases h
  | some object =>
    rw [found] at h
    cases h
    obtain ⟨member, rfl⟩ := Keys.mem_of_find? found
    exact member

/-- One more object under its digest, which was not there. -/
lemma Addressed.put (addressed : Addressed repository hashes) (full : data ≠ [])
    (nonzero : Hash.isZero hash = false)
    (digest : Hash.digest repository.algorithm data = hash)
    (absent : repository.hasObject hash = false) :
    Addressed (repository.addObject hash data) (hashes ++ [hash]) := by
  have listed : (repository.addObject hash data).objectHashes =
      repository.objectHashes ++ [hash] := List.map_append
  have fresh : hash ∉ repository.objectHashes := by
    rw [← hasObject_iff_mem, absent]
    exact Bool.false_ne_true
  refine ⟨?_, ?_, by rw [listed, addressed.order]⟩
  · intro object member
    rcases List.mem_append.1 member with old | new
    · exact addressed.objects object old
    · obtain rfl := List.mem_singleton.1 new
      exact ⟨full, nonzero, digest⟩
  · rw [listed]
    exact List.nodup_append'.2
      ⟨addressed.distinct, List.nodup_singleton _, List.disjoint_singleton.2 fresh⟩

/-- A change that touches no object leaves the objects addressed. -/
lemma Addressed.of_objects (addressed : Addressed repository hashes)
    (same : after.objects = repository.objects)
    (algorithm : after.algorithm = repository.algorithm) : Addressed after (hashes ++ []) := by
  have listed : after.objectHashes = repository.objectHashes :=
    congrArg (List.map StoredObject.hash) same
  rw [List.append_nil]
  refine ⟨?_, by rw [listed]; exact addressed.distinct, by rw [listed, addressed.order]⟩
  rw [same, algorithm]
  exact addressed.objects

/-- Every change keeps the objects addressed and adds the hash that its operation puts. -/
lemma Addressed.changed {call : RepositoryCall} {sent : List Event}
    (addressed : Addressed repository hashes) (change : repository.Change call after sent) :
    Addressed after (hashes ++ putHashes [call]) := by
  cases change with
  | put full nonzero digest absent => exact addressed.put full nonzero digest absent
  | read reading => cases call <;> first | exact addressed.of_objects rfl rfl | cases reading
  | _ => exact addressed.of_objects rfl rfl

/-- The objects of a repository are those that were put, in this order. -/
lemma addressed_invariant :
    Invariant fun repository calls _ => Addressed repository (putHashes calls) where
  created _ _ _ _ := ⟨nofun, List.nodup_nil, rfl⟩
  changed repository before told call after sent addressed change := by
    have appended : putHashes (before ++ [call]) = putHashes before ++ putHashes [call] :=
      List.filterMap_append
    rw [appended]
    exact addressed.changed change

/-- A payload that can be had is not empty, and its hash is its digest. -/
lemma Addressed.get (addressed : Addressed repository hashes)
    (h : outcome (getObject hash) repository = .ok data) :
    data ≠ [] ∧ hash.length = 32 ∧ hash ≠ Hash.zero ∧
      Hash.digest repository.algorithm data = hash := by
  obtain ⟨full, nonzero, digest⟩ := addressed.objects _ (mem_of_getObject h)
  have filled := Hash.length_digest repository.algorithm data
  rw [digest] at filled
  exact ⟨full, filled, Hash.ne_zero nonzero, digest⟩

end Repository

/-- In every history a payload that can be had under a hash is not empty and has this hash as its
digest, which fills a slot and is not zero. The hashes that are listed are those under which something
can be had, each once, in the order in which the committed operations put them. -/
theorem objects_content_addressed (actions : List Action) (repository : Repository)
    (present : repository ∈ (History.ofActions actions).work.content.repositories) :
    (∀ hash data, outcome (Repository.getObject hash) repository = .ok data →
      data ≠ [] ∧ hash.length = 32 ∧ hash ≠ Hash.zero ∧
        Hash.digest repository.algorithm data = hash) ∧
    (∀ hash, (repository.hasObject hash ↔
        ∃ data, outcome (Repository.getObject hash) repository = .ok data) ∧
      (repository.hasObject hash ↔ hash ∈ repository.objectHashes)) ∧
    repository.objectHashes.Nodup ∧
    repository.objectHashes =
      putHashes (callsOn repository.name (History.ofActions actions).calls) := by
  have addressed := History.invariant Repository.addressed_invariant actions repository present
  exact ⟨fun _ _ => addressed.get,
    fun _ => ⟨Repository.hasObject_iff_get, Repository.hasObject_iff_mem⟩,
    addressed.distinct, addressed.order⟩

/-- In the short history the pushed object is found under its digest. -/
theorem objects_content_addressed_sample :
    History.sampleRepository ∈ (History.ofActions History.sample).work.content.repositories ∧
      outcome (Repository.getObject (Hash.digest .sha256 [1])) History.sampleRepository = .ok [1] ∧
      (Hash.digest .sha256 [1]).length = 32 ∧ Hash.digest .sha256 [1] ≠ Hash.zero ∧
      putHashes (callsOn "depot" (History.ofActions History.sample).calls) =
        [Hash.digest .sha256 [1]] := by
  have present := History.mem_sample
  have found : outcome (Repository.getObject (Hash.digest .sha256 [1])) History.sampleRepository =
      .ok [1] := by
    have object : History.sampleRepository.findObject? (Hash.digest .sha256 [1]) =
      some ⟨Hash.digest .sha256 [1], [1]⟩ := by decide +kernel
    rw [Repository.outcome_getObject, object]
  obtain ⟨addressed, _, _, order⟩ :=
    objects_content_addressed History.sample History.sampleRepository present
  obtain ⟨_, length, nonzero, _⟩ := addressed _ _ found
  exact ⟨present, found, length, nonzero, order.symm⟩

end ObjectDepot
