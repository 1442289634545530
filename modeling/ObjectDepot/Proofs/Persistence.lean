import ObjectDepot.Proofs.Addressing
import ObjectDepot.Proofs.Effects

/-!
# What a store never loses

The committed calls tell which repositories there are and under which hash algorithm each was founded
(`Trace.founded`), and which objects each of them holds (`stored_invariant`). Whatever is done later
only adds to the committed calls (`History.calls_prefix`), so what is stored stays.
-/

namespace ObjectDepot

open Procedure

/-- The hash algorithm under which calls create the repository with a name. -/
def foundedAs (name : String) (calls : List Call) : Option Algorithm :=
  calls.findSome? fun
    | .create key _ algorithm =>
      if validName? key = some name then (Algorithm.ofJson algorithm).toOption else none
    | _ => none

/-- The objects that operations put, in their order. -/
def putObjects (calls : List RepositoryCall) : List StoredObject :=
  calls.filterMap fun
    | .put hash data => some ⟨hash, data⟩
    | _ => none

variable {calls : List Call} {store : Store} {events : List Event} {name text : String}

/-- A repository is founded in the first part, or else in the second. -/
lemma foundedAs_append (first second : List Call) :
    foundedAs name (first ++ second) = (foundedAs name first).or (foundedAs name second) :=
  List.findSome?_append

/-- A repository is founded with the algorithm that it is created with. -/
lemma foundedAs_create {key owner algorithm : Json} {chosen : Algorithm}
    (valid : validName? key = some text) (known : Algorithm.ofJson algorithm = .ok chosen) :
    foundedAs text [.create key owner algorithm] = some chosen := by
  simp [foundedAs, valid, known, Except.toOption]

/-- The creation of another repository founds none of this name. -/
lemma foundedAs_create_other {key owner algorithm : Json} (valid : validName? key = some text)
    (apart : name ≠ text) : foundedAs name [.create key owner algorithm] = none := by
  simp [foundedAs, valid, apart.symm]

/-- What is done inside a repository founds none. -/
lemma foundedAs_inRepository {key : Json} {call : RepositoryCall} :
    foundedAs name [.inRepository key call] = none := rfl

/-- A name finds a repository if a committed call created one under it, and it still has the hash
algorithm of that call. -/
lemma Trace.founded (trace : Trace calls store events) :
    (store.find? name).map (·.algorithm) = foundedAs name calls := by
  induction trace with
  | start => rfl
  | @call calls store after _ _ _ _ change ih =>
    rw [foundedAs_append, ← ih]
    cases change with
    | @create _ text _ _ _ _ _ valid known fresh _ =>
      by_cases same : name = text
      · subst same
        rw [fresh, foundedAs_create valid known, Store.find?_add_self fresh]
        rfl
      · rw [foundedAs_create_other valid same, Option.or_none, Store.find?_add_other same]
    | @within key repository after _ _ present change =>
      obtain ⟨_, found⟩ := Store.lookup?_iff.1 present
      rw [foundedAs_inRepository, Option.or_none]
      by_cases same : name = after.name
      · subst same
        rw [← change.name] at found
        rw [Store.find?_replace_self found, found, Option.map_some, Option.map_some, change.algorithm]
      · rw [Store.find?_replace_other same]
    | dump => exact (Option.or_none).symm

namespace Repository

variable {repository after : Repository} {call : RepositoryCall} {sent : List Event}
  {hash data : Bytes}

/-- A change adds the object that its operation puts, and keeps the others. -/
lemma Change.objects (change : repository.Change call after sent) :
    after.objects = repository.objects ++ putObjects [call] := by
  cases change with
  | put => rfl
  | read reading => cases call <;> first | exact (List.append_nil _).symm | cases reading
  | _ => exact (List.append_nil _).symm

/-- A repository holds the objects that were put. -/
lemma stored_invariant :
    Invariant fun repository calls _ => repository.objects = putObjects calls where
  created _ _ _ _ := rfl
  changed repository before told call after sent stored change := by
    rw [change.objects, stored, putObjects, putObjects, putObjects, List.filterMap_append]

/-- A payload that can be had can be had where there are more objects. -/
lemma get_of_prefix (grows : repository.objects <+: after.objects)
    (h : outcome (getObject hash) repository = .ok data) :
    outcome (getObject hash) after = .ok data := by
  rw [outcome_getObject] at h ⊢
  cases found : repository.findObject? hash with
  | none =>
    rw [found] at h
    cases h
  | some object =>
    rw [found] at h
    have still : after.findObject? hash = some object := grows.find?_eq_some found
    rw [still]
    exact h

end Repository

namespace History

/-- Later actions add to the committed calls. -/
lemma calls_prefix (earlier later : List Action) :
    (ofActions earlier).calls <+: (ofActions (earlier ++ later)).calls := by
  rw [ofActions, ofActions, List.foldl_append]
  -- the later actions act on whatever history the earlier ones have led to
  generalize earlier.foldl extend start = history
  induction later generalizing history with
  | nil => exact List.prefix_rfl
  | cons action rest ih => exact (List.prefix_append _ _).trans (ih (history.extend action))

/-- Later actions act on the work that the earlier ones leave. -/
lemma work_append (earlier later : List Action) :
    (ofActions (earlier ++ later)).work =
      later.foldl (fun work action => action.act work) (ofActions earlier).work := by
  rw [ofActions, ofActions, List.foldl_append]
  generalize earlier.foldl extend start = history
  induction later generalizing history with
  | nil => rfl
  | cons action rest ih => exact ih (history.extend action)

end History

/-- A repository is still found where more calls have been committed, and has kept its objects. -/
lemma Trace.grown {calls' : List Call} {store' : Store} {events' : List Event} {repository : Repository}
    (trace : Trace calls store events) (later : Trace calls' store' events') (more : calls <+: calls')
    (here : store.find? name = some repository) :
    ∃ grown, store'.find? name = some grown ∧ repository.objects <+: grown.objects := by
  have founded : foundedAs name calls = some repository.algorithm := by
    rw [← trace.founded, here]
    rfl
  have still : foundedAs name calls' = some repository.algorithm := more.findSome?_eq_some founded
  rw [← later.founded] at still
  obtain ⟨grown, there, _⟩ := Option.map_eq_some_iff.1 still
  obtain ⟨member, named⟩ := Store.mem_of_find? here
  obtain ⟨member', named'⟩ := Store.mem_of_find? there
  refine ⟨grown, there, ?_⟩
  rw [trace.invariant Repository.stored_invariant repository member,
    later.invariant Repository.stored_invariant grown member', named, named']
  exact (more.filterMap _).filterMap _

/-- Whatever is done after some actions, every repository is found again under its name and with its
hash algorithm, the only one of this name, and its objects are followed by others at most. A payload
that could be had can still be had. -/
theorem store_append_only (earlier later : List Action) :
    (History.ofActions (earlier ++ later)).work.content.names.Nodup ∧
    ∀ repository ∈ (History.ofActions earlier).work.content.repositories,
      ∃ grown, (History.ofActions (earlier ++ later)).work.content.find? repository.name =
          some grown ∧
        grown.name = repository.name ∧ grown.algorithm = repository.algorithm ∧
        repository.objects <+: grown.objects ∧
        ∀ hash data, outcome (Repository.getObject hash) repository = .ok data →
          outcome (Repository.getObject hash) grown = .ok data := by
  have before := History.traced earlier
  have after := History.traced (earlier ++ later)
  have more := History.calls_prefix earlier later
  refine ⟨after.distinct, fun repository present => ?_⟩
  have here : (History.ofActions earlier).work.content.find? repository.name = some repository :=
    (Keys.find?_key_iff before.distinct).2 ⟨present, rfl⟩
  have founded : foundedAs repository.name (History.ofActions earlier).calls =
      some repository.algorithm := by
    rw [← before.founded, here]
    rfl
  -- the call that founded the repository is still the first of its name
  have still : foundedAs repository.name (History.ofActions (earlier ++ later)).calls =
    some repository.algorithm := more.findSome?_eq_some founded
  rw [← after.founded] at still
  obtain ⟨grown, there, algorithm⟩ := Option.map_eq_some_iff.1 still
  obtain ⟨member, named⟩ := Store.mem_of_find? there
  have grows : repository.objects <+: grown.objects := by
    rw [before.invariant Repository.stored_invariant repository present,
      after.invariant Repository.stored_invariant grown member, named]
    exact (more.filterMap _).filterMap _
  exact ⟨grown, there, named, algorithm, grows, fun _ _ => Repository.get_of_prefix grows⟩

namespace History

/-- Somebody tries to create the repository of the short history anew, its object is put once more,
and another object is put. -/
def sampleSequel : List Action :=
  [.perform "main" (.call (.create (.string "depot") (.string "bob") (.string "sha1"))),
    .perform "main" (.call (.inRepository (.string "depot") (.put (Hash.digest .sha256 [1]) [1]))),
    .perform "main" (.call (.inRepository (.string "depot") (.put (Hash.digest .sha256 [2]) [2])))]

/-- After the sequel the repository has its algorithm and its object, and the payload can be had. -/
theorem store_append_only_sample :
    sampleRepository ∈ (ofActions sample).work.content.repositories ∧
      ∃ grown, (ofActions (sample ++ sampleSequel)).work.content.find? "depot" = some grown ∧
        grown.algorithm = .sha256 ∧ sampleRepository.objects <+: grown.objects ∧
        outcome (Repository.getObject (Hash.digest .sha256 [1])) grown = .ok [1] := by
  have present := mem_sample
  have had : outcome (Repository.getObject (Hash.digest .sha256 [1])) sampleRepository =
      .ok [1] := by
    have object : sampleRepository.findObject? (Hash.digest .sha256 [1]) =
      some ⟨Hash.digest .sha256 [1], [1]⟩ := by decide +kernel
    rw [Repository.outcome_getObject, object]
  obtain ⟨_, kept⟩ := store_append_only sample sampleSequel
  obtain ⟨grown, there, _, algorithm, grows, get⟩ := kept sampleRepository present
  exact ⟨present, grown, there, algorithm, grows, get _ _ had⟩

end History

end ObjectDepot
