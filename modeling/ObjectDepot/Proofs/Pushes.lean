import ObjectDepot.Proofs.Changes
import ObjectDepot.Proofs.Repositories

/-!
# Pushes and their parts

A push stands for a list of single operations, its `parts`. `performEach` does operations one after
another on a repository, up to the first that fails, and `run_within_performEach` says that it makes no
difference whether each operation looks its repository up for itself. `run_push_of_parts` and
`run_push_of_failing_part` say what a push makes of its parts done as calls of their own.
-/

namespace ObjectDepot

open Procedure

namespace RepositoryCall

/-- The operation that points a reference at a hash, or deletes it where the hash is zero. -/
def ofChange (name : Json) (hash : Bytes) : RepositoryCall :=
  if Hash.isZero hash then .delete name else .upsert name hash

/-- The single operations for which a push stands: the objects come first. -/
def pushed (objects : List (Bytes × Bytes)) (references : List (Json × Bytes)) :
    List RepositoryCall :=
  objects.map (fun object => .put object.1 object.2) ++
    references.map fun reference => ofChange reference.1 reference.2

/-- The single operations for which an operation stands. -/
def parts : RepositoryCall → List RepositoryCall
  | .push objects references => pushed objects references
  | call => [call]

/-- An operation that is no push stands for itself. -/
lemma parts_of_single {call : RepositoryCall} (single : call.isPush = false) :
    call.parts = [call] := by
  cases call with
  | push => cases single
  | _ => rfl

/-- No part of a push is a push. -/
lemma single_of_pushed {objects : List (Bytes × Bytes)} {references : List (Json × Bytes)}
    {call : RepositoryCall} (h : call ∈ pushed objects references) : call.isPush = false := by
  rcases List.mem_append.1 h with h | h
  · obtain ⟨object, _, rfl⟩ := List.mem_map.1 h
    rfl
  · obtain ⟨reference, _, rfl⟩ := List.mem_map.1 h
    unfold ofChange
    split <;> rfl

end RepositoryCall

namespace Repository

/-- Performs operations in their order up to the first that fails. -/
def performEach : List RepositoryCall → Procedure Repository Unit
  | [] => return ()
  | call :: rest => do
    let _ ← call.perform
    performEach rest

/-- Operations in a row are performed in a row. -/
lemma performEach_append (first second : List RepositoryCall) :
    performEach (first ++ second) = performEach first >>= fun _ => performEach second := by
  induction first with
  | nil => simp only [List.nil_append, performEach, pure_bind]
  | cons call rest ih => simp only [List.cons_append, performEach, ih, bind_assoc]

/-- The objects of a push are put in turn. -/
lemma performEach_objects (objects : List (Bytes × Bytes)) :
    performEach (objects.map fun object => .put object.1 object.2) =
      objects.forM fun (hash, data) => putObject hash data := by
  induction objects with
  | nil => rfl
  | cons object rest ih =>
    simp only [List.map_cons, performEach, ih, RepositoryCall.perform, bind_assoc, pure_bind]
    rfl

/-- The part for a reference is what a push does with it. -/
lemma perform_ofChange (name : Json) (hash : Bytes) :
    (do let _ ← (RepositoryCall.ofChange name hash).perform) = changeReference name hash := by
  unfold RepositoryCall.ofChange changeReference
  split
  case isTrue =>
    simp only [RepositoryCall.perform, RepositoryBackend.deleteReference, bind_assoc, pure_bind]
  case isFalse =>
    simp only [RepositoryCall.perform, RepositoryBackend.upsertReference, bind_assoc, pure_bind]

/-- The references of a push are changed in turn. -/
lemma performEach_references (references : List (Json × Bytes)) :
    performEach (references.map fun reference => RepositoryCall.ofChange reference.1 reference.2) =
      references.forM fun (name, hash) => changeReference name hash := by
  induction references with
  | nil => rfl
  | cons reference rest ih =>
    simp only [List.map_cons, performEach, ih, List.forM_eq_forM, List.forM_cons,
      ← perform_ofChange, bind_assoc, pure_bind]

/-- A push applies its parts. -/
lemma applyPush_eq (objects : List (Bytes × Bytes)) (references : List (Json × Bytes)) :
    applyPush objects references = performEach (RepositoryCall.pushed objects references) := by
  unfold applyPush RepositoryCall.pushed
  rw [performEach_append, performEach_objects, performEach_references]

variable {work after : Work Repository} {call : RepositoryCall} {calls : List RepositoryCall}
  {objects : List (Bytes × Bytes)} {references : List (Json × Bytes)}

/-- A push of nothing is rejected. -/
lemma run_push_nil : (push [] []).run work = (.error (.rejected .noData), work) := rfl

/-- A push of something is its parts as one, and a log record. -/
lemma push_eq (full : objects ≠ [] ∨ references ≠ []) :
    push objects references = (do
      atomically (performEach (RepositoryCall.pushed objects references))
      note (.pushApplied (← content).name objects.length references.length)) := by
  have something : (objects.isEmpty && references.isEmpty) = false := by
    cases objects with
    | nil => simpa using full
    | cons => rfl
  unfold push
  rw [if_neg (by simp [something]), applyPush_eq]

/-- A push whose parts succeed one after another does what they do. -/
lemma run_push_of_ok (full : objects ≠ [] ∨ references ≠ [])
    (h : (performEach (RepositoryCall.pushed objects references)).run work = (.ok (), after)) :
    (push objects references).run work = (.ok (), { after with
      log := after.log ++
        [.pushApplied after.content.name objects.length references.length] }) := by
  rw [push_eq full, run_bind_of_ok (run_atomically_of_ok h)]
  rfl

/-- A push of which a part fails fails with it and does nothing. -/
lemma run_push_of_error {failure : Failure} (full : objects ≠ [] ∨ references ≠ [])
    (h : (performEach (RepositoryCall.pushed objects references)).run work =
      (.error failure, after)) :
    (push objects references).run work =
      (.error failure, { after with content := work.content, events := work.events }) := by
  rw [push_eq full, run_bind_of_error (run_atomically_of_error h)]

/-- A single operation does not rename its repository. -/
lemma name_perform {outcome : Except Failure Answer} (single : call.isPush = false)
    (h : call.perform.run work = (outcome, after)) : after.content.name = work.content.name := by
  have settled := RepositoryCall.settles single work
  rw [h] at settled
  cases settled with
  | refused => rfl
  | done _ change _ => exact change.name

/-- Operations that are no pushes do not rename a repository. -/
lemma name_performEach {outcome : Except Failure Unit}
    (single : ∀ call ∈ calls, call.isPush = false)
    (h : (performEach calls).run work = (outcome, after)) :
    after.content.name = work.content.name := by
  induction calls generalizing work with
  | nil =>
    cases h
    rfl
  | cons call rest ih =>
    rcases e : call.perform.run work with ⟨failure | answer, mid⟩
    all_goals have first := name_perform (single call List.mem_cons_self) e
    · rw [performEach, run_bind_of_error e] at h
      cases h
      exact first
    · rw [performEach, run_bind_of_ok e] at h
      exact (ih (fun call hc => single call (List.mem_cons_of_mem _ hc)) h).trans first

end Repository

/-- Operations on one repository, each as a call of its own. -/
def stepsWithin (key : Json) (calls : List RepositoryCall) : List Step :=
  calls.map fun call => .call (.inRepository key call)

/-- It makes no difference whether each operation looks its repository up for itself. -/
lemma run_within_performEach {branch : String} {key : Json} {repository : Repository}
    {calls : List RepositoryCall} {work : Work Store}
    (single : ∀ call ∈ calls, call.isPush = false)
    (distinct : work.content.names.Nodup)
    (present : work.content.lookup? key = some repository) :
    (Store.within key (Repository.performEach calls)).run work =
      ((fun _ => ()) <$> performAll branch (stepsWithin key calls)).run work := by
  induction calls generalizing work repository with
  | nil =>
    obtain ⟨_, found⟩ := Store.lookup?_iff.1 present
    have none : (Repository.performEach []).run { work with content := repository } =
      (.ok (), { work with content := repository }) := rfl
    rw [Store.run_within_some present none, Store.replace_self distinct found]
    rfl
  | cons call rest ih =>
    -- `call` runs by itself on both sides; what it leaves is where the hypothesis takes over
    have single' : ∀ call ∈ rest, call.isPush = false :=
      fun call hc => single call (List.mem_cons_of_mem _ hc)
    rw [Repository.performEach, Store.run_within_bind present
      (fun _ _ => Repository.name_perform (single call List.mem_cons_self))
      (fun _ _ _ _ => Repository.name_performEach single')]
    rw [stepsWithin, List.map_cons, performAll, map_bind]
    rcases e : (Store.within key call.perform).run work with ⟨failure | answer, mid⟩
    · rw [run_bind_of_error e]
      exact (run_bind_of_error e).symm
    · have first : (Step.perform branch (.call (.inRepository key call))).run work =
        (.ok answer, mid) := e
      obtain ⟨done, eDone, rfl⟩ := Store.within_eq present e
      have renamed := Repository.name_perform (single call List.mem_cons_self) eDone
      have present' := Store.lookup?_replace present renamed
      have distinct' : (work.content.replace done.content).names.Nodup := by
        rw [Store.names_replace]
        exact distinct
      rw [run_bind_of_ok e, run_bind_of_ok first, ih single' distinct' present', map_bind]
      simp only [map_pure, bind_pure_comp]
      rfl

section Push

variable {branch : String} {key : Json} {repository : Repository} {work after : Work Store}
  {objects : List (Bytes × Bytes)} {references : List (Json × Bytes)}
  {outcome : Except Failure (List Answer)}

/-- An operation on a repository that there is not. -/
lemma run_inRepository_none {call : RepositoryCall} (missing : work.content.lookup? key = none) :
    ((Call.inRepository key call).perform branch).run work =
      (.error (.rejected (.repositoryNotFound key)), work) :=
  Store.run_within_none missing

/-- A push of nothing is refused and leaves the work as it is. -/
lemma run_push_of_nothing (distinct : work.content.names.Nodup)
    (present : work.content.lookup? key = some repository) :
    ((Call.inRepository key (.push [] [])).perform branch).run work =
      (.error (.rejected .noData), work) := by
  obtain ⟨_, found⟩ := Store.lookup?_iff.1 present
  have refused : (RepositoryCall.push [] []).perform.run { work with content := repository } =
    (.error (.rejected .noData), { work with content := repository }) :=
    run_bind_of_error Repository.run_push_nil
  have whole := Store.run_within_some present refused
  rw [Store.replace_self distinct found] at whole
  exact whole

/-- The parts of a push done one after another are its operations done on the repository. -/
lemma performEach_of_performAll (distinct : work.content.names.Nodup)
    (present : work.content.lookup? key = some repository)
    (ran : (performAll branch (stepsWithin key (RepositoryCall.pushed objects references))).run work
      = (outcome, after)) :
    ∃ done, (Repository.performEach (RepositoryCall.pushed objects references)).run
        { work with content := repository } = (outcome.map fun _ => (), done) ∧
      after = { done with content := work.content.replace done.content } := by
  have same : (Store.within key
      (Repository.performEach (RepositoryCall.pushed objects references))).run work =
    ((fun _ => ()) <$> performAll branch
      (stepsWithin key (RepositoryCall.pushed objects references))).run work :=
    run_within_performEach (fun _ => RepositoryCall.single_of_pushed) distinct present
  rw [run_map ran] at same
  exact Store.within_eq present same

/-- A push whose parts succeed as calls of their own ends in the same contents and events. -/
lemma run_push_of_parts {answers : List Answer} (full : objects ≠ [] ∨ references ≠ [])
    (distinct : work.content.names.Nodup)
    (present : work.content.lookup? key = some repository)
    (ran : (performAll branch (stepsWithin key (RepositoryCall.pushed objects references))).run work
      = (.ok answers, after)) :
    ∃ log, ((Call.inRepository key (.push objects references)).perform branch).run work =
      (.ok .done, { after with log := log }) := by
  obtain ⟨done, each, rfl⟩ := performEach_of_performAll distinct present ran
  have pushed : (RepositoryCall.push objects references).perform.run
      { work with content := repository } = (.ok .done, _) :=
    run_bind_of_ok (Repository.run_push_of_ok full each)
  exact ⟨_, Store.run_within_some present pushed⟩

/-- A push of which a part fails as a call of its own fails with it and leaves the contents and the
queue of events as they were. -/
lemma run_push_of_failing_part {failure : Failure} (full : objects ≠ [] ∨ references ≠ [])
    (distinct : work.content.names.Nodup)
    (present : work.content.lookup? key = some repository)
    (ran : (performAll branch (stepsWithin key (RepositoryCall.pushed objects references))).run work
      = (.error failure, after)) :
    ((Call.inRepository key (.push objects references)).perform branch).run work =
      (.error failure, { after with content := work.content, events := work.events }) := by
  obtain ⟨_, found⟩ := Store.lookup?_iff.1 present
  obtain ⟨done, each, rfl⟩ := performEach_of_performAll distinct present ran
  have pushed : (RepositoryCall.push objects references).perform.run
      { work with content := repository } = (.error failure, _) :=
    run_bind_of_error (Repository.run_push_of_error full each)
  have whole := Store.run_within_some present pushed
  rw [Store.replace_self distinct found] at whole
  exact whole

end Push

end ObjectDepot
