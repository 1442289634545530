import ObjectDepot.Proofs.Authorization

/-!
# Ownership in two steps

What waits to be accepted in a repository is told by the last handover that was done on it
(`Pending`, `Pending.changed`). `perform_owner` and `Service.respond_owner` say that only an acceptance
by the one who is waited for changes the owner. Both hold wherever a run is `Underway`, also inside
transactions.
-/

namespace ObjectDepot

open Procedure

/-- Whether an operation hands the ownership over, or is meant to. -/
def RepositoryCall.isHandover : RepositoryCall → Bool
  | .transfer .. | .accept _ => true
  | _ => false

/-- The last transfer or acceptance among operations. -/
def lastHandover? (calls : List RepositoryCall) : Option RepositoryCall :=
  (calls.filter (·.isHandover)).getLast?

/-- One more operation is the last handover, or leaves the one before. -/
lemma lastHandover?_concat (calls : List RepositoryCall) (call : RepositoryCall) :
    lastHandover? (calls ++ [call]) =
      if call.isHandover then some call else lastHandover? calls := by
  rw [lastHandover?, List.filter_append]
  cases handover : call.isHandover with
  | true =>
    rw [List.filter_cons_of_pos handover, List.filter_nil, List.getLast?_concat]
    rfl
  | false =>
    rw [List.filter_cons_of_neg (by simp [handover]), List.filter_nil, List.append_nil]
    rfl

namespace Repository

/-- What waits in a repository after the last handover: a transfer of its owner to the one who is
pending, and otherwise nothing. -/
inductive Pending (repository : Repository) : Option RepositoryCall → Prop where
  | none :
    repository.pendingOwner = "" →
    Pending repository none
  | accepted {caller : Json} :
    repository.pendingOwner = "" →
    Pending repository (some (.accept caller))
  | offered :
    repository.pendingOwner ≠ "" →
    Pending repository
      (some (.transfer (.string repository.owner) (.string repository.pendingOwner)))

variable {repository after : Repository} {last : Option RepositoryCall} {call : RepositoryCall}
  {sent : List Event}

/-- Nothing is pending unless the last handover is a transfer. -/
lemma Pending.empty_iff (pending : Pending repository last) :
    repository.pendingOwner = "" ↔
      ∀ caller newOwner, last ≠ some (.transfer caller newOwner) := by
  cases pending with
  | none empty => exact ⟨fun _ _ _ => nofun, fun _ => empty⟩
  | accepted empty => exact ⟨fun _ _ _ => nofun, fun _ => empty⟩
  | offered waiting =>
    constructor
    · intro empty
      exact absurd empty waiting
    · intro none
      exact absurd rfl (none _ _)

/-- Whoever is pending was named by the owner, and nothing has come since. -/
lemma Pending.last_eq (pending : Pending repository last) (waiting : repository.pendingOwner ≠ "") :
    last = some (.transfer (.string repository.owner) (.string repository.pendingOwner)) := by
  cases pending with
  | none empty => exact absurd empty waiting
  | accepted empty => exact absurd empty waiting
  | offered => rfl

/-- Where both owners are the same, so is what is pending. -/
lemma Pending.kept (pending : Pending repository last) (owner : after.owner = repository.owner)
    (same : after.pendingOwner = repository.pendingOwner) : Pending after last := by
  cases pending with
  | none empty => exact .none (same.trans empty)
  | accepted empty => exact .accepted (same.trans empty)
  | offered waiting =>
    rw [← owner, ← same]
    rw [← same] at waiting
    exact .offered waiting

/-- Every change keeps what waits in step with the last handover. -/
lemma Pending.changed (pending : Pending repository last)
    (change : repository.Change call after sent) :
    Pending after (if call.isHandover then some call else last) := by
  cases change with
  | propose owner valid =>
    obtain ⟨rfl, _⟩ := eq_of_isAccount owner
    obtain ⟨rfl, full⟩ := eq_of_validName? valid
    exact .offered full
  | accept => exact .accepted rfl
  | read reading => cases call <;> first | exact pending | cases reading
  | put => exact pending.kept rfl rfl
  | insert => exact pending.kept rfl rfl
  | replace => exact pending.kept rfl rfl
  | erase => exact pending.kept rfl rfl
  | branch => exact pending.kept rfl rfl

/-- In every history the last handover tells what is pending. -/
lemma pending_invariant :
    Invariant fun repository calls _ => Pending repository (lastHandover? calls) where
  created _ _ _ _ := .none rfl
  changed _ before _ call _ _ pending change := by
    rw [lastHandover?_concat]
    exact pending.changed change

end Repository

/-- A run has come to some work, perhaps inside transactions that are still open. The calls are those
that were done and are not undone. -/
inductive Underway : List Call → Work Store → Prop where
  | settled (actions : List Action) :
    Underway (History.ofActions actions).calls (History.ofActions actions).work
  | inside {calls : List Call} {work after : Work Store} {branch : String} {steps : List Step}
    {answers : List Answer} :
    Underway calls work →
    (performAll branch steps).run work = (.ok answers, after) →
    Underway (calls ++ callsOfAll steps answers) after

variable {calls : List Call} {work after : Work Store} {branch name : String}
  {repository later : Repository}

/-- What is under way inside a transaction is a trace of operations. -/
lemma Underway.trace (underway : Underway calls work) : Trace calls work.content work.events := by
  induction underway with
  | settled actions => exact History.traced actions
  | inside _ ran ih => exact ih.steps _ ran

/-- The last handover of what is under way tells what is pending in the midst of a transaction. -/
lemma Underway.pending (underway : Underway calls work)
    (present : work.content.find? name = some repository) :
    repository.Pending (lastHandover? (callsOn name calls)) := by
  obtain ⟨member, rfl⟩ := Store.mem_of_find? present
  exact underway.trace.invariant Repository.pending_invariant repository member

/-- A call that succeeds leaves a repository as it is, unless it is an operation on this one. -/
lemma perform_local {call : Call} {answer : Answer}
    (present : work.content.find? name = some repository)
    (ran : (call.perform branch).run work = (.ok answer, after))
    (found : after.content.find? name = some later) :
    later = repository ∨ ∃ key operation done, lookupKey? key = some name ∧
      call = .inRepository key operation ∧
      operation.perform.run { work with content := repository } = (.ok answer, done) ∧
      done.content = later := by
  cases call with
  | dump =>
    cases ran
    rw [present] at found
    cases found
    exact .inl rfl
  | create =>
    left
    obtain ⟨created, fresh, _, added⟩ := create_ok ran
    have apart : name ≠ created.name := by
      rintro rfl
      cases fresh.symm.trans present
    rw [added, Store.find?_add_other apart, present] at found
    cases found
    rfl
  | inRepository key operation =>
    cases there : work.content.lookup? key with
    | none => cases (run_inRepository_none there).symm.trans ran
    | some other =>
      obtain ⟨done, performed, rfl⟩ := Store.within_eq there ran
      obtain ⟨named, here⟩ := Store.lookup?_iff.1 there
      obtain ⟨renamed, _⟩ := (RepositoryCall.changes performed).fixed
      have renamed' : done.content.name = other.name := renamed
      by_cases apart : name = other.name
      · subst apart
        rw [here] at present
        cases present
        rw [← renamed'] at here found
        rw [Store.find?_replace_self here] at found
        cases found
        exact .inr ⟨key, operation, done, named, rfl, performed, rfl⟩
      · rw [← renamed'] at apart
        rw [Store.find?_replace_other apart, present] at found
        cases found
        exact .inl rfl

/-- Only an acceptance by the one who is pending changes the owner. -/
lemma perform_owner {call : Call} {outcome : Except Failure Answer}
    (trace : Trace calls work.content work.events)
    (present : work.content.find? name = some repository)
    (ran : (call.perform branch).run work = (outcome, after))
    (found : after.content.find? name = some later) (moved : later.owner ≠ repository.owner) :
    (∃ answer, outcome = .ok answer) ∧ repository.pendingOwner ≠ "" ∧
      later.owner = repository.pendingOwner ∧
      ∃ key, lookupKey? key = some name ∧
        call = .inRepository key (.accept (.string later.owner)) := by
  rcases trace.perform ran with ⟨_, _, kept, _⟩ | ⟨answer, rfl, _⟩
  · rw [kept, present] at found
    cases found
    exact absurd rfl moved
  rcases perform_local present ran found with rfl | ⟨key, operation, done, named, rfl, performed, rfl⟩
  · exact absurd rfl moved
  cases accepts : operation.isAccept with
  | false => exact absurd (RepositoryCall.owner_kept accepts performed) moved
  | true =>
    cases operation with
    | accept caller =>
      obtain ⟨waiting, same, taken⟩ := RepositoryCall.accept_ok performed
      obtain ⟨rfl, _⟩ := Repository.eq_of_isAccount same
      rw [taken]
      exact ⟨⟨answer, rfl⟩, waiting, rfl, key, named, rfl⟩
    | _ => cases accepts

/-- Only the one who is pending changes the owner by a request, and by accepting. -/
lemma Http.Service.respond_owner {service : Http.Service} {request : Http.Request}
    {response : Http.Response} (distinct : work.content.names.Nodup)
    (present : work.content.find? name = some repository)
    (ran : (service.respond request).run work = (response, after))
    (found : after.content.find? name = some later) (moved : later.owner ≠ repository.owner) :
    response.succeeded ∧ repository.pendingOwner ≠ "" ∧
      later.owner = repository.pendingOwner ∧
      Http.Endpoint.ofPath? (Http.pathOf request.target) = some (.repository name .accept) ∧
      service.sender request = .ok (some later.owner) := by
  have differs : after.content.find? name ≠ work.content.find? name := by
    intro same
    rw [found, present] at same
    cases same
    exact moved rfl
  -- a request that fails changes nothing
  have succeeded : response.succeeded := by
    rcases Http.Service.respond_cases ran with ⟨succeeded, _⟩ | ⟨_, kept, _⟩
    · exact succeeded
    · exact absurd (by rw [kept]) differs
  have permitted := Http.Service.permitted_of_differs distinct ran differs
  rw [present, found] at permitted
  -- nobody creates what is there, and the owner stays if it is the owner who asks
  cases permitted with
  | own _ _ _ owner => exact absurd owner moved
  | succeed path _ waiting sent => exact ⟨succeeded, waiting, rfl, path, sent⟩

/-- Wherever a run has come, nothing is pending in a repository unless the last handover on it is a
transfer. A call or a request after which the owner is another is an acceptance by the new owner that
succeeds, and the last handover before it is a transfer by the old owner to the new one. A step that
fails, such as a transaction that is given up, leaves everything as it was. -/
theorem owner_changes_by_acceptance (calls : List Call) (work : Work Store) (name : String)
    (repository : Repository) (underway : Underway calls work)
    (present : work.content.find? name = some repository) :
    (repository.pendingOwner = "" ↔
      ∀ caller newOwner, lastHandover? (callsOn name calls) ≠ some (.transfer caller newOwner)) ∧
    (∀ branch call outcome after later,
      (Call.perform branch call).run work = (outcome, after) →
      after.content.find? name = some later → later.owner ≠ repository.owner →
      (∃ answer, outcome = .ok answer) ∧
        (∃ key, lookupKey? key = some name ∧
          call = .inRepository key (.accept (.string later.owner))) ∧
        lastHandover? (callsOn name calls) =
          some (.transfer (.string repository.owner) (.string later.owner))) ∧
    (∀ (service : Http.Service) request response after later,
      (service.respond request).run work = (response, after) →
      after.content.find? name = some later → later.owner ≠ repository.owner →
      response.succeeded ∧
        Http.Endpoint.ofPath? (Http.pathOf request.target) = some (.repository name .accept) ∧
        service.sender request = .ok (some later.owner) ∧
        lastHandover? (callsOn name calls) =
          some (.transfer (.string repository.owner) (.string later.owner))) ∧
    ∀ branch step failure after,
      (Step.perform branch step).run work = (.error failure, after) →
      after.content = work.content := by
  have pending := underway.pending present
  refine ⟨pending.empty_iff, ?_, ?_, ?_⟩
  · intro branch call outcome after later ran found moved
    obtain ⟨succeeded, waiting, successor, accepts⟩ :=
      perform_owner underway.trace present ran found moved
    refine ⟨succeeded, accepts, ?_⟩
    rw [successor]
    exact pending.last_eq waiting
  · intro service request response after later ran found moved
    obtain ⟨succeeded, waiting, successor, path, sent⟩ :=
      Http.Service.respond_owner underway.trace.distinct present ran found moved
    refine ⟨succeeded, path, sent, ?_⟩
    rw [successor]
    exact pending.last_eq waiting
  · intro branch step failure after ran
    exact (underway.trace.step_failed ran).1

namespace History

/-- What the successor finds. -/
def offeredRepository : Repository :=
  { sampleRepository with pendingOwner := "bob" }

/-- The successor is pending, and once the acceptance has changed the owner, the last handover before it
is found to be the transfer by the old owner. -/
theorem owner_changes_by_acceptance_sample :
    Underway (ofActions offered).calls (ofActions offered).work ∧
      (ofActions offered).work.content.find? "depot" = some offeredRepository ∧
      ∃ outcome after later,
        (Call.perform "main" (.inRepository (.string "depot") (.accept (.string "bob")))).run
          (ofActions offered).work = (outcome, after) ∧
        after.content.find? "depot" = some later ∧ later.owner ≠ offeredRepository.owner ∧
        lastHandover? (callsOn "depot" (ofActions offered).calls) =
          some (.transfer (.string "ann") (.string "bob")) := by
  have present : (ofActions offered).work.content.find? "depot" = some offeredRepository := by
    decide +kernel
  have accepted : ((Call.perform "main" (.inRepository (.string "depot")
      (.accept (.string "bob")))).run (ofActions offered).work).2.content.find? "depot" =
      some { sampleRepository with owner := "bob" } := by decide +kernel
  have moved : ({ sampleRepository with owner := "bob" } : Repository).owner ≠
    offeredRepository.owner := by decide
  have underway := Underway.settled offered
  obtain ⟨_, calls, _, _⟩ := owner_changes_by_acceptance (ofActions offered).calls
    (ofActions offered).work "depot" offeredRepository underway present
  rcases ran : (Call.perform "main" (.inRepository (.string "depot")
    (.accept (.string "bob")))).run (ofActions offered).work with ⟨outcome, after⟩
  rw [ran] at accepted
  obtain ⟨_, _, last⟩ := calls _ _ _ _ _ ran accepted moved
  exact ⟨underway, present, outcome, after, _, rfl, accepted, moved, last⟩

end History

end ObjectDepot
