import ObjectDepot.Proofs.Pushes

/-!
# What an operation leaves

An operation that succeeds makes the changes of its parts one after another (`RepositoryCall.changes`).
Whatever it is, the name and the hash algorithm of its repository stay (`Changes.fixed`), and the owner
stays unless a successor accepts (`RepositoryCall.owner_kept`). A reading operation leaves everything
as it is.
-/

namespace ObjectDepot

open Procedure

/-- Whether an operation accepts the ownership. -/
def RepositoryCall.isAccept : RepositoryCall → Bool
  | .accept _ => true
  | _ => false

/-- What only reads is no push. -/
lemma RepositoryCall.single_of_read {call : RepositoryCall} (reading : call.isRead) :
    call.isPush = false := by
  cases call with
  | push => cases reading
  | _ => rfl

namespace Repository

/-- Changes one after another, each by its operation. -/
inductive Changes : Repository → List RepositoryCall → Repository → Prop where
  | nil {repository : Repository} :
    Changes repository [] repository
  | cons {repository mid after : Repository} {call : RepositoryCall} {calls : List RepositoryCall}
    {sent : List Event} :
    repository.Change call mid sent →
    Changes mid calls after →
    Changes repository (call :: calls) after

variable {repository after : Repository} {call : RepositoryCall} {calls : List RepositoryCall}
  {sent : List Event} {work left : Work Repository}

/-- What only reads changes nothing and sends nothing. -/
lemma Change.of_read (reading : call.isRead) (change : repository.Change call after sent) :
    after = repository ∧ sent = [] := by
  cases change with
  | read => exact ⟨rfl, rfl⟩
  | _ => cases reading

/-- No change is one of the hash algorithm. -/
lemma Change.algorithm (change : repository.Change call after sent) :
    after.algorithm = repository.algorithm := by
  cases change <;> rfl

/-- Only a successor who accepts takes the place of the owner. -/
lemma Change.owner (change : repository.Change call after sent) (other : call.isAccept = false) :
    after.owner = repository.owner := by
  cases change with
  | accept => cases other
  | _ => rfl

/-- Changes by one operation are its change. -/
lemma Changes.of_single (changes : Changes repository [call] after) :
    ∃ sent, repository.Change call after sent := by
  cases changes with
  | cons change rest =>
    cases rest with
    | nil => exact ⟨_, change⟩

/-- No changes ever touch the name and the hash algorithm. -/
lemma Changes.fixed (changes : Changes repository calls after) :
    after.name = repository.name ∧ after.algorithm = repository.algorithm := by
  induction changes with
  | nil => exact ⟨rfl, rfl⟩
  | cons change _ ih =>
    obtain ⟨name, algorithm⟩ := ih
    exact ⟨name.trans change.name, algorithm.trans change.algorithm⟩

/-- Changes without an acceptance leave the owner. -/
lemma Changes.owner (changes : Changes repository calls after)
    (others : ∀ call ∈ calls, call.isAccept = false) : after.owner = repository.owner := by
  induction changes with
  | nil => rfl
  | cons change _ ih =>
    have later := ih fun call member => others call (List.mem_cons_of_mem _ member)
    exact later.trans (change.owner (others _ List.mem_cons_self))

/-- An operation that succeeds and is no push has made its change. -/
lemma change_of_perform {answer : Answer} (single : call.isPush = false)
    (h : call.perform.run work = (.ok answer, left)) :
    ∃ sent, work.content.Change call left.content sent := by
  have settled := RepositoryCall.settles single work
  rw [h] at settled
  cases settled with
  | done _ change _ => exact ⟨_, change⟩

/-- Several of them have made their changes in turn. -/
lemma changes_of_performEach (single : ∀ call ∈ calls, call.isPush = false)
    (h : (performEach calls).run work = (.ok (), left)) :
    Changes work.content calls left.content := by
  induction calls generalizing work with
  | nil =>
    cases h
    exact .nil
  | cons call rest ih =>
    obtain ⟨answer, mid, first, h⟩ := bind_ok h
    obtain ⟨sent, change⟩ := change_of_perform (single call List.mem_cons_self) first
    exact .cons change (ih (fun call member => single call (List.mem_cons_of_mem _ member)) h)

/-- A push that succeeds has done its parts. -/
lemma changes_of_push {objects : List (Bytes × Bytes)} {references : List (Json × Bytes)}
    (h : (push objects references).run work = (.ok (), left)) :
    Changes work.content (RepositoryCall.pushed objects references) left.content := by
  have full : objects ≠ [] ∨ references ≠ [] := by
    by_contra empty
    obtain ⟨rfl, rfl⟩ : objects = [] ∧ references = [] := by simpa [not_or] using empty
    cases run_push_nil.symm.trans h
  rcases ran : (performEach (RepositoryCall.pushed objects references)).run work with
    ⟨failure | ⟨⟩, done⟩
  · cases (run_push_of_error full ran).symm.trans h
  · have changes : Changes work.content (RepositoryCall.pushed objects references) done.content :=
      changes_of_performEach (fun _ => RepositoryCall.single_of_pushed) ran
    -- a push adds no more than a record to the log
    cases (run_push_of_ok full ran).symm.trans h
    exact changes

end Repository

namespace RepositoryCall

open Repository

variable {call : RepositoryCall} {work after : Work Repository} {answer : Answer}

/-- An operation that succeeds makes the changes of its parts. -/
theorem changes (h : call.perform.run work = (.ok answer, after)) :
    Changes work.content call.parts after.content := by
  cases push : call.isPush with
  | false =>
    obtain ⟨sent, change⟩ := change_of_perform push h
    rw [parts_of_single push]
    exact .cons change .nil
  | true =>
    cases call with
    | push objects references =>
      obtain ⟨_, _, pushed, h⟩ := bind_ok h
      cases h
      exact changes_of_push pushed
    | _ => cases push

/-- No part of an operation accepts unless the operation does. -/
lemma isAccept_of_parts (other : call.isAccept = false) :
    ∀ part ∈ call.parts, part.isAccept = false := by
  intro part member
  cases call with
  | push objects references =>
    rcases List.mem_append.1 member with put | change
    · obtain ⟨object, _, rfl⟩ := List.mem_map.1 put
      rfl
    · obtain ⟨reference, _, rfl⟩ := List.mem_map.1 change
      unfold ofChange
      split <;> rfl
  | accept => cases other
  | _ =>
    obtain rfl := List.mem_singleton.1 member
    rfl

/-- What does not accept leaves the owner. -/
lemma owner_kept (other : call.isAccept = false)
    (h : call.perform.run work = (.ok answer, after)) :
    after.content.owner = work.content.owner :=
  (changes h).owner (isAccept_of_parts other)

/-- Whoever accepts is the successor that was named, and takes over. -/
lemma accept_ok {caller : Json} (h : (accept caller).perform.run work = (.ok answer, after)) :
    work.content.pendingOwner ≠ "" ∧ isAccount caller work.content.pendingOwner ∧
      after.content =
        { work.content with owner := work.content.pendingOwner, pendingOwner := "" } := by
  obtain ⟨sent, change⟩ := (changes h).of_single
  generalize after.content = left at change ⊢
  cases change with
  | read reading => cases reading
  | accept nobody named => exact ⟨nobody, named, rfl⟩

/-- Whoever names a successor is the owner. -/
lemma transfer_ok {caller newOwner : Json}
    (h : (transfer caller newOwner).perform.run work = (.ok answer, after)) :
    isAccount caller work.content.owner := by
  obtain ⟨sent, change⟩ := (changes h).of_single
  generalize after.content = left at change
  cases change with
  | read reading => cases reading
  | propose owner => exact owner

end RepositoryCall

end ObjectDepot
