import Mathlib.Tactic.Lemma
import ObjectDepot.Proofs.Requests

/-!
# Contents that stand for others

A `Representation` tells for which contents others stand, and what the work of one procedure may do to
them. A procedure `Implements` another if it ends as the other does on what the contents stand for, with
the same events and log. This is kept by all ways of putting procedures together. So a backend that
implements another operation by operation (`RepositoryBackend.Refines`, `StoreBackend.Refines`)
implements it for all that is written over backends: calls, steps and requests.
-/

namespace ObjectDepot

open Procedure

/-- How contents stand for others: `view` tells for which, `Sound` says of the contents that they stand
for any, and `Keeps` what the work of a procedure may make of them. -/
structure Representation (σ τ : Type) where
  view : σ → τ
  Sound : σ → Prop
  Keeps : σ → σ → Prop
  refl : ∀ s, Sound s → Keeps s s
  trans : ∀ {s t u}, Keeps s t → Keeps t u → Keeps s u

/-- Work with its contents seen as others. -/
def Work.map {σ τ : Type} (view : σ → τ) (work : Work σ) : Work τ :=
  ⟨view work.content, work.events, work.log⟩

namespace Representation

variable {σ τ α β : Type} {R : Representation σ τ} {s : σ}

/-- A procedure does to some contents what another does to those for which they stand, whatever was queued
and logged before. -/
def Implements (R : Representation σ τ) (s : σ) (p : Procedure σ α) (q : Procedure τ α) : Prop :=
  R.Sound s → ∀ events log, ∃ (outcome : Except Failure α) (after : Work σ),
    p.run ⟨s, events, log⟩ = (outcome, after) ∧
    q.run ⟨R.view s, events, log⟩ = (outcome, after.map R.view) ∧
    R.Sound after.content ∧ R.Keeps s after.content

namespace Implements

/-- What changes no contents does the same to all. -/
lemma of_still {p : Procedure σ α} {q : Procedure τ α} (outcome : Except Failure α)
    (first : ∀ work, p.run work = (outcome, work)) (second : ∀ work, q.run work = (outcome, work)) :
    R.Implements s p q :=
  fun sound _ _ => ⟨outcome, _, first _, second _, sound, R.refl s sound⟩

/-- A value implements itself. -/
lemma pure (a : α) : R.Implements s (Pure.pure a) (Pure.pure a) :=
  of_still (.ok a) (fun _ => rfl) fun _ => rfl

/-- A rejection implements itself. -/
lemma reject (error : StoreError) :
    R.Implements s (Procedure.reject error : Procedure _ α) (Procedure.reject error) :=
  of_still (.error (.rejected error)) (fun _ => rfl) fun _ => rfl

/-- A failure implements itself. -/
lemma throw (failure : Failure) :
    R.Implements s (MonadExcept.throw failure : Procedure _ α) (MonadExcept.throw failure) :=
  of_still (.error failure) (fun _ => rfl) fun _ => rfl

/-- An outcome that may be a fault implements itself. -/
lemma orFault (outcome : Except Fault α) :
    R.Implements s (Procedure.orFault outcome) (Procedure.orFault outcome) :=
  of_still _ (run_orFault outcome) (run_orFault outcome)

/-- An outcome implements itself. -/
lemma ofExcept (outcome : Except Failure α) :
    R.Implements s (MonadExcept.ofExcept outcome) (MonadExcept.ofExcept outcome) :=
  of_still outcome (run_ofExcept outcome) (run_ofExcept outcome)

/-- A record in the log implements itself. -/
lemma note (record : LogRecord) : R.Implements s (Procedure.note record) (Procedure.note record) :=
  fun sound _ _ => ⟨.ok (), _, rfl, rfl, sound, R.refl s sound⟩

/-- An event implements itself. -/
lemma emit (event : Event) : R.Implements s (Procedure.emit event) (Procedure.emit event) :=
  fun sound _ _ => ⟨.ok (), _, rfl, rfl, sound, R.refl s sound⟩

/-- A change of the contents does what another does to those for which they stand. -/
lemma update {f : σ → σ} {g : τ → τ} (view : R.Sound s → R.view (f s) = g (R.view s))
    (sound : R.Sound s → R.Sound (f s)) (keeps : R.Sound s → R.Keeps s (f s)) :
    R.Implements s (Procedure.update f) (Procedure.update g) := by
  intro here events log
  refine ⟨.ok (), ⟨f s, events, log⟩, rfl, ?_, sound here, keeps here⟩
  rw [Work.map, view here]
  rfl

/-- Procedures in a row do what others in a row do. -/
lemma bind {p : Procedure σ α} {q : Procedure τ α} {f : α → Procedure σ β} {g : α → Procedure τ β}
    (first : R.Implements s p q)
    (second : ∀ a t, R.Sound t → R.Keeps s t → R.Implements t (f a) (g a)) :
    R.Implements s (p >>= f) (q >>= g) := by
  intro sound events log
  obtain ⟨outcome, mid, ran, ran', there, keeps⟩ := first sound events log
  cases outcome with
  | error failure =>
    exact ⟨.error failure, mid, run_bind_of_error ran, run_bind_of_error ran', there, keeps⟩
  | ok a =>
    obtain ⟨outcome, after, more, more', left, keeps'⟩ :=
      second a mid.content there keeps there mid.events mid.log
    exact ⟨outcome, after, (run_bind_of_ok ran).trans more, (run_bind_of_ok ran').trans more', left,
      R.trans keeps keeps'⟩

/-- What follows a look at the contents knows them. -/
lemma content_bind {f : σ → Procedure σ α} {g : τ → Procedure τ α}
    (rest : R.Sound s → R.Implements s (f s) (g (R.view s))) :
    R.Implements s (content >>= f) (content >>= g) :=
  fun sound events log => rest sound sound events log

/-- What is undone is undone for both. -/
lemma atomically {p : Procedure σ α} {q : Procedure τ α} (implements : R.Implements s p q) :
    R.Implements s (Procedure.atomically p) (Procedure.atomically q) := by
  intro sound events log
  obtain ⟨outcome, after, ran, ran', there, keeps⟩ := implements sound events log
  cases outcome with
  | error failure =>
    exact ⟨.error failure, _, run_atomically_of_error ran, run_atomically_of_error ran', sound,
      R.refl s sound⟩
  | ok a =>
    exact ⟨.ok a, after, run_atomically_of_ok ran, run_atomically_of_ok ran', there, keeps⟩

/-- What is caught is caught for both. -/
lemma tryCatch {p : Procedure σ α} {q : Procedure τ α} {f : Failure → Procedure σ α}
    {g : Failure → Procedure τ α} (first : R.Implements s p q)
    (second : ∀ failure t, R.Sound t → R.Implements t (f failure) (g failure)) :
    R.Implements s (MonadExcept.tryCatch p f) (MonadExcept.tryCatch q g) := by
  intro sound events log
  obtain ⟨outcome, mid, ran, ran', there, keeps⟩ := first sound events log
  cases outcome with
  | error failure =>
    obtain ⟨outcome, after, more, more', left, keeps'⟩ :=
      second failure mid.content there there mid.events mid.log
    exact ⟨outcome, after, (run_tryCatch_of_error ran).trans more,
      (run_tryCatch_of_error ran').trans more', left, R.trans keeps keeps'⟩
  | ok a =>
    exact ⟨.ok a, mid, run_tryCatch_of_ok ran, run_tryCatch_of_ok ran', there, keeps⟩

/-- What is done for each item in turn is done for both. -/
lemma forM {f : β → Procedure σ PUnit} {g : β → Procedure τ PUnit}
    (each : ∀ item t, R.Sound t → R.Implements t (f item) (g item)) (items : List β) :
    R.Implements s (items.forM f) (items.forM g) := by
  induction items generalizing s with
  | nil => exact pure _
  | cons item rest ih => exact fun sound => (each item s sound).bind (fun _ _ _ _ => ih) sound

/-- A choice that depends on the same. -/
lemma ite {condition : Prop} [Decidable condition] {p p' : Procedure σ α} {q q' : Procedure τ α}
    (yes : condition → R.Implements s p q) (no : ¬ condition → R.Implements s p' q') :
    R.Implements s (if condition then p else p') (if condition then q else q') := by
  split
  case isTrue holds => exact yes holds
  case isFalse fails => exact no fails

end Implements

end Representation

variable {ρ ρ' σ σ' : Type} [RepositoryBackend ρ] [RepositoryBackend ρ'] [StoreBackend σ ρ]
  [StoreBackend σ' ρ']

/-- Every operation of one backend on a repository does what that of another does. -/
structure RepositoryBackend.Refines (R : Representation ρ ρ') : Prop where
  summary : ∀ s, R.Sound s → summary s = summary (R.view s)
  owner : ∀ s, R.Sound s → owner s = owner (R.view s)
  pendingOwner : ∀ s, R.Sound s → pendingOwner s = pendingOwner (R.view s)
  hasObject : ∀ s, R.Sound s → ∀ hash, hasObject s hash = hasObject (R.view s) hash
  objectHashes : ∀ s, R.Sound s → objectHashes s = objectHashes (R.view s)
  listing : ∀ s, R.Sound s → listing s = listing (R.view s)
  putObject : ∀ s hash data, R.Implements s (putObject hash data) (putObject hash data)
  getObject : ∀ s hash, R.Implements s (getObject hash) (getObject hash)
  upsertReference : ∀ s name hash,
    R.Implements s (upsertReference name hash) (upsertReference name hash)
  deleteReference : ∀ s name, R.Implements s (deleteReference name) (deleteReference name)
  getReference : ∀ s name, R.Implements s (getReference name) (getReference name)
  resolveReferences : ∀ s names, R.Implements s (resolveReferences names) (resolveReferences names)
  push : ∀ s objects references,
    R.Implements s (push objects references) (push objects references)
  setDefaultBranch : ∀ s name, R.Implements s (setDefaultBranch name) (setDefaultBranch name)
  ensureOwner : ∀ s caller, R.Implements s (ensureOwner caller) (ensureOwner caller)
  transferOwnership : ∀ s caller newOwner,
    R.Implements s (transferOwnership caller newOwner) (transferOwnership caller newOwner)
  acceptOwnership : ∀ s caller, R.Implements s (acceptOwnership caller) (acceptOwnership caller)

/-- Every operation of one backend on a store does what that of another does. -/
structure StoreBackend.Refines (R : Representation ρ ρ') (S : Representation σ σ') : Prop where
  within : ∀ {α : Type} {p : Procedure ρ α} {q : Procedure ρ' α} (s : σ) (name : Json),
    (∀ t, R.Implements t p q) → S.Implements s (StoreBackend.within name p) (StoreBackend.within name q)
  createRepository : ∀ s branch name owner algorithm, S.Implements s
    (StoreBackend.createRepository branch name owner algorithm)
    (StoreBackend.createRepository branch name owner algorithm)
  shown : ∀ s, S.Sound s → StoreBackend.shown s = StoreBackend.shown (S.view s)

variable {R : Representation ρ ρ'} {S : Representation σ σ'}

section Calls

/-- The owners are told as they are. -/
lemma ownersAnswer_implements (refines : RepositoryBackend.Refines R) (s : ρ) :
    R.Implements s ownersAnswer ownersAnswer := by
  refine .content_bind fun sound => ?_
  rw [refines.owner s sound, refines.pendingOwner s sound]
  exact .pure _

/-- Operations on a repository as data do what they do on another backend. -/
lemma RepositoryCall.perform_implements (refines : RepositoryBackend.Refines R) (s : ρ)
    (call : RepositoryCall) : R.Implements s call.perform call.perform := by
  cases call with
  | describe =>
    refine .content_bind fun sound => ?_
    rw [refines.summary s sound]
    exact .pure _
  | has hash =>
    refine .content_bind fun sound => ?_
    rw [refines.hasObject s sound]
    exact .pure _
  | listObjects =>
    refine .content_bind fun sound => ?_
    rw [refines.objectHashes s sound]
    exact .pure _
  | listReferences =>
    refine .content_bind fun sound => ?_
    rw [refines.listing s sound]
    exact .pure _
  | put hash data => exact (refines.putObject s hash data).bind fun _ _ _ _ => .pure _
  | get hash => exact (refines.getObject s hash).bind fun _ _ _ _ => .pure _
  | upsert name hash => exact (refines.upsertReference s name hash).bind fun _ _ _ _ => .pure _
  | delete name => exact (refines.deleteReference s name).bind fun _ _ _ _ => .pure _
  | getReference name => exact (refines.getReference s name).bind fun _ _ _ _ => .pure _
  | resolve names => exact (refines.resolveReferences s names).bind fun _ _ _ _ => .pure _
  | push objects references =>
    exact (refines.push s objects references).bind fun _ _ _ _ => .pure _
  | setDefaultBranch name => exact (refines.setDefaultBranch s name).bind fun _ _ _ _ => .pure _
  | ensureOwner caller => exact (refines.ensureOwner s caller).bind fun _ _ _ _ => .pure _
  | transfer caller newOwner =>
    exact (refines.transferOwnership s caller newOwner).bind fun _ t _ _ =>
      ownersAnswer_implements refines t
  | accept caller =>
    exact (refines.acceptOwnership s caller).bind fun _ t _ _ => ownersAnswer_implements refines t

/-- A call on a store does what it does on another backend. -/
lemma Call.perform_implements (repositories : RepositoryBackend.Refines R)
    (stores : StoreBackend.Refines R S) (s : σ) (branch : String) (call : Call) :
    S.Implements s (call.perform branch) (call.perform branch) := by
  cases call with
  | create name owner algorithm =>
    exact (stores.createRepository s branch name owner algorithm).bind fun _ _ _ _ => .pure _
  | inRepository name call =>
    exact stores.within s name fun t => call.perform_implements repositories t
  | dump =>
    refine .content_bind fun sound => ?_
    rw [stores.shown s sound]
    exact .pure _

mutual

/-- A step does what it does on another backend. -/
lemma Step.perform_implements (repositories : RepositoryBackend.Refines R)
    (stores : StoreBackend.Refines R S) (s : σ) (branch : String) (step : Step) :
    S.Implements s (step.perform branch) (step.perform branch) := by
  cases step with
  | call call => exact call.perform_implements repositories stores s branch
  | transaction steps giveUp =>
    refine (Representation.Implements.bind (performAll_implements repositories stores s branch steps)
      fun answers t _ _ => ?_).atomically
    exact .ite (fun _ => .throw _) fun _ => .pure _
  | attempt step =>
    refine .tryCatch ?_ fun _ _ _ => .pure _
    exact (step.perform_implements repositories stores s branch).bind fun _ _ _ _ => .pure _

/-- Steps in a row do what they do on another backend. -/
lemma performAll_implements (repositories : RepositoryBackend.Refines R)
    (stores : StoreBackend.Refines R S) (s : σ) (branch : String) (steps : List Step) :
    S.Implements s (performAll branch steps) (performAll branch steps) := by
  cases steps with
  | nil => exact .pure _
  | cons step rest =>
    refine (step.perform_implements repositories stores s branch).bind fun _ t _ _ => ?_
    exact (performAll_implements repositories stores t branch rest).bind fun _ _ _ _ => .pure _

end

end Calls

namespace Http.Service

variable {service : Service} {request : Request} {s : ρ}

variable (refines : RepositoryBackend.Refines R)

include refines

/-- The answer with the owners is the same over both. -/
lemma ownersReply_implements (s : ρ) : R.Implements s ownersReply ownersReply := by
  refine .content_bind fun sound => ?_
  rw [refines.owner s sound, refines.pendingOwner s sound]
  exact .pure _

/-- The gate lets through the same senders. -/
lemma gate_implements : R.Implements s (service.gate request) (service.gate request) :=
  .bind (.orFault _) fun _ t _ _ => refines.ensureOwner t _

/-- A request to add an object is handled alike over both. -/
lemma addObject_implements : R.Implements s (service.addObject request) (service.addObject request) := by
  refine (gate_implements refines).bind fun _ t _ _ => ?_
  refine .bind (.ofExcept _) fun members t _ _ => ?_
  refine .bind (.ofExcept _) fun hash t _ _ => ?_
  refine .bind (.ofExcept _) fun data t _ _ => ?_
  exact (refines.putObject t hash data).bind fun _ _ _ _ => .pure _

/-- A request to put a reference is handled alike over both. -/
lemma putReference_implements (name : String) :
    R.Implements s (service.putReference request name) (service.putReference request name) := by
  refine (gate_implements refines).bind fun _ t _ _ => ?_
  refine .bind (.ofExcept _) fun members t _ _ => ?_
  refine .bind (.ofExcept _) fun hash t _ _ => ?_
  exact (refines.upsertReference t _ hash).bind fun _ _ _ _ => .pure _

/-- A request to delete a reference is handled alike over both. -/
lemma deleteReference_implements (name : String) :
    R.Implements s (service.deleteReference request name) (service.deleteReference request name) := by
  refine (gate_implements refines).bind fun _ t _ _ => ?_
  exact (refines.deleteReference t _).bind fun _ _ _ _ => .pure _

/-- A request to push is handled alike over both. -/
lemma push_implements : R.Implements s (service.push request) (service.push request) := by
  refine (gate_implements refines).bind fun _ t _ _ => ?_
  refine .bind (.ofExcept _) fun members t _ _ => ?_
  refine .bind (.ofExcept _) fun objectItems t _ _ => ?_
  refine .bind (.ofExcept _) fun objects t _ _ => ?_
  refine .bind (.ofExcept _) fun referenceItems t _ _ => ?_
  refine .bind (.ofExcept _) fun references t _ _ => ?_
  exact (refines.push t objects references).bind fun _ _ _ _ => .pure _

/-- A request to set the default branch is handled alike over both. -/
lemma setDefaultBranch_implements :
    R.Implements s (service.setDefaultBranch request) (service.setDefaultBranch request) := by
  refine (gate_implements refines).bind fun _ t _ _ => ?_
  refine .bind (.ofExcept _) fun members t _ _ => ?_
  exact (refines.setDefaultBranch t _).bind fun _ _ _ _ => .pure _

/-- A request to name a successor is handled alike over both. -/
lemma transfer_implements : R.Implements s (service.transfer request) (service.transfer request) := by
  refine .bind (.orFault _) fun account t _ _ => ?_
  refine .bind (.ofExcept _) fun members t _ _ => ?_
  exact (refines.transferOwnership t _ _).bind fun _ t _ _ => ownersReply_implements refines t

/-- A request to accept the ownership is handled alike over both. -/
lemma accept_implements : R.Implements s (service.accept request) (service.accept request) := by
  refine .bind (.orFault _) fun account t _ _ => ?_
  exact (refines.acceptOwnership t _).bind fun _ t _ _ => ownersReply_implements refines t

/-- A request to resolve names is handled alike over both. -/
lemma resolve_implements : R.Implements s (resolve request) (resolve request) := by
  refine .bind (.ofExcept _) fun members t _ _ => ?_
  split
  · exact (refines.resolveReferences t _).bind fun _ _ _ _ => .pure _
  · exact .reject _

/-- A request to show an object is handled alike over both. -/
lemma showObject_implements (text : String) : R.Implements s (showObject text) (showObject text) := by
  refine .bind (.ofExcept _) fun hash t _ _ => ?_
  exact (refines.getObject t hash).bind fun _ _ _ _ => .pure _

/-- A request to show a reference is handled alike over both. -/
lemma showReference_implements (name : String) :
    R.Implements s (showReference name) (showReference name) :=
  (refines.getReference s _).bind fun _ _ _ _ => .pure _

/-- Whatever is asked of a repository is handled as on another backend. -/
lemma handleResource_implements (s : ρ) (method : Method) (resource : Resource) :
    R.Implements s (service.handleResource request method resource)
      (service.handleResource request method resource) := by
  cases resource with
  | push => exact push_implements refines
  | objects =>
    refine .ite (fun _ => .content_bind fun sound => ?_) fun _ => addObject_implements refines
    rw [refines.objectHashes s sound]
    exact .pure _
  | object text => exact showObject_implements refines text
  | references =>
    refine .content_bind fun sound => ?_
    rw [refines.listing s sound]
    exact .pure _
  | reference name =>
    cases method with
    | get => exact showReference_implements refines name
    | delete => exact deleteReference_implements refines name
    | _ => exact putReference_implements refines name
  | resolve => exact resolve_implements refines
  | defaultBranch => exact setDefaultBranch_implements refines
  | transfer => exact transfer_implements refines
  | accept => exact accept_implements refines

omit refines

variable (stores : StoreBackend.Refines R S)

include stores

omit [RepositoryBackend ρ] [RepositoryBackend ρ'] in
/-- A request to create a repository is handled alike over both. -/
lemma createRepository_implements {s : σ} :
    S.Implements s (service.createRepository request) (service.createRepository request) := by
  refine .bind (.ofExcept _) fun members t _ _ => ?_
  refine .bind (.orFault _) fun account t _ _ => ?_
  cases account with
  | none => exact .pure _
  | some account =>
    dsimp only
    split
    · exact (stores.createRepository t _ _ _ _).bind fun _ _ _ _ => .pure _
    · exact .reject _

include refines

/-- Whatever is asked of a store is handled as on another backend. -/
lemma handle_implements (s : σ) (method : Method) (endpoint : Endpoint) :
    S.Implements s (service.handle request method endpoint)
      (service.handle request method endpoint) := by
  cases endpoint with
  | repositories => exact createRepository_implements stores
  | repository name resource =>
    exact stores.within s _ fun t => handleResource_implements refines t method resource

/-- A request is answered as on another backend, and does what it does there. -/
theorem respond_implements {work after : Work σ} {response : Response} (sound : S.Sound work.content)
    (ran : (service.respond request).run work = (response, after)) :
    (service.respond request).run (work.map S.view) = (response, after.map S.view) ∧
      S.Sound after.content ∧ S.Keeps work.content after.content := by
  cases path : Endpoint.ofPath? (pathOf request.target) with
  | none =>
    rw [run_respond_of_path path] at ran ⊢
    cases ran
    exact ⟨rfl, sound, S.refl _ sound⟩
  | some endpoint =>
    cases allowed : (Method.ofName? request.method).filter (· ∈ endpoint.methods) with
    | none =>
      rw [run_respond_of_method path allowed] at ran ⊢
      cases ran
      exact ⟨rfl, sound, S.refl _ sound⟩
    | some method =>
      have handles : S.Implements work.content (service.handle request method endpoint)
        (service.handle request method endpoint) := handle_implements refines stores _ _ _
      obtain ⟨outcome, done, handled, handled', there, keeps⟩ :=
        handles.atomically sound work.events work.log
      have handled'' : (atomically (service.handle request method endpoint)).run (work.map S.view) =
        (outcome, done.map S.view) := handled'
      rw [run_respond path allowed handled] at ran
      rw [run_respond path allowed handled'']
      rcases outcome with (error | cause) | reply
      all_goals
        cases ran
        exact ⟨rfl, there, keeps⟩

end Http.Service

end ObjectDepot
