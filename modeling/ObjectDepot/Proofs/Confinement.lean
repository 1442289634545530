import ObjectDepot.Proofs.Faults
import ObjectDepot.Proofs.Histories

/-!
# Procedures that keep to their repository

A procedure is `Confined` if the repository alone determines what it does, whatever was queued and
logged before, if it tells of no other repository, and if it ends in no fault but some that are given.
Single steps are confined, and `Confined.bind` puts confined procedures together along their texts, up
to `handleResource_confined`: whatever is asked of a repository is confined to it and ends in the faults
of `Service.Stumbles` only.
-/

namespace ObjectDepot

open Procedure

variable {α β : Type} {name : String} {causes : Fault → Prop}

/-- A procedure ends on a repository with a name as the repository determines, in a fault only if that
is one of the given ones. It keeps the name, and what it adds to the queue of events tells of this
repository. -/
def Confined (name : String) (causes : Fault → Prop) (p : Procedure Repository α) : Prop :=
  ∀ repository : Repository, repository.name = name →
    ∃ (outcome : Except Failure α) (after : Repository) (sent : List Event)
      (written : List LogRecord),
      after.name = name ∧ (∀ event ∈ sent, event.repository = name) ∧
      (∀ cause, outcome = .error (.fault cause) → causes cause) ∧
      ∀ events log, p.run ⟨repository, events, log⟩ =
        (outcome, ⟨after, events ++ sent, log ++ written⟩)

namespace Confined

/-- What neither changes nor tells anything is confined. -/
lemma of_still {p : Procedure Repository α} (outcome : Except Failure α)
    (faults : ∀ cause, outcome = .error (.fault cause) → causes cause)
    (h : ∀ work, p.run work = (outcome, work)) : Confined name causes p := by
  intro repository named
  refine ⟨outcome, repository, [], [], named, nofun, faults, fun events log => ?_⟩
  rw [h, List.append_nil, List.append_nil]

/-- To give a value is confined. -/
lemma pure (a : α) : Confined name causes (Pure.pure a) :=
  of_still (.ok a) nofun fun _ => rfl

/-- To reject something is confined. -/
lemma reject (error : StoreError) : Confined name causes (Procedure.reject error : Procedure _ α) :=
  of_still (.error (.rejected error)) nofun fun _ => rfl

/-- An outcome is confined, if its fault is one of those that may be. -/
lemma orFault {outcome : Except Fault α} (faults : ∀ cause, outcome = .error cause → causes cause) :
    Confined name causes (Procedure.orFault outcome) := by
  refine of_still _ (fun cause e => ?_) (run_orFault outcome)
  cases outcome with
  | error other =>
    cases e
    exact faults _ rfl
  | ok => cases e

/-- An outcome without faults is confined. -/
lemma ofExcept {outcome : Except Failure α} (faultless : Faultless outcome) :
    Confined name causes (MonadExcept.ofExcept outcome : Procedure _ α) :=
  of_still outcome (fun cause e => absurd e (faultless cause)) (run_ofExcept outcome)

/-- A record in the log is confined. -/
lemma note (record : LogRecord) : Confined name causes (Procedure.note record) := by
  intro repository named
  refine ⟨.ok (), repository, [], [record], named, nofun, nofun, fun events log => ?_⟩
  rw [List.append_nil]
  rfl

/-- An event of the repository itself is confined. -/
lemma emit {event : Event} (own : event.repository = name) :
    Confined name causes (Procedure.emit event) := by
  intro repository named
  refine ⟨.ok (), repository, [event], [], named, ?_, nofun, fun events log => ?_⟩
  · intro other member
    obtain rfl := List.mem_singleton.1 member
    exact own
  · rw [List.append_nil]
    rfl

/-- A change that does not rename the repository is confined. -/
lemma update {f : Repository → Repository}
    (keeps : ∀ repository, (f repository).name = repository.name) :
    Confined name causes (Procedure.update f) := by
  intro repository named
  refine ⟨.ok (), f repository, [], [], (keeps repository).trans named, nofun, nofun,
    fun events log => ?_⟩
  rw [List.append_nil, List.append_nil]
  rfl

/-- Two confined procedures in a row are confined. -/
lemma bind {p : Procedure Repository α} {f : α → Procedure Repository β}
    (first : Confined name causes p) (second : ∀ a, Confined name causes (f a)) :
    Confined name causes (p >>= f) := by
  intro repository named
  obtain ⟨outcome, mid, sent, written, kept, own, faults, ran⟩ := first repository named
  cases outcome with
  | error failure =>
    refine ⟨.error failure, mid, sent, written, kept, own, fun cause e => ?_,
      fun events log => run_bind_of_error (ran events log)⟩
    cases e
    exact faults cause rfl
  | ok a =>
    obtain ⟨outcome, after, sent', written', kept', own', faults', ran'⟩ := second a mid kept
    refine ⟨outcome, after, sent ++ sent', written ++ written', kept', ?_, faults',
      fun events log => ?_⟩
    · intro event member
      exact (List.mem_append.1 member).elim (own event) (own' event)
    · rw [run_bind_of_ok (ran events log), ran', List.append_assoc, List.append_assoc]

/-- What follows a look at the repository knows that it has the name. -/
lemma content_bind {f : Repository → Procedure Repository α}
    (rest : ∀ repository, repository.name = name → Confined name causes (f repository)) :
    Confined name causes (content >>= f) := by
  intro repository named
  obtain ⟨outcome, after, sent, written, kept, own, faults, ran⟩ :=
    rest repository named repository named
  refine ⟨outcome, after, sent, written, kept, own, faults, fun events log => ?_⟩
  rw [run_bind_of_ok (run_content _), ran]

/-- What follows a calculation knows its value. -/
lemma ofExcept_bind {outcome : Except Failure α} {f : α → Procedure Repository β}
    (faults : ∀ cause, outcome = .error (.fault cause) → causes cause)
    (rest : ∀ a, outcome = .ok a → Confined name causes (f a)) :
    Confined name causes (MonadExcept.ofExcept outcome >>= f) := by
  cases outcome with
  | error failure =>
    refine of_still (.error failure) (fun cause e => ?_) fun _ => rfl
    cases e
    exact faults cause rfl
  | ok a => exact rest a rfl

/-- What is undone is the repository and the queue, not the log. -/
lemma atomically {p : Procedure Repository α} (confined : Confined name causes p) :
    Confined name causes (Procedure.atomically p) := by
  intro repository named
  obtain ⟨outcome, after, sent, written, kept, own, faults, ran⟩ := confined repository named
  cases outcome with
  | error failure =>
    refine ⟨.error failure, repository, [], written, named, nofun, fun cause e => ?_,
      fun events log => ?_⟩
    · cases e
      exact faults cause rfl
    · rw [run_atomically_of_error (ran events log), List.append_nil]
  | ok a =>
    exact ⟨.ok a, after, sent, written, kept, own, faults,
      fun events log => run_atomically_of_ok (ran events log)⟩

/-- Confined steps for each of some items are confined together. -/
lemma forM {items : List β} {f : β → Procedure Repository PUnit}
    (each : ∀ item, Confined name causes (f item)) : Confined name causes (items.forM f) := by
  induction items with
  | nil => exact pure _
  | cons item rest ih => exact (each item).bind fun _ => ih

end Confined

namespace Repository

/-- To tell of a reference is confined. -/
lemma noteReference_confined (key : Json) (hash previous : Bytes) :
    Confined name causes (noteReference key hash previous) := by
  unfold noteReference
  refine .content_bind fun repository named => ?_
  exact (Confined.note _).bind fun _ => .emit named

/-- To put an object is confined. -/
lemma putObject_confined (hash data : Bytes) : Confined name causes (putObject hash data) := by
  unfold putObject
  refine .content_bind fun repository named => ?_
  dsimp only
  split
  · exact .reject _
  split
  · exact .reject _
  split
  · exact .reject _
  split
  · exact .reject _
  · refine .bind (.update fun _ => rfl) fun _ => ?_
    exact (Confined.note _).bind fun _ => .emit named

/-- To point a reference at an object is confined. -/
lemma upsertReference_confined (key : Json) (hash : Bytes) :
    Confined name causes (upsertReference key hash) := by
  unfold upsertReference
  refine .content_bind fun repository _ => ?_
  split
  · exact .reject _
  split
  · exact .reject _
  split
  · exact .reject _
  split
  all_goals
    refine .bind (.update fun _ => rfl) fun _ => ?_
    exact (noteReference_confined _ _ _).bind fun _ => .pure _

/-- To delete a reference is confined. -/
lemma deleteReference_confined (key : Json) : Confined name causes (deleteReference key) := by
  unfold deleteReference
  refine .content_bind fun repository _ => ?_
  split
  · exact .reject _
  split
  · exact .reject _
  · refine .bind (.update fun _ => rfl) fun _ => ?_
    exact (noteReference_confined _ _ _).bind fun _ => .pure _

/-- What a push does with one reference is confined. -/
lemma changeReference_confined (key : Json) (hash : Bytes) :
    Confined name causes (changeReference key hash) := by
  unfold changeReference
  split
  · exact (deleteReference_confined key).bind fun _ => .pure _
  · exact (upsertReference_confined key hash).bind fun _ => .pure _

/-- A push is confined. -/
lemma push_confined (objects : List (Bytes × Bytes)) (references : List (Json × Bytes)) :
    Confined name causes (push objects references) := by
  have parts : Confined name causes (applyPush objects references) := by
    unfold applyPush
    refine (Confined.forM fun _ => putObject_confined _ _).bind fun _ => ?_
    exact .forM fun _ => changeReference_confined _ _
  unfold push
  split
  · exact .reject _
  · refine parts.atomically.bind fun _ => ?_
    exact .content_bind fun _ _ => .note _

/-- To set the default branch is confined. -/
lemma setDefaultBranch_confined (key : Json) : Confined name causes (setDefaultBranch key) := by
  unfold setDefaultBranch
  refine .content_bind fun repository _ => ?_
  split
  · exact .reject _
  · dsimp only
    refine .bind (.update fun _ => rfl) fun _ => ?_
    exact (Confined.note _).bind fun _ => .pure _
  · exact .reject _

/-- The check for the owner is confined. -/
lemma ensureOwner_confined (caller : Json) : Confined name causes (ensureOwner caller) := by
  unfold ensureOwner
  refine .content_bind fun repository _ => ?_
  split
  · exact .pure _
  · exact .reject _

/-- To name a successor is confined. -/
lemma transferOwnership_confined (caller newOwner : Json) :
    Confined name causes (transferOwnership caller newOwner) := by
  unfold transferOwnership
  refine (ensureOwner_confined caller).bind fun _ => ?_
  split
  · exact .reject _
  · refine .bind (.update fun _ => rfl) fun _ => ?_
    exact .content_bind fun _ _ => .note _

/-- To accept the ownership is confined. -/
lemma acceptOwnership_confined (caller : Json) : Confined name causes (acceptOwnership caller) := by
  unfold acceptOwnership
  refine .content_bind fun repository _ => ?_
  split
  · exact .reject _
  split
  · dsimp only
    exact .bind (.update fun _ => rfl) fun _ => .note _
  · exact .reject _

/-- To get an object is confined. -/
lemma getObject_confined (hash : Bytes) : Confined name causes (getObject hash) := by
  unfold getObject
  refine .content_bind fun repository _ => ?_
  split
  · exact .pure _
  · exact .reject _

/-- To get a reference is confined. -/
lemma getReference_confined (key : Json) : Confined name causes (getReference key) := by
  unfold getReference
  refine .content_bind fun repository _ => ?_
  split
  · exact .pure _
  · exact .reject _

/-- To resolve names is confined, up to the value that cannot be looked up. -/
lemma resolveReferences_confined {names : List Json}
    (faults : ∀ value, names.find? (·.keyForm?.isNone) = some value → causes (.notHashable value)) :
    Confined name causes (resolveReferences (.array names)) := by
  refine .content_bind fun repository _ => .orFault fun cause e => ?_
  obtain ⟨value, found, rfl⟩ := resolveNames_error.1 e
  exact faults value found

end Repository

namespace Http.Service

variable {service : Service} {request : Request}

/-- Asking who sends a request is confined. -/
lemma caller_confined (faults : service.Garbles request → causes .credentialsNotAscii) :
    Confined name causes (service.caller request) := by
  refine .of_still (service.sender request) (fun cause e => ?_) run_caller
  obtain ⟨rfl, garbles⟩ := sender_fault.1 e
  exact faults garbles

/-- The gate is confined. -/
lemma gate_confined (faults : service.Garbles request → causes .credentialsNotAscii) :
    Confined name causes (service.gate request) :=
  (caller_confined faults).bind fun _ => Repository.ensureOwner_confined _

/-- A body ends in a fault only where it is too long. -/
lemma body_causes (long : request.tooLong → causes .aborted) (cause : Fault)
    (unread : request.members = .error (.fault cause)) : causes cause := by
  obtain ⟨rfl, tooLong⟩ := members_fault.1 unread
  exact long tooLong

/-- The answer about the owners is confined. -/
lemma ownersReply_confined : Confined name causes ownersReply :=
  .content_bind fun _ _ => .pure _

/-- A deletion asks for the sender, and reads no body. -/
lemma deleteReference_confined (faults : service.Garbles request → causes .credentialsNotAscii)
    (key : String) : Confined name causes (service.deleteReference request key) := by
  refine (gate_confined faults).bind fun _ => ?_
  exact (Repository.deleteReference_confined _).bind fun _ => .pure _

/-- An acceptance asks for the sender, and reads no body. -/
lemma accept_confined (faults : service.Garbles request → causes .credentialsNotAscii) :
    Confined name causes (service.accept request) := by
  refine (caller_confined faults).bind fun account => ?_
  exact (Repository.acceptOwnership_confined _).bind fun _ => ownersReply_confined

section Bodies

-- what asks for the sender and reads a body ends in the faults of both
variable (faults : service.Garbles request → causes .credentialsNotAscii)
  (long : request.tooLong → causes .aborted)

include faults long

/-- Adding an object is confined. -/
lemma addObject_confined : Confined name causes (service.addObject request) := by
  refine (gate_confined faults).bind fun _ => .ofExcept_bind (body_causes long) fun members _ => ?_
  refine (Confined.ofExcept (Hash.ofJson_faultless _)).bind fun hash => ?_
  refine (Confined.ofExcept (payloadOfJson_faultless _)).bind fun data => ?_
  exact (Repository.putObject_confined hash data).bind fun _ => .pure _

/-- Pointing a reference at an object is confined. -/
lemma putReference_confined (key : String) :
    Confined name causes (service.putReference request key) := by
  refine (gate_confined faults).bind fun _ => .ofExcept_bind (body_causes long) fun members _ => ?_
  refine (Confined.ofExcept (Hash.ofJson_faultless _)).bind fun hash => ?_
  exact (Repository.upsertReference_confined _ hash).bind fun _ => .pure _

/-- A push is confined. -/
lemma push_confined : Confined name causes (service.push request) := by
  refine (gate_confined faults).bind fun _ => .ofExcept_bind (body_causes long) fun members _ => ?_
  refine (Confined.ofExcept (items_faultless members _)).bind fun objectItems => ?_
  refine (Confined.ofExcept (.mapM pushedObject_faultless _)).bind fun objects => ?_
  refine (Confined.ofExcept (items_faultless members _)).bind fun referenceItems => ?_
  refine (Confined.ofExcept (.mapM pushedReference_faultless _)).bind fun references => ?_
  exact (Repository.push_confined objects references).bind fun _ => .pure _

/-- Setting the default branch is confined. -/
lemma setDefaultBranch_confined : Confined name causes (service.setDefaultBranch request) := by
  refine (gate_confined faults).bind fun _ => .ofExcept_bind (body_causes long) fun members _ => ?_
  exact (Repository.setDefaultBranch_confined _).bind fun _ => .pure _

/-- A transfer is confined. -/
lemma transfer_confined : Confined name causes (service.transfer request) := by
  refine (caller_confined faults).bind fun _ => .ofExcept_bind (body_causes long) fun members _ => ?_
  exact (Repository.transferOwnership_confined _ _).bind fun _ => ownersReply_confined

end Bodies

/-- Resolving names reads a body, and asks for no sender. -/
lemma resolve_confined (long : request.tooLong → causes .aborted)
    (faults : ∀ {members names value}, request.members = .ok members →
      members.get? "names" = some (.array names) → names.find? (·.keyForm?.isNone) = some value →
      causes (.notHashable value)) :
    Confined name causes (resolve request) := by
  refine .ofExcept_bind (body_causes long) fun members read => ?_
  split
  case h_2 => exact .reject _
  case h_1 names given =>
    refine .bind (Repository.resolveReferences_confined fun value found => ?_) fun _ => .pure _
    -- names that are not given are none at all
    cases there : members.get? "names" with
    | none =>
      rw [there] at given
      cases given
      cases found
    | some names =>
      rw [there] at given
      cases given
      exact faults read there found

/-- To show an object is confined. -/
lemma showObject_confined (text : String) : Confined name causes (showObject text) := by
  refine (Confined.ofExcept (Hash.ofJson_faultless _)).bind fun hash => ?_
  exact (Repository.getObject_confined hash).bind fun _ => .pure _

/-- To show a reference is confined. -/
lemma showReference_confined (key : String) : Confined name causes (showReference key) :=
  (Repository.getReference_confined _).bind fun _ => .pure _

/-- Whatever is asked of a repository by a method that it takes is confined to it. -/
theorem handleResource_confined {method : Method} {resource : Resource}
    (allowed : method ∈ resource.methods) :
    Confined name (service.Stumbles request method resource)
      (service.handleResource request method resource) := by
  cases resource with
  | object text => exact showObject_confined text
  | references => exact .content_bind fun _ _ => .pure _
  | resolve => exact resolve_confined (.body rfl) .names
  | objects =>
    cases method with
    | get => exact .content_bind fun _ _ => .pure _
    | post => exact addObject_confined (.sender nofun nofun) (.body rfl)
    | _ => simp [Resource.methods] at allowed
  | reference key =>
    cases method with
    | get => exact showReference_confined key
    | delete => exact deleteReference_confined (.sender nofun nofun) key
    | put => exact putReference_confined (.sender nofun nofun) (.body rfl) key
    | post => simp [Resource.methods] at allowed
  | push =>
    obtain rfl := List.mem_singleton.1 allowed
    exact push_confined (.sender nofun nofun) (.body rfl)
  | defaultBranch =>
    obtain rfl := List.mem_singleton.1 allowed
    exact setDefaultBranch_confined (.sender nofun nofun) (.body rfl)
  | transfer =>
    obtain rfl := List.mem_singleton.1 allowed
    exact transfer_confined (.sender nofun nofun) (.body rfl)
  | accept =>
    obtain rfl := List.mem_singleton.1 allowed
    exact accept_confined (.sender nofun nofun)

end Http.Service

end ObjectDepot
