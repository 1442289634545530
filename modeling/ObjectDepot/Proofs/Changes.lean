import Mathlib.Tactic.Lemma
import ObjectDepot.Call
import ObjectDepot.Proofs.Procedure

/-!
# What the operations on a repository change

`Change` is the rule book: one constructor for each way in which an operation other than a push
changes its repository, with all that was checked before and the events that are queued.
`RepositoryCall.settles` shows that such an operation either is refused and leaves the work as it is,
or succeeds by one of the rules. Nothing after this module opens the operations themselves.
-/

namespace ObjectDepot

open Procedure

/-- Whether an operation only reads. -/
def RepositoryCall.isRead : RepositoryCall → Bool
  | .describe | .get _ | .has _ | .listObjects | .getReference _ | .resolve _ | .listReferences
  | .ensureOwner _ => true
  | _ => false

/-- Whether an operation is a push. -/
def RepositoryCall.isPush : RepositoryCall → Bool
  | .push .. => true
  | _ => false

namespace Repository

/-- A name that is valid is a text that is not empty. -/
lemma eq_of_validName? {key : Json} {text : String} (valid : validName? key = some text) :
    key = .string text ∧ text ≠ "" := by
  cases key with
  | string name =>
    simp only [validName?] at valid
    split at valid
    case isTrue => cases valid
    case isFalse full =>
      cases valid
      exact ⟨rfl, full⟩
  | _ => cases valid

/-- A caller that is the account with a name is this name. -/
lemma eq_of_isAccount {caller : Json} {account : String} (same : isAccount caller account) :
    caller = .string account ∧ account ≠ "" :=
  eq_of_validName? (beq_iff_eq.1 same)

/-- The repository with one more object. -/
def addObject (repository : Repository) (hash data : Bytes) : Repository :=
  { repository with objects := repository.objects ++ [⟨hash, data⟩] }

/-- The change that an operation makes where it succeeds, and the events that it queues. -/
inductive Change (repository : Repository) : RepositoryCall → Repository → List Event → Prop where
  | read {call : RepositoryCall} :
    call.isRead →
    Change repository call repository []
  | put {hash data : Bytes} :
    data ≠ [] →
    Hash.isZero hash = false →
    Hash.digest repository.algorithm data = hash →
    repository.hasObject hash = false →
    Change repository (.put hash data) (repository.addObject hash data)
      [.objectAdded repository.name hash]
  | insert {name : Json} {text : String} {hash : Bytes} :
    validName? name = some text →
    Hash.isZero hash = false →
    repository.hasObject hash →
    repository.findReference? text = none →
    Change repository (.upsert name hash) (repository.insertReference text hash)
      [.referenceChanged repository.name name hash Hash.zero]
  | replace {name : Json} {text : String} {hash : Bytes} {row : Reference} :
    validName? name = some text →
    Hash.isZero hash = false →
    repository.hasObject hash →
    repository.findReference? text = some row →
    Change repository (.upsert name hash) (repository.replaceReference text hash)
      [.referenceChanged repository.name name hash row.hash]
  | erase {name : Json} {row : Reference} :
    repository.lastPosition ≠ 0 →
    repository.lookupReference? name = some row →
    Change repository (.delete name) (repository.eraseReference row)
      [.referenceChanged repository.name name Hash.zero row.hash]
  | branch {short : String} :
    short ≠ "" →
    Change repository (.setDefaultBranch (.string short))
      { repository with defaultBranch := branchFolder ++ short } []
  | propose {caller newOwner : Json} {successor : String} :
    isAccount caller repository.owner →
    validName? newOwner = some successor →
    Change repository (.transfer caller newOwner)
      { repository with pendingOwner := successor } []
  | accept {caller : Json} :
    repository.pendingOwner ≠ "" →
    isAccount caller repository.pendingOwner →
    Change repository (.accept caller)
      { repository with owner := repository.pendingOwner, pendingOwner := "" } []

/-- How an operation may end on some work: refused, with the work left as it is, or done by one of
the rules. -/
inductive Settled {α : Type} (call : RepositoryCall) (work : Work Repository) :
    Except Failure α × Work Repository → Prop where
  | refused (failure : Failure) :
    Settled call work (.error failure, work)
  | done (answer : α) {after : Work Repository} {sent : List Event} :
    Change work.content call after.content sent →
    after.events = work.events ++ sent →
    Settled call work (.ok answer, after)

variable {α β : Type} {call : RepositoryCall} {work : Work Repository}

/-- A procedure that leaves the work as it is settles a reading operation. -/
lemma Settled.read (h : call.isRead) (outcome : Except Failure α) :
    Settled call work (outcome, work) := by
  cases outcome with
  | error failure => exact .refused failure
  | ok answer => exact .done answer (.read h) (List.append_nil _).symm

/-- What is told after an operation does not matter to how it ends. -/
lemma Settled.bind {p : Procedure Repository α} {f : α → Procedure Repository β}
    (first : Settled call work (p.run work))
    (rest : ∀ a after, ∃ b, (f a).run after = (.ok b, after)) :
    Settled call work ((p >>= f).run work) := by
  rcases e : p.run work with ⟨outcome, after⟩
  rw [e] at first
  cases first with
  | refused failure =>
    rw [run_bind_of_error e]
    exact .refused failure
  | done answer change sent =>
    obtain ⟨b, told⟩ := rest answer after
    rw [run_bind_of_ok e, told]
    exact .done b change sent

/-- Putting an object does what the rules say. -/
lemma putObject_settles (hash data : Bytes) :
    Settled (.put hash data) work ((putObject hash data).run work) := by
  rw [putObject]
  rw [run_bind_of_ok (run_content work)]
  dsimp only
  -- the checks in the order in which they are made; nothing is written before the last has passed
  by_cases empty : data.isEmpty
  · rw [if_pos empty]
    exact .refused _
  by_cases zero : Hash.isZero hash
  · rw [if_neg empty, if_pos zero]
    exact .refused _
  by_cases other : Hash.digest work.content.algorithm data ≠ hash
  · rw [if_neg empty, if_neg zero, if_pos other]
    exact .refused _
  by_cases present : work.content.hasObject hash
  · rw [if_neg empty, if_neg zero, if_neg other, if_pos present]
    exact .refused _
  rw [if_neg empty, if_neg zero, if_neg other, if_neg present]
  have full : data ≠ [] := by simpa using empty
  have nonzero : Hash.isZero hash = false := by simpa using zero
  have absent : work.content.hasObject hash = false := by simpa using present
  exact .done () (.put full nonzero (Decidable.of_not_not other) absent) rfl

/-- Pointing a reference at an object makes the change that is meant, or none. -/
lemma upsertReference_settles (name : Json) (hash : Bytes) :
    Settled (.upsert name hash) work ((upsertReference name hash).run work) := by
  rw [upsertReference]
  rw [run_bind_of_ok (run_content work)]
  cases valid : validName? name with
  | none => exact .refused _
  | some text =>
    dsimp only
    by_cases zero : Hash.isZero hash
    · rw [if_pos zero]
      exact .refused _
    by_cases absent : !work.content.hasObject hash
    · rw [if_neg zero, if_pos absent]
      exact .refused _
    rw [if_neg zero, if_neg absent]
    have nonzero : Hash.isZero hash = false := by simpa using zero
    have present : work.content.hasObject hash := by simpa using absent
    cases found : work.content.findReference? text with
    | none => exact .done Hash.zero (.insert valid nonzero present found) rfl
    | some row => exact .done row.hash (.replace valid nonzero present found) rfl

/-- How a deletion ends: an empty table has nothing to delete, a name must be found, and a row that
is found goes. -/
lemma run_deleteReference (name : Json) :
    (deleteReference name).run work =
      if work.content.lastPosition = 0 then (.error (.rejected .noReferences), work)
      else match work.content.lookupReference? name with
        | none => (.error (.rejected (.referenceNotFound name)), work)
        | some row => (.ok row.hash, {
            content := work.content.eraseReference row
            events := work.events ++ [.referenceChanged work.content.name name Hash.zero row.hash]
            log := work.log ++ [.referenceChanged work.content.name name Hash.zero row.hash] }) := by
  rw [deleteReference]
  rw [run_bind_of_ok (run_content work)]
  split
  case isTrue => rfl
  case isFalse => cases work.content.lookupReference? name <;> rfl

/-- Deleting a reference makes the change that is meant, or none. -/
lemma deleteReference_settles (name : Json) :
    Settled (.delete name) work ((deleteReference name).run work) := by
  rw [run_deleteReference]
  split
  case isTrue => exact .refused _
  case isFalse nonempty =>
    cases found : work.content.lookupReference? name with
    | none => exact .refused _
    | some row => exact .done row.hash (.erase nonempty found) rfl

/-- Setting the default branch makes the change that is meant, or none. -/
lemma setDefaultBranch_settles (name : Json) :
    Settled (.setDefaultBranch name) work ((setDefaultBranch name).run work) := by
  rw [setDefaultBranch]
  rw [run_bind_of_ok (run_content work)]
  split
  case h_1 => exact .refused _
  case h_2 short nonempty =>
    have full : short ≠ "" := fun e => nonempty (by rw [e])
    exact .done _ (.branch full) (List.append_nil _).symm
  case h_3 => exact .refused _

/-- Who passes for the owner. -/
lemma run_ensureOwner (caller : Json) :
    (ensureOwner caller).run work =
      (if isAccount caller work.content.owner then .ok () else .error (.rejected (.notOwner caller)),
        work) := by
  rw [ensureOwner]
  rw [run_bind_of_ok (run_content work)]
  split <;> rfl

/-- The check for the owner changes nothing. -/
lemma ensureOwner_settles (caller : Json) :
    Settled (.ensureOwner caller) work ((ensureOwner caller).run work) := by
  rw [run_ensureOwner]
  exact .read rfl _

/-- Naming a successor makes the change that is meant, or none. -/
lemma transferOwnership_settles (caller newOwner : Json) :
    Settled (.transfer caller newOwner) work ((transferOwnership caller newOwner).run work) := by
  rw [transferOwnership]
  by_cases owner : isAccount caller work.content.owner
  · have passed : (ensureOwner caller).run work = (.ok (), work) := by
      rw [run_ensureOwner, if_pos owner]
    rw [run_bind_of_ok passed]
    cases valid : validName? newOwner with
    | none => exact .refused _
    | some successor => exact .done () (.propose owner valid) (List.append_nil _).symm
  · have refused : (ensureOwner caller).run work = (.error (.rejected (.notOwner caller)), work) := by
      rw [run_ensureOwner, if_neg owner]
    rw [run_bind_of_error refused]
    exact .refused _

/-- Accepting the ownership makes the change that is meant, or none. -/
lemma acceptOwnership_settles (caller : Json) :
    Settled (.accept caller) work ((acceptOwnership caller).run work) := by
  rw [acceptOwnership]
  rw [run_bind_of_ok (run_content work)]
  dsimp only
  by_cases nobody : work.content.pendingOwner = ""
  · rw [if_pos nobody]
    exact .refused _
  by_cases named : isAccount caller work.content.pendingOwner
  · rw [if_neg nobody, if_pos named]
    exact .done () (.accept nobody named) (List.append_nil _).symm
  · rw [if_neg nobody, if_neg named]
    exact .refused _

/-- The payload under a hash, or the complaint that there is none. -/
lemma run_getObject (hash : Bytes) :
    (getObject hash).run work =
      (match work.content.findObject? hash with
        | some object => .ok object.data
        | none => .error (.rejected (.objectNotFound hash)), work) := by
  rw [getObject]
  rw [run_bind_of_ok (run_content work)]
  cases work.content.findObject? hash <;> rfl

/-- Getting an object changes nothing. -/
lemma getObject_settles (hash : Bytes) :
    Settled (.get hash) work ((getObject hash).run work) := by
  rw [run_getObject]
  exact .read rfl _

/-- The hash of a reference, or the complaint that there is none. -/
lemma run_getReference (name : Json) :
    (getReference name).run work =
      (match work.content.lookupReference? name with
        | some row => .ok row.hash
        | none => .error (.rejected (.referenceNotFound name)), work) := by
  rw [getReference]
  rw [run_bind_of_ok (run_content work)]
  cases work.content.lookupReference? name <;> rfl

/-- Getting a reference changes nothing. -/
lemma getReference_settles (name : Json) :
    Settled (.getReference name) work ((getReference name).run work) := by
  rw [run_getReference]
  exact .read rfl _

variable {repository : Repository}

/-- What getting an object comes to. -/
lemma outcome_getObject (hash : Bytes) :
    outcome (getObject hash) repository = match repository.findObject? hash with
      | some object => .ok object.data
      | none => .error (.rejected (.objectNotFound hash)) := by
  rw [outcome, run_getObject]
  rfl

/-- What getting a reference comes to. -/
lemma outcome_getReference (name : Json) :
    outcome (getReference name) repository = match repository.lookupReference? name with
      | some row => .ok row.hash
      | none => .error (.rejected (.referenceNotFound name)) := by
  rw [outcome, run_getReference]
  rfl

/-- What deleting a reference comes to. -/
lemma outcome_deleteReference (name : Json) :
    outcome (deleteReference name) repository =
      if repository.lastPosition = 0 then .error (.rejected .noReferences)
      else match repository.lookupReference? name with
        | some row => .ok row.hash
        | none => .error (.rejected (.referenceNotFound name)) := by
  rw [outcome, run_deleteReference, Work.start]
  split
  case isTrue => rfl
  case isFalse => cases repository.lookupReference? name <;> rfl

/-- Resolving names does what the rules say. -/
lemma resolveReferences_settles (names : Json) :
    Settled (.resolve names) work ((resolveReferences names).run work) := by
  rw [resolveReferences]
  cases names.elements? with
  | none =>
    dsimp only
    rw [run_orFault]
    exact .read rfl _
  | some elements =>
    dsimp only
    rw [run_bind_of_ok (run_content work), run_orFault]
    exact .read rfl _

end Repository

/-- Every operation but a push is refused and leaves the work as it is, or is done by the rules. -/
theorem RepositoryCall.settles {call : RepositoryCall} (single : call.isPush = false)
    (work : Work Repository) : Repository.Settled call work (call.perform.run work) := by
  cases call with
  | describe => exact .read rfl _
  | put hash data => exact (Repository.putObject_settles hash data).bind fun _ _ => ⟨_, rfl⟩
  | get hash => exact (Repository.getObject_settles hash).bind fun _ _ => ⟨_, rfl⟩
  | has hash => exact .read rfl _
  | listObjects => exact .read rfl _
  | upsert name hash =>
    exact (Repository.upsertReference_settles name hash).bind fun _ _ => ⟨_, rfl⟩
  | delete name => exact (Repository.deleteReference_settles name).bind fun _ _ => ⟨_, rfl⟩
  | getReference name => exact (Repository.getReference_settles name).bind fun _ _ => ⟨_, rfl⟩
  | resolve names => exact (Repository.resolveReferences_settles names).bind fun _ _ => ⟨_, rfl⟩
  | listReferences => exact .read rfl _
  | push => cases single
  | setDefaultBranch name =>
    exact (Repository.setDefaultBranch_settles name).bind fun _ _ => ⟨_, rfl⟩
  | ensureOwner caller => exact (Repository.ensureOwner_settles caller).bind fun _ _ => ⟨_, rfl⟩
  | transfer caller newOwner =>
    exact (Repository.transferOwnership_settles caller newOwner).bind fun _ _ => ⟨_, rfl⟩
  | accept caller => exact (Repository.acceptOwnership_settles caller).bind fun _ _ => ⟨_, rfl⟩

namespace Repository

variable {repository after : Repository} {call : RepositoryCall} {sent : List Event}

/-- No operation renames its repository. -/
lemma Change.name (change : Change repository call after sent) : after.name = repository.name := by
  cases change <;> rfl

end Repository

end ObjectDepot
