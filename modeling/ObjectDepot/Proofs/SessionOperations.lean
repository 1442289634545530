import ObjectDepot.Proofs.ReferenceRows
import ObjectDepot.Proofs.Representation

/-!
# Operations on tables and on repositories

A sound session stands for a repository (`Session.representation`). Every operation does to a session
what the operation of the same name does to the repository, ends in the same way, sends the same events
and writes the same log (`Session.refines`).
-/

namespace ObjectDepot.Session

open Procedure ObjectDepot.Representation

/-- How a session stands for the repository at hand. -/
def representation : Representation Session Repository where
  view := repository
  Sound := Sound
  Keeps := Keeps
  refl _ := Sound.keeps
  trans := Keeps.trans

variable {session : Session}

/-- To put an object into the tables implements putting it into the repository. -/
lemma putObject_implements (session : Session) (hash data : Bytes) :
    representation.Implements session (putObject hash data) (Repository.putObject hash data) := by
  refine .content_bind fun sound => ?_
  refine .ite (fun _ => .reject _) fun _ => .ite (fun _ => .reject _) fun _ => ?_
  refine .ite (fun _ => .reject _) fun _ => ?_
  rw [show (representation.view session).hasObject hash = _ from sound.hasObject_repository hash]
  refine .ite (fun _ => .reject _) fun absent => ?_
  rw [Bool.not_eq_true] at absent
  refine .bind (.update (fun sound => sound.repository_insertObject hash data)
    (fun sound => sound.insertObject absent data) fun sound => sound.keeps_insertObject absent data) ?_
  exact fun _ _ _ _ => (Implements.note _).bind fun _ _ _ _ => .emit _

/-- To get an object from the tables implements getting it from the repository. -/
lemma getObject_implements (session : Session) (hash : Bytes) :
    representation.Implements session (getObject hash) (Repository.getObject hash) := by
  refine .content_bind fun sound => ?_
  rw [show (representation.view session).findObject? hash = _ from sound.findObject?_repository hash]
  cases session.findObject? hash with
  | none => exact .reject _
  | some object => exact .pure _

/-- To get a reference from the tables implements getting it from the repository. -/
lemma getReference_implements (session : Session) (name : Json) :
    representation.Implements session (getReference name) (Repository.getReference name) := by
  refine .content_bind fun sound => ?_
  rw [show (representation.view session).lookupReference? name = _ from
    sound.lookupReference?_repository name]
  cases session.lookupReference? name with
  | none => exact .reject _
  | some row => exact .pure _

/-- What is told of a reference is the same over both. -/
lemma noteReference_implements (session : Session) (name : Json) (hash previous : Bytes) :
    representation.Implements session (noteReference name hash previous)
      (Repository.noteReference name hash previous) :=
  .content_bind fun _ => (Implements.note _).bind fun _ _ _ _ => .emit _

/-- To point a reference of the tables at an object implements pointing it there in the
repository. -/
lemma upsertReference_implements (session : Session) (name : Json) (hash : Bytes) :
    representation.Implements session (upsertReference name hash)
      (Repository.upsertReference name hash) := by
  refine .content_bind fun sound => ?_
  cases validName? name with
  | none => exact .reject _
  | some text =>
    dsimp only
    rw [show (representation.view session).hasObject hash = _ from sound.hasObject_repository hash,
      show (representation.view session).findReference? text = _ from
        sound.findReference?_repository text]
    refine .ite (fun _ => .reject _) fun _ => .ite (fun _ => .reject _) fun _ => ?_
    cases found : session.findReference? text with
    | none =>
      have own := sound.own_insertReference found hash
      refine .bind (.update (fun sound => sound.repository_insertReference found hash) own.sound own.keeps) ?_
      exact fun _ t _ _ => (noteReference_implements t _ _ _).bind fun _ _ _ _ => .pure _
    | some row =>
      obtain ⟨member, named⟩ := sound.mem_of_findReference? found
      have own := sound.own_saveReference member hash
      refine .bind (.update (fun sound => ?_) own.sound own.keeps) ?_
      · exact named ▸ sound.repository_saveReference member hash
      · exact fun _ t _ _ => (noteReference_implements t _ _ _).bind fun _ _ _ _ => .pure _

/-- To delete a reference from the tables implements deleting it from the repository. -/
lemma deleteReference_implements (session : Session) (name : Json) :
    representation.Implements session (deleteReference name) (Repository.deleteReference name) := by
  refine .content_bind fun sound => ?_
  rw [show (representation.view session).lastPosition = _ from lastPosition_repository,
    show (representation.view session).lookupReference? name = _ from
      sound.lookupReference?_repository name]
  refine .ite (fun _ => .reject _) fun _ => ?_
  cases found : session.lookupReference? name with
  | none => exact .reject _
  | some row =>
    have member := sound.mem_of_lookupReference? found
    refine .bind (.update (fun sound => sound.repository_eraseReference member)
      (fun sound => (sound.eraseReference member).1) fun sound => (sound.eraseReference member).2) ?_
    exact fun _ t _ _ => (noteReference_implements t _ _ _).bind fun _ _ _ _ => .pure _

/-- What a push does with one reference of the tables implements what it does with it in the
repository. -/
lemma changeReference_implements (session : Session) (name : Json) (hash : Bytes) :
    representation.Implements session (changeReference name hash)
      (Repository.changeReference name hash) :=
  .ite (fun _ => (deleteReference_implements session name).bind fun _ _ _ _ => .pure _)
    fun _ => (upsertReference_implements session name hash).bind fun _ _ _ _ => .pure _

/-- A push to the tables implements the push to the repository. -/
lemma push_implements (session : Session) (objects : List (Bytes × Bytes))
    (references : List (Json × Bytes)) :
    representation.Implements session (push objects references) (Repository.push objects references) := by
  refine .ite (fun _ => .reject _) fun _ => ?_
  refine .bind (.atomically (.bind (.forM ?_ objects) fun _ _ _ _ => .forM ?_ references)) ?_
  · exact fun (hash, data) t _ => putObject_implements t hash data
  · exact fun (name, hash) t _ => changeReference_implements t name hash
  · exact fun _ _ _ _ => .content_bind fun _ => .note _

/-- Among some rows the one under a name is found by it. -/
lemma lookup_map_row (rows : List (Row ReferenceRow)) (name : String) :
    (rows.map fun row => (row.value.name, row.value.hash)).lookup name =
      (rows.find? (·.value.name == name)).map (·.value.hash) := by
  induction rows with
  | nil => rfl
  | cons row rest ih =>
    rw [List.map_cons, List.lookup_cons, List.find?_cons, ih, BEq.comm]
    cases row.value.name == name <;> rfl

/-- The query for several names knows of each of them what the query for it alone knows. -/
lemma Sound.lookup_namedReferences (sound : session.Sound) {names : List Json} {name : String}
    (asked : .string name ∈ names) :
    (session.namedReferences names).lookup name =
      (session.findReference? name).map (·.value.hash) := by
  have key : (names.filterMap lookupKey?).contains name :=
    List.contains_iff_mem.2 (List.mem_filterMap.2 ⟨_, asked, rfl⟩)
  rw [namedReferences, lookup_map_row, sound.tables.references.select, findReference?,
    sound.tables.references.first?, List.find?_filter]
  refine congrArg (Option.map _) (congrArg (List.find? · _) (funext fun row => ?_))
  by_cases named : row.value.name = name
  · simp only [named, key, beq_self_eq_true, Bool.and_true, and_true, Bool.decide_eq_true]
  · simp [named]

/-- Each of several names resolves among the rows under them as it does in the repository. -/
lemma Sound.resolveName_repository (sound : session.Sound) {names : List Json} {name : Json}
    (asked : name ∈ names) :
    session.repository.resolveName name = resolveName (session.namedReferences names) name := by
  cases name with
  | string text =>
    simp only [Repository.resolveName, resolveName]
    rw [sound.lookup_namedReferences asked, sound.findReference?_repository, Option.map_map]
    rfl
  | _ => rfl

/-- Several names resolve among the rows under them as they do in the repository. -/
lemma Sound.resolveNames_repository (sound : session.Sound) {names elements : List Json}
    (asked : ∀ name ∈ names, name ∈ elements) :
    session.repository.resolveNames names =
      names.mapM (resolveName (session.namedReferences elements)) := by
  unfold Repository.resolveNames
  induction names with
  | nil => rfl
  | cons name rest ih =>
    obtain ⟨first, others⟩ := List.forall_mem_cons.1 asked
    rw [List.mapM_cons, List.mapM_cons, sound.resolveName_repository first, ih others]

/-- One query for all names finds what each name resolves to in the repository. -/
lemma resolveReferences_implements (session : Session) (names : Json) :
    representation.Implements session (resolveReferences names)
      (Repository.resolveReferences names) := by
  unfold resolveReferences Repository.resolveReferences
  cases names.elements? with
  | none => exact .orFault _
  | some elements =>
    refine .content_bind fun sound => ?_
    rw [show (representation.view session).resolveNames elements = _ from
      sound.resolveNames_repository fun _ => id]
    exact .orFault _

/-- The row at hand is saved with its name. -/
lemma save_implements {f : RepositoryRow → RepositoryRow} {g : Repository → Repository}
    (name : ∀ row, (f row).name = row.name)
    (view : ∀ session : Session, (session.save f).repository = g session.repository) :
    representation.Implements session (update (save f)) (update g) :=
  .update (fun _ => view session) (fun sound => (sound.save name).1) fun sound => (sound.save name).2

/-- To save a default branch implements setting it. -/
lemma setDefaultBranch_implements (session : Session) (name : Json) :
    representation.Implements session (setDefaultBranch name) (Repository.setDefaultBranch name) := by
  refine .content_bind fun _ => ?_
  cases name with
  | string text =>
    by_cases empty : text = ""
    · exact empty ▸ .reject _
    · simp only
      refine .bind (save_implements ?_ ?_) fun _ _ _ _ => (Implements.note _).bind fun _ _ _ _ => .pure _
      · exact fun _ => rfl
      · exact fun _ => rfl
  | _ => exact .reject _

/-- The check for the owner is the same over both. -/
lemma ensureOwner_implements (session : Session) (caller : Json) :
    representation.Implements session (ensureOwner caller) (Repository.ensureOwner caller) :=
  .content_bind fun _ => .ite (fun _ => .pure _) fun _ => .reject _

/-- To save a successor implements naming it. -/
lemma transferOwnership_implements (session : Session) (caller newOwner : Json) :
    representation.Implements session (transferOwnership caller newOwner)
      (Repository.transferOwnership caller newOwner) := by
  refine (ensureOwner_implements session caller).bind fun _ _ _ _ => ?_
  cases validName? newOwner with
  | none => exact .reject _
  | some successor =>
    refine .bind (save_implements ?_ ?_) fun _ _ _ _ => .content_bind fun _ => .note _
    · exact fun _ => rfl
    · exact fun _ => rfl

/-- To save the new owner implements accepting. -/
lemma acceptOwnership_implements (session : Session) (caller : Json) :
    representation.Implements session (acceptOwnership caller)
      (Repository.acceptOwnership caller) := by
  refine .content_bind fun _ => .ite (fun _ => .reject _) fun _ => .ite (fun _ => ?_) fun _ => .reject _
  refine .bind (save_implements ?_ ?_) fun _ _ _ _ => .note _
  · exact fun _ => rfl
  · exact fun _ => rfl

/-- Every operation does to a sound session what it does to the repository for which it stands. -/
theorem refines : RepositoryBackend.Refines representation where
  summary _ _ := rfl
  owner _ _ := rfl
  pendingOwner _ _ := rfl
  hasObject _ sound hash := (sound.hasObject_repository hash).symm
  objectHashes _ _ := objectHashes_repository.symm
  listing _ _ := listing_repository.symm
  putObject := putObject_implements
  getObject := getObject_implements
  upsertReference := upsertReference_implements
  deleteReference := deleteReference_implements
  getReference := getReference_implements
  resolveReferences := resolveReferences_implements
  push := push_implements
  setDefaultBranch := setDefaultBranch_implements
  ensureOwner := ensureOwner_implements
  transferOwnership := transferOwnership_implements
  acceptOwnership := acceptOwnership_implements

end ObjectDepot.Session
