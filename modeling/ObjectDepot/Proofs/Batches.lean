import ObjectDepot.Proofs.Effects
import ObjectDepot.Proofs.Mirror

/-!
# Pushes in another order

What the parts of a push do to different objects, or to different names, does not depend on their order.
`changes_puts_iff` says which objects are taken in a row, and `Changes.retargets` that what becomes of a
name is told by the updates of this name alone, of which the last wins (`foldlM_retarget`).
`Change.performs` is the converse of `RepositoryCall.changes`: what the rules allow is done.
-/

namespace ObjectDepot

open Procedure

/-- The hashes at which updates point a name, in their order. -/
def updatesOf (name : String) (references : List (String × Bytes)) : List Bytes :=
  (references.filter (·.1 = name)).map (·.2)

/-- What a name points at after updates of it, the last of which wins. -/
def lastTarget (target : Option Bytes) (hashes : List Bytes) : Option Bytes :=
  match hashes.getLast? with
  | some hash => if Hash.isZero hash then none else some hash
  | none => target

namespace RepositoryCall

/-- Whether an operation is one of those that pushes are made of. -/
def isPart : RepositoryCall → Bool
  | .put .. | .upsert .. | .delete _ => true
  | _ => false

/-- What a push is made of are its parts. -/
lemma isPart_of_pushed {objects : List (Bytes × Bytes)} {references : List (Json × Bytes)}
    {call : RepositoryCall} (h : call ∈ pushed objects references) : call.isPart := by
  rcases List.mem_append.1 h with h | h
  · obtain ⟨object, _, rfl⟩ := List.mem_map.1 h
    rfl
  · obtain ⟨reference, _, rfl⟩ := List.mem_map.1 h
    unfold ofChange
    split <;> rfl

/-- No part of a push only reads. -/
lemma isRead_of_isPart {call : RepositoryCall} (part : call.isPart) : call.isRead = false := by
  cases call <;> first | rfl | cases part

end RepositoryCall

namespace Repository

section Performing

variable {after : Repository} {call : RepositoryCall} {calls : List RepositoryCall} {sent : List Event}
  {work : Work Repository}

/-- A part of a push that the rules allow is done. -/
lemma Change.performs (change : work.content.Change call after sent) (part : call.isPart) :
    ∃ answer done, call.perform.run work = (.ok answer, done) ∧ done.content = after := by
  have content := run_content work
  cases change with
  | read reading => exact absurd reading (by simp [RepositoryCall.isRead_of_isPart part])
  | @put hash data full nonzero digest absent =>
    have ran : ∃ done, (putObject hash data).run work = (.ok (), done) ∧
        done.content = work.content.addObject hash data := by
      rw [putObject, run_bind_of_ok content, if_neg (by simpa using full), if_neg (by simp [nonzero]),
        if_neg (by simp [digest]), if_neg (by simp [absent])]
      exact ⟨_, rfl, rfl⟩
    obtain ⟨done, ran, left⟩ := ran
    exact ⟨_, done, run_bind_of_ok ran, left⟩
  | @insert key text hash valid nonzero there fresh =>
    have ran : ∃ done, (upsertReference key hash).run work = (.ok Hash.zero, done) ∧
        done.content = work.content.insertReference text hash := by
      rw [upsertReference, run_bind_of_ok content, valid]
      dsimp only
      rw [if_neg (by simp [nonzero]), if_neg (by simp [there]), fresh]
      exact ⟨_, rfl, rfl⟩
    obtain ⟨done, ran, left⟩ := ran
    exact ⟨_, done, run_bind_of_ok ran, left⟩
  | @replace key text hash row valid nonzero there found =>
    have ran : ∃ done, (upsertReference key hash).run work = (.ok row.hash, done) ∧
        done.content = work.content.replaceReference text hash := by
      rw [upsertReference, run_bind_of_ok content, valid]
      dsimp only
      rw [if_neg (by simp [nonzero]), if_neg (by simp [there]), found]
      exact ⟨_, rfl, rfl⟩
    obtain ⟨done, ran, left⟩ := ran
    exact ⟨_, done, run_bind_of_ok ran, left⟩
  | @erase key row some found =>
    have ran : ∃ done, (deleteReference key).run work = (.ok row.hash, done) ∧
        done.content = work.content.eraseReference row := by
      rw [run_deleteReference, if_neg some, found]
      exact ⟨_, rfl, rfl⟩
    obtain ⟨done, ran, left⟩ := ran
    exact ⟨_, done, run_bind_of_ok ran, left⟩
  | branch | propose | accept => cases part

/-- Parts that the rules allow one after another are done. -/
lemma Changes.performs (changes : Changes work.content calls after)
    (parts : ∀ call ∈ calls, call.isPart) :
    ∃ done, (performEach calls).run work = (.ok (), done) ∧ done.content = after := by
  induction calls generalizing work with
  | nil =>
    cases changes
    exact ⟨work, rfl, rfl⟩
  | cons call rest ih =>
    cases changes with
    | cons change changes =>
      obtain ⟨part, parts⟩ := List.forall_mem_cons.1 parts
      obtain ⟨answer, done, ran, rfl⟩ := change.performs part
      obtain ⟨left, later, same⟩ := ih changes parts
      refine ⟨left, ?_, same⟩
      rw [performEach, run_bind_of_ok ran, later]

end Performing

variable {repository mid after : Repository} {hash data other : Bytes} {name : String}
  {entries : SwapList} {objects objects' : List (Bytes × Bytes)} {references : List (String × Bytes)}

/-- Changes in a row may be parted anywhere. -/
lemma changes_append_iff {front back : List RepositoryCall} :
    Changes repository (front ++ back) after ↔
      ∃ mid, Changes repository front mid ∧ Changes mid back after := by
  induction front generalizing repository with
  | nil =>
    constructor
    · exact fun changes => ⟨repository, .nil, changes⟩
    · rintro ⟨_, none, changes⟩
      cases none
      exact changes
  | cons call rest ih =>
    constructor
    · intro changes
      cases changes with
      | cons change changes =>
        obtain ⟨mid, first, second⟩ := ih.1 changes
        exact ⟨mid, .cons change first, second⟩
    · rintro ⟨mid, first, second⟩
      cases first with
      | cons change changes => exact .cons change (ih.2 ⟨mid, changes, second⟩)

/-- A repository with objects added in a row. -/
def addObjects (repository : Repository) (objects : List (Bytes × Bytes)) : Repository :=
  { repository with
    objects := repository.objects ++ objects.map fun object => ⟨object.1, object.2⟩ }

/-- Without objects nothing is added. -/
lemma addObjects_nil : repository.addObjects [] = repository := by simp [addObjects]

/-- The hashes of objects that are added come last. -/
lemma objectHashes_addObjects :
    (repository.addObjects objects).objectHashes = repository.objectHashes ++ objects.map (·.1) := by
  rw [objectHashes, addObjects, List.map_append, List.map_map]
  rfl

/-- Objects that a repository takes in a row: each is addressed by its hash, and no hash is there already
or comes twice. -/
structure Takes (repository : Repository) (objects : List (Bytes × Bytes)) : Prop where
  addressed : ∀ object ∈ objects,
    (⟨object.1, object.2⟩ : StoredObject).Addressed repository.algorithm
  fresh : ∀ object ∈ objects, object.1 ∉ repository.objectHashes
  distinct : (objects.map (·.1)).Nodup

/-- The hash of an added object comes last. -/
lemma objectHashes_addObject :
    (repository.addObject hash data).objectHashes = repository.objectHashes ++ [hash] :=
  List.map_append

/-- The first of some objects is taken, and then the others. -/
lemma takes_cons_iff :
    Takes repository ((hash, data) :: objects) ↔
      (⟨hash, data⟩ : StoredObject).Addressed repository.algorithm ∧ hash ∉ repository.objectHashes ∧
        Takes (repository.addObject hash data) objects := by
  constructor
  · rintro ⟨addressed, fresh, distinct⟩
    obtain ⟨here, addressed⟩ := List.forall_mem_cons.1 addressed
    obtain ⟨absent, fresh⟩ := List.forall_mem_cons.1 fresh
    obtain ⟨once, distinct⟩ := List.nodup_cons.1 distinct
    refine ⟨here, absent, addressed, fun object member => ?_, distinct⟩
    rw [objectHashes_addObject, List.mem_append, List.mem_singleton]
    rintro (old | same)
    · exact fresh object member old
    · exact once (List.mem_map.2 ⟨object, member, same⟩)
  · rintro ⟨here, absent, addressed, fresh, distinct⟩
    have apart : ∀ object ∈ objects, object.1 ∉ repository.objectHashes ∧ object.1 ≠ hash := by
      intro object member
      have new := fresh object member
      rwa [objectHashes_addObject, List.mem_append, List.mem_singleton, not_or] at new
    refine ⟨List.forall_mem_cons.2 ⟨here, addressed⟩, List.forall_mem_cons.2 ⟨absent, ?_⟩, ?_⟩
    · exact fun object member => (apart object member).1
    · refine List.nodup_cons.2 ⟨fun listed => ?_, distinct⟩
      obtain ⟨object, member, same⟩ := List.mem_map.1 listed
      exact (apart object member).2 same

/-- Every repository takes no objects. -/
lemma takes_nil : Takes repository [] := ⟨nofun, nofun, List.nodup_nil⟩

/-- Whether objects are taken does not depend on their order. -/
lemma Takes.perm (takes : Takes repository objects) (perm : objects.Perm objects') :
    Takes repository objects' where
  addressed object member := takes.addressed object (perm.mem_iff.2 member)
  fresh object member := takes.fresh object (perm.mem_iff.2 member)
  distinct := (perm.map _).nodup_iff.1 takes.distinct

/-- Objects are put one after another if the repository takes them, and are then added in this order. -/
lemma changes_puts_iff :
    Changes repository (objects.map fun object => .put object.1 object.2) after ↔
      Takes repository objects ∧ after = repository.addObjects objects := by
  induction objects generalizing repository with
  | nil =>
    rw [addObjects_nil]
    constructor
    · intro changes
      cases changes
      exact ⟨takes_nil, rfl⟩
    · rintro ⟨_, rfl⟩
      exact .nil
  | cons object rest ih =>
    obtain ⟨hash, data⟩ := object
    have both : repository.addObjects ((hash, data) :: rest) =
        (repository.addObject hash data).addObjects rest := by simp [addObjects, addObject]
    have absent_iff : repository.hasObject hash = false ↔ hash ∉ repository.objectHashes := by
      rw [← hasObject_iff_mem, Bool.not_eq_true]
    rw [takes_cons_iff, both]
    constructor
    · intro changes
      cases changes with
      | cons change changes =>
        cases change with
        | read reading => cases reading
        | put full nonzero digest absent =>
          obtain ⟨takes, left⟩ := ih.1 changes
          exact ⟨⟨⟨full, nonzero, digest⟩, absent_iff.1 absent, takes⟩, left⟩
    · rintro ⟨⟨⟨full, nonzero, digest⟩, absent, takes⟩, left⟩
      exact .cons (.put full nonzero digest (absent_iff.2 absent)) (ih.2 ⟨takes, left⟩)

/-- What an update makes of what a name points at: the zero hash removes a name that points at something,
and any other hash must be that of an object. All else is refused. -/
def retarget (stored : Bytes → Bool) (name : String) (target : Option Bytes) (hash : Bytes) :
    Option (Option Bytes) :=
  if Hash.isZero hash then target.map fun _ => none
  else if name ≠ "" ∧ stored hash then some (some hash)
  else none

/-- Which objects there are is told by the list of objects alone. -/
lemma hasObject_of_objects (same : after.objects = repository.objects) :
    after.hasObject = repository.hasObject := by
  funext hash
  rw [hasObject, findObject?, same]
  rfl

/-- A change of a reference is told by what the name points at, and leaves all other names alone. -/
lemma Change.retargets {sent : List Event}
    (change : repository.Change (.ofChange (.string name) hash) after sent) :
    ∃ target, retarget repository.hasObject name (repository.target? name) hash = some target ∧
      after.target? = Function.update repository.target? name target ∧
      after.objects = repository.objects := by
  unfold retarget
  generalize asked : RepositoryCall.ofChange (.string name) hash = call at change
  unfold RepositoryCall.ofChange at asked
  split at asked
  case isTrue zero =>
    rw [if_pos zero]
    subst asked
    cases change with
    | read reading => cases reading
    | erase _ found =>
      have found' : repository.findReference? name = some _ := found
      obtain ⟨_, rfl⟩ := Keys.mem_of_find? found'
      exact ⟨none, by rw [target?_of_find? found']; rfl, target?_erase, rfl⟩
  case isFalse nonzero =>
    rw [if_neg nonzero]
    subst asked
    cases change with
    | read reading => cases reading
    | insert valid _ there fresh =>
      obtain ⟨e, full⟩ := eq_of_validName? valid
      cases e
      exact ⟨some hash, if_pos ⟨full, there⟩, target?_insert fresh, rfl⟩
    | replace valid _ there found =>
      obtain ⟨e, full⟩ := eq_of_validName? valid
      cases e
      exact ⟨some hash, if_pos ⟨full, there⟩, target?_replace found, rfl⟩

/-- An update that is not refused is made. -/
lemma Lists.change_of_retarget {target : Option Bytes} (lists : Lists repository entries)
    (accepted : retarget repository.hasObject name (repository.target? name) hash = some target) :
    ∃ after sent, repository.Change (.ofChange (.string name) hash) after sent := by
  unfold retarget at accepted
  unfold RepositoryCall.ofChange
  split at accepted
  case isTrue zero =>
    rw [if_pos zero]
    obtain ⟨_, pointed, _⟩ := Option.map_eq_some_iff.1 accepted
    obtain ⟨row, found, _⟩ := Option.map_eq_some_iff.1 pointed
    -- where a row is found the last position is that of some entry
    have some : repository.lastPosition ≠ 0 := by
      rw [lists.lastPosition, ne_eq, List.length_eq_zero_iff]
      rintro rfl
      exact absurd (lists.find?_isSome.1 (by rw [found]; rfl)) List.not_mem_nil
    exact ⟨_, _, .erase some found⟩
  case isFalse nonzero =>
    rw [if_neg nonzero]
    split at accepted
    case isFalse => cases accepted
    case isTrue kept =>
      obtain ⟨full, there⟩ := kept
      have valid : validName? (.string name) = some name := if_neg full
      have nonzero : Hash.isZero hash = false := by simpa using nonzero
      cases found : repository.findReference? name with
      | none => exact ⟨_, _, .insert valid nonzero there found⟩
      | some row => exact ⟨_, _, .replace valid nonzero there found⟩

/-- Updates of references. -/
def updates (references : List (String × Bytes)) : List RepositoryCall :=
  references.map fun reference => .ofChange (.string reference.1) reference.2

/-- An update of a name comes before the later ones of it. -/
lemma updatesOf_cons_self :
    updatesOf name ((name, hash) :: references) = hash :: updatesOf name references := by
  simp [updatesOf]

/-- An update of another name is not one of this. -/
lemma updatesOf_cons_other {text : String} (apart : text ≠ name) :
    updatesOf text ((name, hash) :: references) = updatesOf text references := by
  simp [updatesOf, apart.symm]

/-- Neighbouring updates of two names may stand in either order. -/
lemma updatesOf_swap {other : String} {hash' : Bytes} (apart : name ≠ other) (text : String) :
    updatesOf text ((name, hash) :: (other, hash') :: references) =
      updatesOf text ((other, hash') :: (name, hash) :: references) := by
  by_cases same : text = name
  · subst same
    rw [updatesOf_cons_self, updatesOf_cons_other apart, updatesOf_cons_other apart, updatesOf_cons_self]
  · rw [updatesOf_cons_other same]
    by_cases same' : text = other
    · subst same'
      rw [updatesOf_cons_self, updatesOf_cons_self, updatesOf_cons_other same]
    · rw [updatesOf_cons_other same', updatesOf_cons_other same', updatesOf_cons_other same]

/-- What becomes of a name is told by the updates of this name. -/
lemma Changes.retargets (changes : Changes repository (updates references) after) :
    after.objects = repository.objects ∧
      ∀ text, (updatesOf text references).foldlM (retarget repository.hasObject text)
        (repository.target? text) = some (after.target? text) := by
  induction references generalizing repository with
  | nil =>
    cases changes
    exact ⟨rfl, fun _ => rfl⟩
  | cons reference rest ih =>
    obtain ⟨name, hash⟩ := reference
    cases changes with
    | @cons _ mid _ _ _ _ change changes =>
      obtain ⟨target, accepted, pointed, kept⟩ := change.retargets
      obtain ⟨kept', later⟩ := ih changes
      refine ⟨kept'.trans kept, fun text => ?_⟩
      have told := later text
      rw [hasObject_of_objects kept, pointed] at told
      by_cases same : text = name
      · subst same
        rw [Function.update_self] at told
        rw [updatesOf_cons_self, List.foldlM_cons, accepted]
        exact told
      · rw [Function.update_of_ne same] at told
        rw [updatesOf_cons_other same, told]

/-- Updates are made one after another if those of each name are. -/
lemma Lists.changes_of_retarget (lists : Lists repository entries)
    (accepted : ∀ text, ((updatesOf text references).foldlM (retarget repository.hasObject text)
      (repository.target? text)).isSome) :
    ∃ after, Changes repository (updates references) after := by
  induction references generalizing repository entries with
  | nil => exact ⟨repository, .nil⟩
  | cons reference rest ih =>
    obtain ⟨name, hash⟩ := reference
    have first := accepted name
    rw [updatesOf_cons_self, List.foldlM_cons] at first
    cases told : retarget repository.hasObject name (repository.target? name) hash with
    | none =>
      rw [told] at first
      cases first
    | some target =>
      obtain ⟨mid, sent, change⟩ := lists.change_of_retarget told
      obtain ⟨target', told', pointed, kept⟩ := change.retargets
      cases told.symm.trans told'
      obtain ⟨after, changes⟩ := ih (lists.changed change) fun text => by
        rw [hasObject_of_objects kept, pointed]
        by_cases same : text = name
        · subst same
          rw [Function.update_self]
          rwa [told] at first
        · have later := accepted text
          rw [updatesOf_cons_other same] at later
          rwa [Function.update_of_ne same]
      exact ⟨after, .cons change changes⟩

/-- The last update of a name wins. -/
lemma foldlM_retarget {stored : Bytes → Bool} {target result : Option Bytes} {hashes : List Bytes}
    (made : hashes.foldlM (retarget stored name) target = some result) :
    result = lastTarget target hashes := by
  rcases List.eq_nil_or_concat' hashes with rfl | ⟨front, last, rfl⟩
  · cases made
    rfl
  · rw [List.foldlM_append] at made
    obtain ⟨before, _, made⟩ := Option.bind_eq_some_iff.1 made
    simp only [List.foldlM_cons, List.foldlM_nil, bind_pure, retarget] at made
    rw [lastTarget, List.getLast?_concat]
    dsimp only
    split at made
    case isTrue zero =>
      obtain ⟨_, _, rfl⟩ := Option.map_eq_some_iff.1 made
      rw [if_pos zero]
    case isFalse nonzero =>
      rw [if_neg nonzero]
      split at made
      case isTrue => exact (Option.some.inj made).symm
      case isFalse => cases made

/-- The references of a push whose names are texts. -/
def textual (references : List (String × Bytes)) : List (Json × Bytes) :=
  references.map fun reference => (.string reference.1, reference.2)

/-- The parts of a push put its objects and then make its updates. -/
lemma changes_pushed_iff :
    Changes repository (RepositoryCall.pushed objects (textual references)) after ↔
      Takes repository objects ∧ Changes (repository.addObjects objects) (updates references) after := by
  have parts : RepositoryCall.pushed objects (textual references) =
      (objects.map fun object => .put object.1 object.2) ++ updates references := by
    rw [RepositoryCall.pushed, textual, updates, List.map_map]
    rfl
  rw [parts, changes_append_iff]
  constructor
  · rintro ⟨mid, puts, changes⟩
    obtain ⟨takes, rfl⟩ := changes_puts_iff.1 puts
    exact ⟨takes, changes⟩
  · rintro ⟨takes, changes⟩
    exact ⟨_, changes_puts_iff.2 ⟨takes, rfl⟩, changes⟩

/-- A push is accepted if something is pushed, the repository takes the objects, and the updates of each
name can be made. -/
structure Accepts (repository : Repository) (objects : List (Bytes × Bytes))
    (references : List (String × Bytes)) : Prop where
  full : objects ≠ [] ∨ references ≠ []
  takes : Takes repository objects
  updates : ∀ text, ((updatesOf text references).foldlM
    (retarget (repository.addObjects objects).hasObject text) (repository.target? text)).isSome

/-- Objects that are added do not change what is listed. -/
lemma Lists.addObjects (lists : Lists repository entries) :
    Lists (repository.addObjects objects) entries :=
  lists.of_references rfl

/-- The push of some objects and references into a repository. -/
def pushInto (branch : String) (key : Json) (objects : List (Bytes × Bytes))
    (references : List (String × Bytes)) : Procedure Store Answer :=
  (Call.inRepository key (.push objects (textual references))).perform branch

section Run

variable {branch : String} {key : Json} {work left : Work Store} {answer : Answer}

/-- A push of something whose changes the rules allow is done. -/
lemma Changes.push {references : List (Json × Bytes)} (full : objects ≠ [] ∨ references ≠ [])
    (present : work.content.lookup? key = some repository)
    (changes : Changes repository (RepositoryCall.pushed objects references) after) :
    ∃ left, ((Call.inRepository key (.push objects references)).perform branch).run work =
        (.ok .done, left) ∧
      left.content = work.content.replace after := by
  let inside : Work Repository := { work with content := repository }
  have parts : Changes inside.content (RepositoryCall.pushed objects references) after := changes
  obtain ⟨done, ran, rfl⟩ := parts.performs fun _ => RepositoryCall.isPart_of_pushed
  have pushed : (RepositoryCall.push objects references).perform.run inside = (.ok .done, _) :=
    run_bind_of_ok (run_push_of_ok full ran)
  exact ⟨_, Store.run_within_some present pushed, rfl⟩

/-- A push that is done is one of something, and has made its changes. -/
lemma changes_of_pushed {references : List (Json × Bytes)}
    (present : work.content.lookup? key = some repository)
    (pushed : ((Call.inRepository key (.push objects references)).perform branch).run work =
      (.ok answer, left)) :
    (objects ≠ [] ∨ references ≠ []) ∧ ∃ after,
      Changes repository (RepositoryCall.pushed objects references) after ∧
      left.content = work.content.replace after ∧ left.content.lookup? key = some after := by
  have inside : (Store.within key (RepositoryCall.push objects references).perform).run work =
      (.ok answer, left) := pushed
  obtain ⟨done, ran, rfl⟩ := Store.within_eq present inside
  have changes : Changes repository (RepositoryCall.pushed objects references) done.content :=
    RepositoryCall.changes ran
  refine ⟨?_, done.content, changes, rfl, Store.lookup?_replace present changes.fixed.1⟩
  by_contra empty
  obtain ⟨rfl, rfl⟩ : objects = [] ∧ references = [] := by simpa [not_or] using empty
  cases ran

/-- References are none as texts only if there are none. -/
lemma textual_ne_nil : textual references ≠ [] ↔ references ≠ [] := by simp [textual]

/-- A push that is accepted is done. -/
lemma Accepts.push (lists : Lists repository entries) (present : work.content.lookup? key = some repository)
    (accepts : Accepts repository objects references) :
    ∃ left, (pushInto branch key objects references).run work = (.ok .done, left) := by
  obtain ⟨after, changes⟩ := lists.addObjects.changes_of_retarget accepts.updates
  have full : objects ≠ [] ∨ textual references ≠ [] := accepts.full.imp_right textual_ne_nil.2
  obtain ⟨left, pushed, _⟩ := (changes_pushed_iff.2 ⟨accepts.takes, changes⟩).push full present
  exact ⟨left, pushed⟩

/-- A push that is done was accepted. It adds its objects, and the last update of each name wins. -/
lemma accepts_of_push (present : work.content.lookup? key = some repository)
    (pushed : (pushInto branch key objects references).run work = (.ok answer, left)) :
    Accepts repository objects references ∧
      ∃ after, left.content.lookup? key = some after ∧
        after.objects = (repository.addObjects objects).objects ∧
        ∀ text, after.target? text = lastTarget (repository.target? text) (updatesOf text references) := by
  obtain ⟨full, after, changes, _, here⟩ := changes_of_pushed present pushed
  obtain ⟨takes, changes⟩ := changes_pushed_iff.1 changes
  obtain ⟨kept, told⟩ := changes.retargets
  refine ⟨⟨full.imp_right textual_ne_nil.1, takes, fun text => ?_⟩, after, here, kept, fun text => ?_⟩
  · have made := told text
    exact Option.isSome_of_eq_some made
  · exact foldlM_retarget (told text)

end Run

/-- Updates are those of some name. -/
lemma updatesOf_eq_nil_iff : (∀ name, updatesOf name references = []) ↔ references = [] := by
  constructor
  · intro none
    refine List.eq_nil_iff_forall_not_mem.2 fun reference member => ?_
    have kept : reference.2 ∈ updatesOf reference.1 references :=
      List.mem_map_of_mem (List.mem_filter.2 ⟨member, by simp⟩)
    rw [none] at kept
    cases kept
  · rintro rfl _
    rfl

/-- Objects in another order, and updates in another order but for those of one name, are accepted where
the others are. -/
lemma Accepts.reorder {references' : List (String × Bytes)} (accepts : Accepts repository objects references)
    (perm : objects.Perm objects')
    (same : ∀ name, updatesOf name references = updatesOf name references') :
    Accepts repository objects' references' := by
  have stored : (repository.addObjects objects').hasObject =
      (repository.addObjects objects).hasObject := by
    funext hash
    rw [Bool.eq_iff_iff, hasObject_iff_mem, hasObject_iff_mem]
    exact (((perm.symm.map _).append_left _).map _).mem_iff
  refine ⟨accepts.full.imp (mt ?_) (mt ?_), accepts.takes.perm perm, fun text => ?_⟩
  · rintro rfl
    exact perm.eq_nil
  · rw [← updatesOf_eq_nil_iff, ← updatesOf_eq_nil_iff]
    exact fun none name => (same name).trans (none name)
  · rw [stored, ← same]
    exact accepts.updates text

end Repository

open Repository in
/-- A push does not depend on the order of its objects, nor on that of its updates but for those of one
name, of which the last wins. -/
theorem push_order_irrelevant (actions : List Action) (branch : String) (key : Json)
    (repository : Repository) (objects objects' : List (Bytes × Bytes))
    (references references' : List (String × Bytes))
    (present : (History.ofActions actions).work.content.lookup? key = some repository)
    (sameObjects : objects.Perm objects')
    (sameUpdates : ∀ name, updatesOf name references = updatesOf name references') :
    let work := (History.ofActions actions).work
    let push := (pushInto branch key objects references).run work
    let push' := (pushInto branch key objects' references').run work
    ((∃ answer, push.1 = .ok answer) ↔ ∃ answer, push'.1 = .ok answer) ∧
      ((∃ answer, push.1 = .ok answer) →
        ∃ after after', push.2.content.lookup? key = some after ∧
          push'.2.content.lookup? key = some after' ∧ after.objects.Perm after'.objects ∧
          ∀ name, after.target? name =
              lastTarget (repository.target? name) (updatesOf name references) ∧
            after'.target? name = after.target? name) := by
  intro work push push'
  have lists := History.invariant lists_invariant actions repository
    (Keys.mem_of_find? (Store.lookup?_iff.1 present).2).1
  have samePrimed : ∀ name, updatesOf name references' = updatesOf name references :=
    fun name => (sameUpdates name).symm
  constructor
  · constructor
    · rintro ⟨answer, pushed⟩
      obtain ⟨accepts, _⟩ := accepts_of_push present (Prod.ext pushed rfl)
      obtain ⟨left, pushed⟩ := (accepts.reorder sameObjects sameUpdates).push lists present
      exact ⟨.done, congrArg Prod.fst pushed⟩
    · rintro ⟨answer, pushed⟩
      obtain ⟨accepts, _⟩ := accepts_of_push present (Prod.ext pushed rfl)
      obtain ⟨left, pushed⟩ := (accepts.reorder sameObjects.symm samePrimed).push lists present
      exact ⟨.done, congrArg Prod.fst pushed⟩
  · rintro ⟨answer, pushed⟩
    obtain ⟨accepts, after, here, kept, told⟩ := accepts_of_push present (Prod.ext pushed rfl)
    obtain ⟨left, pushed'⟩ := (accepts.reorder sameObjects sameUpdates).push lists present
    obtain ⟨_, after', here', kept', told'⟩ := accepts_of_push present pushed'
    refine ⟨after, after', here, ?_, ?_, fun name => ⟨told name, ?_⟩⟩
    · rw [← here']
      exact congrArg (·.2.content.lookup? key) pushed'
    · rw [kept, kept']
      exact (sameObjects.map _).append_left _
    · rw [told, told', samePrimed]

namespace History

/-- What is left of the short history by one more push, of two objects and some references. -/
def sampleBatch (objects : List (Bytes × Bytes)) (references : List (String × Bytes)) :
    Except Failure Answer × Work Store :=
  (Repository.pushInto "main" (.string "depot") objects references).run (ofActions sample).work

/-- After the short history a push may make a reference anew before or after it makes another one. -/
theorem push_order_irrelevant_sample :
    (sampleBatch [(Hash.digest .sha256 [2], [2]), (Hash.digest .sha256 [3], [3])]
        [("b", Hash.zero), ("a", Hash.digest .sha256 [2]), ("b", Hash.digest .sha256 [3])]).1.isOk ∧
      ∃ after', (sampleBatch [(Hash.digest .sha256 [3], [3]), (Hash.digest .sha256 [2], [2])]
          [("a", Hash.digest .sha256 [2]), ("b", Hash.zero), ("b", Hash.digest .sha256 [3])]).2.content.lookup?
            (.string "depot") = some after' ∧
        after'.target? "b" = some (Hash.digest .sha256 [3]) := by
  have present : (ofActions sample).work.content.lookup? (.string "depot") = some sampleRepository := by
    decide +kernel
  have ends : (sampleBatch [(Hash.digest .sha256 [2], [2]), (Hash.digest .sha256 [3], [3])]
      [("b", Hash.zero), ("a", Hash.digest .sha256 [2]), ("b", Hash.digest .sha256 [3])]).1.isOk := by
    decide +kernel
  obtain ⟨_, told⟩ := push_order_irrelevant sample "main" (.string "depot") sampleRepository
    [(Hash.digest .sha256 [2], [2]), (Hash.digest .sha256 [3], [3])]
    [(Hash.digest .sha256 [3], [3]), (Hash.digest .sha256 [2], [2])]
    [("b", Hash.zero), ("a", Hash.digest .sha256 [2]), ("b", Hash.digest .sha256 [3])]
    [("a", Hash.digest .sha256 [2]), ("b", Hash.zero), ("b", Hash.digest .sha256 [3])]
    present (.swap _ _ _) (Repository.updatesOf_swap (by decide))
  refine ⟨ends, ?_⟩
  rcases ran : sampleBatch [(Hash.digest .sha256 [2], [2]), (Hash.digest .sha256 [3], [3])]
    [("b", Hash.zero), ("a", Hash.digest .sha256 [2]), ("b", Hash.digest .sha256 [3])] with ⟨_ | answer, left⟩
  · rw [ran] at ends
    cases ends
  · obtain ⟨after, after', _, here', _, targets⟩ := told ⟨answer, congrArg Prod.fst ran⟩
    obtain ⟨target, target'⟩ := targets "b"
    unfold sampleBatch
    refine ⟨after', here', ?_⟩
    rw [target', target]
    decide +kernel

end History

end ObjectDepot
