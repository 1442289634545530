import ObjectDepot.Proofs.Batches

/-!
# Pushing again

A push that is repeated finds its objects there and its references as it has left them: `Changes.again`
says that it can change nothing but positions, and `Changes.again_of_nonzero` that it changes nothing at
all where it deletes nothing. `takes_iff` says which payloads are left to be sent, and
`accepts_missing` that sending those is enough. Names that are no texts are looked up by their texts, so
`Changes.by_texts` leaves only texts to look at.
-/

namespace ObjectDepot

open Procedure

namespace RepositoryCall

/-- A zero hash asks for a deletion. -/
lemma ofChange_of_zero {name : Json} {hash : Bytes} (zero : Hash.isZero hash) :
    ofChange name hash = .delete name := if_pos zero

/-- A hash that is not zero asks to point a reference at it. -/
lemma ofChange_of_nonzero {name : Json} {hash : Bytes} (nonzero : Hash.isZero hash = false) :
    ofChange name hash = .upsert name hash := if_neg (by simp [nonzero])

end RepositoryCall

namespace Repository

open RepositoryCall (pushed ofChange ofChange_of_zero ofChange_of_nonzero)

variable {repository mid after : Repository} {entries : SwapList} {name : String} {key : Json}
  {hash data : Bytes} {row : Reference} {sent : List Event} {calls : List RepositoryCall}
  {call : RepositoryCall} {objects : List (Bytes × Bytes)} {references : List (Json × Bytes)}
  {texts : List (String × Bytes)}

/-- References by the texts of their names. -/
def plainly (references : List (Json × Bytes)) : List (String × Bytes) :=
  references.map fun reference => (reference.1.plain, reference.2)

/-- A valid name is a text that is not empty. -/
lemma eq_plain_of_valid (valid : isValidName key) : key = .string key.plain ∧ key.plain ≠ "" := by
  obtain ⟨text, named⟩ := Option.isSome_iff_exists.1 valid
  obtain ⟨rfl, full⟩ := eq_of_validName? named
  exact ⟨rfl, full⟩

/-- Valid names are their texts. -/
lemma textual_plainly (valid : ∀ reference ∈ references, isValidName reference.1) :
    textual (plainly references) = references := by
  rw [textual, plainly, List.map_map]
  refine (List.map_congr_left fun reference member => ?_).trans (List.map_id _)
  obtain ⟨same, _⟩ := eq_plain_of_valid (valid reference member)
  exact Prod.ext same.symm rfl

/-- A name that finds a row finds it by its text. -/
lemma lookupReference?_plain (found : repository.lookupReference? key = some row) :
    repository.lookupReference? (.string key.plain) = some row := by
  cases key with
  | null => cases found
  | _ => exact found

/-- A reference is changed by a name as it is changed by the text of the name. -/
lemma Change.by_text (change : repository.Change (ofChange key hash) after sent) :
    ∃ sent', repository.Change (ofChange (.string key.plain) hash) after sent' := by
  cases zero : Hash.isZero hash with
  | true =>
    rw [ofChange_of_zero zero] at change ⊢
    cases change with
    | read reading => cases reading
    | erase some found => exact ⟨_, .erase some (lookupReference?_plain found)⟩
  | false =>
    rw [ofChange_of_nonzero zero] at change ⊢
    cases change with
    | read reading => cases reading
    | insert valid nonzero there fresh =>
      obtain ⟨rfl, _⟩ := eq_of_validName? valid
      exact ⟨_, .insert valid nonzero there fresh⟩
    | replace valid nonzero there found =>
      obtain ⟨rfl, _⟩ := eq_of_validName? valid
      exact ⟨_, .replace valid nonzero there found⟩

/-- Operations may be exchanged for others that make the same changes, whatever events they send. -/
lemma Changes.exchange {α : Type} {items : List α} {f g : α → RepositoryCall}
    (each : ∀ item ∈ items, ∀ repository after sent, Change repository (f item) after sent →
      ∃ sent', Change repository (g item) after sent')
    (changes : Changes repository (items.map f) after) : Changes repository (items.map g) after := by
  induction items generalizing repository with
  | nil => exact changes
  | cons item rest ih =>
    obtain ⟨here, each⟩ := List.forall_mem_cons.1 each
    cases changes with
    | cons change changes =>
      obtain ⟨_, change⟩ := here _ _ _ change
      exact .cons change (ih each changes)

/-- A push makes the changes that it makes with the texts of its names. -/
lemma Changes.by_texts (changes : Changes repository (pushed objects references) after) :
    Changes repository (pushed objects (textual (plainly references))) after := by
  obtain ⟨mid, puts, points⟩ := changes_append_iff.1 changes
  rw [pushed, textual, plainly, List.map_map, List.map_map]
  exact changes_append_iff.2 ⟨mid, puts, points.exchange fun _ _ _ _ _ change => change.by_text⟩

/-- Each of some changes is one of a table that lists entries. -/
lemma Changes.member (changes : Changes repository calls after) (lists : Lists repository entries)
    (member : call ∈ calls) :
    ∃ mid entries' left sent, Lists mid entries' ∧ mid.Change call left sent := by
  induction changes generalizing entries with
  | nil => cases member
  | cons change _ ih =>
    rcases List.mem_cons.1 member with rfl | member
    · exact ⟨_, _, _, _, lists, change⟩
    · exact ih (lists.changed change) member

/-- Each reference of a push that is done changes a table that lists entries. -/
lemma Changes.reference (changes : Changes repository (pushed objects references) after)
    (lists : Lists repository entries) {reference : Json × Bytes} (member : reference ∈ references) :
    ∃ mid entries' left sent, Lists mid entries' ∧
      mid.Change (ofChange reference.1 reference.2) left sent :=
  changes.member lists (List.mem_append_right _ (List.mem_map_of_mem member))

/-- Changes in a row act on the entries as their operations do on a plain list. -/
lemma Changes.lists (changes : Changes repository calls after) (lists : Lists repository entries) :
    Lists after (calls.foldl SwapList.apply entries) := by
  induction changes generalizing entries with
  | nil => exact lists
  | cons change _ ih => exact ih (lists.changed change)

/-- Only valid names are pointed at hashes that are not zero. -/
lemma Change.valid_of_nonzero (change : repository.Change (ofChange key hash) after sent)
    (nonzero : Hash.isZero hash = false) : isValidName key := by
  rw [ofChange_of_nonzero nonzero] at change
  cases change with
  | read reading => cases reading
  | insert valid => exact Option.isSome_of_eq_some valid
  | replace valid => exact Option.isSome_of_eq_some valid

/-- A push that is done points only valid names at hashes that are not zero. -/
lemma Changes.valid (changes : Changes repository (pushed objects references) after)
    (lists : Lists repository entries) {reference : Json × Bytes} (member : reference ∈ references)
    (nonzero : Hash.isZero reference.2 = false) : isValidName reference.1 := by
  obtain ⟨_, _, _, _, _, change⟩ := changes.reference lists member
  exact change.valid_of_nonzero nonzero

/-- An update touches nothing but the references. -/
lemma Change.spare (change : repository.Change (ofChange key hash) after sent) :
    after = { repository with references := after.references } := by
  cases zero : Hash.isZero hash with
  | true =>
    rw [ofChange_of_zero zero] at change
    cases change with
    | read reading => cases reading
    | erase => rfl
  | false =>
    rw [ofChange_of_nonzero zero] at change
    cases change with
    | read reading => cases reading
    | insert => rfl
    | replace => rfl

/-- Updates of references change nothing else. -/
lemma Changes.spare (changes : Changes repository (updates texts) after) :
    after = { repository with references := after.references } := by
  induction texts generalizing repository with
  | nil =>
    cases changes
    rfl
  | cons text rest ih =>
    cases changes with
    | cons change changes => rw [ih changes, Change.spare change]

/-- Updates that are made once more find what the last of them is. -/
lemma lastTarget_again (target : Option Bytes) (hashes : List Bytes) :
    lastTarget (lastTarget target hashes) hashes = lastTarget target hashes := by
  unfold lastTarget
  cases hashes.getLast? <;> rfl

/-- Done once more, updates leave every reference where it points. -/
lemma Changes.target?_again (first : Changes repository (updates texts) mid)
    (second : Changes mid (updates texts) after) : after.target? = mid.target? := by
  obtain ⟨_, told⟩ := first.retargets
  obtain ⟨_, told'⟩ := second.retargets
  funext name
  rw [foldlM_retarget (told' name), foldlM_retarget (told name)]
  exact lastTarget_again _ _

/-- A push that is done leaves its objects there. -/
lemma Changes.holds (changes : Changes repository (pushed objects references) after)
    {object : Bytes × Bytes} (member : object ∈ objects) :
    (⟨object.1, object.2⟩ : StoredObject).Addressed after.algorithm ∧ after.hasObject object.1 := by
  have algorithm : after.algorithm = repository.algorithm := changes.fixed.2
  obtain ⟨takes, changes⟩ := changes_pushed_iff.1 changes.by_texts
  obtain ⟨kept, _⟩ := changes.retargets
  refine ⟨algorithm ▸ takes.addressed object member, ?_⟩
  rw [hasObject_of_objects kept, hasObject_iff_mem, objectHashes_addObjects]
  exact List.mem_append_right _ (List.mem_map_of_mem member)

/-- A push that is done once more has no objects, and leaves every name where it was left before. -/
lemma Changes.again (first : Changes repository (pushed objects references) mid)
    (second : Changes mid (pushed objects references) after) :
    objects = [] ∧ after = { mid with references := after.references } ∧
      after.target? = mid.target? := by
  have none : objects = [] := by
    refine List.eq_nil_iff_forall_not_mem.2 fun object member => ?_
    obtain ⟨takes, _⟩ := changes_pushed_iff.1 second.by_texts
    exact takes.fresh object member (hasObject_iff_mem.1 (first.holds member).2)
  subst none
  obtain ⟨_, first⟩ := changes_pushed_iff.1 first.by_texts
  obtain ⟨_, second⟩ := changes_pushed_iff.1 second.by_texts
  rw [addObjects_nil] at first second
  exact ⟨rfl, second.spare, first.target?_again second⟩

/-- Updates that delete nothing can be made if each points a name that is not empty at something stored. -/
lemma isSome_foldlM_retarget {stored : Bytes → Bool} {target : Option Bytes} {hashes : List Bytes}
    (nonzero : ∀ hash ∈ hashes, Hash.isZero hash = false) :
    (hashes.foldlM (retarget stored name) target).isSome ↔ ∀ hash ∈ hashes, name ≠ "" ∧ stored hash := by
  induction hashes generalizing target with
  | nil => simp [pure]
  | cons hash rest ih =>
    obtain ⟨here, nonzero⟩ := List.forall_mem_cons.1 nonzero
    rw [List.foldlM_cons, retarget, if_neg (by simp [here]), List.forall_mem_cons]
    by_cases kept : name ≠ "" ∧ stored hash
    · rw [if_pos kept]
      exact (ih nonzero).trans (and_iff_right kept).symm
    · rw [if_neg kept]
      exact iff_of_false Bool.false_ne_true fun all => kept all.1

/-- The updates of a name are the hashes that are given for it. -/
lemma mem_updatesOf : hash ∈ updatesOf name texts ↔ (name, hash) ∈ texts := by
  simp [updatesOf]

/-- The positions of the rows and their names. -/
def slots (repository : Repository) : List (Nat × String) :=
  repository.references.map fun row => (row.position, row.name)

/-- A row is told by its slot and by what its name points at. -/
lemma Lists.references_eq (lists : Lists repository entries) :
    repository.references =
      repository.slots.map fun slot => ⟨slot.1, slot.2, (repository.target? slot.2).getD Hash.zero⟩ := by
  rw [slots, List.map_map]
  refine ((List.map_congr_left fun row member => ?_).trans (List.map_id _)).symm
  have found : repository.findReference? row.name = some row :=
    (Keys.find?_key_iff lists.nodup_names).2 ⟨member, rfl⟩
  rw [Function.comp_apply, target?_of_find? found]
  rfl

/-- Names that point at something keep their slots when they are pointed elsewhere. -/
lemma Changes.slots (changes : Changes repository (updates texts) after)
    (nonzero : ∀ text ∈ texts, Hash.isZero text.2 = false)
    (pointed : ∀ text ∈ texts, (repository.target? text.1).isSome) : after.slots = repository.slots := by
  induction texts generalizing repository with
  | nil =>
    cases changes
    rfl
  | cons text rest ih =>
    obtain ⟨name, hash⟩ := text
    obtain ⟨here, nonzero⟩ := List.forall_mem_cons.1 nonzero
    obtain ⟨present, pointed⟩ := List.forall_mem_cons.1 pointed
    cases changes with
    | cons change changes =>
      have change : repository.Change (ofChange (.string name) hash) _ _ := change
      rw [ofChange_of_nonzero here] at change
      cases change with
      | read reading => cases reading
      | insert valid _ _ fresh =>
        obtain ⟨e, _⟩ := eq_of_validName? valid
        cases e
        rw [target?, fresh] at present
        cases present
      | replace valid _ _ found =>
        obtain ⟨e, _⟩ := eq_of_validName? valid
        cases e
        have still : ∀ text ∈ rest,
            ((repository.replaceReference name hash).target? text.1).isSome := fun text member => by
          rw [target?_replace found, Function.update_apply]
          split
          case isTrue => rfl
          case isFalse => exact pointed text member
        rw [ih changes nonzero still]
        simp only [Repository.slots, replaceReference, List.map_map]
        refine List.map_congr_left fun row _ => ?_
        rw [Function.comp_apply]
        split <;> rfl

/-- Updates that delete nothing can be made once more, and then change nothing. -/
lemma Changes.again_of_nonzero (lists : Lists mid entries)
    (nonzero : ∀ text ∈ texts, Hash.isZero text.2 = false)
    (first : Changes repository (updates texts) mid) : Changes mid (updates texts) mid := by
  obtain ⟨kept, told⟩ := first.retargets
  have nonzero' (name : String) : ∀ hash ∈ updatesOf name texts, Hash.isZero hash = false :=
    fun hash member => nonzero _ (mem_updatesOf.1 member)
  obtain ⟨after, second⟩ := lists.changes_of_retarget fun name => by
    rw [isSome_foldlM_retarget (nonzero' name), hasObject_of_objects kept]
    exact (isSome_foldlM_retarget (nonzero' name)).1 (Option.isSome_of_eq_some (told name))
  have pointed : ∀ text ∈ texts, (mid.target? text.1).isSome := fun text member => by
    have some : updatesOf text.1 texts ≠ [] := List.ne_nil_of_mem (mem_updatesOf.2 member)
    have last := nonzero' text.1 _ (List.getLast_mem some)
    rw [foldlM_retarget (told text.1), lastTarget, List.getLast?_eq_some_getLast some]
    dsimp only
    rw [if_neg (by simp [last])]
    rfl
  -- the rows of both are told by the same slots and the same targets
  have same : after.references = mid.references := by
    rw [(second.lists lists).references_eq, lists.references_eq, second.slots nonzero pointed,
      first.target?_again second]
  have unchanged : after = mid := by
    rw [second.spare, same]
  rwa [unchanged] at second

/-- Done once more, a push without deletions changes nothing. -/
lemma Changes.pushed_again (lists : Lists repository entries)
    (nonzero : ∀ reference ∈ references, Hash.isZero reference.2 = false)
    (first : Changes repository (pushed [] references) mid) : Changes mid (pushed [] references) mid := by
  have textual : textual (plainly references) = references :=
    textual_plainly fun reference member => first.valid lists member (nonzero reference member)
  have nonzero' : ∀ text ∈ plainly references, Hash.isZero text.2 = false := by
    intro text listed
    obtain ⟨reference, member, rfl⟩ := List.mem_map.1 listed
    exact nonzero reference member
  have lists' := first.lists lists
  obtain ⟨_, updates⟩ := changes_pushed_iff.1 first.by_texts
  have again := Changes.again_of_nonzero lists' nonzero' updates
  rw [← textual]
  refine changes_pushed_iff.2 ⟨takes_nil, ?_⟩
  rwa [addObjects_nil]

/-- A push of an object that is there is refused. -/
lemma run_push_of_present {work : Work Repository} {rest : List (Bytes × Bytes)}
    (addressed : (⟨hash, data⟩ : StoredObject).Addressed work.content.algorithm)
    (there : work.content.hasObject hash) :
    (push ((hash, data) :: rest) references).run work =
      (.error (.rejected (.objectAlreadyExists hash)), work) := by
  obtain ⟨full, nonzero, digest⟩ := addressed
  have refused : (putObject hash data).run work =
      (.error (.rejected (.objectAlreadyExists hash)), work) := by
    rw [putObject, run_bind_of_ok (run_content work), if_neg (by simpa using full),
      if_neg (by simp [nonzero]), if_neg (by simpa using digest), if_pos there]
    rfl
  have first : (RepositoryCall.put hash data).perform.run work =
      (.error (.rejected (.objectAlreadyExists hash)), work) := run_bind_of_error refused
  exact run_push_of_error (.inl (List.cons_ne_nil _ _)) (run_bind_of_error first)

/-- Payloads under their digests. -/
def digested (algorithm : Algorithm) (payloads : List Bytes) : List (Bytes × Bytes) :=
  payloads.map fun data => (Hash.digest algorithm data, data)

/-- The objects whose hashes are not listed. -/
def missing (repository : Repository) (objects : List (Bytes × Bytes)) : List (Bytes × Bytes) :=
  objects.filter fun object => object.1 ∉ repository.objectHashes

/-- Payloads under their digests are addressed, if they can be stored. -/
lemma addressed_digested {algorithm : Algorithm} {payloads : List Bytes}
    (storable : ∀ data ∈ payloads, data ≠ [] ∧ Hash.digest algorithm data ≠ Hash.zero) :
    ∀ object ∈ digested algorithm payloads,
      (⟨object.1, object.2⟩ : StoredObject).Addressed algorithm := by
  intro object listed
  obtain ⟨data, member, rfl⟩ := List.mem_map.1 listed
  obtain ⟨full, nonzero⟩ := storable data member
  refine ⟨full, ?_, rfl⟩
  rwa [← Bool.not_eq_true, Hash.isZero_iff (Hash.length_digest algorithm data)]

section Missing

variable (addressed : ∀ object ∈ objects,
  (⟨object.1, object.2⟩ : StoredObject).Addressed repository.algorithm)

include addressed

/-- Addressed objects are taken if no two have one hash and none of the hashes is listed. -/
lemma takes_iff :
    Takes repository objects ↔
      (objects.map (·.1)).Nodup ∧ ∀ hash ∈ objects.map (·.1), hash ∉ repository.objectHashes := by
  rw [List.forall_mem_map]
  exact ⟨fun takes => ⟨takes.distinct, takes.fresh⟩,
    fun ⟨distinct, fresh⟩ => ⟨addressed, fresh, distinct⟩⟩

/-- The objects that are missing are taken. -/
lemma takes_missing (distinct : (objects.map (·.1)).Nodup) :
    Takes repository (repository.missing objects) where
  addressed object member := addressed object (List.mem_of_mem_filter member)
  fresh _ member := of_decide_eq_true (List.mem_filter.1 member).2
  distinct := distinct.sublist (List.filter_sublist.map _)

omit addressed in
/-- The objects that are missing are all that has to be added. -/
lemma hasObject_addMissing (among : hash ∈ objects.map (·.1)) :
    (repository.addObjects (repository.missing objects)).hasObject hash := by
  rw [hasObject_iff_mem, objectHashes_addObjects]
  by_cases listed : hash ∈ repository.objectHashes
  · exact List.mem_append_left _ listed
  · obtain ⟨object, member, rfl⟩ := List.mem_map.1 among
    have kept : object ∈ repository.missing objects :=
      List.mem_filter.2 ⟨member, decide_eq_true listed⟩
    exact List.mem_append_right _ (List.mem_map_of_mem kept)

/-- A push of the missing objects, and of references to any of the objects, is accepted. -/
lemma accepts_missing (distinct : (objects.map (·.1)).Nodup)
    (pointed : ∀ text ∈ texts, text.1 ≠ "" ∧ text.2 ∈ objects.map (·.1))
    (full : repository.missing objects ≠ [] ∨ texts ≠ []) :
    Accepts repository (repository.missing objects) texts where
  full := full
  takes := takes_missing addressed distinct
  updates name := by
    have nonzero : ∀ hash ∈ updatesOf name texts, Hash.isZero hash = false := by
      intro hash update
      obtain ⟨_, among⟩ := pointed _ (mem_updatesOf.1 update)
      obtain ⟨object, member, rfl⟩ := List.mem_map.1 among
      exact (addressed object member).nonzero
    rw [isSome_foldlM_retarget nonzero]
    intro hash member
    obtain ⟨full, among⟩ := pointed _ (mem_updatesOf.1 member)
    exact ⟨full, hasObject_addMissing among⟩

end Missing

end Repository

/-- A repository that a history leaves lists what the operations committed on it make of a plain list. -/
lemma History.lists {actions : List Action} {key : Json} {repository : Repository}
    (present : (ofActions actions).work.content.lookup? key = some repository) :
    repository.Lists (SwapList.replay (callsOn repository.name (ofActions actions).calls)) :=
  invariant Repository.lists_invariant actions repository
    (Keys.mem_of_find? (Store.lookup?_iff.1 present).2).1

open Repository in
/-- In every history a push that is done and is then tried once more either fails and changes nothing, or
ends with the same objects and with every name where it was, and nothing else changed. It fails on its
first object where it has one. Where it has none and deletes nothing it is done, and leaves the store as it
was. -/
theorem push_retried (actions : List Action) (branch : String) (key : Json)
    (objects : List (Bytes × Bytes)) (references : List (Json × Bytes)) (answer : Answer)
    (left : Work Store)
    (done : ((Call.inRepository key (.push objects references)).perform branch).run
      (History.ofActions actions).work = (.ok answer, left)) :
    let again := ((Call.inRepository key (.push objects references)).perform branch).run left
    ((∃ failure, again.1 = .error failure) ∧ again.2.content = left.content ∧
        again.2.events = left.events ∨
      again.1 = .ok .done ∧ ∃ before after, left.content.lookup? key = some before ∧
        again.2.content = left.content.replace after ∧
        after = { before with references := after.references } ∧ after.target? = before.target?) ∧
    (∀ hash data rest, objects = (hash, data) :: rest →
      again.1 = .error (.rejected (.objectAlreadyExists hash))) ∧
    (objects = [] → (∀ reference ∈ references, Hash.isZero reference.2 = false) →
      again.1 = .ok .done ∧ again.2.content = left.content) := by
  intro again
  have traced := History.traced actions
  obtain ⟨repository, present⟩ : ∃ repository,
      (History.ofActions actions).work.content.lookup? key = some repository := by
    by_contra missing
    have missing := Option.eq_none_iff_forall_ne_some.2 (not_exists.1 missing)
    cases (run_inRepository_none missing).symm.trans done
  have lists := History.lists present
  obtain ⟨full, before, first, replaced, here⟩ := changes_of_pushed present done
  have distinct : left.content.names.Nodup := by
    rw [replaced, Store.names_replace]
    exact traced.distinct
  refine ⟨?_, ?_, ?_⟩
  · rcases ran : again with ⟨failure | answer', after⟩
    · rcases run_push_cases distinct ran with ⟨_, _, content, events⟩ | ⟨_, _, _, e, _⟩
      · exact .inl ⟨⟨failure, rfl⟩, content, events⟩
      · cases e
    · obtain ⟨_, after', second, replaced', _⟩ := changes_of_pushed here ran
      obtain ⟨_, spared, same⟩ := first.again second
      obtain ⟨_, ran', _⟩ := second.push full here
      cases ran'.symm.trans ran
      exact .inr ⟨rfl, before, after', here, replaced', spared, same⟩
  · rintro hash data rest rfl
    obtain ⟨addressed, there⟩ := first.holds List.mem_cons_self
    let inside : Work Repository := { left with content := before }
    have refused : (push ((hash, data) :: rest) references).run inside = _ :=
      run_push_of_present addressed there
    exact congrArg Prod.fst (Store.run_within_some here (run_bind_of_error refused))
  · rintro rfl nonzero
    obtain ⟨_, ran, replaced'⟩ := (first.pushed_again lists nonzero).push full here
    obtain ⟨_, found⟩ := Store.lookup?_iff.1 here
    rw [Store.replace_self distinct found] at replaced'
    exact ⟨congrArg Prod.fst ran, (congrArg (·.2.content) ran).trans replaced'⟩

namespace History

/-- What is left by a push after the short history, and by the same push once more. -/
def sampleTwice (objects : List (Bytes × Bytes)) (references : List (String × Bytes)) :
    (Except Failure Answer × Work Store) × (Except Failure Answer × Work Store) :=
  let first := sampleBatch objects references
  (first, (Repository.pushInto "main" (.string "depot") objects references).run first.2)

/-- A push with an object fails on it the second time, and one that points two names is done again and
changes nothing. -/
theorem push_retried_sample :
    ((sampleTwice [(Hash.digest .sha256 [2], [2])]
        [("c", Hash.digest .sha256 [2]), ("b", Hash.zero)]).1.1.isOk ∧
      (sampleTwice [(Hash.digest .sha256 [2], [2])]
        [("c", Hash.digest .sha256 [2]), ("b", Hash.zero)]).2.1 =
          .error (.rejected (.objectAlreadyExists (Hash.digest .sha256 [2])))) ∧
    (sampleTwice [] [("a", Hash.digest .sha256 [1]), ("b", Hash.digest .sha256 [1])]).1.1.isOk ∧
      (sampleTwice [] [("a", Hash.digest .sha256 [1]), ("b", Hash.digest .sha256 [1])]).2.2.content =
        (sampleTwice [] [("a", Hash.digest .sha256 [1]), ("b", Hash.digest .sha256 [1])]).1.2.content := by
  constructor
  · have ends : (sampleTwice [(Hash.digest .sha256 [2], [2])]
        [("c", Hash.digest .sha256 [2]), ("b", Hash.zero)]).1.1.isOk := by decide +kernel
    refine ⟨ends, ?_⟩
    unfold sampleTwice at ends ⊢
    rcases ran : sampleBatch [(Hash.digest .sha256 [2], [2])]
      [("c", Hash.digest .sha256 [2]), ("b", Hash.zero)] with ⟨_ | answer, left⟩
    · rw [ran] at ends
      cases ends
    · obtain ⟨_, fails, _⟩ := push_retried sample "main" (.string "depot") _ _ answer left ran
      exact fails _ _ [] rfl
  · have ends : (sampleTwice []
        [("a", Hash.digest .sha256 [1]), ("b", Hash.digest .sha256 [1])]).1.1.isOk := by decide +kernel
    refine ⟨ends, ?_⟩
    unfold sampleTwice at ends ⊢
    rcases ran : sampleBatch [] [("a", Hash.digest .sha256 [1]), ("b", Hash.digest .sha256 [1])] with
      ⟨_ | answer, left⟩
    · rw [ran] at ends
      cases ends
    · have nonzero : ∀ reference ∈ Repository.textual
          [("a", Hash.digest .sha256 [1]), ("b", Hash.digest .sha256 [1])],
          Hash.isZero reference.2 = false := by decide +kernel
      obtain ⟨_, _, unchanged⟩ := push_retried sample "main" (.string "depot") _ _ answer left ran
      exact (unchanged rfl nonzero).2

end History

open Repository in
/-- In every history some payloads can be pushed under their digests, none of them zero, exactly if the
digests differ and none of them is listed, and then they are listed next. If they differ, a push of those
that are not listed, with references of valid names to any of them, is done unless it is empty, and then
all of the payloads are there. -/
theorem listed_hashes_tell_missing (actions : List Action) (branch : String) (key : Json)
    (repository : Repository) (payloads : List Bytes)
    (present : (History.ofActions actions).work.content.lookup? key = some repository)
    (storable : ∀ data ∈ payloads,
      data ≠ [] ∧ Hash.digest repository.algorithm data ≠ Hash.zero) :
    let push (objects : List (Bytes × Bytes)) (references : List (Json × Bytes)) :=
      ((Call.inRepository key (.push objects references)).perform branch).run
        (History.ofActions actions).work
    let objects := digested repository.algorithm payloads
    let hashes := objects.map (·.1)
    (payloads ≠ [] → ((∃ answer, (push objects []).1 = .ok answer) ↔
      hashes.Nodup ∧ ∀ hash ∈ hashes, hash ∉ repository.objectHashes)) ∧
    ((∃ answer, (push objects []).1 = .ok answer) →
      ∃ after, (push objects []).2.content.lookup? key = some after ∧
        after.objectHashes = repository.objectHashes ++ hashes) ∧
    (hashes.Nodup → ∀ references : List (Json × Bytes),
      (∀ reference ∈ references, isValidName reference.1 ∧ reference.2 ∈ hashes) →
      repository.missing objects ≠ [] ∨ references ≠ [] →
      (push (repository.missing objects) references).1 = .ok .done ∧
        ∃ after, (push (repository.missing objects) references).2.content.lookup? key = some after ∧
          ∀ hash ∈ hashes, after.hasObject hash) := by
  intro push objects hashes
  have lists := History.lists present
  have addressed := addressed_digested storable
  refine ⟨fun some => ?_, ?_, ?_⟩
  · have full : objects ≠ [] := by simpa [objects, digested] using some
    rw [← takes_iff addressed]
    constructor
    · rintro ⟨answer, pushed⟩
      have ran : (pushInto branch key objects []).run _ = (.ok answer, _) := Prod.ext pushed rfl
      exact (accepts_of_push present ran).1.takes
    · intro takes
      have accepts : Accepts repository objects [] := ⟨.inl full, takes, fun _ => rfl⟩
      obtain ⟨left, pushed⟩ := accepts.push lists present
      exact ⟨_, congrArg Prod.fst pushed⟩
  · rintro ⟨answer, pushed⟩
    have ran : (pushInto branch key objects []).run _ = (.ok answer, _) := Prod.ext pushed rfl
    obtain ⟨_, after, here, kept, _⟩ := accepts_of_push present ran
    refine ⟨after, here, ?_⟩
    rw [objectHashes, kept]
    exact objectHashes_addObjects
  · intro distinct references pointed full
    have textual : textual (plainly references) = references :=
      textual_plainly fun reference member => (pointed reference member).1
    have pointed' : ∀ text ∈ plainly references, text.1 ≠ "" ∧ text.2 ∈ hashes := by
      intro text listed
      obtain ⟨reference, member, rfl⟩ := List.mem_map.1 listed
      obtain ⟨valid, among⟩ := pointed reference member
      exact ⟨(eq_plain_of_valid valid).2, among⟩
    have accepts : Accepts repository (repository.missing objects) (plainly references) :=
      accepts_missing addressed distinct pointed' (full.imp_right (by simp [plainly]))
    obtain ⟨left, pushed⟩ := accepts.push lists present
    obtain ⟨_, after, here, kept, _⟩ := accepts_of_push present pushed
    unfold pushInto at pushed
    rw [textual] at pushed
    have ran : push (repository.missing objects) references = (.ok .done, left) := pushed
    rw [ran]
    refine ⟨rfl, after, here, fun hash member => ?_⟩
    rw [hasObject_of_objects kept]
    exact hasObject_addMissing member

namespace History

/-- Of two payloads the second is missing after the short history. Both cannot be pushed, but a push of the
second with references to both is done. -/
theorem listed_hashes_tell_missing_sample :
    let objects := Repository.digested .sha256 [[1], [2]]
    let references := [("c", Hash.digest .sha256 [1]), ("d", Hash.digest .sha256 [2])]
    sampleRepository.missing objects = [(Hash.digest .sha256 [2], [2])] ∧
      (¬ ∃ answer, (sampleBatch objects []).1 = .ok answer) ∧
      (sampleBatch (sampleRepository.missing objects) references).1 = .ok .done := by
  intro objects references
  have present : (ofActions sample).work.content.lookup? (.string "depot") = some sampleRepository := by
    decide +kernel
  have storable : ∀ data ∈ ([[1], [2]] : List Bytes),
      data ≠ [] ∧ Hash.digest .sha256 data ≠ Hash.zero := by decide +kernel
  have left : sampleRepository.missing objects = [(Hash.digest .sha256 [2], [2])] := by decide +kernel
  have distinct : (objects.map (·.1)).Nodup := by decide +kernel
  have pointed : ∀ reference ∈ Repository.textual references,
      isValidName reference.1 ∧ reference.2 ∈ objects.map (·.1) := by decide +kernel
  obtain ⟨whole, _, part⟩ := listed_hashes_tell_missing sample "main" (.string "depot")
    sampleRepository [[1], [2]] present storable
  refine ⟨left, fun pushed => ?_, ?_⟩
  · obtain ⟨_, fresh⟩ := (whole (List.cons_ne_nil _ _)).1 pushed
    exact fresh (Hash.digest .sha256 [1]) List.mem_cons_self List.mem_cons_self
  · exact (part distinct (Repository.textual references) pointed (.inr (List.cons_ne_nil _ _))).1

end History

end ObjectDepot
