import Mathlib.Logic.Function.Basic
import ObjectDepot.Proofs.Addressing
import ObjectDepot.Proofs.ReferenceTable

/-!
# Following a repository by its events

A follower that knows only the events sent of a repository keeps a `Mirror` of it. `Mirrors.changed`
says that every change sends what the mirror needs, and with the right hash before the change, so the
mirror shows the objects and the references at every point of a history.
-/

namespace ObjectDepot

open Procedure

/-- What a follower knows of a repository: the hashes of the objects, the oldest first, and the hash
that each reference points at. -/
structure Mirror where
  objects : List Bytes
  references : String → Option Bytes

namespace Mirror

/-- What is known before the first event. -/
def empty : Mirror := ⟨[], fun _ => none⟩

/-- What becomes known by an event. A reference that now points at the zero hash is gone. -/
def observe (mirror : Mirror) : Event → Mirror
  | .objectAdded _ hash => { mirror with objects := mirror.objects ++ [hash] }
  | .referenceChanged _ (.string name) hash _ =>
    { mirror with
      references :=
        Function.update mirror.references name (if hash = Hash.zero then none else some hash) }
  | .referenceChanged .. => mirror

/-- What is known after events. -/
def ofEvents (events : List Event) : Mirror :=
  events.foldl observe empty

/-- The events that fit what is known: the hash before a change is the known one, zero if there is
none, and only a known reference goes. -/
inductive Expects (mirror : Mirror) : Event → Prop where
  | object {repository : String} {hash : Bytes} :
    Expects mirror (.objectAdded repository hash)
  | reference {repository name : String} {hash previous : Bytes} :
    previous = (mirror.references name).getD Hash.zero →
    (hash = Hash.zero → mirror.references name ≠ none) →
    Expects mirror (.referenceChanged repository (.string name) hash previous)

/-- One more event is observed last. -/
lemma ofEvents_concat (events : List Event) (event : Event) :
    ofEvents (events ++ [event]) = (ofEvents events).observe event :=
  List.foldl_concat observe empty event events

end Mirror

/-- Events each of which fits what is known by those before it. -/
inductive Chained : List Event → Prop where
  | nil :
    Chained []
  | concat {events : List Event} {event : Event} :
    Chained events →
    (Mirror.ofEvents events).Expects event →
    Chained (events ++ [event])

/-- In a chain every event fits what was observed before it. -/
lemma Chained.expects {events front back : List Event} {event : Event} (chained : Chained events)
    (split : events = front ++ event :: back) : (Mirror.ofEvents front).Expects event := by
  -- the event is the last one, or it is among those before
  induction chained generalizing back with
  | nil => exact absurd split.symm (by simp)
  | concat _ fits ih =>
    rcases List.eq_nil_or_concat' back with rfl | ⟨middle, last, rfl⟩
    · obtain ⟨rfl, e⟩ := List.append_inj' split rfl
      cases e
      exact fits
    · rw [← List.cons_append, ← List.append_assoc] at split
      obtain ⟨e, _⟩ := List.append_inj' split rfl
      exact ih e

namespace Repository

/-- The hash that a name points at. -/
def target? (repository : Repository) (name : String) : Option Bytes :=
  (repository.findReference? name).map (·.hash)

variable {repository after : Repository} {entries : SwapList} {name : String} {hash data : Bytes}
  {row : Reference} {events sent : List Event} {call : RepositoryCall}

/-- A reference that is found points at its hash. -/
lemma target?_of_find? (found : repository.findReference? name = some row) :
    repository.target? name = some row.hash := by
  rw [target?, found, Option.map_some]

/-- A new reference points at its hash, and the others where they did. -/
lemma target?_insert (absent : repository.findReference? name = none) :
    (repository.insertReference name hash).target? =
      Function.update repository.target? name (some hash) := by
  funext other
  unfold target? findReference? insertReference
  rw [List.find?_append]
  by_cases same : other = name
  · subst same
    unfold findReference? at absent
    rw [absent, Function.update_self]
    simp
  · have apart : ([⟨repository.lastPosition + 1, name, hash⟩] : List Reference).find?
        (·.name == other) = none := by simpa using Ne.symm same
    rw [apart, Option.or_none, Function.update_of_ne same]

/-- A reference whose hash is replaced points at the new one, and the others stay. -/
lemma target?_replace (present : repository.findReference? name = some row) :
    (repository.replaceReference name hash).target? =
      Function.update repository.target? name (some hash) := by
  funext other
  have searched : (repository.replaceReference name hash).findReference? other =
      (repository.findReference? other).map fun row =>
        if row.name = name then { row with hash := hash } else row := by
    refine Keys.find?_map_of_key fun row => ?_
    split <;> rfl
  rw [target?, searched, Option.map_map]
  by_cases same : other = name
  · subst same
    obtain ⟨_, named⟩ := Keys.mem_of_find? present
    rw [present, Function.update_self, Option.map_some, Function.comp_apply, if_pos named]
  · rw [Function.update_of_ne same, target?]
    cases found : repository.findReference? other with
    | none => rfl
    | some row =>
      obtain ⟨_, rfl⟩ := Keys.mem_of_find? found
      rw [Option.map_some, Option.map_some, Function.comp_apply, if_neg same]

/-- A reference that is erased points nowhere, and the others where they did. -/
lemma target?_erase :
    (repository.eraseReference row).target? =
      Function.update repository.target? row.name none := by
  funext other
  -- the row that takes over a position keeps its name and its hash
  have searched : (repository.eraseReference row).target? other =
      ((repository.references.filter (·.name != row.name)).find? (·.name == other)).map (·.hash) := by
    have moved : (repository.eraseReference row).findReference? other =
        ((repository.references.filter (·.name != row.name)).find? (·.name == other)).map
          (moveLast repository.lastPosition row.position) := by
      refine Keys.find?_map_of_key fun kept => ?_
      split <;> rfl
    rw [target?, moved, Option.map_map]
    congr 1
    funext kept
    simp only [Function.comp_apply, moveLast]
    split <;> rfl
  rw [searched, List.find?_filter]
  by_cases same : other = row.name
  · subst same
    rw [Function.update_self, Option.map_eq_none_iff, List.find?_eq_none]
    intro kept _
    simp
  · rw [Function.update_of_ne same, target?, findReference?]
    congr 2
    funext kept
    by_cases named : kept.name = other
    · simp [named, same]
    · simp [named]

/-- The events sent of a repository show its objects and its references, and each fits what was known
before it. -/
structure Mirrors (repository : Repository) (events : List Event) : Prop where
  objects : (Mirror.ofEvents events).objects = repository.objectHashes
  references : (Mirror.ofEvents events).references = repository.target?
  chained : Chained events

/-- A change without an event leaves what is shown. -/
lemma Mirrors.kept (mirrors : Mirrors repository events) (objects : after.objects = repository.objects)
    (references : after.references = repository.references) : Mirrors after (events ++ []) := by
  have hashes : after.objectHashes = repository.objectHashes :=
    congrArg (List.map StoredObject.hash) objects
  have targets : after.target? = repository.target? := by
    funext name
    rw [target?, target?, findReference?, findReference?, references]
  rw [List.append_nil]
  exact ⟨mirrors.objects.trans hashes.symm, mirrors.references.trans targets.symm, mirrors.chained⟩

/-- An object that is put is mirrored. -/
lemma Mirrors.put (mirrors : Mirrors repository events) :
    Mirrors (repository.addObject hash data)
      (events ++ [.objectAdded repository.name hash]) := by
  have listed : (repository.addObject hash data).objectHashes =
    repository.objectHashes ++ [hash] := List.map_append
  refine ⟨?_, ?_, .concat mirrors.chained .object⟩
  · rw [Mirror.ofEvents_concat, listed, ← mirrors.objects]
    rfl
  · rw [Mirror.ofEvents_concat]
    exact mirrors.references

/-- A change of one reference is shown if its event tells what the reference pointed at. -/
lemma Mirrors.refer {previous : Bytes} (mirrors : Mirrors repository events)
    (objects : after.objects = repository.objects)
    (references : after.target? =
      Function.update repository.target? name (if hash = Hash.zero then none else some hash))
    (before : previous = (repository.target? name).getD Hash.zero)
    (known : hash = Hash.zero → repository.target? name ≠ none) :
    Mirrors after
      (events ++ [.referenceChanged repository.name (.string name) hash previous]) := by
  have hashes : after.objectHashes = repository.objectHashes :=
    congrArg (List.map StoredObject.hash) objects
  rw [← mirrors.references] at references before known
  refine ⟨?_, ?_, .concat mirrors.chained (.reference before known)⟩
  · rw [Mirror.ofEvents_concat, hashes, ← mirrors.objects]
    rfl
  · rw [Mirror.ofEvents_concat, references]
    rfl

/-- Every change sends the event that shows it, if what it deletes is named by a text. -/
lemma Mirrors.changed (mirrors : Mirrors repository events)
    (textual : ∀ key, call = .delete key → ∃ text, key = .string text)
    (change : repository.Change call after sent) : Mirrors after (events ++ sent) := by
  cases change with
  | put => exact mirrors.put
  | insert valid nonzero _ fresh =>
    obtain ⟨rfl, _⟩ := eq_of_validName? valid
    have set := Hash.ne_zero nonzero
    refine mirrors.refer rfl ?_ ?_ fun e => absurd e set
    · rw [if_neg set]
      exact target?_insert fresh
    · rw [target?, fresh]
      rfl
  | replace valid nonzero _ found =>
    obtain ⟨rfl, _⟩ := eq_of_validName? valid
    have set := Hash.ne_zero nonzero
    refine mirrors.refer rfl ?_ ?_ fun e => absurd e set
    · rw [if_neg set]
      exact target?_replace found
    · rw [target?_of_find? found]
      rfl
  | erase _ found =>
    -- a number finds the row that its digits name, but the event tells the number
    obtain ⟨text, rfl⟩ := textual _ rfl
    have found' : repository.findReference? text = some _ := found
    obtain ⟨_, rfl⟩ := Keys.mem_of_find? found'
    refine mirrors.refer rfl ?_ ?_ fun _ => ?_
    · rw [if_pos rfl]
      exact target?_erase
    · rw [target?_of_find? found']
      rfl
    · rw [target?_of_find? found']
      exact Option.some_ne_none _
  | read => exact mirrors.kept rfl rfl
  | branch => exact mirrors.kept rfl rfl
  | propose => exact mirrors.kept rfl rfl
  | accept => exact mirrors.kept rfl rfl

/-- In every history the events mirror a repository, if only texts were deleted. -/
lemma mirrors_invariant :
    Invariant fun repository calls events =>
      (∀ key, .delete key ∈ calls → ∃ text, key = .string text) → Mirrors repository events where
  created _ _ _ _ _ := ⟨rfl, rfl, .nil⟩
  changed repository before told call after sent mirrors change textual := by
    have earlier : ∀ key, .delete key ∈ before → ∃ text, key = .string text :=
      fun key member => textual key (List.mem_append_left _ member)
    refine (mirrors earlier).changed ?_ change
    rintro key rfl
    exact textual key (List.mem_append_right _ (List.mem_singleton_self _))

/-- What a name points at is what is listed with it. -/
lemma Lists.target?_iff (lists : Lists repository entries) :
    repository.target? name = some hash ↔ (name, hash) ∈ entries := by
  have numbered : (name, hash) ∈ (numberFrom 1 entries).map (fun row => (row.name, row.hash)) ↔
      (name, hash) ∈ entries := by rw [entries_numberFrom]
  rw [← numbered, target?, Option.map_eq_some_iff, List.mem_map]
  refine exists_congr fun row => ?_
  rw [findReference?, Keys.find?_key_iff lists.nodup_names, lists.rows.mem_iff, Prod.mk.injEq,
    and_assoc]

end Repository

/-- In every history in which whatever is deleted from a repository is named by a text, the events sent
of the repository show its objects in their order and its references with their hashes. Each change of a
reference tells the hash that was known before it, zero if none was, and only a known reference goes. -/
theorem events_mirror_repository (actions : List Action) (repository : Repository)
    (present : repository ∈ (History.ofActions actions).work.content.repositories)
    (textual : ∀ key, .delete key ∈ callsOn repository.name (History.ofActions actions).calls →
      ∃ text, key = .string text) :
    let events := eventsOf repository.name (History.ofActions actions).work.events
    (Mirror.ofEvents events).objects = repository.objectHashes ∧
      (∀ name hash, (Mirror.ofEvents events).references name = some hash ↔
        (name, hash) ∈ repository.listing.normal) ∧
      ∀ front back key hash previous,
        events = front ++ .referenceChanged repository.name key hash previous :: back →
        ∃ name, key = .string name ∧
          previous = ((Mirror.ofEvents front).references name).getD Hash.zero ∧
          (hash = Hash.zero → (Mirror.ofEvents front).references name ≠ none) := by
  have lists := History.invariant Repository.lists_invariant actions repository present
  have mirrors := History.invariant Repository.mirrors_invariant actions repository present textual
  refine ⟨mirrors.objects, ?_, ?_⟩
  · intro name hash
    rw [mirrors.references, lists.listing]
    exact lists.target?_iff
  · intro front back key hash previous split
    cases mirrors.chained.expects split with
    | reference before known => exact ⟨_, rfl, before, known⟩

/-- Whether what an operation deletes, if anything, is named by a text. -/
def RepositoryCall.deletesText : RepositoryCall → Bool
  | .delete (.string _) => true
  | .delete _ => false
  | _ => true

/-- A name that is a text is one. -/
lemma RepositoryCall.text_of_delete {key : Json} (h : (delete key).deletesText = true) :
    ∃ text, key = .string text := by
  cases key with
  | string text => exact ⟨text, rfl⟩
  | _ => cases h

/-- The events of the short history show its object and the one reference that is left. -/
theorem events_mirror_repository_sample :
    History.sampleRepository ∈ (History.ofActions History.sample).work.content.repositories ∧
      let events :=
        eventsOf History.sampleRepository.name (History.ofActions History.sample).work.events
      (Mirror.ofEvents events).objects = [Hash.digest .sha256 [1]] ∧
        (Mirror.ofEvents events).references "b" = some (Hash.digest .sha256 [1]) := by
  have present := History.mem_sample
  have checked : (callsOn "depot" (History.ofActions History.sample).calls).all
      RepositoryCall.deletesText = true := by decide +kernel
  have textual : ∀ key, .delete key ∈ callsOn "depot" (History.ofActions History.sample).calls →
      ∃ text, key = .string text :=
    fun _ member => RepositoryCall.text_of_delete (List.all_eq_true.1 checked _ member)
  have listed : ("b", Hash.digest .sha256 [1]) ∈ History.sampleRepository.listing.normal := by
    decide +kernel
  obtain ⟨objects, references, _⟩ :=
    events_mirror_repository History.sample History.sampleRepository present textual
  exact ⟨present, objects, (references _ _).2 listed⟩

end ObjectDepot
