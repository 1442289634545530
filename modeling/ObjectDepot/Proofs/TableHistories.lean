import ObjectDepot.Proofs.Histories
import ObjectDepot.Proofs.SessionOperations

/-!
# Histories of tables

Consistent tables stand for a store (`Tables.representation`), and all that is done to them does to the
store what it does there (`Tables.refines`). So whatever actions begin on empty tables, the tables to
which they lead are consistent and stand for the store of the same history, and the same events were sent
(`Tables.ofActions_stands`).
-/

namespace ObjectDepot.Tables

open Procedure Table ObjectDepot.Representation

/-- How tables stand for a store. -/
def representation : Representation Tables Store where
  view := store
  Sound := Consistent
  Keeps _ _ := True
  refl _ _ := trivial
  trans _ _ := trivial

variable {α : Type} {tables : Tables}

/-- What a procedure does to the row of a repository it does to the repository. -/
lemma within_implements {p : Procedure Session α} {q : Procedure Repository α} (tables : Tables)
    (key : Json) (implements : ∀ session, Session.representation.Implements session p q) :
    representation.Implements tables (within key p) (Store.within key q) := by
  intro consistent events log
  have found := consistent.lookup?_store key
  cases named : tables.lookup? key with
  | none =>
    rw [named] at found
    refine ⟨_, ⟨tables, events, log⟩, ?_, Store.run_within_none found, consistent, trivial⟩
    simp only [within, ExceptT.run_mk, named]
  | some row =>
    rw [named] at found
    obtain ⟨outcome, after, ran, ran', sound, keeps⟩ :=
      implements ⟨tables, row⟩ ⟨consistent, consistent.mem_of_lookup? named⟩ events log
    refine ⟨outcome, { after with content := after.content.tables }, ?_, ?_, sound.tables, trivial⟩
    · simp only [within, ExceptT.run_mk, named, ran]
    · have stored : after.content.tables.store = tables.store.replace after.content.repository :=
        keeps.store
      have inside : q.run { (⟨tables.store, events, log⟩ : Work Store) with
        content := tables.record row } = (outcome, after.map Session.repository) := ran'
      rw [Work.map, show representation.view _ = _ from stored]
      exact Store.run_within_some found inside

variable {row : RepositoryRow}

/-- The key of a new row is free. -/
lemma Consistent.new_key (consistent : tables.Consistent) :
    tables.repositories.serial + 1 ∉ tables.repositories.rows.map (·.id) := by
  intro member
  obtain ⟨old, present, same⟩ := List.mem_map.1 member
  exact Nat.not_succ_le_self _ (same ▸ consistent.repositories.bound old present)

/-- Nothing belongs to a repository that is not there. -/
lemma Consistent.nothing_of (consistent : tables.Consistent) {id : Nat}
    (absent : id ∉ tables.repositories.rows.map (·.id)) :
    tables.objectsOf id = [] ∧ tables.referencesOf id = [] := by
  constructor
  · refine List.eq_nil_iff_forall_not_mem.2 fun object member => absent ?_
    obtain ⟨stored, here⟩ := consistent.objects.mem_select.1 member
    exact beq_iff_eq.1 here ▸ consistent.objectKeys object stored
  · refine List.eq_nil_iff_forall_not_mem.2 fun reference member => absent ?_
    obtain ⟨stored, here⟩ := consistent.references.mem_select.1 member
    exact beq_iff_eq.1 here ▸ consistent.referenceKeys reference stored

/-- A repository is added with a name that is new. -/
lemma Consistent.insertRepository (consistent : tables.Consistent)
    (fresh : tables.store.find? row.name = none) : (tables.insertRepository row).Consistent where
  repositories := consistent.repositories.insert row
  objects := consistent.objects
  references := consistent.references
  names := by
    have absent := Keys.find?_key_none.1 fresh
    rw [show tables.store.repositories.map _ = _ from consistent.names_store] at absent
    simpa [Tables.insertRepository, Table.insert, List.nodup_append] using
      ⟨consistent.names, by simpa using absent⟩
  hashes := consistent.hashes
  referenceNames := consistent.referenceNames
  positions := consistent.positions
  objectKeys object member := by
    exact List.map_append ▸ List.mem_append_left _ (consistent.objectKeys object member)
  referenceKeys reference member := by
    exact List.map_append ▸ List.mem_append_left _ (consistent.referenceKeys reference member)

/-- The store has the new repository last, with nothing in it. -/
lemma Consistent.store_insertRepository (consistent : tables.Consistent)
    (fresh : tables.store.find? row.name = none) : (tables.insertRepository row).store =
    ⟨tables.store.repositories ++ [⟨row.name, row.algorithm, row.defaultBranch, row.owner,
      row.pendingOwner, [], []⟩]⟩ := by
  obtain ⟨objects, references⟩ := consistent.nothing_of consistent.new_key
  have created : (tables.insertRepository row).record ⟨tables.repositories.serial + 1, row⟩ =
      ⟨row.name, row.algorithm, row.defaultBranch, row.owner, row.pendingOwner, [], []⟩ := by
    rw [record, show (tables.insertRepository row).objectsOf _ = [] from objects,
      show (tables.insertRepository row).referencesOf _ = [] from references]
    rfl
  rw [(consistent.insertRepository fresh).store, consistent.store, ← created]
  exact congrArg Store.mk List.map_append

/-- A repository is created in the tables as in the store. -/
lemma createRepository_implements (tables : Tables) (branch : String) (name owner algorithm : Json) :
    representation.Implements tables (createRepository branch name owner algorithm)
      (Store.createRepository branch name owner algorithm) := by
  unfold createRepository Store.createRepository
  cases validName? name with
  | none => exact .reject _
  | some text =>
    refine .bind (.orFault _) fun algorithm tables _ _ => .content_bind fun consistent => ?_
    rw [show (representation.view tables).find? text = _ from consistent.find?_store text]
    cases found : tables.repositories.first? (·.name == text) with
    | some other =>
      cases lookupKey? owner with
      | none => exact .reject _
      | some account => exact .reject _
    | none =>
      cases lookupKey? owner with
      | none => exact .reject _
      | some account =>
        have fresh : tables.store.find? text = none := by rw [consistent.find?_store, found, Option.map_none]
        refine .bind (.update (fun consistent => ?_) (fun consistent => ?_) fun _ => trivial) ?_
        · exact consistent.store_insertRepository fresh
        · exact consistent.insertRepository fresh
        · exact fun _ _ _ _ => (Implements.note _).bind fun _ _ _ _ => .pure _

/-- Every operation does to consistent tables what it does to the store for which they stand. -/
theorem refines : StoreBackend.Refines Session.representation representation where
  within tables key implements := within_implements tables key implements
  createRepository := createRepository_implements
  shown _ _ := rfl

variable {work after : Work Tables}

/-- A request to consistent tables is answered as one to the store for which they stand. -/
lemma respond_stands {service : Http.Service} {request : Http.Request} {response : Http.Response}
    (consistent : work.content.Consistent)
    (ran : (service.respond request).run work = (response, after)) :
    (service.respond request).run (work.map store) = (response, after.map store) ∧
      after.content.Consistent := by
  obtain ⟨ran', there, _⟩ := Http.Service.respond_implements Session.refines refines consistent ran
  exact ⟨ran', there⟩

/-- What an action makes of consistent tables stands for what it makes of the store. -/
lemma act_stands (action : Action) (consistent : work.content.Consistent) :
    (action.act work).content.Consistent ∧
      (action.act work).map store = action.act (work.map store) := by
  cases action with
  | perform branch step =>
    obtain ⟨outcome, after, ran, ran', there, _⟩ :=
      step.perform_implements Session.refines refines work.content branch consistent work.events work.log
    have ran'' : (step.perform branch).run (work.map store) = (outcome, after.map store) := ran'
    have left : (Action.perform branch step).act work = after := congrArg Prod.snd ran
    rw [left]
    exact ⟨there, (congrArg Prod.snd ran'').symm⟩
  | ask service request =>
    rcases ran : (service.respond request).run work with ⟨response, after⟩
    obtain ⟨ran', there⟩ := respond_stands consistent ran
    have left : (Action.ask service request).act work = after := congrArg Prod.snd ran
    rw [left]
    exact ⟨there, (congrArg Prod.snd ran').symm⟩

/-- Empty tables stand for the empty store. -/
lemma map_start : (Work.start empty).map store = Work.start .empty :=
  congrArg Work.start consistent_empty.store

/-- What actions make of empty tables. -/
def ofActions (actions : List Action) : Work Tables :=
  actions.foldl (fun work action => action.act work) (Work.start empty)

/-- Whatever actions begin on empty tables, the tables to which they lead are consistent, and stand for the
store to which they lead from the empty store. The same events were sent, and the same log was
written. -/
theorem ofActions_stands (actions : List Action) :
    (ofActions actions).content.Consistent ∧
      (ofActions actions).map store = (History.ofActions actions).work := by
  -- the actions act on whatever tables there are, not only on the empty ones
  suffices all : ∀ (work : Work Tables) (history : History), work.content.Consistent →
      work.map store = history.work →
      let later := actions.foldl (fun work action => action.act work) work
      later.content.Consistent ∧ later.map store = (actions.foldl History.extend history).work from
    all (Work.start empty) .start consistent_empty map_start
  induction actions with
  | nil => exact fun _ _ consistent stands => ⟨consistent, stands⟩
  | cons action rest ih =>
    intro work history consistent stands
    obtain ⟨there, left⟩ := act_stands action consistent
    exact ih _ _ there (left.trans (congrArg action.act stands))

end ObjectDepot.Tables
