import ObjectDepot.Proofs.Repositories
import ObjectDepot.Proofs.TableRows
import ObjectDepot.Tables.Session

/-!
# The constraints of the tables

`Tables.Consistent` lists what holds of the tables: keys grow, no two repositories share a name, within
a repository no two objects share a hash and no two references a name or a position, and every row names
a repository that is there. A session is `Sound` if its row is the one that is stored. Each statement
that the operations make of a sound session leaves a sound one, and is seen by the queries of its own
repository only (`Session.Keeps`).
-/

namespace ObjectDepot

open Table

namespace Tables

variable {tables : Tables}

/-- What holds of the tables of a store. -/
structure Consistent (tables : Tables) : Prop where
  repositories : tables.repositories.Ordered
  objects : tables.objects.Ordered
  references : tables.references.Ordered
  names : (tables.repositories.rows.map (·.value.name)).Nodup
  hashes : ∀ id, ((tables.objectsOf id).map (·.value.hash)).Nodup
  referenceNames : ∀ id, ((tables.referencesOf id).map (·.value.name)).Nodup
  positions : ∀ id, ((tables.referencesOf id).map (·.value.position)).Nodup
  objectKeys : ∀ row ∈ tables.objects.rows,
    row.value.repository ∈ tables.repositories.rows.map (·.id)
  referenceKeys : ∀ row ∈ tables.references.rows,
    row.value.repository ∈ tables.repositories.rows.map (·.id)

/-- The tables without rows are consistent. -/
lemma consistent_empty : empty.Consistent where
  repositories := ordered_empty
  objects := ordered_empty
  references := ordered_empty
  names := List.nodup_nil
  hashes _ := by simp [objectsOf, empty, select_empty]
  referenceNames _ := by simp [referencesOf, empty, select_empty]
  positions _ := by simp [referencesOf, empty, select_empty]
  objectKeys := nofun
  referenceKeys := nofun

/-- The store has the repositories in the order of their rows. -/
lemma Consistent.store (consistent : tables.Consistent) :
    tables.store = ⟨tables.repositories.rows.map tables.record⟩ := by
  rw [Tables.store, consistent.repositories.select, List.filter_true]

/-- The names of the store are those of the rows. -/
lemma Consistent.names_store (consistent : tables.Consistent) :
    tables.store.names = tables.repositories.rows.map (·.value.name) := by
  rw [consistent.store, Store.names, List.map_map]
  rfl

/-- No two repositories of the store share a name. -/
lemma Consistent.distinct (consistent : tables.Consistent) : tables.store.names.Nodup :=
  consistent.names_store ▸ consistent.names

/-- A repository is found in the store as its row is in the table. -/
lemma Consistent.find?_store (consistent : tables.Consistent) (name : String) :
    tables.store.find? name = (tables.repositories.first? (·.name == name)).map tables.record := by
  rw [consistent.store, Store.find?, List.find?_map, consistent.repositories.first?]
  rfl

/-- A value names a repository of the store as it names a row of the table. -/
lemma Consistent.lookup?_store (consistent : tables.Consistent) (key : Json) :
    tables.store.lookup? key = (tables.lookup? key).map tables.record := by
  rw [Store.lookup?, Tables.lookup?]
  cases lookupKey? key with
  | none => rfl
  | some name => exact consistent.find?_store name

/-- A row that a value names is one of the table. -/
lemma Consistent.mem_of_lookup? (consistent : tables.Consistent) {key : Json} {row : Row RepositoryRow}
    (found : tables.lookup? key = some row) : row ∈ tables.repositories.rows := by
  obtain ⟨name, _, first⟩ := Option.bind_eq_some_iff.1 found
  rw [consistent.repositories.first?] at first
  exact List.mem_of_find?_eq_some first

end Tables

namespace Session

variable {session after : Session} {name : String} {hash data : Bytes}

/-- The repository at hand. -/
def repository (session : Session) : Repository :=
  session.tables.record session.row

/-- The tables are consistent, and the row at hand is stored as it was read. -/
structure Sound (session : Session) : Prop where
  tables : session.tables.Consistent
  row : session.row ∈ session.tables.repositories.rows

/-- A session has become another by work on the repository at hand: in the store this repository alone
has been put in the place of what it was. -/
structure Keeps (session after : Session) : Prop where
  store : after.tables.store = session.tables.store.replace after.repository
  name : after.repository.name = session.repository.name

/-- The repository at hand is the one that the store has under its name. -/
lemma Sound.found (sound : session.Sound) :
    session.tables.store.find? session.repository.name = some session.repository := by
  refine (Keys.find?_key_iff sound.tables.distinct).2 ⟨?_, rfl⟩
  rw [sound.tables.store]
  exact List.mem_map_of_mem sound.row

/-- Where nothing is done everything is kept. -/
lemma Sound.keeps (sound : session.Sound) : session.Keeps session where
  store := (Store.replace_self sound.tables.distinct sound.found).symm
  name := rfl

/-- What is kept twice is kept. -/
lemma Keeps.trans {last : Session} (first : session.Keeps after) (second : after.Keeps last) :
    session.Keeps last where
  store := by rw [second.store, first.store, Store.replace_replace second.name.symm]
  name := second.name.trans first.name

/-- Work keeps to the repository at hand if it changes no other row of a repository, and no row of an
object or a reference of another repository. -/
lemma Sound.keeps_of_others (sound : session.Sound)
    (consistent : after.tables.Consistent) (name : after.row.value.name = session.row.value.name)
    (rows : after.tables.repositories.rows = session.tables.repositories.rows.map fun row =>
      if row.id = session.row.id then after.row else row)
    (objects : ∀ id ≠ session.row.id, after.tables.objectsOf id = session.tables.objectsOf id)
    (references : ∀ id ≠ session.row.id,
      after.tables.referencesOf id = session.tables.referencesOf id) :
    session.Keeps after where
  store := by
    rw [consistent.store, rows, sound.tables.store, Store.replace, List.map_map, List.map_map]
    refine congrArg Store.mk (List.map_congr_left fun row member => ?_)
    simp only [Function.comp_apply]
    by_cases here : row.id = session.row.id
    · obtain rfl := sound.tables.repositories.eq_of_id member sound.row here
      have same : (session.tables.record session.row).name = after.repository.name := name.symm
      rw [if_pos rfl, if_pos same]
      rfl
    · have apart : (session.tables.record row).name ≠ after.repository.name := by
        intro same
        have one : row.value.name = session.row.value.name := same.trans name
        exact here (congrArg Row.id (List.inj_on_of_nodup_map sound.tables.names member sound.row one))
      rw [if_neg here, if_neg apart, Tables.record, objects _ here, references _ here]
      rfl
  name := name

/-- In particular where it changes no row of a repository at all. -/
lemma Sound.keeps_of_rows (sound : session.Sound)
    (consistent : after.tables.Consistent) (row : after.row = session.row)
    (repositories : after.tables.repositories = session.tables.repositories)
    (objects : ∀ id ≠ session.row.id, after.tables.objectsOf id = session.tables.objectsOf id)
    (references : ∀ id ≠ session.row.id,
      after.tables.referencesOf id = session.tables.referencesOf id) :
    session.Keeps after := by
  refine sound.keeps_of_others consistent (by rw [row]) ?_ objects references
  rw [repositories, row]
  refine (List.map_id _).symm.trans (List.map_congr_left fun other member => ?_)
  split
  case isTrue here => exact sound.tables.repositories.eq_of_id member sound.row here
  case isFalse => rfl

/-! ## Objects -/

/-- The query for an object looks among those of the repository at hand. -/
lemma Sound.findObject?_eq (sound : session.Sound) (hash : Bytes) :
    session.findObject? hash =
      (session.tables.objectsOf session.row.id).find? (·.value.hash == hash) := by
  rw [findObject?, sound.tables.objects.first?, Tables.objectsOf, sound.tables.objects.select,
    List.find?_filter]
  simp only [Bool.decide_and, Bool.decide_eq_true]

/-- An object is found in the tables as it is in the repository. -/
lemma Sound.findObject?_repository (sound : session.Sound) (hash : Bytes) :
    session.repository.findObject? hash = (session.findObject? hash).map (·.value.object) := by
  rw [sound.findObject?_eq, Repository.findObject?, repository, Tables.record, List.find?_map]
  rfl

/-- An object is in the tables if and only if it is in the repository. -/
lemma Sound.hasObject_repository (sound : session.Sound) (hash : Bytes) :
    session.repository.hasObject hash = session.hasObject hash := by
  rw [Repository.hasObject, sound.findObject?_repository, Option.isSome_map, hasObject]

/-- The hashes in the tables are those of the repository. -/
lemma objectHashes_repository : session.repository.objectHashes = session.objectHashes := by
  rw [Repository.objectHashes, repository, Tables.record, List.map_map]
  rfl

/-- The queries of the repository at hand see a new object, and no others do. -/
lemma Sound.objectsOf_insertObject (sound : session.Sound) (hash data : Bytes) (id : Nat) :
    (insertObject hash data session).tables.objectsOf id = session.tables.objectsOf id ++
      if session.row.id == id then
        [⟨session.tables.objects.serial + 1, session.row.id, hash, data⟩] else [] :=
  sound.tables.objects.select_insert _ _

/-- The hash under which no object is found is no hash of an object. -/
lemma Sound.fresh_hash (sound : session.Sound) (absent : session.hasObject hash = false) :
    hash ∉ (session.tables.objectsOf session.row.id).map (·.value.hash) := by
  rw [hasObject, sound.findObject?_eq, Option.isSome_eq_false_iff, Option.isNone_iff_eq_none] at absent
  exact Keys.find?_key_none.1 absent

/-- An object is added with a hash that is new to the repository. -/
lemma Sound.insertObject (sound : session.Sound) (absent : session.hasObject hash = false)
    (data : Bytes) : (insertObject hash data session).Sound where
  tables := {
    sound.tables with
    objects := sound.tables.objects.insert _
    hashes := by
      intro id
      rw [sound.objectsOf_insertObject]
      by_cases here : session.row.id = id
      · subst here
        have fresh := sound.fresh_hash absent
        simpa [List.nodup_append] using ⟨sound.tables.hashes _, by simpa using fresh⟩
      · simpa [here] using sound.tables.hashes id
    objectKeys := by
      intro row member
      rcases List.mem_append.1 member with old | new
      · exact sound.tables.objectKeys row old
      · obtain rfl := List.mem_singleton.1 new
        exact List.mem_map_of_mem sound.row }
  row := sound.row

/-- No other repository has to do with it. -/
lemma Sound.keeps_insertObject (sound : session.Sound) (absent : session.hasObject hash = false)
    (data : Bytes) : session.Keeps (session.insertObject hash data) := by
  refine sound.keeps_of_rows (sound.insertObject absent data).tables rfl rfl ?_ fun _ _ => rfl
  intro id elsewhere
  rw [sound.objectsOf_insertObject, if_neg (by simpa using elsewhere.symm), List.append_nil]

/-- The repository at hand has the new object last. -/
lemma Sound.repository_insertObject (sound : session.Sound) (hash data : Bytes) :
    (session.insertObject hash data).repository =
      { session.repository with objects := session.repository.objects ++ [⟨hash, data⟩] } := by
  have objects := sound.objectsOf_insertObject hash data session.row.id
  rw [if_pos (beq_self_eq_true _)] at objects
  have same : (session.insertObject hash data).row = session.row := rfl
  rw [repository, Tables.record, same, objects, List.map_append]
  rfl

/-! ## The row of the repository -/

/-- The row at hand is saved with its name. -/
lemma Sound.save (sound : session.Sound) {f : RepositoryRow → RepositoryRow}
    (name : ∀ row, (f row).name = row.name) :
    (session.save f).Sound ∧ session.Keeps (session.save f) := by
  have found : change (·.id == session.row.id) f session.row = (session.save f).row :=
    change_of_found (beq_self_eq_true _)
  have ids : (session.save f).tables.repositories.rows.map (·.id) =
      session.tables.repositories.rows.map (·.id) := map_id_update
  have consistent : (session.save f).tables.Consistent := {
    sound.tables with
    repositories := sound.tables.repositories.update _ f
    names := nodup_change name sound.tables.names
    objectKeys := ids.symm ▸ sound.tables.objectKeys
    referenceKeys := ids.symm ▸ sound.tables.referenceKeys }
  refine ⟨⟨consistent, found ▸ List.mem_map_of_mem sound.row⟩, ?_⟩
  refine sound.keeps_of_others consistent (name _) (List.map_congr_left fun row member => ?_)
    (fun _ _ => rfl) fun _ _ => rfl
  by_cases here : row.id = session.row.id
  · obtain rfl := sound.tables.repositories.eq_of_id member sound.row here
    exact found.trans (if_pos rfl).symm
  · have other : change (·.id == session.row.id) f row = row :=
      change_of_not_found (beq_eq_false_iff_ne.2 here)
    exact other.trans (if_neg here).symm

end Session

end ObjectDepot
