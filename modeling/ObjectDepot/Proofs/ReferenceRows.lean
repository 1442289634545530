import ObjectDepot.Proofs.Constraints

/-!
# Rows of references

What a sound session says of its references is what the repository for which it stands says of them.
Each statement on references touches those of the repository at hand only, and leaves their names and
positions distinct (`Session.OwnReferences`): a new one comes behind all others, and the last one is moved
to a position that has just become free.
-/

namespace ObjectDepot.Session

open Table

variable {session after : Session} {name : String} {hash : Bytes}

/-- The query for a reference looks among those of the repository at hand. -/
lemma Sound.findReference?_eq (sound : session.Sound) (name : String) :
    session.findReference? name =
      (session.tables.referencesOf session.row.id).find? (·.value.name == name) := by
  rw [findReference?, sound.tables.references.first?, Tables.referencesOf,
    sound.tables.references.select, List.find?_filter]
  simp only [Bool.decide_and, Bool.decide_eq_true]

/-- A reference is found in the tables as it is in the repository. -/
lemma Sound.findReference?_repository (sound : session.Sound) (name : String) :
    session.repository.findReference? name =
      (session.findReference? name).map (·.value.reference) := by
  rw [sound.findReference?_eq, Repository.findReference?, repository, Tables.record, List.find?_map]
  rfl

/-- A reference is looked up in the tables, under any value, as in the repository. -/
lemma Sound.lookupReference?_repository (sound : session.Sound) (key : Json) :
    session.repository.lookupReference? key =
      (session.lookupReference? key).map (·.value.reference) := by
  rw [Repository.lookupReference?, lookupReference?]
  cases lookupKey? key with
  | none => rfl
  | some name => exact sound.findReference?_repository name

/-- A reference that is found is one of the repository at hand. -/
lemma Sound.mem_of_findReference? (sound : session.Sound) {row : Row ReferenceRow}
    (found : session.findReference? name = some row) :
    row ∈ session.tables.referencesOf session.row.id ∧ row.value.name = name :=
  Keys.mem_of_find? (sound.findReference?_eq name ▸ found)

/-- What is looked up is a reference of the repository. -/
lemma Sound.mem_of_lookupReference? (sound : session.Sound) {key : Json} {row : Row ReferenceRow}
    (found : session.lookupReference? key = some row) :
    row ∈ session.tables.referencesOf session.row.id := by
  obtain ⟨name, _, found⟩ := Option.bind_eq_some_iff.1 found
  exact (sound.mem_of_findReference? found).1

/-- The last position is the same in both. -/
lemma lastPosition_repository : session.repository.lastPosition = session.lastPosition := by
  rw [Repository.lastPosition, repository, Tables.record, List.foldl_map]
  rfl

/-- The references are listed in the same order. -/
lemma listedReferences_repository :
    session.repository.listedReferences = session.listedReferences.map (·.value.reference) := by
  have compares : ∀ a ∈ session.tables.referencesOf session.row.id,
      ∀ b ∈ session.tables.referencesOf session.row.id,
      decide (a.value.position ≤ b.value.position) =
        decide (a.value.reference.position ≤ b.value.reference.position) := fun _ _ _ _ => rfl
  exact (List.map_mergeSort compares).symm

/-- The listing of the tables is that of the repository. -/
lemma listing_repository : session.repository.listing = session.listing := by
  rw [Repository.listing, listing, listedReferences_repository, List.map_map]
  rfl

/-- The greatest position so far only grows. -/
lemma le_foldl_position (rows : List (Row ReferenceRow)) (first : Nat) :
    first ≤ rows.foldl (fun last row => max last row.value.position) first ∧
      ∀ row ∈ rows, row.value.position ≤
        rows.foldl (fun last row => max last row.value.position) first := by
  induction rows generalizing first with
  | nil => exact ⟨Nat.le_refl _, nofun⟩
  | cons head rest ih =>
    obtain ⟨grows, all⟩ := ih (max first head.value.position)
    refine ⟨Nat.le_trans (Nat.le_max_left _ _) grows, ?_⟩
    rintro row (_ | ⟨_, later⟩)
    · exact Nat.le_trans (Nat.le_max_right _ _) grows
    · exact all row later

/-- No position of the repository is greater than the last. -/
lemma le_lastPosition {row : Row ReferenceRow}
    (member : row ∈ session.tables.referencesOf session.row.id) :
    row.value.position ≤ session.lastPosition :=
  (le_foldl_position _ 0).2 row member

/-- The rows that a query of references has are those that name its repository. -/
lemma Sound.mem_referencesOf (sound : session.Sound) {row : Row ReferenceRow} {id : Nat} :
    row ∈ session.tables.referencesOf id ↔
      row ∈ session.tables.references.rows ∧ row.value.repository = id := by
  rw [Tables.referencesOf, sound.tables.references.mem_select, beq_iff_eq]

/-- A session differs from another in the references of the repository at hand only, and their names and
positions are distinct. -/
structure OwnReferences (session after : Session) : Prop where
  row : after.row = session.row
  repositories : after.tables.repositories = session.tables.repositories
  objects : after.tables.objects = session.tables.objects
  ordered : after.tables.references.Ordered
  others : ∀ id ≠ session.row.id, after.tables.referencesOf id = session.tables.referencesOf id
  names : ((after.tables.referencesOf session.row.id).map (·.value.name)).Nodup
  positions : ((after.tables.referencesOf session.row.id).map (·.value.position)).Nodup
  keys : ∀ row ∈ after.tables.references.rows,
    row.value.repository ∈ session.tables.repositories.rows.map (·.id)

namespace OwnReferences

/-- Such a session is sound. -/
lemma sound (own : session.OwnReferences after) (sound : session.Sound) : after.Sound where
  tables := {
    repositories := own.repositories ▸ sound.tables.repositories
    objects := own.objects ▸ sound.tables.objects
    references := own.ordered
    names := own.repositories ▸ sound.tables.names
    hashes := by
      unfold Tables.objectsOf
      exact own.objects ▸ sound.tables.hashes
    referenceNames := by
      intro id
      by_cases here : id = session.row.id
      · exact here ▸ own.names
      · exact own.others id here ▸ sound.tables.referenceNames id
    positions := by
      intro id
      by_cases here : id = session.row.id
      · exact here ▸ own.positions
      · exact own.others id here ▸ sound.tables.positions id
    objectKeys := by
      rw [own.objects, own.repositories]
      exact sound.tables.objectKeys
    referenceKeys := by
      rw [own.repositories]
      exact own.keys }
  row := by
    rw [own.row, own.repositories]
    exact sound.row

/-- Every other repository is kept. -/
lemma keeps (own : session.OwnReferences after) (sound : session.Sound) : session.Keeps after := by
  refine sound.keeps_of_rows (own.sound sound).tables own.row own.repositories (fun id _ => ?_) own.others
  rw [Tables.objectsOf, own.objects, Tables.objectsOf]

/-- The repository at hand differs in its references. -/
lemma repository_eq (own : session.OwnReferences after) : after.repository =
    { session.repository with
      references := (after.tables.referencesOf session.row.id).map (·.value.reference) } := by
  rw [repository, Tables.record, Tables.objectsOf, own.row, own.objects]
  rfl

end OwnReferences

/-- The queries of the repository at hand see a new reference, and no others do. -/
lemma Sound.referencesOf_insertReference (sound : session.Sound) (name : String) (hash : Bytes)
    (id : Nat) :
    (insertReference name hash session).tables.referencesOf id = session.tables.referencesOf id ++
      if session.row.id == id then
        [⟨session.tables.references.serial + 1, session.row.id, name, hash,
          session.lastPosition + 1⟩] else [] :=
  sound.tables.references.select_insert _ _

/-- A reference is added with a name that is new to the repository, at a position behind all others. -/
lemma Sound.own_insertReference (sound : session.Sound) (absent : session.findReference? name = none)
    (hash : Bytes) : session.OwnReferences (session.insertReference name hash) where
  row := rfl
  repositories := rfl
  objects := rfl
  ordered := sound.tables.references.insert _
  others id elsewhere := by
    rw [sound.referencesOf_insertReference, if_neg (by simpa using elsewhere.symm), List.append_nil]
  names := by
    have fresh : name ∉ (session.tables.referencesOf session.row.id).map (·.value.name) := by
      rw [sound.findReference?_eq] at absent
      exact Keys.find?_key_none.1 absent
    rw [sound.referencesOf_insertReference]
    simpa [List.nodup_append] using ⟨sound.tables.referenceNames _, by simpa using fresh⟩
  positions := by
    have fresh : ∀ row ∈ session.tables.referencesOf session.row.id,
        row.value.position ≠ session.lastPosition + 1 :=
      fun row member => Nat.ne_of_lt (Nat.lt_succ_of_le (le_lastPosition member))
    rw [sound.referencesOf_insertReference]
    simpa [List.nodup_append] using ⟨sound.tables.positions _, fresh⟩
  keys row member := by
    rcases List.mem_append.1 member with old | new
    · exact sound.tables.referenceKeys row old
    · obtain rfl := List.mem_singleton.1 new
      exact List.mem_map_of_mem sound.row

/-- The repository at hand has the new reference last. -/
lemma Sound.repository_insertReference (sound : session.Sound) (absent : session.findReference? name = none)
    (hash : Bytes) :
    (session.insertReference name hash).repository =
      session.repository.insertReference name hash := by
  rw [(sound.own_insertReference absent hash).repository_eq, sound.referencesOf_insertReference,
    if_pos (beq_self_eq_true _), List.map_append, Repository.insertReference, lastPosition_repository]
  rfl

/-- The session with the references changed that are found. -/
def changeReferences (session : Session) (found : Row ReferenceRow → Bool)
    (f : ReferenceRow → ReferenceRow) : Session :=
  { session with tables.references := session.tables.references.update found f }

variable {found : Row ReferenceRow → Bool} {f : ReferenceRow → ReferenceRow}

/-- The queries see references changed that still belong where they did. -/
lemma Sound.referencesOf_changeReferences (sound : session.Sound) (found : Row ReferenceRow → Bool)
    (f : ReferenceRow → ReferenceRow) (same : ∀ row, (f row).repository = row.repository) (id : Nat) :
    (session.changeReferences found f).tables.referencesOf id =
      (session.tables.referencesOf id).map (change found f) := by
  refine sound.tables.references.select_update found fun row _ _ => ?_
  rw [same]

/-- References of the repository at hand are changed, so that names and positions stay distinct. -/
lemma Sound.own_changeReferences (sound : session.Sound)
    (same : ∀ row, (f row).repository = row.repository)
    (own : ∀ row ∈ session.tables.references.rows, found row → row.value.repository = session.row.id)
    (names : (((session.tables.referencesOf session.row.id).map (change found f)).map
      (·.value.name)).Nodup)
    (positions : (((session.tables.referencesOf session.row.id).map (change found f)).map
      (·.value.position)).Nodup) :
    session.OwnReferences (session.changeReferences found f) where
  row := rfl
  repositories := rfl
  objects := rfl
  ordered := sound.tables.references.update found f
  others id elsewhere := by
    rw [sound.referencesOf_changeReferences found f same]
    refine (List.map_congr_left fun row member => ?_).trans (List.map_id _)
    obtain ⟨stored, here⟩ := sound.mem_referencesOf.1 member
    refine change_of_not_found (Bool.eq_false_iff.2 fun fit => elsewhere ?_)
    exact here.symm.trans (own row stored fit)
  names := by rwa [sound.referencesOf_changeReferences found f same]
  positions := by rwa [sound.referencesOf_changeReferences found f same]
  keys row member := by
    obtain ⟨before, old, rfl⟩ := List.mem_map.1 member
    have kept : (change found f before).value.repository = before.value.repository := by
      unfold change
      split
      case isTrue => exact same _
      case isFalse => rfl
    exact kept ▸ sound.tables.referenceKeys before old

variable {removed row other : Row ReferenceRow}

/-- Two references of a repository are the same if their names are. -/
lemma Sound.eq_of_name (sound : session.Sound) {id : Nat} (first : row ∈ session.tables.referencesOf id)
    (second : other ∈ session.tables.referencesOf id) (same : other.value.name = row.value.name) :
    other = row :=
  List.inj_on_of_nodup_map (sound.tables.referenceNames id) second first same

/-- Two rows of references are the same if their keys are. -/
lemma Sound.eq_of_id (sound : session.Sound) {id id' : Nat} (first : row ∈ session.tables.referencesOf id)
    (second : other ∈ session.tables.referencesOf id') (same : other.id = row.id) : other = row :=
  sound.tables.references.eq_of_id (sound.mem_referencesOf.1 second).1 (sound.mem_referencesOf.1 first).1
    same

/-- The hash of a reference is replaced, and that of no other one. -/
lemma Sound.own_saveReference (sound : session.Sound)
    (member : row ∈ session.tables.referencesOf session.row.id) (hash : Bytes) :
    session.OwnReferences (session.saveReference row.id hash) := by
  refine sound.own_changeReferences (fun _ => rfl) ?_
    (nodup_change (fun _ => rfl) (sound.tables.referenceNames _))
    (nodup_change (fun _ => rfl) (sound.tables.positions _))
  intro other stored fit
  obtain ⟨present, here⟩ := sound.mem_referencesOf.1 member
  rwa [sound.tables.references.eq_of_id stored present (beq_iff_eq.1 fit)]

/-- What stands for a changed row. -/
lemma reference_change : (change found f row).value.reference =
    if found row then (f row.value).reference else row.value.reference := by
  unfold change
  split <;> rfl

/-- The repository at hand has the hash under this name replaced. -/
lemma Sound.repository_saveReference (sound : session.Sound)
    (member : row ∈ session.tables.referencesOf session.row.id) (hash : Bytes) :
    (session.saveReference row.id hash).repository =
      session.repository.replaceReference row.value.name hash := by
  have kept : ∀ row : ReferenceRow, { row with hash := hash }.repository = row.repository :=
    fun _ => rfl
  have references : (saveReference row.id hash session).tables.referencesOf session.row.id =
      (session.tables.referencesOf session.row.id).map
        (change (·.id == row.id) ({ · with hash := hash })) :=
    sound.referencesOf_changeReferences _ _ kept session.row.id
  rw [(sound.own_saveReference member hash).repository_eq, references, Repository.replaceReference]
  refine congrArg ({ session.repository with references := · }) ?_
  rw [repository, Tables.record, List.map_map, List.map_map]
  refine List.map_congr_left fun other present => ?_
  -- the row with this key is the one with this name
  have one : other.id = row.id ↔ other.value.name = row.value.name :=
    ⟨fun same => by rw [sound.eq_of_id member present same],
      fun same => by rw [sound.eq_of_name member present same]⟩
  simp only [Function.comp_apply, reference_change, beq_iff_eq, one]
  rfl

/-- The queries do not see a reference any more that is dropped. -/
lemma Sound.referencesOf_dropReference (sound : session.Sound) (key id : Nat) :
    (dropReference key session).tables.referencesOf id =
      (session.tables.referencesOf id).filter (·.id != key) :=
  sound.tables.references.select_delete _ _

/-- A reference of the repository at hand is dropped. -/
lemma Sound.own_dropReference (sound : session.Sound)
    (member : removed ∈ session.tables.referencesOf session.row.id) :
    session.OwnReferences (session.dropReference removed.id) where
  row := rfl
  repositories := rfl
  objects := rfl
  ordered := sound.tables.references.delete _
  others id elsewhere := by
    rw [sound.referencesOf_dropReference, List.filter_eq_self]
    intro other present
    refine bne_iff_ne.2 fun same => elsewhere ?_
    rw [← (sound.mem_referencesOf.1 present).2, sound.eq_of_id member present same,
      (sound.mem_referencesOf.1 member).2]
  names := by
    rw [sound.referencesOf_dropReference]
    exact (sound.tables.referenceNames _).sublist (List.filter_sublist.map _)
  positions := by
    rw [sound.referencesOf_dropReference]
    exact (sound.tables.positions _).sublist (List.filter_sublist.map _)
  keys row member := sound.tables.referenceKeys row (List.mem_filter.1 member).1

/-- The reference at a position is moved to one that is free. -/
lemma Sound.own_moveReference (sound : session.Sound) {place : Nat}
    (free : ∀ row ∈ session.tables.referencesOf session.row.id, row.value.position ≠ place)
    (position : Nat) : session.OwnReferences (session.moveReference position place) := by
  refine sound.own_changeReferences (fun _ => rfl) ?_
    (nodup_change (fun _ => rfl) (sound.tables.referenceNames _)) ?_
  · intro row stored fit
    simp only [Bool.and_eq_true, beq_iff_eq] at fit
    exact fit.1
  · refine List.pairwise_map.2 (List.pairwise_map.2 ?_)
    have distinct := List.pairwise_map.1 (sound.tables.positions session.row.id)
    refine distinct.imp_of_mem fun {row other} first second apart => ?_
    have here := (sound.mem_referencesOf.1 first).2
    have here' := (sound.mem_referencesOf.1 second).2
    simp only [change, here, here', beq_self_eq_true, Bool.true_and, beq_iff_eq]
    by_cases moved : row.value.position = position <;> by_cases moved' : other.value.position = position
    · exact absurd (moved.trans moved'.symm) apart
    · simpa [moved, moved'] using (free other second).symm
    · simpa [moved, moved'] using free row first
    · simpa [moved, moved'] using apart

/-- The repository at hand is without the reference under this name. -/
lemma Sound.repository_dropReference (sound : session.Sound)
    (member : removed ∈ session.tables.referencesOf session.row.id) :
    (session.dropReference removed.id).repository =
      { session.repository with
        references := session.repository.references.filter (·.name != removed.value.name) } := by
  rw [(sound.own_dropReference member).repository_eq, sound.referencesOf_dropReference]
  refine congrArg ({ session.repository with references := · }) ?_
  rw [repository, Tables.record, List.filter_map]
  refine congrArg _ (List.filter_congr fun other present => ?_)
  have one : other.id = removed.id ↔ other.value.name = removed.value.name :=
    ⟨fun same => by rw [sound.eq_of_id member present same],
      fun same => by rw [sound.eq_of_name member present same]⟩
  exact congrArg not (Bool.eq_iff_iff.2 (by simpa [ReferenceRow.reference] using one))

/-- The repository at hand has the reference at this position moved. -/
lemma Sound.repository_moveReference (sound : session.Sound) {place : Nat}
    (free : ∀ row ∈ session.tables.referencesOf session.row.id, row.value.position ≠ place)
    (position : Nat) :
    (session.moveReference position place).repository =
      { session.repository with
        references := session.repository.references.map fun row =>
          if row.position = position then { row with position := place } else row } := by
  have kept : ∀ row : ReferenceRow, { row with position := place }.repository = row.repository :=
    fun _ => rfl
  have references : (moveReference position place session).tables.referencesOf session.row.id =
      (session.tables.referencesOf session.row.id).map
        (change (fun row => row.value.repository == session.row.id && row.value.position == position)
          ({ · with position := place })) :=
    sound.referencesOf_changeReferences _ _ kept session.row.id
  rw [(sound.own_moveReference free position).repository_eq, references]
  refine congrArg ({ session.repository with references := · }) ?_
  rw [repository, Tables.record, List.map_map, List.map_map]
  refine List.map_congr_left fun row member => ?_
  have here := (sound.mem_referencesOf.1 member).2
  simp only [Function.comp_apply, reference_change, here, beq_self_eq_true, Bool.true_and, beq_iff_eq]
  rfl

/-- Where a reference was dropped its position is free. -/
lemma Sound.free_dropReference (sound : session.Sound)
    (member : removed ∈ session.tables.referencesOf session.row.id) :
    ∀ row ∈ (session.dropReference removed.id).tables.referencesOf session.row.id,
      row.value.position ≠ removed.value.position := by
  intro row left same
  rw [sound.referencesOf_dropReference, List.mem_filter] at left
  obtain ⟨present, other⟩ := left
  have one := List.inj_on_of_nodup_map (sound.tables.positions session.row.id) present member same
  exact bne_iff_ne.1 other (congrArg Row.id one)

/-- A reference is erased, and the last one moved into its place: names and positions stay distinct, and
every other repository is kept. -/
lemma Sound.eraseReference (sound : session.Sound)
    (member : removed ∈ session.tables.referencesOf session.row.id) :
    (session.eraseReference removed).Sound ∧ session.Keeps (session.eraseReference removed) := by
  have drop := sound.own_dropReference member
  have there := drop.sound sound
  have free := sound.free_dropReference member
  unfold Session.eraseReference
  dsimp only
  split
  case isTrue =>
    have move := there.own_moveReference free session.lastPosition
    exact ⟨move.sound there, (drop.keeps sound).trans (move.keeps there)⟩
  case isFalse => exact ⟨there, drop.keeps sound⟩

/-- The repository at hand is without the reference, and its last one has the place. -/
lemma Sound.repository_eraseReference (sound : session.Sound)
    (member : removed ∈ session.tables.referencesOf session.row.id) :
    (session.eraseReference removed).repository =
      session.repository.eraseReference removed.value.reference := by
  have there := (sound.own_dropReference member).sound sound
  have free := sound.free_dropReference member
  unfold Session.eraseReference Repository.eraseReference
  rw [lastPosition_repository]
  dsimp only [ReferenceRow.reference]
  split
  case isTrue moves =>
    rw [there.repository_moveReference free, sound.repository_dropReference member]
    simp only [moves, not_false_eq_true, ne_eq, true_and]
  case isFalse stays =>
    rw [sound.repository_dropReference member]
    simp only [stays, false_and, if_false, List.map_id']

end ObjectDepot.Session
