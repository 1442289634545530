import ObjectDepot.Proofs.Keys
import ObjectDepot.Proofs.Procedure
import ObjectDepot.Store

/-!
# The repositories of a store

How looking a repository up and putting one back act on each other, and what running a procedure
`within` a repository does to the store. `run_within_bind` lets a run of two procedures within one
repository be seen as two runs.
-/

namespace ObjectDepot.Store

open Procedure

variable {store : Store} {repository first second : Repository} {name : String} {key : Json}

/-- The names of the repositories. -/
def names (store : Store) : List String :=
  store.repositories.map (·.name)

/-- What is found under a name is there, and has the name. -/
lemma mem_of_find? (h : store.find? name = some repository) :
    repository ∈ store.repositories ∧ repository.name = name :=
  Keys.mem_of_find? h

/-- A value finds a repository by the text under which it is looked up. -/
lemma lookup?_iff :
    store.lookup? key = some repository ↔
      lookupKey? key = some repository.name ∧ store.find? repository.name = some repository := by
  unfold lookup?
  cases lookupKey? key with
  | none => simp
  | some text =>
    simp only [Option.bind_some, Option.some.injEq]
    constructor
    · intro h
      obtain ⟨_, rfl⟩ := mem_of_find? h
      exact ⟨rfl, h⟩
    · rintro ⟨rfl, h⟩
      exact h

/-- A text is looked up as it is. -/
lemma lookup?_string {name : String} : store.lookup? (.string name) = store.find? name := rfl

/-- The repository that stands in the place of another after `repository` was put back. -/
def stand (repository other : Repository) : Repository :=
  if other.name = repository.name then repository else other

/-- What stands in for a repository has the name that it has. -/
lemma name_stand (repository other : Repository) : (stand repository other).name = other.name := by
  unfold stand
  split
  case isTrue h => exact h.symm
  case isFalse => rfl

/-- Putting a repository back keeps the names. -/
@[simp] lemma names_replace : (store.replace repository).names = store.names := by
  simp only [names, replace, List.map_map]
  exact List.map_congr_left fun other _ => name_stand repository other

/-- The repositories after one was put back: it itself, and those of other names. -/
lemma mem_replace {other : Repository}
    (h : other ∈ (store.replace repository).repositories) :
    other = repository ∨ other ∈ store.repositories ∧ other.name ≠ repository.name := by
  obtain ⟨before, hb, rfl⟩ := List.mem_map.1 h
  by_cases e : before.name = repository.name
  · simp [e]
  · simp [e, hb]

/-- A name finds what stands in the place of what it found before. -/
lemma find?_replace : (store.replace repository).find? name =
    (store.find? name).map (stand repository) :=
  Keys.find?_map_of_key (name_stand repository)

/-- What replaces a repository is found under its name. -/
lemma find?_replace_self (h : store.find? repository.name = some first) :
    (store.replace repository).find? repository.name = some repository := by
  obtain ⟨_, same⟩ := mem_of_find? h
  rw [find?_replace, h, Option.map_some, stand, if_pos same]

/-- Under other names there is what there was. -/
lemma find?_replace_other (other : name ≠ repository.name) :
    (store.replace repository).find? name = store.find? name := by
  rw [find?_replace]
  cases found : store.find? name with
  | none => rfl
  | some first =>
    obtain ⟨_, rfl⟩ := mem_of_find? found
    rw [Option.map_some, stand, if_neg other]

/-- A repository that comes under a free name is found by it. -/
lemma find?_add_self (fresh : store.find? repository.name = none) :
    find? ⟨store.repositories ++ [repository]⟩ repository.name = some repository := by
  unfold find? at fresh ⊢
  rw [List.find?_append, fresh]
  simp

/-- A repository that is added does not hide the others. -/
lemma find?_add_other (other : name ≠ repository.name) :
    find? ⟨store.repositories ++ [repository]⟩ name = store.find? name := by
  have absent : [repository].find? (·.name == name) = none := by simpa using other.symm
  unfold find?
  rw [List.find?_append, absent, Option.or_none]

/-- Of two replacements under one name the second counts. -/
lemma replace_replace (h : first.name = second.name) :
    (store.replace first).replace second = store.replace second := by
  simp only [replace, List.map_map, Store.mk.injEq]
  apply List.map_congr_left
  intro other _
  by_cases e : other.name = first.name
  · simp [e, h]
  · simp [e]

/-- A repository put back as it was changes nothing. -/
lemma replace_self (distinct : store.names.Nodup)
    (h : store.find? repository.name = some repository) : store.replace repository = store := by
  obtain ⟨present, _⟩ := mem_of_find? h
  have same : ∀ other ∈ store.repositories, stand repository other = other := by
    intro other ho
    unfold stand
    split
    case isTrue e => exact List.inj_on_of_nodup_map distinct present ho e.symm
    case isFalse => rfl
  exact congrArg Store.mk ((List.map_congr_left same).trans (List.map_id' _))

/-- Where there is no such repository nothing is done. -/
lemma run_within_none {α : Type} {p : Procedure Repository α} {work : Work Store}
    (h : work.content.lookup? key = none) :
    (within key p).run work = (.error (.rejected (.repositoryNotFound key)), work) := by
  simp only [within, ExceptT.run_mk, h]

/-- A procedure within a repository: it runs on the repository, which is then put back. -/
lemma run_within_some {α : Type} {p : Procedure Repository α} {work : Work Store}
    {outcome : Except Failure α} {after : Work Repository}
    (h : work.content.lookup? key = some repository)
    (ran : p.run { work with content := repository } = (outcome, after)) :
    (within key p).run work =
      (outcome, { after with content := work.content.replace after.content }) := by
  simp only [within, ExceptT.run_mk, h, ran]

/-- A procedure that succeeds within a repository was done on it. -/
lemma within_eq {α : Type} {p : Procedure Repository α} {work after : Work Store}
    {outcome : Except Failure α}
    (present : work.content.lookup? key = some repository)
    (h : (within key p).run work = (outcome, after)) :
    ∃ done, p.run { work with content := repository } = (outcome, done) ∧
      after = { done with content := work.content.replace done.content } := by
  rcases e : p.run { work with content := repository } with ⟨outcome', done⟩
  rw [run_within_some present e] at h
  cases h
  exact ⟨done, rfl, rfl⟩

/-- A value finds a repository that was put back under its name. -/
lemma lookup?_replace (present : store.lookup? key = some first)
    (same : repository.name = first.name) :
    (store.replace repository).lookup? key = some repository := by
  obtain ⟨named, found⟩ := lookup?_iff.1 present
  rw [← same] at named found
  exact lookup?_iff.2 ⟨named, find?_replace_self found⟩

/-- Two procedures in a row within a repository, the second of which looks it up anew. -/
lemma run_within_bind {α β : Type} {p : Procedure Repository α} {f : α → Procedure Repository β}
    {work : Work Store} (present : work.content.lookup? key = some repository)
    (keeps : ∀ outcome after, p.run { work with content := repository } = (outcome, after) →
      after.content.name = repository.name)
    (keeps' : ∀ a mid outcome after, (f a).run mid = (outcome, after) →
      after.content.name = mid.content.name) :
    (within key (p >>= f)).run work = (within key p >>= fun a => within key (f a)).run work := by
  rcases e : p.run { work with content := repository } with ⟨failure | a, mid⟩
  · rw [run_bind_of_error (run_within_some present e)]
    exact run_within_some present (run_bind_of_error e)
  · rcases e' : (f a).run mid with ⟨outcome, after⟩
    have both : (p >>= f).run { work with content := repository } = (outcome, after) := by
      rw [run_bind_of_ok e, e']
    -- the second procedure finds what the first has put back, since the name is still the same
    have present' : (work.content.replace mid.content).lookup? key = some mid.content :=
      lookup?_replace present (keeps _ _ e)
    have second : (within key (f a)).run { mid with content := work.content.replace mid.content } =
        (outcome, { after with
          content := (work.content.replace mid.content).replace after.content }) :=
      run_within_some present' e'
    rw [run_within_some present both, run_bind_of_ok (run_within_some present e), second,
      replace_replace (keeps' _ _ _ _ e').symm]

end ObjectDepot.Store
