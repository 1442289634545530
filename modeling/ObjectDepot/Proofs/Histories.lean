import ObjectDepot.Proofs.Requests
import ObjectDepot.Proofs.Traces

/-!
# Histories of a store

An `Action` is a step of the library or a request, under the settings and the accounts of its time.
A `History` follows actions that began on the empty store and keeps the calls that were committed,
every push as its parts. `History.traced` says that these calls alone lead to the store and to the
events of the history. From it comes `History.invariant`: what holds of a new repository and is kept
by every `Repository.Change` holds of each repository with the operations committed on it and the
events sent of it.
-/

namespace ObjectDepot

/-- Something that is done to a store. -/
inductive Action where
  | perform (branch : String) (step : Step)
  | ask (service : Http.Service) (request : Http.Request)

/-- The work that an action leaves, over any backend. -/
def Action.act {σ ρ : Type} [RepositoryBackend ρ] [StoreBackend σ ρ] : Action → Work σ → Work σ
  | .perform branch step, work => ((step.perform branch).run work).2
  | .ask service request, work => ((service.respond request).run work).2

/-- The calls that an action commits: those for which it stands, if it succeeds. -/
def Action.committed : Action → Work Store → List Call
  | .perform branch step, work =>
    match ((step.perform branch).run work).1 with
    | .ok answer => step.calls answer
    | .error _ => []
  | .ask service request, work =>
    if ((service.respond request).run work).1.succeeded then
      (service.call? request).toList.flatMap Call.parts
    else []

/-- What has become of a store, and the calls that were committed. -/
structure History where
  work : Work Store
  calls : List Call

namespace History

/-- The history of a store to which nothing was done. -/
def start : History := ⟨Work.start .empty, []⟩

/-- A history with one more action. -/
def extend (history : History) (action : Action) : History :=
  ⟨action.act history.work, history.calls ++ action.committed history.work⟩

/-- The history of actions. -/
def ofActions (actions : List Action) : History :=
  actions.foldl extend start

end History

/-- The committed operations on the repository with a name. -/
def callsOn (name : String) (calls : List Call) : List RepositoryCall :=
  calls.filterMap fun
    | .inRepository key call => if lookupKey? key = some name then some call else none
    | _ => none

/-- The repository of which an event tells. -/
def Event.repository : Event → String
  | .objectAdded repository _ => repository
  | .referenceChanged repository _ _ _ => repository

/-- The events that tell of the repository with a name. -/
def eventsOf (name : String) (events : List Event) : List Event :=
  events.filter (·.repository == name)

variable {calls : List Call} {store : Store} {events : List Event} {name : String}

/-- An action prolongs a trace by the calls that it commits. -/
lemma Trace.act {work : Work Store} (trace : Trace calls work.content work.events)
    (action : Action) :
    Trace (calls ++ action.committed work) (action.act work).content (action.act work).events := by
  cases action with
  | perform branch step =>
    rcases ran : (step.perform branch).run work with ⟨failure | answer, after⟩
    · obtain ⟨content, events⟩ := trace.step_failed ran
      simp only [Action.act, Action.committed, ran, content, events, List.append_nil]
      exact trace
    · simp only [Action.act, Action.committed, ran]
      exact trace.step step ran
  | ask service request =>
    rcases ran : (service.respond request).run work with ⟨response, after⟩
    simp only [Action.act, Action.committed, ran]
    rcases Http.Service.respond_cases ran with
      ⟨succeeded, call, answer, asked, performed⟩ | ⟨failed, content, events⟩
    · rw [if_pos succeeded, asked]
      have done : Trace (calls ++ call.parts) after.content after.events :=
        trace.step (.call call) performed
      simpa using done
    · rw [if_neg (by simp [failed]), content, events, List.append_nil]
      exact trace

/-- The committed calls of a history lead to its store and its events. -/
theorem History.traced (actions : List Action) :
    Trace (ofActions actions).calls (ofActions actions).work.content
      (ofActions actions).work.events := by
  -- the actions act on whatever history there is, not only on the one that begins
  suffices all : ∀ history : History, Trace history.calls history.work.content history.work.events →
      let later := actions.foldl extend history
      Trace later.calls later.work.content later.work.events from all start .start
  induction actions with
  | nil => exact fun _ trace => trace
  | cons action rest ih => exact fun history trace => ih _ (trace.act action)

/-- The calls on a repository are those of the first part, and then those of the second. -/
lemma callsOn_append (first second : List Call) :
    callsOn name (first ++ second) = callsOn name first ++ callsOn name second :=
  List.filterMap_append

/-- A call inside a repository is one on it. -/
lemma callsOn_self {key : Json} {call : RepositoryCall} (h : lookupKey? key = some name) :
    callsOn name [.inRepository key call] = [call] := by
  simp [callsOn, h]

/-- A call inside another repository is not one on it. -/
lemma callsOn_of_ne {key : Json} {call : RepositoryCall} (h : lookupKey? key ≠ some name) :
    callsOn name [.inRepository key call] = [] := by
  simp [callsOn, h]

/-- The events of a repository are those of the first part, and then those of the second. -/
lemma eventsOf_append (first second : List Event) :
    eventsOf name (first ++ second) = eventsOf name first ++ eventsOf name second :=
  List.filter_append _ _

/-- An operation sends events of its own repository alone. -/
lemma Repository.Change.sender {repository after : Repository} {call : RepositoryCall}
    {sent : List Event} (change : repository.Change call after sent) :
    ∀ event ∈ sent, event.repository = repository.name := by
  intro event member
  cases change with
  | put | insert | replace | erase =>
    obtain rfl := List.mem_singleton.1 member
    rfl
  | _ => cases member

/-- Events of a repository are all its own. -/
lemma eventsOf_self (own : ∀ event ∈ events, event.repository = name) :
    eventsOf name events = events := by
  rw [eventsOf, List.filter_eq_self]
  intro event member
  simpa using own event member

/-- Events of another repository are none of its own. -/
lemma eventsOf_of_ne {other : String} (own : ∀ event ∈ events, event.repository = other)
    (apart : other ≠ name) : eventsOf name events = [] := by
  rw [eventsOf, List.filter_eq_nil_iff]
  intro event member
  simpa [own event member] using apart

/-- There are no calls on a repository that does not exist, and no events of it. -/
lemma Trace.absent (trace : Trace calls store events) (absent : name ∉ store.names) :
    callsOn name calls = [] ∧ eventsOf name events = [] := by
  induction trace with
  | start => exact ⟨rfl, rfl⟩
  | call _ change ih =>
    rw [callsOn_append, eventsOf_append]
    cases change with
    | create =>
      simp only [Store.names, List.map_append, List.mem_append, not_or] at absent
      obtain ⟨noCalls, noEvents⟩ := ih absent.1
      rw [noCalls, noEvents]
      exact ⟨rfl, rfl⟩
    | dump =>
      obtain ⟨noCalls, noEvents⟩ := ih absent
      rw [noCalls, noEvents]
      exact ⟨rfl, rfl⟩
    | @within key repository _ _ _ present change =>
      rw [Store.names_replace] at absent
      obtain ⟨noCalls, noEvents⟩ := ih absent
      obtain ⟨named, found⟩ := Store.lookup?_iff.1 present
      obtain ⟨member, _⟩ := Store.mem_of_find? found
      have apart : repository.name ≠ name := by
        rintro rfl
        exact absent (List.mem_map_of_mem member)
      have other : lookupKey? key ≠ some name := by
        rw [named]
        exact fun e => apart (Option.some.inj e)
      rw [noCalls, noEvents, callsOn_of_ne other, eventsOf_of_ne change.sender apart]
      exact ⟨rfl, rfl⟩

/-- A property of a repository, the operations committed on it and the events sent of it that a new
repository has and that every change keeps. -/
structure Repository.Invariant (Q : Repository → List RepositoryCall → List Event → Prop) :
    Prop where
  created : ∀ name algorithm branch owner, Q ⟨name, algorithm, branch, owner, "", [], []⟩ [] []
  changed : ∀ repository before told call after sent, Q repository before told →
    repository.Change call after sent → Q after (before ++ [call]) (told ++ sent)

variable {Q : Repository → List RepositoryCall → List Event → Prop}

/-- Every repository that a trace leads to has an invariant property. -/
lemma Trace.invariant (inv : Repository.Invariant Q) (trace : Trace calls store events) :
    ∀ repository ∈ store.repositories,
      Q repository (callsOn repository.name calls) (eventsOf repository.name events) := by
  induction trace with
  | start => exact nofun
  | call trace change ih =>
    intro repository member
    rw [callsOn_append, eventsOf_append]
    cases change with
    | create _ _ fresh _ =>
      rcases List.mem_append.1 member with old | new
      · have same := ih repository old
        rwa [← List.append_nil (callsOn _ _), ← List.append_nil (eventsOf _ _)] at same
      · obtain rfl := List.mem_singleton.1 new
        -- nothing was committed or sent under a name that was still free
        obtain ⟨noCalls, noEvents⟩ := trace.absent (Keys.find?_key_none.1 fresh)
        rw [noCalls, noEvents]
        exact inv.created _ _ _ _
    | dump =>
      have same := ih repository member
      rwa [← List.append_nil (callsOn _ _), ← List.append_nil (eventsOf _ _)] at same
    | @within key earlier _ _ _ present change =>
      obtain ⟨named, found⟩ := Store.lookup?_iff.1 present
      obtain ⟨before, _⟩ := Store.mem_of_find? found
      rcases Store.mem_replace member with rfl | ⟨old, other⟩
      · have grown := inv.changed _ _ _ _ _ _ (ih _ before) change
        rwa [callsOn_self (by rw [named, change.name]), change.name, eventsOf_self change.sender]
      · rw [change.name] at other
        have apart : lookupKey? key ≠ some repository.name := by
          rw [named]
          exact fun e => other (Option.some.inj e).symm
        rw [callsOn_of_ne apart, eventsOf_of_ne change.sender other.symm, List.append_nil,
          List.append_nil]
        exact ih repository old

/-- Every repository of a history has an invariant property. -/
theorem History.invariant (inv : Repository.Invariant Q) (actions : List Action) :
    ∀ repository ∈ (ofActions actions).work.content.repositories,
      Q repository (callsOn repository.name (ofActions actions).calls)
        (eventsOf repository.name (ofActions actions).work.events) :=
  (traced actions).invariant inv

namespace History

/-- A short history: a repository is created, an object and two references to it are pushed, and the
first reference is deleted. -/
def sample : List Action :=
  [.perform "main" (.call (.create (.string "depot") (.string "ann") (.string "sha256"))),
    .perform "main" (.call (.inRepository (.string "depot")
      (.push [(Hash.digest .sha256 [1], [1])]
        [(.string "a", Hash.digest .sha256 [1]), (.string "b", Hash.digest .sha256 [1])]))),
    .perform "main" (.call (.inRepository (.string "depot") (.delete (.string "a"))))]

/-- What the short history makes of its repository. -/
def sampleRepository : Repository where
  name := "depot"
  algorithm := .sha256
  defaultBranch := "refs/heads/main"
  owner := "ann"
  pendingOwner := ""
  objects := [⟨Hash.digest .sha256 [1], [1]⟩]
  references := [⟨1, "b", Hash.digest .sha256 [1]⟩]

/-- The short history has this repository. -/
lemma mem_sample : sampleRepository ∈ (ofActions sample).work.content.repositories := by
  decide +kernel

/-- The repository of the short history is found under its name. -/
lemma find?_sample : (ofActions sample).work.content.find? "depot" = some sampleRepository := by
  decide +kernel

end History

end ObjectDepot
