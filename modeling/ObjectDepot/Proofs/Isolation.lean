import ObjectDepot.Proofs.Confinement
import ObjectDepot.Proofs.Refusals
import ObjectDepot.Proofs.TableHistories

/-!
# Requests to different repositories

What a request to a repository comes to is told by what stands under the name alone
(`Service.respond_confined`), and it touches nothing else. So requests that are interleaved with others
to another repository are answered, and do, what they do by themselves (`Service.serve_isolated`). Since
what is done to shared tables stands for what is done to the store (`Service.serve_stands`), it is so
where all repositories share their tables, keys and queries (`requests_isolated`).
-/

namespace ObjectDepot

open Procedure

/-- A list is put together from two others, the order of each of which it keeps. -/
inductive Interleaving {α : Type} : List α → List α → List α → Prop where
  | nil :
    Interleaving [] [] []
  | left {a : α} {first second all : List α} :
    Interleaving first second all →
    Interleaving (a :: first) second (a :: all)
  | right {a : α} {first second all : List α} :
    Interleaving first second all →
    Interleaving first (a :: second) (a :: all)

namespace Interleaving

variable {α : Type} {first second all : List α}

/-- Which list comes first does not matter. -/
lemma symm (interleaving : Interleaving first second all) : Interleaving second first all := by
  induction interleaving with
  | nil => exact .nil
  | left _ ih => exact ih.right
  | right _ ih => exact ih.left

/-- Two lists one after the other are interleaved. -/
lemma append (first second : List α) : Interleaving first second (first ++ second) := by
  induction first with
  | nil =>
    induction second with
    | nil => exact .nil
    | cons a rest ih => exact ih.right
  | cons a rest ih => exact ih.left

/-- What is in the whole is in one of the two. -/
lemma mem (interleaving : Interleaving first second all) {a : α} (member : a ∈ all) :
    a ∈ first ∨ a ∈ second := by
  induction interleaving with
  | nil => cases member
  | left _ ih =>
    rcases List.mem_cons.1 member with rfl | later
    · exact .inl List.mem_cons_self
    · exact (ih later).imp_left (List.mem_cons_of_mem _)
  | right _ ih =>
    rcases List.mem_cons.1 member with rfl | later
    · exact .inr List.mem_cons_self
    · exact (ih later).imp_right (List.mem_cons_of_mem _)

end Interleaving

namespace Store

variable {store other : Store}

/-- A store with distinct names is told by their order and by what is found under each of them. -/
lemma ext_find? (distinct : store.names.Nodup) (names : other.names = store.names)
    (same : ∀ name, other.find? name = store.find? name) : other = store := by
  have lengths : other.repositories.length = store.repositories.length := by
    simpa [Store.names] using congrArg List.length names
  have distinct' : other.names.Nodup := names ▸ distinct
  refine congrArg Store.mk (List.ext_getElem lengths fun i bound bound' => ?_)
  have named : other.repositories[i].name = store.repositories[i].name := by
    have at_i : other.names[i]? = store.names[i]? := by rw [names]
    simpa [Store.names, bound, bound'] using at_i
  have here : other.find? other.repositories[i].name = some other.repositories[i] :=
    (Keys.find?_key_iff distinct').2 ⟨List.getElem_mem _, rfl⟩
  have there : store.find? other.repositories[i].name = some store.repositories[i] :=
    (Keys.find?_key_iff distinct).2 ⟨List.getElem_mem _, named.symm⟩
  rw [same, there] at here
  exact (Option.some.inj here).symm

end Store

namespace Http

/-- Whether a request is for something of the repository with a name. -/
def Request.isFor (request : Request) (name : String) : Bool :=
  match Endpoint.ofPath? (pathOf request.target) with
  | some (.repository repository _) => repository == name
  | _ => false

/-- Answers requests one after another, over any backend. -/
def Service.serve {σ ρ : Type} [RepositoryBackend ρ] [StoreBackend σ ρ] (service : Service) :
    List Request → Work σ → List (Request × Response) × Work σ
  | [], work => ([], work)
  | request :: rest, work =>
    let (response, after) := (service.respond request).run work
    let (answers, left) := service.serve rest after
    ((request, response) :: answers, left)

/-- The answers among others to the requests for a repository. -/
def answersFor (name : String) (served : List (Request × Response)) : List (Request × Response) :=
  served.filter (·.1.isFor name)

/-- What has been done to the repository with a name, and to nothing else. -/
structure OnlyFor (name : String) (work after : Work Store) (left : Option Repository)
    (sent : List Event) : Prop where
  left : after.content.find? name = left
  others : ∀ other, other ≠ name → after.content.find? other = work.content.find? other
  names : after.content.names = work.content.names
  events : after.events = work.events ++ sent
  own : ∀ event ∈ sent, event.repository = name

variable {service : Service} {request : Request} {name other : String} {work after : Work Store}
  {left : Option Repository} {sent : List Event}

/-- A request for a repository is routed there. -/
lemma Request.eq_of_isFor (routed : request.isFor name) :
    ∃ resource, Endpoint.ofPath? (pathOf request.target) = some (.repository name resource) := by
  unfold Request.isFor at routed
  split at routed
  case h_1 repository resource path =>
    obtain rfl := beq_iff_eq.1 routed
    exact ⟨resource, path⟩
  case h_2 => cases routed

/-- A request for a repository is for no other. -/
lemma Request.not_isFor (routed : request.isFor name) (apart : other ≠ name) :
    request.isFor other = false := by
  obtain ⟨resource, path⟩ := eq_of_isFor routed
  simpa [Request.isFor, path] using apart.symm

/-- An answer to a request for a repository is one of its own. -/
lemma answersFor_cons_self {response : Response} {served : List (Request × Response)}
    (here : request.isFor name) :
    answersFor name ((request, response) :: served) =
      (request, response) :: answersFor name served :=
  List.filter_cons_of_pos here

/-- An answer to another request is none of a repository. -/
lemma answersFor_cons_other {response : Response} {served : List (Request × Response)}
    (elsewhere : request.isFor name = false) :
    answersFor name ((request, response) :: served) = answersFor name served :=
  List.filter_cons_of_neg (by simp [elsewhere])

namespace OnlyFor

/-- Where the contents and the queue of events are as they were, nothing has been done. -/
lemma nothing (content : after.content = work.content) (events : after.events = work.events) :
    OnlyFor name work after (work.content.find? name) [] where
  left := by rw [content]
  others _ _ := by rw [content]
  names := by rw [content]
  events := by rw [events, List.append_nil]
  own := nofun

/-- What is done only for one repository tells what it sends of it. -/
lemma eventsOf_self (only : OnlyFor name work after left sent) :
    eventsOf name after.events = eventsOf name work.events ++ sent := by
  rw [only.events, eventsOf_append, ObjectDepot.eventsOf_self only.own]

/-- What is done only for one repository tells nothing of the others. -/
lemma eventsOf_other (only : OnlyFor name work after left sent) (apart : other ≠ name) :
    eventsOf other after.events = eventsOf other work.events := by
  rw [only.events, eventsOf_append, eventsOf_of_ne only.own apart.symm, List.append_nil]

end OnlyFor

/-- Two works are the same for a repository: in what stands under its name, and in the events of it. -/
structure SameFor (name : String) (work other : Work Store) : Prop where
  found : work.content.find? name = other.content.find? name
  events : eventsOf name work.events = eventsOf name other.events

/-- Work is the same for a repository as itself. -/
lemma SameFor.refl : SameFor name work work := ⟨rfl, rfl⟩

/-- What is the same as the same is the same. -/
lemma SameFor.trans {next : Work Store} (first : SameFor name work after)
    (second : SameFor name after next) : SameFor name work next :=
  ⟨first.found.trans second.found, first.events.trans second.events⟩

/-- Of two works that are the same for a repository either may be named first. -/
lemma SameFor.symm (same : SameFor name work after) : SameFor name after work :=
  ⟨same.found.symm, same.events.symm⟩

/-- What is done alike to works that are the same for a repository leaves them the same for it. -/
lemma OnlyFor.same {work' after' : Work Store} (only : OnlyFor name work after left sent)
    (only' : OnlyFor name work' after' left sent) (same : SameFor name work work') :
    SameFor name after after' where
  found := only.left.trans only'.left.symm
  events := by rw [only.eventsOf_self, only'.eventsOf_self, same.events]

/-- What is done only for one repository is the same for all others. -/
lemma OnlyFor.elsewhere (only : OnlyFor name work after left sent) (apart : other ≠ name) :
    SameFor other after work :=
  ⟨only.others other apart, only.eventsOf_other apart⟩

namespace Service

/-- What is asked of a repository and succeeds is done to it alone. -/
lemma handle_onlyFor {method : Method} {resource : Resource} {repository done : Repository}
    {reply : Reply} {sent : List Event} {written : List LogRecord}
    (present : work.content.find? name = some repository) (kept : done.name = name)
    (own : ∀ event ∈ sent, event.repository = name)
    (ran : (service.handleResource request method resource).run { work with content := repository } =
      (.ok reply, ⟨done, work.events ++ sent, work.log ++ written⟩)) :
    ∃ after, (service.handle request method (.repository name resource)).run work =
        (.ok reply, after) ∧
      OnlyFor name work after (some done) sent := by
  refine ⟨_, Store.run_within_some (Store.lookup?_string.trans present) ran, ?_, ?_,
    Store.names_replace, rfl, own⟩
  · rw [← kept] at present ⊢
    exact Store.find?_replace_self present
  · intro other apart
    rw [← kept] at apart
    exact Store.find?_replace_other apart

variable (service) in
/-- How a request to a repository is answered, what it leaves there and what it sends are told by what
stands under the name. -/
lemma respond_confined (routed : request.isFor name) (found : Option Repository) :
    ∃ response left sent, ∀ work : Work Store, work.content.find? name = found →
      ∃ after, (service.respond request).run work = (response, after) ∧
        OnlyFor name work after left sent := by
  obtain ⟨resource, path⟩ := Request.eq_of_isFor routed
  cases allowed : (Method.ofName? request.method).filter
      (· ∈ (Endpoint.repository name resource).methods) with
  | none =>
    refine ⟨_, found, [], fun work here => ⟨_, run_respond_of_method path allowed, ?_⟩⟩
    exact here ▸ .nothing rfl rfl
  | some method =>
    cases found with
    | none =>
      refine ⟨rejection (.repositoryNotFound (.string name)), none, [], fun work here => ?_⟩
      have refused : (service.handle request method (.repository name resource)).run work =
        (.error (.rejected (.repositoryNotFound (.string name))), work) :=
        Store.run_within_none (Store.lookup?_string.trans here)
      refine ⟨_, run_respond path allowed (run_atomically_of_error refused), ?_⟩
      exact here ▸ .nothing rfl rfl
    | some repository =>
      by_cases named : repository.name = name
      case neg =>
        -- nothing is found under a name that is not its own
        exact ⟨.notFound, none, [], fun work here => absurd (Store.mem_of_find? here).2 named⟩
      obtain ⟨outcome, done, sent, written, kept, own, _, ran⟩ :=
        handleResource_confined (method_of_allowed allowed).2 repository named
      -- what a failure has done is undone, and only the answer tells its sort
      rcases outcome with (error | cause) | reply
      · refine ⟨rejection error, some repository, [], fun work here => ?_⟩
        have failed := Store.run_within_some (Store.lookup?_string.trans here) (ran work.events work.log)
        exact ⟨_, run_respond path allowed (run_atomically_of_error failed), here ▸ .nothing rfl rfl⟩
      · refine ⟨.crashed cause, some repository, [], fun work here => ?_⟩
        have failed := Store.run_within_some (Store.lookup?_string.trans here) (ran work.events work.log)
        exact ⟨_, run_respond path allowed (run_atomically_of_error failed), here ▸ .nothing rfl rfl⟩
      · refine ⟨.json reply.status reply.body, some done, sent, fun work here => ?_⟩
        obtain ⟨after, handled, only⟩ := handle_onlyFor here kept own (ran work.events work.log)
        exact ⟨after, run_respond path allowed (run_atomically_of_ok handled), only⟩

variable {a b : String} {requests first second all : List Request}

/-- The first of several requests is answered, and then the others on what it leaves. -/
lemma serve_cons {σ ρ : Type} [RepositoryBackend ρ] [StoreBackend σ ρ] {work after : Work σ}
    {response : Response} {rest : List Request}
    (ran : (service.respond request).run work = (response, after)) :
    service.serve (request :: rest) work =
      ((request, response) :: (service.serve rest after).1, (service.serve rest after).2) := by
  simp only [serve, ran]

/-- Requests to repositories create none and rename none. -/
lemma names_serve (routed : ∀ request ∈ requests, ∃ name, request.isFor name) :
    (service.serve requests work).2.content.names = work.content.names := by
  induction requests generalizing work with
  | nil => rfl
  | cons request rest ih =>
    obtain ⟨name, here⟩ := routed request List.mem_cons_self
    obtain ⟨response, left, sent, acts⟩ := service.respond_confined here (work.content.find? name)
    obtain ⟨after, ran, only⟩ := acts work rfl
    have later : (service.serve rest after).2.content.names = after.content.names :=
      ih fun request member => routed request (List.mem_cons_of_mem _ member)
    rw [serve_cons ran]
    exact later.trans only.names

/-- Requests to one repository are answered among requests to others as they are by themselves, on
any work that is the same for the one. -/
lemma serve_interleaved (interleaving : Interleaving first second all)
    (routed : ∀ request ∈ first, request.isFor name)
    (elsewhere : ∀ request ∈ second, ∃ other, name ≠ other ∧ request.isFor other)
    {alone : Work Store} (same : SameFor name work alone) :
    answersFor name (service.serve all work).1 = (service.serve first alone).1 ∧
      SameFor name (service.serve all work).2 (service.serve first alone).2 := by
  induction interleaving generalizing work alone with
  | nil => exact ⟨rfl, same⟩
  | @left request first second all _ ih =>
    obtain ⟨here, routed⟩ := List.forall_mem_cons.1 routed
    obtain ⟨response, left, sent, acts⟩ := service.respond_confined here (work.content.find? name)
    obtain ⟨after, ran, only⟩ := acts work rfl
    obtain ⟨after', ran', only'⟩ := acts alone same.found.symm
    obtain ⟨answers, later⟩ := ih routed elsewhere (only.same only' same)
    rw [serve_cons ran, serve_cons ran', answersFor_cons_self here, answers]
    exact ⟨rfl, later⟩
  | @right request first second all _ ih =>
    obtain ⟨⟨other, apart, there⟩, elsewhere⟩ := List.forall_mem_cons.1 elsewhere
    obtain ⟨response, left, sent, acts⟩ := service.respond_confined there (work.content.find? other)
    obtain ⟨after, ran, only⟩ := acts work rfl
    obtain ⟨answers, later⟩ := ih routed elsewhere ((only.elsewhere apart).trans same)
    rw [serve_cons ran, answersFor_cons_other (Request.not_isFor there apart), answers]
    exact ⟨rfl, later⟩

variable (service work) in
/-- What requests to two repositories leave: of each of them what its own requests leave, and of the
store nothing else. -/
lemma serve_two (order : Interleaving first second all) (apart : a ≠ b)
    (toFirst : ∀ request ∈ first, request.isFor a)
    (toSecond : ∀ request ∈ second, request.isFor b) :
    (answersFor a (service.serve all work).1 = (service.serve first work).1 ∧
      SameFor a (service.serve all work).2 (service.serve first work).2) ∧
    (answersFor b (service.serve all work).1 = (service.serve second work).1 ∧
      SameFor b (service.serve all work).2 (service.serve second work).2) ∧
    (∀ other, other ≠ a → other ≠ b → SameFor other (service.serve all work).2 work) ∧
    (service.serve all work).2.content.names = work.content.names := by
  have routed : ∀ request ∈ all, request.isFor a ∨ request.isFor b := fun request member =>
    (order.mem member).imp (toFirst request) (toSecond request)
  refine ⟨?_, ?_, ?_, ?_⟩
  · refine serve_interleaved order toFirst ?_ .refl
    exact fun request member => ⟨b, apart, toSecond request member⟩
  · refine serve_interleaved order.symm toSecond ?_ .refl
    exact fun request member => ⟨a, apart.symm, toFirst request member⟩
  · intro other notFirst notSecond
    have elsewhere : ∀ request ∈ all, ∃ name, other ≠ name ∧ request.isFor name := by
      intro request member
      rcases routed request member with here | there
      · exact ⟨a, notFirst, here⟩
      · exact ⟨b, notSecond, there⟩
    -- all of them are interleaved with no request of its own
    exact (serve_interleaved (.append [] all) nofun elsewhere .refl).2
  · refine names_serve fun request member => ?_
    rcases routed request member with here | there
    · exact ⟨a, here⟩
    · exact ⟨b, there⟩

variable (service work) in
/-- Requests to two repositories are answered in any order as those to each of them are by themselves, and
leave of it, and tell of it, what they do by themselves. The store that they all leave does not depend on
their order. -/
lemma serve_isolated (distinct : work.content.names.Nodup) (order : Interleaving first second all)
    (apart : a ≠ b) (toFirst : ∀ request ∈ first, request.isFor a)
    (toSecond : ∀ request ∈ second, request.isFor b) :
    (answersFor a (service.serve all work).1 = (service.serve first work).1 ∧
      SameFor a (service.serve all work).2 (service.serve first work).2) ∧
    (answersFor b (service.serve all work).1 = (service.serve second work).1 ∧
      SameFor b (service.serve all work).2 (service.serve second work).2) ∧
    (service.serve all work).2.content = (service.serve (first ++ second) work).2.content := by
  obtain ⟨forFirst, forSecond, others, names⟩ := service.serve_two work order apart toFirst toSecond
  obtain ⟨⟨_, first'⟩, ⟨_, second'⟩, others', names'⟩ :=
    service.serve_two work (.append first second) apart toFirst toSecond
  refine ⟨forFirst, forSecond, ?_⟩
  have distinct' : (service.serve (first ++ second) work).2.content.names.Nodup := by rwa [names']
  refine Store.ext_find? distinct' (names.trans names'.symm) fun name => ?_
  by_cases isFirst : name = a
  · subst isFirst
    exact forFirst.2.found.trans first'.found.symm
  by_cases isSecond : name = b
  · subst isSecond
    exact forSecond.2.found.trans second'.found.symm
  · exact (others name isFirst isSecond).found.trans (others' name isFirst isSecond).found.symm

variable (service) in
/-- Requests to consistent tables are answered as those to the store for which they stand, and leave what
stands for what those leave. -/
lemma serve_stands (requests : List Request) {tables : Work Tables}
    (consistent : tables.content.Consistent) :
    service.serve requests (tables.map Tables.store) =
      ((service.serve requests tables).1, (service.serve requests tables).2.map Tables.store) := by
  induction requests generalizing tables with
  | nil => rfl
  | cons request rest ih =>
    rcases ran : (service.respond request).run tables with ⟨response, after⟩
    obtain ⟨ran', there⟩ := Tables.respond_stands consistent ran
    rw [serve_cons ran, serve_cons ran', ih there]

end Service

end Http

/-- Whatever has been done to shared tables, and for all requests to two repositories, in whatever order
they come: those to one of them are answered as they are by themselves, and leave of it, and tell of it,
what they do by themselves. The store for which the tables stand in the end does not depend on the
order. -/
theorem requests_isolated (actions : List Action) (service : Http.Service) (a b : String)
    (first second all : List Http.Request) (apart : a ≠ b)
    (toFirst : ∀ request ∈ first, request.isFor a)
    (toSecond : ∀ request ∈ second, request.isFor b)
    (interleaving : Interleaving first second all) :
    let start := Tables.ofActions actions
    let together := service.serve all start
    let firstAlone := service.serve first start
    let secondAlone := service.serve second start
    (Http.answersFor a together.1 = firstAlone.1 ∧
      Http.SameFor a (together.2.map Tables.store) (firstAlone.2.map Tables.store)) ∧
    (Http.answersFor b together.1 = secondAlone.1 ∧
      Http.SameFor b (together.2.map Tables.store) (secondAlone.2.map Tables.store)) ∧
    together.2.content.store = (service.serve (first ++ second) start).2.content.store := by
  intro start together firstAlone secondAlone
  obtain ⟨consistent, _⟩ := Tables.ofActions_stands actions
  have isolated := service.serve_isolated (start.map Tables.store) consistent.distinct interleaving apart
    toFirst toSecond
  rw [service.serve_stands all consistent, service.serve_stands first consistent,
    service.serve_stands second consistent, service.serve_stands (first ++ second) consistent] at isolated
  exact isolated

namespace History

/-- The short history, after which there is a second repository. -/
def annexed : List Action :=
  sample ++
    [.perform "main" (.call (.create (.string "annex") (.string "ann") (.string "sha256")))]

/-- The owner pushes an object and a reference to it into a repository. -/
def samplePush (name : String) : Http.Request where
  method := "POST"
  target := "/api/git/" ++ name ++ "/push"
  login := some "ann"
  authorization := ""
  body :=
    let hash : Json := .string (Hex.encode (Hash.digest .sha256 [1]))
    Json.toBytes (.object [
      ("objects", .array [.object [("hash", hash), ("data", .string "01")]]),
      ("refs", .array [.object [("name", .string "b"), ("hash", hash)]])])

/-- The same push is refused by the repository that has the object, and accepted by the other one
between two requests to the first. -/
theorem requests_isolated_sample :
    let start := Tables.ofActions annexed
    let first := [samplePush "depot", sampleDeletions]
    let second := [samplePush "annex"]
    let together := sampleService.serve
      [samplePush "depot", samplePush "annex", sampleDeletions] start
    (∀ request ∈ first, request.isFor "depot") ∧ (∀ request ∈ second, request.isFor "annex") ∧
      Http.answersFor "annex" together.1 = (sampleService.serve second start).1 ∧
      together.2.content.store = (sampleService.serve (first ++ second) start).2.content.store := by
  have toFirst : ∀ request ∈ [samplePush "depot", sampleDeletions], request.isFor "depot" := by
    decide +kernel
  have toSecond : ∀ request ∈ [samplePush "annex"], request.isFor "annex" := by
    decide +kernel
  obtain ⟨_, ⟨answers, _⟩, content⟩ := requests_isolated annexed sampleService "depot" "annex"
    [samplePush "depot", sampleDeletions] [samplePush "annex"]
    [samplePush "depot", samplePush "annex", sampleDeletions] (by decide) toFirst toSecond
    (.left (.right (.left .nil)))
  exact ⟨toFirst, toSecond, answers, content⟩

end History

end ObjectDepot
