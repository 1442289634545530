import ObjectDepot.Proofs.Effects
import ObjectDepot.Proofs.Histories

/-!
# Requests that change nothing

A request that is not answered with success leaves the store as it was and sends no event, whatever its
handler has done before it failed. So does a request that only reads, since the call that it asks for is
a reading one (`Service.call_read`).
-/

namespace ObjectDepot

open Procedure

/-- A call that reads and succeeds leaves the contents and the queue of events as they were. -/
lemma perform_read {branch : String} {key : Json} {operation : RepositoryCall}
    {work after : Work Store} {answer : Answer}
    (distinct : work.content.names.Nodup) (reading : operation.isRead)
    (h : ((Call.inRepository key operation).perform branch).run work = (.ok answer, after)) :
    after.content = work.content ∧ after.events = work.events := by
  have single : (Call.inRepository key operation).isPush = false :=
    RepositoryCall.single_of_read reading
  rcases Call.settled single distinct h with ⟨_, e, _⟩ | ⟨_, sent, _, events, change⟩
  · cases e
  generalize after.content = left at change ⊢
  cases change with
  | within present change =>
    obtain ⟨rfl, rfl⟩ := change.of_read reading
    obtain ⟨_, found⟩ := Store.lookup?_iff.1 present
    exact ⟨Store.replace_self distinct found, events.trans (List.append_nil _)⟩

namespace Http

/-- A request that only reads: by the method `GET`, or to resolve names. -/
inductive Request.Reads (request : Request) : Prop where
  | get :
    Method.ofName? request.method = some .get →
    request.Reads
  | resolve {name : String} :
    Method.ofName? request.method = some .post →
    Endpoint.ofPath? (pathOf request.target) = some (.repository name .resolve) →
    request.Reads

namespace Service

variable {service : Service} {request : Request} {method : Method} {resource : Resource}
  {endpoint : Endpoint}

/-- What is asked for by `GET`, and what is asked of the resolver, is a reading operation. -/
lemma operation_read {operation : RepositoryCall} (allowed : method ∈ resource.methods)
    (reads : method = .get ∨ resource = .resolve)
    (asked : service.operation request method resource = .ok operation) : operation.isRead := by
  cases resource with
  | objects =>
    obtain rfl : method = .get := by simpa using reads
    cases asked
    rfl
  | object text =>
    obtain ⟨hash, _, told⟩ := except_bind_ok asked
    cases told
    rfl
  | references =>
    cases asked
    rfl
  | reference name =>
    obtain rfl : method = .get := by simpa using reads
    cases asked
    rfl
  | resolve =>
    obtain ⟨members, _, told⟩ := except_bind_ok asked
    cases told
    rfl
  | push | defaultBranch | transfer | accept =>
    -- what takes no `GET` is not read
    rcases reads with rfl | other
    · exact absurd allowed (by decide)
    · cases other

/-- A request that only reads asks for a reading operation inside a repository. -/
lemma call_read {call : Call} (reads : request.Reads)
    (path : Endpoint.ofPath? (pathOf request.target) = some endpoint)
    (allowed : (Method.ofName? request.method).filter (· ∈ endpoint.methods) = some method)
    (asked : service.call request method endpoint = .ok call) :
    ∃ key operation, call = .inRepository key operation ∧ operation.isRead := by
  obtain ⟨named, permitted⟩ := method_of_allowed allowed
  cases endpoint with
  | repositories =>
    obtain rfl := List.mem_singleton.1 permitted
    cases reads with
    | get get => cases named.symm.trans get
    | resolve _ target => cases path.symm.trans target
  | repository name resource =>
    have reads' : method = .get ∨ resource = .resolve := by
      cases reads with
      | get get =>
        cases named.symm.trans get
        exact .inl rfl
      | resolve _ target =>
        cases path.symm.trans target
        exact .inr rfl
    obtain ⟨operation, found, told⟩ := except_bind_ok asked
    cases told
    exact ⟨_, operation, rfl, operation_read permitted reads' found⟩

end Service

end Http

/-- In every history a request that is not answered with success, and a request that only reads, leaves
the store as it was and sends no event. -/
theorem respond_unchanged (actions : List Action) (service : Http.Service) (request : Http.Request)
    (response : Http.Response) (after : Work Store)
    (h : (service.respond request).run (History.ofActions actions).work = (response, after))
    (idle : response.succeeded = false ∨ request.Reads) :
    after.content = (History.ofActions actions).work.content ∧
      after.events = (History.ofActions actions).work.events := by
  have distinct := (History.traced actions).distinct
  rcases Http.Service.respond_handled h with ⟨endpoint, method, reply, path, allowed, ran, rfl⟩ | kept
  · rcases Http.Service.handle_ok ran with ⟨_, rfl⟩ | ⟨call, answer, asked, performed, status⟩
    · exact ⟨rfl, rfl⟩
    rcases idle with failed | reads
    · rcases status with status | status <;> rw [Http.Response.succeeded, status] at failed <;>
        cases failed
    · obtain ⟨key, operation, rfl, reading⟩ := Http.Service.call_read reads path allowed asked
      exact perform_read distinct reading performed
  · exact kept.2

namespace History

/-- A service with two accounts. -/
def sampleService : Http.Service :=
  ⟨"main", [⟨"ann", "secret", true⟩, ⟨"bob", "secret", true⟩]⟩

/-- A push by the owner that deletes a reference twice. -/
def sampleDeletions : Http.Request where
  method := "POST"
  target := "/api/git/depot/push"
  login := some "ann"
  authorization := ""
  body :=
    let deletion : Json := .object [("name", .string "b"),
      ("hash", .string "0000000000000000000000000000000000000000")]
    Json.toBytes (.object [("refs", .array [deletion, deletion])])

/-- The second deletion finds no reference, and the first is undone. -/
theorem respond_unchanged_sample :
    ∃ response after,
      (sampleService.respond sampleDeletions).run (ofActions sample).work = (response, after) ∧
        response.succeeded = false ∧ after.content = (ofActions sample).work.content ∧
        after.events = (ofActions sample).work.events := by
  have failed : ((sampleService.respond sampleDeletions).run
      (ofActions sample).work).1.succeeded = false := by decide +kernel
  rcases ran : (sampleService.respond sampleDeletions).run (ofActions sample).work with
    ⟨response, after⟩
  rw [ran] at failed
  have kept := respond_unchanged sample sampleService sampleDeletions response after ran
    (.inl failed)
  exact ⟨response, after, rfl, failed, kept⟩

end History

end ObjectDepot
