import ObjectDepot.Http.Service
import ObjectDepot.Proofs.Changes
import ObjectDepot.Proofs.Repositories

/-!
# Requests as calls

A request that succeeds does what one call of the library does. `Service.operation` reads that call off
the request, and `handleResource_ok` and `handle_ok` say that nothing else is done. `respond_cases` is
the main result: a request either does its call or leaves the store as it was.
-/

namespace ObjectDepot.Http

open Procedure

/-- Whether an answer tells of success. -/
def Response.succeeded : Response → Bool
  | .json status _ => 200 ≤ status && status < 300
  | _ => false

namespace Service

/-- The account that sends a request. -/
def sender (service : Service) (request : Request) : Except Failure (Option String) :=
  (Http.caller service.accounts request.login request.authorization).mapError .fault

/-- The operation that is asked of a repository. -/
def operation (service : Service) (request : Request) (method : Method) :
    Resource → Except Failure RepositoryCall
  | .push => do
    let members ← request.members
    let objects ← (← items members "objects").mapM pushedObject
    let references ← (← items members "refs").mapM pushedReference
    return .push objects references
  | .objects =>
    if method = .get then return .listObjects
    else do
      let members ← request.members
      let hash ← Hash.ofJson (field members "hash")
      let data ← payloadOfJson (field members "data")
      return .put hash data
  | .object text => do return .get (← Hash.ofJson (.string text))
  | .references => return .listReferences
  | .reference name =>
    match method with
    | .get => return .getReference (.string name)
    | .delete => return .delete (.string name)
    | _ => do
      let members ← request.members
      let hash ← Hash.ofJson (field members "hash")
      return .upsert (.string name) hash
  | .resolve => do
    let members ← request.members
    return .resolve ((members.get? "names").getD (.array []))
  | .defaultBranch => do
    let members ← request.members
    return .setDefaultBranch ((members.get? "name").getD (.string ""))
  | .transfer => do
    let account ← service.sender request
    let members ← request.members
    return .transfer (callerValue account) ((members.get? "owner").getD (.string ""))
  | .accept => do return .accept (callerValue (← service.sender request))

variable {service : Service} {request : Request} {method : Method} {resource : Resource}
  {work after : Work Repository} {reply : Reply}

/-- Asking who sends a request changes nothing. -/
lemma run_caller {σ : Type} (work : Work σ) :
    (service.caller request).run work = (service.sender request, work) :=
  run_orFault _ _

/-- What succeeds after the question who sends a request knows it. -/
lemma caller_bind_ok {σ α : Type} {f : Option String → Procedure σ α} {work after : Work σ} {a : α}
    (h : (service.caller request >>= f).run work = (.ok a, after)) :
    ∃ account, service.sender request = .ok account ∧ (f account).run work = (.ok a, after) := by
  rw [run_bind, run_caller] at h
  cases e : service.sender request with
  | error failure =>
    rw [e] at h
    cases h
  | ok account =>
    rw [e] at h
    exact ⟨account, rfl, h⟩

/-- The gate of a repository asks for its owner. -/
lemma gate_eq : service.gate request =
    service.caller request >>= fun account => Repository.ensureOwner (callerValue account) :=
  rfl

/-- Only the owner passes the gate, which changes nothing. -/
lemma gate_bind_ok {α : Type} {f : Unit → Procedure Repository α} {a : α}
    (h : (service.gate request >>= f).run work = (.ok a, after)) :
    (∃ account, service.sender request = .ok account ∧
      Repository.isAccount (callerValue account) work.content.owner) ∧
      (f ()).run work = (.ok a, after) := by
  rw [gate_eq, bind_assoc] at h
  obtain ⟨account, sent, rest⟩ := caller_bind_ok h
  rw [run_bind, Repository.run_ensureOwner] at rest
  by_cases owner : Repository.isAccount (callerValue account) work.content.owner
  · rw [if_pos owner] at rest
    exact ⟨⟨account, sent, owner⟩, rest⟩
  · rw [if_neg owner] at rest
    cases rest

/-- What is asked of a repository is handled on it. -/
lemma handle_repository {name : String} :
    service.handle request method (.repository name resource) =
      Store.within (.string name) (service.handleResource request method resource) :=
  rfl

/-- The call of the library that is asked of an endpoint. -/
def call (service : Service) (request : Request) (method : Method) :
    Endpoint → Except Failure Call
  | .repositories => do
    let members ← request.members
    let account ← service.sender request
    match (members.get? "sha256").getD (.bool true) with
    | .bool sha256 =>
      return .create ((members.get? "name").getD (.string "")) (callerValue account)
        (.string (Algorithm.ofFlag sha256).name)
    | _ => throw (.rejected (.badRequest .sha256NotBoolean))
  | .repository name resource => do
    return .inRepository (.string name) (← service.operation request method resource)

/-- The call of the library that a request asks for. -/
def call? (service : Service) (request : Request) : Option Call := do
  let endpoint ← Endpoint.ofPath? (pathOf request.target)
  let method ← (Method.ofName? request.method).filter (· ∈ endpoint.methods)
  (service.call request method endpoint).toOption

/-- What the handler of a request does where it succeeds: the operation that the request asks for. -/
def Does (service : Service) (request : Request) (method : Method) (resource : Resource)
    (work after : Work Repository) (reply : Reply) : Prop :=
  ∃ call answer, service.operation request method resource = .ok call ∧
    call.perform.run work = (.ok answer, after) ∧ (reply.status = 200 ∨ reply.status = 201)

/-- A request to add an object does this where it succeeds. -/
lemma addObject_ok (notGet : method ≠ .get)
    (h : (service.addObject request).run work = (.ok reply, after)) :
    service.Does request method .objects work after reply := by
  rw [addObject] at h
  obtain ⟨_, h⟩ := gate_bind_ok h
  obtain ⟨members, hMembers, h⟩ := ofExcept_bind_ok h
  obtain ⟨hash, hHash, h⟩ := ofExcept_bind_ok h
  obtain ⟨data, hData, h⟩ := ofExcept_bind_ok h
  obtain ⟨_, _, hPut, h⟩ := bind_ok h
  cases h
  refine ⟨.put hash data, .done, ?_, run_bind_of_ok hPut, .inr rfl⟩
  simp only [operation, if_neg notGet, bind, Except.bind, hMembers, hHash, hData]
  rfl

/-- A request to put a reference that succeeds does the operation that it asks for. -/
lemma putReference_ok {name : String} (notGet : method ≠ .get) (notDelete : method ≠ .delete)
    (h : (service.putReference request name).run work = (.ok reply, after)) :
    service.Does request method (.reference name) work after reply := by
  rw [putReference] at h
  obtain ⟨_, h⟩ := gate_bind_ok h
  obtain ⟨members, hMembers, h⟩ := ofExcept_bind_ok h
  obtain ⟨hash, hHash, h⟩ := ofExcept_bind_ok h
  obtain ⟨previous, _, hUpsert, h⟩ := bind_ok h
  cases h
  refine ⟨.upsert (.string name) hash, .bytes previous, ?_, run_bind_of_ok hUpsert, .inl rfl⟩
  cases method with
  | get => exact absurd rfl notGet
  | delete => exact absurd rfl notDelete
  | _ =>
    simp only [operation, bind, Except.bind, hMembers, hHash]
    rfl

/-- A request to delete a reference that succeeds does the operation that it asks for. -/
lemma deleteReference_ok {name : String}
    (h : (service.deleteReference request name).run work = (.ok reply, after)) :
    service.Does request .delete (.reference name) work after reply := by
  rw [deleteReference] at h
  obtain ⟨_, h⟩ := gate_bind_ok h
  obtain ⟨previous, _, hDelete, h⟩ := bind_ok h
  cases h
  exact ⟨.delete (.string name), .bytes previous, rfl, run_bind_of_ok hDelete, .inl rfl⟩

/-- A request to push that succeeds does the operation that it asks for. -/
lemma push_ok (h : (service.push request).run work = (.ok reply, after)) :
    service.Does request method .push work after reply := by
  rw [push] at h
  obtain ⟨_, h⟩ := gate_bind_ok h
  obtain ⟨members, hMembers, h⟩ := ofExcept_bind_ok h
  obtain ⟨objectItems, hObjectItems, h⟩ := ofExcept_bind_ok h
  obtain ⟨objects, hObjects, h⟩ := ofExcept_bind_ok h
  obtain ⟨referenceItems, hReferenceItems, h⟩ := ofExcept_bind_ok h
  obtain ⟨references, hReferences, h⟩ := ofExcept_bind_ok h
  obtain ⟨_, _, hPush, h⟩ := bind_ok h
  cases h
  refine ⟨.push objects references, .done, ?_, run_bind_of_ok hPush, .inl rfl⟩
  simp only [operation, bind, Except.bind, hMembers, hObjectItems, hObjects, hReferenceItems,
    hReferences]
  rfl

/-- A request to set the default branch that succeeds does the operation that it asks for. -/
lemma setDefaultBranch_ok (h : (service.setDefaultBranch request).run work = (.ok reply, after)) :
    service.Does request method .defaultBranch work after reply := by
  rw [setDefaultBranch] at h
  obtain ⟨_, h⟩ := gate_bind_ok h
  obtain ⟨members, hMembers, h⟩ := ofExcept_bind_ok h
  obtain ⟨branch, _, hBranch, h⟩ := bind_ok h
  cases h
  refine ⟨.setDefaultBranch _, .branch branch, ?_, run_bind_of_ok hBranch, .inl rfl⟩
  simp only [operation, hMembers]
  rfl

/-- A request to name a successor that succeeds does the operation that it asks for. -/
lemma transfer_ok (h : (service.transfer request).run work = (.ok reply, after)) :
    service.Does request method .transfer work after reply := by
  rw [transfer] at h
  obtain ⟨account, hAccount, h⟩ := caller_bind_ok h
  obtain ⟨members, hMembers, h⟩ := ofExcept_bind_ok h
  obtain ⟨_, mid, hTransfer, h⟩ := bind_ok h
  cases h
  refine ⟨.transfer (callerValue account) _, _, ?_, run_bind_of_ok hTransfer, .inl rfl⟩
  simp only [operation, hAccount, hMembers]
  rfl

/-- A request to accept the ownership that succeeds does the operation that it asks for. -/
lemma accept_ok (h : (service.accept request).run work = (.ok reply, after)) :
    service.Does request method .accept work after reply := by
  rw [accept] at h
  obtain ⟨account, hAccount, h⟩ := caller_bind_ok h
  obtain ⟨_, mid, hAccept, h⟩ := bind_ok h
  cases h
  refine ⟨.accept (callerValue account), _, ?_, run_bind_of_ok hAccept, .inl rfl⟩
  simp only [operation, hAccount]
  rfl

/-- A request to resolve names that succeeds does the operation that it asks for. -/
lemma resolve_ok (h : (resolve request).run work = (.ok reply, after)) :
    service.Does request method .resolve work after reply := by
  rw [resolve] at h
  obtain ⟨members, hMembers, h⟩ := ofExcept_bind_ok h
  split at h
  case h_1 names hNames =>
    obtain ⟨hashes, mid, hResolve, h⟩ := bind_ok h
    cases h
    refine ⟨.resolve (.array names), .hashes hashes, ?_, run_bind_of_ok hResolve, .inl rfl⟩
    simp only [operation, hMembers, ← hNames]
    rfl
  case h_2 => cases h

/-- A request to show an object that succeeds does the operation that it asks for. -/
lemma showObject_ok {text : String} (h : (showObject text).run work = (.ok reply, after)) :
    service.Does request method (.object text) work after reply := by
  rw [showObject] at h
  obtain ⟨hash, hHash, h⟩ := ofExcept_bind_ok h
  obtain ⟨data, _, hGet, h⟩ := bind_ok h
  cases h
  refine ⟨.get hash, .bytes data, ?_, run_bind_of_ok hGet, .inl rfl⟩
  simp only [operation, hHash]
  rfl

/-- A request to show a reference that succeeds does the operation that it asks for. -/
lemma showReference_ok {name : String} (h : (showReference name).run work = (.ok reply, after)) :
    service.Does request .get (.reference name) work after reply := by
  rw [showReference] at h
  obtain ⟨hash, _, hGet, h⟩ := bind_ok h
  cases h
  exact ⟨.getReference (.string name), .bytes hash, rfl, run_bind_of_ok hGet, .inl rfl⟩

/-- A request to a repository that succeeds does the operation that it asks for. -/
lemma handleResource_ok
    (h : (service.handleResource request method resource).run work = (.ok reply, after)) :
    service.Does request method resource work after reply := by
  cases resource with
  | push => exact push_ok h
  | objects =>
    cases method with
    | get =>
      cases h
      exact ⟨.listObjects, _, rfl, rfl, .inl rfl⟩
    | _ => exact addObject_ok nofun h
  | object hash => exact showObject_ok h
  | references =>
    cases h
    exact ⟨.listReferences, _, rfl, rfl, .inl rfl⟩
  | reference name =>
    cases method with
    | get => exact showReference_ok h
    | delete => exact deleteReference_ok h
    | _ => exact putReference_ok nofun nofun h
  | resolve => exact resolve_ok h
  | defaultBranch => exact setDefaultBranch_ok h
  | transfer => exact transfer_ok h
  | accept => exact accept_ok h

/-- A request that is handled does the call that it asks for, unless nobody is logged in to create a
repository. -/
lemma handle_ok {endpoint : Endpoint} {work after : Work Store}
    (h : (service.handle request method endpoint).run work = (.ok reply, after)) :
    (reply.status = 401 ∧ after = work) ∨
      ∃ call answer, service.call request method endpoint = .ok call ∧
        (call.perform service.branch).run work = (.ok answer, after) ∧
        (reply.status = 200 ∨ reply.status = 201) := by
  cases endpoint with
  | repositories =>
    unfold handle createRepository at h
    obtain ⟨members, hMembers, h⟩ := ofExcept_bind_ok h
    obtain ⟨account, hAccount, h⟩ := caller_bind_ok h
    cases account with
    | none =>
      cases h
      exact .inl ⟨rfl, rfl⟩
    | some account =>
      dsimp only at h
      -- the flag selects the algorithm, and anything but a truth value is refused
      split at h
      case h_1 sha256 hFlag =>
        obtain ⟨summary, _, hCreate, h⟩ := bind_ok h
        cases h
        refine .inr ⟨.create _ (.string account) _, .summary summary, ?_, run_bind_of_ok hCreate,
          .inr rfl⟩
        simp only [call, bind, Except.bind, hMembers, hAccount, hFlag]
        rfl
      case h_2 => cases h
  | repository name resource =>
    right
    rw [handle_repository] at h
    cases found : work.content.lookup? (.string name) with
    | none =>
      rw [Store.run_within_none found] at h
      cases h
    | some repository =>
      obtain ⟨done, ran, rfl⟩ := Store.within_eq found h
      obtain ⟨call, answer, asked, performed, status⟩ := handleResource_ok ran
      refine ⟨.inRepository (.string name) call, answer, ?_,
        Store.run_within_some found performed, status⟩
      simp only [Service.call, bind, Except.bind, asked]
      rfl

/-- A rejection does not tell of success. -/
lemma succeeded_rejection (error : StoreError) : (rejection error).succeeded = false := by
  cases error <;> rfl

/-- A method that is let through is the one that the request names. -/
lemma method_of_allowed {endpoint : Endpoint}
    (allowed : (Method.ofName? request.method).filter (· ∈ endpoint.methods) = some method) :
    Method.ofName? request.method = some method ∧ method ∈ endpoint.methods := by
  simpa using Option.filter_eq_some_iff.1 allowed

/-- A method that is taken at an endpoint is allowed there. -/
lemma allowed_of_method {endpoint : Endpoint} (sort : Method.ofName? request.method = some method)
    (permitted : method ∈ endpoint.methods) :
    (Method.ofName? request.method).filter (· ∈ endpoint.methods) = some method := by
  rw [sort]
  exact Option.filter_some_pos (decide_eq_true permitted)

section

variable {σ ρ : Type} [RepositoryBackend ρ] [StoreBackend σ ρ] {work after : Work σ}

/-- What a handler makes of a request is answered, and a rejection goes into the log. -/
lemma run_respond {endpoint : Endpoint} {outcome : Except Failure Reply}
    (path : Endpoint.ofPath? (pathOf request.target) = some endpoint)
    (allowed : (Method.ofName? request.method).filter (· ∈ endpoint.methods) = some method)
    (ran : (atomically (service.handle request method endpoint)).run work = (outcome, after)) :
    (service.respond request).run work = match outcome with
      | .ok reply => (.json reply.status reply.body, after)
      | .error (.rejected error) => (rejection error, { after with
          log := after.log ++
            [.requestRejected method.name (String.ofList (pathOf request.target)) error] })
      | .error (.fault cause) => (.crashed cause, after) := by
  have ran' : StateT.run (ExceptT.run (atomically (service.handle request method endpoint))) work =
    (outcome, after) := ran
  simp only [respond, path, allowed, StateT.run_bind, ran']
  rcases outcome with (error | cause) | reply <;> rfl

/-- A request for nothing that there is changes nothing. -/
lemma run_respond_of_path
    (path : Endpoint.ofPath? (pathOf request.target) = none) :
    (service.respond request).run work = (.notFound, work) := by
  simp only [respond, path]
  rfl

/-- A method that is not taken changes nothing. -/
lemma run_respond_of_method {endpoint : Endpoint}
    (path : Endpoint.ofPath? (pathOf request.target) = some endpoint)
    (refused : (Method.ofName? request.method).filter (· ∈ endpoint.methods) = none) :
    (service.respond request).run work = (.methodNotAllowed endpoint.methods, work) := by
  simp only [respond, path, refused]
  rfl

end

/-- What is answered for something of a repository is answered to a request for it. -/
lemma respond_of_handleResource {work : Work Store} {name : String} {resource : Resource}
    {repository : Repository} {reply : Reply} {done : Work Repository}
    (path : Endpoint.ofPath? (pathOf request.target) = some (.repository name resource))
    (sort : Method.ofName? request.method = some method) (permitted : method ∈ resource.methods)
    (here : work.content.find? name = some repository)
    (handled : (service.handleResource request method resource).run { work with content := repository } =
      (.ok reply, done)) :
    ((service.respond request).run work).1 = .json reply.status reply.body := by
  have allowed : (Method.ofName? request.method).filter
      (· ∈ (Endpoint.repository name resource).methods) = some method := allowed_of_method sort permitted
  have ran := Store.run_within_some (Store.lookup?_string.trans here) handled
  rw [run_respond path allowed (run_atomically_of_ok ran)]

variable {work after : Work Store} {response : Response}

/-- A request either is answered with what its handler makes of it, or is not answered with success and
leaves the contents and the queue of events as they were. -/
lemma respond_handled (h : (service.respond request).run work = (response, after)) :
    (∃ endpoint method reply, Endpoint.ofPath? (pathOf request.target) = some endpoint ∧
      (Method.ofName? request.method).filter (· ∈ endpoint.methods) = some method ∧
      (service.handle request method endpoint).run work = (.ok reply, after) ∧
      response = .json reply.status reply.body) ∨
    (response.succeeded = false ∧ after.content = work.content ∧ after.events = work.events) := by
  cases path : Endpoint.ofPath? (pathOf request.target) with
  | none =>
    rw [run_respond_of_path path] at h
    cases h
    exact .inr ⟨rfl, rfl, rfl⟩
  | some endpoint =>
    cases allowed : (Method.ofName? request.method).filter (· ∈ endpoint.methods) with
    | none =>
      rw [run_respond_of_method path allowed] at h
      cases h
      exact .inr ⟨rfl, rfl, rfl⟩
    | some method =>
      rcases ran : (atomically (service.handle request method endpoint)).run work with
        ⟨(error | cause) | reply, done⟩
      all_goals
        rw [run_respond path allowed ran] at h
        cases h
      · obtain ⟨content, events⟩ := atomically_error ran
        exact .inr ⟨succeeded_rejection error, content, events⟩
      · obtain ⟨content, events⟩ := atomically_error ran
        exact .inr ⟨rfl, content, events⟩
      · exact .inl ⟨endpoint, method, reply, rfl, allowed, atomically_ok ran, rfl⟩

/-- A request either is answered with success and does the call that it asks for, or is not and
leaves the contents and the queue of events as they were. -/
theorem respond_cases (h : (service.respond request).run work = (response, after)) :
    (response.succeeded ∧ ∃ call answer, service.call? request = some call ∧
      (call.perform service.branch).run work = (.ok answer, after)) ∨
    (response.succeeded = false ∧ after.content = work.content ∧ after.events = work.events) := by
  rcases respond_handled h with ⟨endpoint, method, reply, path, allowed, ran, rfl⟩ | refused
  · rcases handle_ok ran with ⟨status, rfl⟩ | ⟨call, answer, asked, performed, status⟩
    · exact .inr ⟨by rw [Response.succeeded, status]; rfl, rfl, rfl⟩
    · refine .inl ⟨?_, call, answer, ?_, performed⟩
      · rcases status with status | status <;> rw [Response.succeeded, status] <;> rfl
      · simp only [call?, path, allowed, Option.bind_eq_bind, Option.bind_some, asked]
        rfl
  · exact .inr refused

end Service

end ObjectDepot.Http
