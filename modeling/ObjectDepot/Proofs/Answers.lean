import ObjectDepot.Proofs.Confinement
import ObjectDepot.Proofs.OwnerGate

/-!
# What requests are answered with

`Service.Answers` lists the answers to a request, and `Service.Crashes` the requests that get none of
them: those that stumble over the credentials, over too long a body or over a name to resolve, once they
have come as far. `handle_ends` goes through what handling a request can end in, and `handle_of_crashes`
says that every listed fault does come up.
-/

namespace ObjectDepot

open Procedure

/-- The name of the algorithm for a flag is a known one. -/
lemma Algorithm.ofJson_ofFlag (sha256 : Bool) :
    Algorithm.ofJson (.string (Algorithm.ofFlag sha256).name) = .ok (Algorithm.ofFlag sha256) := by
  cases sha256 <;> rfl

/-- With a known algorithm a repository is created, or refused by the rules. -/
lemma Store.createRepository_faultless {branch : String} {name owner algorithm : Json}
    {chosen : Algorithm} {work : Work Store} (known : Algorithm.ofJson algorithm = .ok chosen) :
    Faultless ((createRepository branch name owner algorithm).run work).1 := by
  unfold createRepository
  split
  · exact .rejected _
  simp only [known, orFault, pure_bind, run_bind, run_content]
  split
  · exact .ok _
  · exact .rejected _

namespace Http

/-- Whether a request has crashed. -/
def Response.isCrash : Response → Bool
  | .crashed _ => true
  | _ => false

/-- A crash has a cause. -/
lemma Response.crashed_of_isCrash {response : Response} (crash : response.isCrash) :
    ∃ cause, response = .crashed cause := by
  cases response with
  | crashed cause => exact ⟨cause, rfl⟩
  | _ => cases crash

/-- The answers to a request: nothing is at its path, its method is not one of those there, a repository
that it would create had no owner since nobody is known to send it, it is rejected, or it is done. -/
inductive Service.Answers (service : Service) (request : Request) : Response → Prop where
  | unrouted :
    Endpoint.ofPath? (pathOf request.target) = none →
    Answers service request .notFound
  | unallowed {endpoint : Endpoint} :
    Endpoint.ofPath? (pathOf request.target) = some endpoint →
    (∀ method ∈ endpoint.methods, Method.ofName? request.method ≠ some method) →
    Answers service request (.methodNotAllowed endpoint.methods)
  | stranger :
    Endpoint.ofPath? (pathOf request.target) = some .repositories →
    Method.ofName? request.method = some .post →
    service.sender request = .ok none →
    Answers service request (.json 401 (.object [("error", .string "NotAuthenticated"),
      ("detail", .string "Log in first")]))
  | rejected {endpoint : Endpoint} {method : Method} {error : StoreError} :
    Endpoint.ofPath? (pathOf request.target) = some endpoint →
    Method.ofName? request.method = some method →
    method ∈ endpoint.methods →
    Answers service request (rejection error)
  | done {endpoint : Endpoint} {method : Method} {status : Nat} {body : Json} :
    Endpoint.ofPath? (pathOf request.target) = some endpoint →
    Method.ofName? request.method = some method →
    method ∈ endpoint.methods →
    status = 200 ∨ status = 201 →
    Answers service request (.json status body)

/-- A request comes as far as to its body: where names are resolved, and elsewhere if it is told who sends
it, who must be the owner to pass the gate. -/
def Service.Admits (service : Service) (request : Request) (repository : Repository) (method : Method)
    (resource : Resource) : Prop :=
  resource = .resolve ∨
    ∃ account, service.sender request = .ok account ∧
      (resource.gated method → Repository.isAccount (callerValue account) repository.owner)

/-- The requests that are not answered. One to create a repository is given up if its body is too long,
and stopped by its credentials if its body can be read. One to a repository that exists is stopped by
whatever it stumbles over, but by its body only if it comes as far. -/
inductive Service.Crashes (service : Service) (request : Request) (store : Store) : Fault → Prop where
  | oversized :
    Endpoint.ofPath? (pathOf request.target) = some .repositories →
    Method.ofName? request.method = some .post →
    request.tooLong →
    Crashes service request store .aborted
  | creation {members : Json.Members} :
    Endpoint.ofPath? (pathOf request.target) = some .repositories →
    Method.ofName? request.method = some .post →
    request.members = .ok members →
    service.Garbles request →
    Crashes service request store .credentialsNotAscii
  | repository {name : String} {resource : Resource} {method : Method} {repository : Repository}
    {cause : Fault} :
    Endpoint.ofPath? (pathOf request.target) = some (.repository name resource) →
    Method.ofName? request.method = some method →
    method ∈ resource.methods →
    store.find? name = some repository →
    service.Stumbles request method resource cause →
    (cause = .aborted → service.Admits request repository method resource) →
    Crashes service request store cause

namespace Service

variable {service : Service} {request : Request} {method : Method} {resource : Resource}
  {endpoint : Endpoint} {cause : Fault}

/-- What the handling of a request by a method may end in. -/
inductive Ends (service : Service) (request : Request) (store : Store) :
    Except Failure Reply → Prop where
  | answer {reply : Reply} :
    service.Answers request (.json reply.status reply.body) →
    Ends service request store (.ok reply)
  | rejection {error : StoreError} :
    Ends service request store (.error (.rejected error))
  | fault {cause : Fault} :
    service.Crashes request store cause →
    Ends service request store (.error (.fault cause))

/-- What comes after a procedure without other faults ends as it should where it is reached. -/
lemma Ends.bind {α : Type} {p : Procedure Store α} {f : α → Procedure Store Reply}
    {work : Work Store} {store : Store}
    (faults : ∀ cause, (p.run work).1 = .error (.fault cause) → service.Crashes request store cause)
    (rest : ∀ a after, p.run work = (.ok a, after) →
      service.Ends request store ((f a).run after).1) :
    service.Ends request store ((p >>= f).run work).1 := by
  rcases ran : p.run work with ⟨(error | cause) | a, after⟩
  · rw [run_bind_of_error ran]
    exact .rejection
  · rw [run_bind_of_error ran]
    exact .fault (faults cause (by rw [ran]))
  · rw [run_bind_of_ok ran]
    exact rest a after ran

/-- A request to create a repository ends with an answer or a rejection, or crashes as requests may. -/
lemma createRepository_ends {work : Work Store}
    (path : Endpoint.ofPath? (pathOf request.target) = some .repositories)
    (sort : Method.ofName? request.method = some .post) :
    service.Ends request work.content ((service.createRepository request).run work).1 := by
  unfold createRepository
  -- the body is read before the sender is asked for
  refine .bind (fun cause e => ?_) fun members after ran => ?_
  · rw [run_ofExcept] at e
    obtain ⟨rfl, long⟩ := members_fault.1 e
    exact .oversized path sort long
  obtain ⟨read, rfl⟩ := Prod.mk.inj ((run_ofExcept _ _).symm.trans ran)
  refine .bind (fun cause e => ?_) fun account after ran => ?_
  · rw [run_caller] at e
    obtain ⟨rfl, garbles⟩ := sender_fault.1 e
    exact .creation path sort read garbles
  obtain ⟨sent, rfl⟩ := Prod.mk.inj ((run_caller _).symm.trans ran)
  cases account with
  | none => exact .answer (.stranger path sort sent)
  | some account =>
    dsimp only
    split
    case h_2 => exact .rejection
    case h_1 sha256 _ =>
      refine .bind (fun cause e => ?_) fun summary after _ => ?_
      · exact absurd e (Store.createRepository_faultless (Algorithm.ofJson_ofFlag sha256) cause)
      · exact .answer (.done path sort (List.mem_singleton_self _) (.inr rfl))

/-- What is neither read by `GET` nor resolved asks first who sends it. -/
lemma handleResource_asks (allowed : method ∈ resource.methods) (notGet : method ≠ .get)
    (notResolve : resource ≠ .resolve) :
    ∃ rest : Option String → Procedure Repository Reply,
      service.handleResource request method resource = service.caller request >>= rest := by
  rcases Resource.kinds allowed with reads | gated | rfl | rfl
  · rcases reads with get | resolves
    · exact absurd get notGet
    · exact absurd resolves notResolve
  · obtain ⟨rest, handled⟩ : ∃ rest : Unit → Procedure Repository Reply,
      service.handleResource request method resource = service.gate request >>= rest :=
      handleResource_gated gated
    rw [handled, gate_eq, bind_assoc]
    exact ⟨_, rfl⟩
  · exact ⟨_, rfl⟩
  · exact ⟨_, rfl⟩

/-- Hidden credentials stop whatever asks who sends the request. -/
lemma run_caller_of_garbles {σ : Type} (garbles : service.Garbles request) (work : Work σ) :
    (service.caller request).run work = (.error (.fault .credentialsNotAscii), work) := by
  have hidden : service.sender request = .error (.fault .credentialsNotAscii) :=
    sender_fault.2 ⟨rfl, garbles⟩
  rw [run_caller, hidden]

variable (service request) in
/-- What looks at the body of a request does so first where names are resolved, behind the gate, or once a
transfer has asked who sends it. -/
lemma handleResource_reads (allowed : method ∈ resource.methods) (reads : resource.readsBody method) :
    (∃ rest : Json.Members → Procedure Repository Reply, resource = .resolve ∧
      service.handleResource request method resource = ofExcept request.members >>= rest) ∨
    (∃ rest : Json.Members → Procedure Repository Reply, resource.gated method ∧
      service.handleResource request method resource =
        service.gate request >>= fun _ => ofExcept request.members >>= rest) ∨
    ∃ rest : Option String → Json.Members → Procedure Repository Reply, resource = .transfer ∧
      service.handleResource request method resource =
        service.caller request >>= fun account => ofExcept request.members >>= rest account := by
  cases resource with
  | resolve => exact .inl ⟨_, rfl, rfl⟩
  | push => exact .inr (.inl ⟨_, rfl, rfl⟩)
  | defaultBranch => exact .inr (.inl ⟨_, rfl, rfl⟩)
  | transfer => exact .inr (.inr ⟨_, rfl, rfl⟩)
  | objects =>
    obtain rfl : method = .post := of_decide_eq_true reads
    exact .inr (.inl ⟨_, rfl, rfl⟩)
  | reference name =>
    obtain rfl : method = .put := of_decide_eq_true reads
    exact .inr (.inl ⟨_, rfl, rfl⟩)
  | _ => cases reads

/-- A request that is given up for its body had come as far. -/
lemma admits_of_aborted {work after : Work Repository} (allowed : method ∈ resource.methods)
    (reads : resource.readsBody method)
    (ran : (service.handleResource request method resource).run work = (.error (.fault .aborted), after)) :
    service.Admits request work.content method resource := by
  by_cases resolves : resource = .resolve
  · exact .inl resolves
  have notGet : method ≠ .get := by
    rintro rfl
    cases resource <;> simp_all [Resource.readsBody, Resource.methods]
  obtain ⟨rest, handled⟩ : ∃ rest : Option String → Procedure Repository Reply,
    service.handleResource request method resource = service.caller request >>= rest :=
    handleResource_asks allowed notGet resolves
  cases sent : service.sender request with
  | error failure =>
    have stopped : (service.caller request).run work = (.error failure, work) := by rw [run_caller, sent]
    rw [handled, run_bind_of_error stopped] at ran
    cases ran
    cases (sender_fault.1 sent).1
  | ok account =>
    refine .inr ⟨account, sent, fun gated => ?_⟩
    cases owner : Repository.isAccount (callerValue account) work.content.owner with
    | true => rfl
    | false =>
      -- whoever does not pass for the owner is refused before
      cases (run_gated_of_stranger gated sent owner).symm.trans ran

/-- A request that comes as far as to its body is given up if that is too long. -/
lemma handleResource_of_tooLong {work : Work Repository} (allowed : method ∈ resource.methods)
    (reads : resource.readsBody method) (long : request.tooLong)
    (admits : service.Admits request work.content method resource) :
    (service.handleResource request method resource).run work = (.error (.fault .aborted), work) := by
  have unread : request.members = .error (.fault .aborted) := members_fault.2 ⟨rfl, long⟩
  have stopped : ∀ rest : Json.Members → Procedure Repository Reply,
      (ofExcept request.members >>= rest).run work = (.error (.fault .aborted), work) := by
    intro rest
    rw [unread]
    exact run_bind_of_error (run_ofExcept _ work)
  have told : resource ≠ .resolve → ∃ account, service.sender request = .ok account ∧
      (resource.gated method → Repository.isAccount (callerValue account) work.content.owner) :=
    fun other => admits.resolve_left other
  rcases handleResource_reads service request allowed reads with
    ⟨rest, _, handled⟩ | ⟨rest, gated, handled⟩ | ⟨rest, rfl, handled⟩
  · rw [handled]
    exact stopped rest
  · obtain ⟨account, sent, owner⟩ := told (by rintro rfl; cases gated)
    have passed : (service.gate request).run work = (.ok (), work) := by
      rw [run_gate sent, if_pos (owner gated)]
    rw [handled, run_bind_of_ok passed]
    exact stopped rest
  · obtain ⟨account, sent, _⟩ := told nofun
    rw [handled, run_bind_of_ok (run_caller_of_sent sent)]
    exact stopped (rest account)

/-- What is asked of a repository ends in an answer, a rejection or one of the listed faults. -/
lemma handleResource_ends {name : String} {repository : Repository} {store : Store}
    {events : List Event} {log : List LogRecord}
    (path : Endpoint.ofPath? (pathOf request.target) = some (.repository name resource))
    (sort : Method.ofName? request.method = some method) (allowed : method ∈ resource.methods)
    (present : store.find? name = some repository) :
    service.Ends request store
      ((service.handleResource request method resource).run ⟨repository, events, log⟩).1 := by
  have named := (Store.mem_of_find? present).2
  have confined : Confined name (service.Stumbles request method resource)
    (service.handleResource request method resource) := handleResource_confined allowed
  obtain ⟨outcome, after, _, _, _, _, faults, ran⟩ := confined repository named
  have ran := ran events log
  -- a fault is one that the request stumbles over, since no other leaves a confined procedure
  rw [ran]
  rcases outcome with (error | cause) | reply
  · exact .rejection
  · refine .fault (.repository path sort allowed present (faults cause rfl) ?_)
    rintro rfl
    cases faults _ rfl with
    | body reads => exact admits_of_aborted allowed reads ran
  · obtain ⟨_, _, _, _, status⟩ := handleResource_ok ran
    exact .answer (.done path sort allowed status)

/-- Handling a request ends in an answer, a rejection or one of the listed faults. -/
lemma handle_ends {work : Work Store}
    (path : Endpoint.ofPath? (pathOf request.target) = some endpoint)
    (sort : Method.ofName? request.method = some method) (allowed : method ∈ endpoint.methods) :
    service.Ends request work.content ((service.handle request method endpoint).run work).1 := by
  cases endpoint with
  | repositories =>
    obtain rfl := List.mem_singleton.1 allowed
    exact createRepository_ends path sort
  | repository name resource =>
    cases present : work.content.find? name with
    | none =>
      rw [handle_repository, Store.run_within_none (Store.lookup?_string.trans present)]
      exact .rejection
    | some repository =>
      have ends : service.Ends request work.content
          ((service.handleResource request method resource).run { work with content := repository }).1 :=
        handleResource_ends path sort allowed present
      rcases ran : (service.handleResource request method resource).run
        { work with content := repository } with ⟨outcome, after⟩
      rw [ran] at ends
      rw [handle_repository, Store.run_within_some (Store.lookup?_string.trans present) ran]
      exact ends

/-- Whatever a request stumbles over stops it, its body if it comes as far. -/
lemma handleResource_of_stumbles {work : Work Repository} (allowed : method ∈ resource.methods)
    (stumbles : service.Stumbles request method resource cause)
    (admits : cause = .aborted → service.Admits request work.content method resource) :
    (service.handleResource request method resource).run work = (.error (.fault cause), work) := by
  cases stumbles with
  | sender notGet notResolve garbles =>
    obtain ⟨rest, handled⟩ := handleResource_asks allowed notGet notResolve
    rw [handled]
    exact run_bind_of_error (run_caller_of_garbles garbles work)
  | body reads long => exact handleResource_of_tooLong allowed reads long (admits rfl)
  | @names members names value read given found =>
    have stopped : work.content.resolveNames names = .error (.notHashable value) :=
      Repository.resolveNames_error.2 ⟨value, found, rfl⟩
    have resolved : (Repository.resolveReferences (.array names)).run work =
        (.error (.fault (.notHashable value)), work) := by
      change (orFault (work.content.resolveNames names)).run work = _
      rw [run_orFault, stopped]
      rfl
    rw [handleResource, resolve, run_ofExcept_bind read, given]
    exact run_bind_of_error resolved

/-- Every listed fault does come up. -/
lemma handle_of_crashes {work : Work Store} (crashes : service.Crashes request work.content cause) :
    ∃ endpoint method after, Endpoint.ofPath? (pathOf request.target) = some endpoint ∧
      (Method.ofName? request.method).filter (· ∈ endpoint.methods) = some method ∧
      (service.handle request method endpoint).run work = (.error (.fault cause), after) := by
  cases crashes with
  | oversized path sort long =>
    have unread : request.members = .error (.fault .aborted) := members_fault.2 ⟨rfl, long⟩
    refine ⟨.repositories, .post, work, path, by rw [sort]; rfl, ?_⟩
    unfold handle createRepository
    rw [unread]
    exact run_bind_of_error (run_ofExcept _ work)
  | @creation members path sort read garbles =>
    refine ⟨.repositories, .post, work, path, by rw [sort]; rfl, ?_⟩
    unfold handle createRepository
    rw [read]
    exact (run_bind_of_ok rfl).trans (run_bind_of_error (run_caller_of_garbles garbles work))
  | @repository name resource method repository cause path sort allowed present stumbles admits =>
    have found : work.content.lookup? (.string name) = some repository :=
      Store.lookup?_string.trans present
    exact ⟨.repository name resource, method, _, path, allowed_of_method sort allowed,
      Store.run_within_some found (handleResource_of_stumbles allowed stumbles admits)⟩

/-- A request is answered, or crashes as it is listed. -/
lemma respond_ends {work : Work Store} :
    service.Answers request ((service.respond request).run work).1 ∨
      ∃ cause, ((service.respond request).run work).1 = .crashed cause ∧
        service.Crashes request work.content cause := by
  cases path : Endpoint.ofPath? (pathOf request.target) with
  | none =>
    rw [run_respond_of_path path]
    exact .inl (.unrouted path)
  | some endpoint =>
    cases permitted : (Method.ofName? request.method).filter (· ∈ endpoint.methods) with
    | none =>
      rw [run_respond_of_method path permitted]
      refine .inl (.unallowed path fun method allowed sort => ?_)
      rw [sort, Option.filter_some, if_pos (decide_eq_true allowed)] at permitted
      cases permitted
    | some method =>
      obtain ⟨sort, allowed⟩ := method_of_allowed permitted
      have ends : service.Ends request work.content ((service.handle request method endpoint).run work).1 :=
        handle_ends path sort allowed
      rcases ran : (service.handle request method endpoint).run work with
        ⟨(error | cause) | reply, after⟩
      all_goals rw [ran] at ends
      · rw [run_respond path permitted (run_atomically_of_error ran)]
        exact .inl (.rejected path sort allowed)
      · rw [run_respond path permitted (run_atomically_of_error ran)]
        cases ends with
        | fault crashes => exact .inr ⟨cause, rfl, crashes⟩
      · rw [run_respond path permitted (run_atomically_of_ok ran)]
        cases ends with
        | answer answers => exact .inl answers

/-- A request that crashes is answered with the crash. -/
lemma respond_of_crashes {work : Work Store} (crashes : service.Crashes request work.content cause) :
    ((service.respond request).run work).1 = .crashed cause := by
  obtain ⟨endpoint, method, after, path, permitted, ran⟩ := handle_of_crashes crashes
  rw [run_respond path permitted (run_atomically_of_error ran)]

end Service

end Http

/-- On every store each request is answered, but for exactly the listed ones, which crash. -/
theorem respond_answers (service : Http.Service) (request : Http.Request) (work : Work Store) :
    let response := ((service.respond request).run work).1
    (service.Answers request response ∨ ∃ cause, response = .crashed cause) ∧
      ∀ cause, response = .crashed cause ↔ service.Crashes request work.content cause := by
  intro response
  have ends : service.Answers request response ∨
      ∃ cause, response = .crashed cause ∧ service.Crashes request work.content cause :=
    Http.Service.respond_ends
  refine ⟨ends.imp_right fun ⟨cause, crashed, _⟩ => ⟨cause, crashed⟩, fun cause => ⟨?_, ?_⟩⟩
  · intro crashed
    rcases ends with answered | ⟨other, crashed', crashes⟩
    · rw [crashed] at answered
      cases answered
    · cases crashed.symm.trans crashed'
      exact crashes
  · intro crashes
    exact Http.Service.respond_of_crashes crashes

namespace History

/-- Somebody creates a repository with credentials that are not ASCII. -/
def garbledCreation : Http.Request where
  method := "POST"
  target := "/api/git/repos"
  login := none
  authorization := "Basic é"
  body := Bytes.ofText "\x7b\"name\": \"annex\"\x7d"

/-- Somebody resolves a list in the place of a name. -/
def nestedResolution : Http.Request where
  method := "POST"
  target := "/api/git/depot/resolve"
  login := none
  authorization := ""
  body := Bytes.ofText "\x7b\"names\": [[]]\x7d"

/-- Both requests crash after the short history. -/
theorem respond_crashes_sample :
    (∃ cause, ((sampleService.respond garbledCreation).run (ofActions sample).work).1 =
      .crashed cause) ∧
    ∃ cause, ((sampleService.respond nestedResolution).run (ofActions sample).work).1 =
      .crashed cause :=
  ⟨Http.Response.crashed_of_isCrash (by decide +kernel),
    Http.Response.crashed_of_isCrash (by decide +kernel)⟩

end History

end ObjectDepot
