import ObjectDepot.Proofs.Authorization

/-!
# Refusals of strangers

What passes the gate refuses whoever is not the owner before the body is looked at
(`Service.run_gated_of_stranger`), so the answer does not depend on the body. A transfer asks for the
owner only after it has read the body (`Service.run_transfer_of_stranger`): a stranger learns whether the
body can be read.
-/

namespace ObjectDepot

open Procedure

namespace Http

/-- The owner is the only account that passes for the owner. -/
lemma not_isAccount {account : Option String} {name : String} (other : account ≠ some name) :
    Repository.isAccount (callerValue account) name = false := by
  by_contra same
  rw [Bool.not_eq_false] at same
  exact other (eq_of_isAccount same).1

/-- A request with another body. -/
def Request.withBody (request : Request) (body : Bytes) : Request :=
  { request with body := body }

/-- A body that cannot be read is complained about, but for one that is too long. -/
lemma Request.members_error {request : Request} {failure : Failure}
    (unread : request.members = .error failure) :
    (∃ flaw, failure = .rejected (.badRequest flaw)) ∨ failure = .fault .aborted ∧ request.tooLong := by
  unfold members at unread
  split at unread
  case isTrue long =>
    cases unread
    exact .inr ⟨rfl, long⟩
  case isFalse =>
    left
    split at unread
    · cases unread
    · split at unread <;> cases unread <;> exact ⟨_, rfl⟩

namespace Service

/-- What a rejected request ends in: its answer, and the work as it was but for a record in the log. -/
def refused (request : Request) (method : Method) (error : StoreError) (work : Work Store) :
    Response × Work Store :=
  (rejection error, { work with
    log := work.log ++ [.requestRejected method.name (String.ofList (pathOf request.target)) error] })

variable {service : Service} {request : Request} {method : Method} {resource : Resource} {name : String}
  {account : Option String} {repository : Repository} {error : StoreError}

/-- A rejection that comes before anything is done is all that a request ends in. -/
lemma respond_refused {work : Work Store}
    (path : Endpoint.ofPath? (pathOf request.target) = some (.repository name resource))
    (sort : Method.ofName? request.method = some method) (allowed : method ∈ resource.methods)
    (present : work.content.find? name = some repository)
    (handled : (service.handleResource request method resource).run { work with content := repository } =
      (.error (.rejected error), { work with content := repository })) :
    (service.respond request).run work = refused request method error work := by
  have permitted : (Method.ofName? request.method).filter
      (· ∈ (Endpoint.repository name resource).methods) = some method := allowed_of_method sort allowed
  have ran := Store.run_within_some (Store.lookup?_string.trans present) handled
  rw [run_respond path permitted (run_atomically_of_error ran)]
  rfl

/-- A fault that comes before anything is done is all that a request ends in. -/
lemma respond_faulted {work : Work Store} {cause : Fault}
    (path : Endpoint.ofPath? (pathOf request.target) = some (.repository name resource))
    (sort : Method.ofName? request.method = some method) (allowed : method ∈ resource.methods)
    (present : work.content.find? name = some repository)
    (handled : (service.handleResource request method resource).run { work with content := repository } =
      (.error (.fault cause), { work with content := repository })) :
    (service.respond request).run work = (.crashed cause, work) := by
  have permitted : (Method.ofName? request.method).filter
      (· ∈ (Endpoint.repository name resource).methods) = some method := allowed_of_method sort allowed
  have ran := Store.run_within_some (Store.lookup?_string.trans present) handled
  rw [run_respond path permitted (run_atomically_of_error ran)]

/-- A sender that is known is told. -/
lemma run_caller_of_sent {σ : Type} {work : Work σ} (sent : service.sender request = .ok account) :
    (service.caller request).run work = (.ok account, work) := by
  rw [run_caller, sent]

/-- The gate lets exactly the owner pass. -/
lemma run_gate {work : Work Repository} (sent : service.sender request = .ok account) :
    (service.gate request).run work =
      (if Repository.isAccount (callerValue account) work.content.owner then .ok ()
        else .error (.rejected (.notOwner (callerValue account))), work) := by
  rw [gate_eq, run_bind_of_ok (run_caller_of_sent sent), Repository.run_ensureOwner]

/-- The gate refuses whoever does not pass for the owner. -/
lemma run_gated_of_stranger {work : Work Repository} (gated : resource.gated method)
    (sent : service.sender request = .ok account)
    (stranger : Repository.isAccount (callerValue account) work.content.owner = false) :
    (service.handleResource request method resource).run work =
      (.error (.rejected (.notOwner (callerValue account))), work) := by
  obtain ⟨rest, handled⟩ : ∃ rest : Unit → Procedure Repository Reply,
    service.handleResource request method resource = service.gate request >>= rest :=
    handleResource_gated gated
  rw [handled]
  refine run_bind_of_error ?_
  rw [run_gate sent, stranger]
  rfl

/-- A transfer complains about a body that it cannot read, whoever sends it. -/
lemma run_transfer_unread {work : Work Repository} {failure : Failure}
    (sent : service.sender request = .ok account) (unread : request.members = .error failure) :
    (service.handleResource request .post .transfer).run work = (.error failure, work) := by
  rw [handleResource, transfer, run_bind_of_ok (run_caller_of_sent sent), unread]
  exact run_bind_of_error (run_ofExcept _ work)

/-- A transfer refuses a stranger whose body it has read. -/
lemma run_transfer_of_stranger {work : Work Repository} {members : Json.Members}
    (sent : service.sender request = .ok account)
    (stranger : Repository.isAccount (callerValue account) work.content.owner = false)
    (read : request.members = .ok members) :
    (service.handleResource request .post .transfer).run work =
      (.error (.rejected (.notOwner (callerValue account))), work) := by
  rw [handleResource, transfer, run_bind_of_ok (run_caller_of_sent sent), run_ofExcept_bind read]
  have refused : (Repository.ensureOwner (callerValue account)).run work =
      (.error (.rejected (.notOwner (callerValue account))), work) := by
    rw [Repository.run_ensureOwner, stranger]
    rfl
  exact run_bind_of_error (run_bind_of_error refused)

end Service

end Http

open Http in
/-- On every store, whoever is not the owner of a repository is refused what passes the gate in one and
the same way, whatever the body is: by the answer 403 that names the sender, and nothing but a record in
the log is left. So is a transfer, if its body can be read. If it cannot, the answer is a complaint about
the body, or the request is given up since its body is too long. -/
theorem strangers_refused (service : Service) (request : Request) (work : Work Store) (name : String)
    (resource : Resource) (method : Method) (repository : Repository) (account : Option String)
    (path : Endpoint.ofPath? (pathOf request.target) = some (.repository name resource))
    (sort : Method.ofName? request.method = some method) (allowed : method ∈ resource.methods)
    (present : work.content.find? name = some repository)
    (sent : service.sender request = .ok account) (stranger : account ≠ some repository.owner) :
    let refusal := Service.refused request method (.notOwner (callerValue account)) work
    refusal.1 = .json 403 (.object [("error", .string "NotOwner"),
      ("detail", .string ("Unauthorized account: " ++ (callerValue account).literal))]) ∧
    (resource.gated method → ∀ body, (service.respond (request.withBody body)).run work = refusal) ∧
    (resource = .transfer → ∀ body members, (request.withBody body).members = .ok members →
      (service.respond (request.withBody body)).run work = refusal) ∧
    (resource = .transfer → ∀ body failure, (request.withBody body).members = .error failure →
      (∃ flaw, (service.respond (request.withBody body)).run work =
        Service.refused request method (.badRequest flaw) work) ∨
      (request.withBody body).tooLong ∧
        (service.respond (request.withBody body)).run work = (.crashed .aborted, work)) := by
  -- the sender is told by the session and the header, whatever the body is
  have sent' : ∀ body, service.sender (request.withBody body) = .ok account := fun _ => sent
  have stranger' : Repository.isAccount (callerValue account) repository.owner = false :=
    not_isAccount stranger
  refine ⟨rfl, fun gated body => ?_, ?_, ?_⟩
  · exact Service.respond_refused path sort allowed present
      (Service.run_gated_of_stranger gated (sent' body) stranger')
  · rintro rfl body members read
    obtain rfl := List.mem_singleton.1 allowed
    exact Service.respond_refused path sort allowed present
      (Service.run_transfer_of_stranger (sent' body) stranger' read)
  · rintro rfl body failure unread
    obtain rfl := List.mem_singleton.1 allowed
    rcases Request.members_error unread with ⟨flaw, rfl⟩ | ⟨rfl, long⟩
    · exact .inl ⟨flaw, Service.respond_refused path sort allowed present
        (Service.run_transfer_unread (sent' body) unread)⟩
    · exact .inr ⟨long, Service.respond_faulted path sort allowed present
        (Service.run_transfer_unread (sent' body) unread)⟩

namespace History

/-- A stranger asks for something of the repository in the short history. -/
def strangerRequest (target : String) : Http.Request where
  method := "POST"
  target := "/api/git/depot/" ++ target
  login := some "bob"
  authorization := ""
  body := []

/-- After the short history a stranger who pushes is refused in one way, with a body that is no JSON as
without one. -/
theorem strangers_refused_sample :
    ((sampleService.respond ((strangerRequest "push").withBody [0x78])).run (ofActions sample).work).1 =
      .json 403 (.object [("error", .string "NotOwner"),
        ("detail", .string "Unauthorized account: 'bob'")]) ∧
    (sampleService.respond ((strangerRequest "push").withBody [0x78])).run (ofActions sample).work =
      (sampleService.respond ((strangerRequest "push").withBody [])).run (ofActions sample).work := by
  obtain ⟨answer, refused, _⟩ := strangers_refused sampleService (strangerRequest "push")
    (ofActions sample).work "depot" .push .post sampleRepository (some "bob") (by decide +kernel)
    (by decide +kernel) (by decide) find?_sample (by rfl) (by decide)
  have malformed := refused rfl [0x78]
  have empty := refused rfl []
  have words : "Unauthorized account: " ++ (Http.callerValue (some "bob")).literal =
    "Unauthorized account: 'bob'" := by decide +kernel
  rw [words] at answer
  exact ⟨by rw [malformed, answer], malformed.trans empty.symm⟩

/-- After the short history the answer to a stranger who names a successor depends on the body. -/
theorem transfer_reads_first :
    ((sampleService.respond ((strangerRequest "ownership/transfer").withBody [0x78])).run
        (ofActions sample).work).1 =
      .json 400 (.object [("error", .string "BadRequest"),
        ("detail", .string "Body is not valid JSON")]) ∧
    ((sampleService.respond ((strangerRequest "ownership/transfer").withBody [])).run
        (ofActions sample).work).1 =
      .json 403 (.object [("error", .string "NotOwner"),
        ("detail", .string "Unauthorized account: 'bob'")]) := by
  have path : Http.Endpoint.ofPath? (Http.pathOf (strangerRequest "ownership/transfer").target) =
    some (.repository "depot" .transfer) := by decide +kernel
  have sort : Http.Method.ofName? (strangerRequest "ownership/transfer").method = some .post := by
    decide +kernel
  have sent : ∀ body, sampleService.sender ((strangerRequest "ownership/transfer").withBody body) =
    .ok (some "bob") := fun _ => by rfl
  have unread : ((strangerRequest "ownership/transfer").withBody [0x78]).members =
    .error (.rejected (.badRequest .notJson)) := by rfl
  have malformed : (sampleService.respond ((strangerRequest "ownership/transfer").withBody [0x78])).run
      (ofActions sample).work = Http.Service.refused (strangerRequest "ownership/transfer") .post
        (.badRequest .notJson) (ofActions sample).work :=
    Http.Service.respond_refused path sort (by decide) find?_sample
      (Http.Service.run_transfer_unread (sent _) unread)
  have empty : (sampleService.respond ((strangerRequest "ownership/transfer").withBody [])).run
      (ofActions sample).work = Http.Service.refused (strangerRequest "ownership/transfer") .post
        (.notOwner (.string "bob")) (ofActions sample).work :=
    Http.Service.respond_refused path sort (by decide) find?_sample
      (Http.Service.run_transfer_of_stranger (sent _) (by decide +kernel) rfl)
  have words : (StoreError.notOwner (.string "bob")).message = "Unauthorized account: 'bob'" := by
    decide +kernel
  refine ⟨by rw [malformed]; rfl, ?_⟩
  rw [empty, ← words]
  rfl

end History

end ObjectDepot
