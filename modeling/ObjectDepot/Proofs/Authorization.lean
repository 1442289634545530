import ObjectDepot.Proofs.Refusals

/-!
# Who may change what by a request

`Http.Permitted` has one rule for each way in which a request may change what stands under a name:
somebody creates a repository, the owner changes what it holds, or the successor takes it over.
`Service.handleResource_effect` goes through what can be asked of a repository, and
`Service.respond_effect` says that a request either changes nothing or changes one repository by a rule.
-/

namespace ObjectDepot

open Procedure

/-- An account that a sender is has a name. -/
lemma Http.eq_of_isAccount {account : Option String} {name : String}
    (same : Repository.isAccount (callerValue account) name) : account = some name ∧ name ≠ "" := by
  obtain ⟨told, full⟩ := Repository.eq_of_isAccount same
  cases account with
  | none => cases told
  | some text =>
    cases told
    exact ⟨rfl, full⟩

namespace Http

/-- The ways in which a request may change what stands under a name. -/
inductive Permitted (service : Service) (request : Request) (name : String) :
    Option Repository → Option Repository → Prop where
  | create {account : String} {repository : Repository} :
    Endpoint.ofPath? (pathOf request.target) = some .repositories →
    Method.ofName? request.method = some .post →
    service.sender request = .ok (some account) →
    repository.owner = account →
    Permitted service request name none (some repository)
  | own {resource : Resource} {before after : Repository} :
    Endpoint.ofPath? (pathOf request.target) = some (.repository name resource) →
    service.sender request = .ok (some before.owner) →
    after.name = before.name →
    after.owner = before.owner →
    after.algorithm = before.algorithm →
    Permitted service request name (some before) (some after)
  | succeed {before : Repository} :
    Endpoint.ofPath? (pathOf request.target) = some (.repository name .accept) →
    Method.ofName? request.method = some .post →
    before.pendingOwner ≠ "" →
    service.sender request = .ok (some before.pendingOwner) →
    Permitted service request name (some before)
      (some { before with owner := before.pendingOwner, pendingOwner := "" })

/-- No permitted change renames a repository. -/
lemma Permitted.name {service : Service} {request : Request} {name : String}
    {before after : Repository}
    (permitted : Permitted service request name (some before) (some after)) :
    after.name = before.name := by
  cases permitted with
  | own _ _ named => exact named
  | succeed => rfl

/-- Whoever may change a repository is known. -/
lemma Permitted.sender {service : Service} {request : Request} {name : String}
    {before after : Option Repository} (permitted : Permitted service request name before after) :
    ∃ account, service.sender request = .ok (some account) := by
  cases permitted with
  | create _ _ sent _ => exact ⟨_, sent⟩
  | own _ sent => exact ⟨_, sent⟩
  | succeed _ _ _ sent => exact ⟨_, sent⟩

/-- Whether only the owner of a repository passes, before anything else is looked at. -/
def Resource.gated (method : Method) : Resource → Bool
  | .push | .defaultBranch => true
  | .objects | .reference _ => method ≠ .get
  | _ => false

/-- What can be asked of a repository is to read, passes the gate, or looks at the sender for itself. -/
lemma Resource.kinds {method : Method} {resource : Resource} (allowed : method ∈ resource.methods) :
    (method = .get ∨ resource = .resolve) ∨ resource.gated method ∨
      resource = .transfer ∨ resource = .accept := by
  cases resource with
  | push | defaultBranch => exact .inr (.inl rfl)
  | resolve => exact .inl (.inr rfl)
  | transfer => exact .inr (.inr (.inl rfl))
  | accept => exact .inr (.inr (.inr rfl))
  | object | references => exact .inl (.inl (List.mem_singleton.1 allowed))
  | objects | reference =>
    by_cases get : method = .get
    · exact .inl (.inl get)
    · exact .inr (.inl (by simpa [gated] using get))

namespace Service

variable {service : Service} {request : Request} {method : Method} {resource : Resource}
  {endpoint : Endpoint}

/-- What the gate stands before begins with it. -/
lemma handleResource_gated (gated : resource.gated method) :
    ∃ rest : Unit → Procedure Repository Reply,
      service.handleResource request method resource = service.gate request >>= rest := by
  cases resource with
  | push => exact ⟨_, rfl⟩
  | defaultBranch => exact ⟨_, rfl⟩
  | objects =>
    cases method with
    | get => cases gated
    | _ => exact ⟨_, rfl⟩
  | reference name =>
    cases method with
    | get => cases gated
    | _ => exact ⟨_, rfl⟩
  | _ => cases gated

/-- Only what is asked of the acceptance accepts. -/
lemma operation_accept {operation : RepositoryCall}
    (asked : service.operation request method resource = .ok operation)
    (accepts : operation.isAccept) : resource = .accept := by
  cases resource with
  | accept => rfl
  | push =>
    obtain ⟨members, _, asked⟩ := except_bind_ok asked
    obtain ⟨objectItems, _, asked⟩ := except_bind_ok asked
    obtain ⟨objects, _, asked⟩ := except_bind_ok asked
    obtain ⟨referenceItems, _, asked⟩ := except_bind_ok asked
    obtain ⟨references, _, asked⟩ := except_bind_ok asked
    cases asked
    cases accepts
  | objects =>
    simp only [Service.operation] at asked
    split at asked
    · cases asked
      cases accepts
    · obtain ⟨members, _, asked⟩ := except_bind_ok asked
      obtain ⟨hash, _, asked⟩ := except_bind_ok asked
      obtain ⟨data, _, asked⟩ := except_bind_ok asked
      cases asked
      cases accepts
  | object text =>
    obtain ⟨hash, _, asked⟩ := except_bind_ok asked
    cases asked
    cases accepts
  | references =>
    cases asked
    cases accepts
  | reference name =>
    simp only [Service.operation] at asked
    split at asked
    · cases asked
      cases accepts
    · cases asked
      cases accepts
    · obtain ⟨members, _, asked⟩ := except_bind_ok asked
      obtain ⟨hash, _, asked⟩ := except_bind_ok asked
      cases asked
      cases accepts
  | resolve | defaultBranch =>
    obtain ⟨members, _, asked⟩ := except_bind_ok asked
    cases asked
    cases accepts
  | transfer =>
    obtain ⟨account, _, asked⟩ := except_bind_ok asked
    obtain ⟨members, _, asked⟩ := except_bind_ok asked
    cases asked
    cases accepts

variable {name : String}

/-- What a request leaves of the repository that it is sent to: the same, or what the owner or the
successor may make of it. -/
lemma handleResource_effect {work after : Work Repository} {reply : Reply}
    (path : Endpoint.ofPath? (pathOf request.target) = some (.repository name resource))
    (sort : Method.ofName? request.method = some method) (allowed : method ∈ resource.methods)
    (h : (service.handleResource request method resource).run work = (.ok reply, after)) :
    after.content = work.content ∨
      Permitted service request name (some work.content) (some after.content) := by
  obtain ⟨operation, answer, asked, performed, _⟩ := handleResource_ok h
  obtain ⟨named, algorithm⟩ := (RepositoryCall.changes performed).fixed
  -- what is asked for reads, is gated, transfers or accepts
  rcases Resource.kinds allowed with reads | gated | rfl | rfl
  · left
    have reading := operation_read allowed reads asked
    obtain ⟨sent, change⟩ :=
      Repository.change_of_perform (RepositoryCall.single_of_read reading) performed
    exact (change.of_read reading).1
  · right
    obtain ⟨rest, handled⟩ := handleResource_gated gated
    rw [handled] at h
    obtain ⟨⟨account, sent, owner⟩, _⟩ := gate_bind_ok h
    obtain ⟨rfl, _⟩ := eq_of_isAccount owner
    have other : operation.isAccept = false := by
      by_contra accepts
      rw [Bool.not_eq_false] at accepts
      rw [operation_accept asked accepts] at gated
      cases gated
    have kept := RepositoryCall.owner_kept other performed
    exact .own path sent named kept algorithm
  · right
    obtain ⟨account, sent, asked⟩ := except_bind_ok asked
    obtain ⟨members, _, asked⟩ := except_bind_ok asked
    cases asked
    obtain ⟨rfl, _⟩ := eq_of_isAccount (RepositoryCall.transfer_ok performed)
    have kept := RepositoryCall.owner_kept rfl performed
    exact .own path sent named kept algorithm
  · right
    obtain ⟨account, sent, asked⟩ := except_bind_ok asked
    cases asked
    obtain ⟨waiting, accepts, taken⟩ := RepositoryCall.accept_ok performed
    obtain ⟨rfl, _⟩ := eq_of_isAccount accepts
    obtain rfl := List.mem_singleton.1 allowed
    rw [taken]
    exact .succeed path sort waiting sent

/-- What a request to create a repository leaves: the same, or one repository more, which belongs to
the sender. -/
lemma createRepository_effect {work after : Work Store} {reply : Reply}
    (path : Endpoint.ofPath? (pathOf request.target) = some .repositories)
    (sort : Method.ofName? request.method = some .post)
    (h : (service.handle request .post .repositories).run work = (.ok reply, after)) :
    after.content = work.content ∨
      ∃ repository : Repository, work.content.find? repository.name = none ∧
        after.content = ⟨work.content.repositories ++ [repository]⟩ ∧
        Permitted service request repository.name none (some repository) := by
  rcases handle_ok h with ⟨_, rfl⟩ | ⟨call, answer, asked, performed, _⟩
  · exact .inl rfl
  obtain ⟨members, _, asked⟩ := except_bind_ok asked
  obtain ⟨account, sent, asked⟩ := except_bind_ok asked
  split at asked
  case h_2 => cases asked
  case h_1 =>
    cases asked
    obtain ⟨repository, fresh, owned, added⟩ := create_ok performed
    -- nobody is the null value, which is no owner
    cases account with
    | none => cases owned
    | some account =>
      have belongs : repository.owner = account := (Option.some.inj owned).symm
      exact .inr ⟨repository, fresh, added, .create path sort sent belongs⟩

/-- A request changes nothing, or one repository by a rule. -/
theorem respond_effect {work after : Work Store} {response : Response}
    (distinct : work.content.names.Nodup)
    (h : (service.respond request).run work = (response, after)) :
    after.content = work.content ∨
      ∃ name, Permitted service request name (work.content.find? name) (after.content.find? name) ∧
        ∀ other, other ≠ name → after.content.find? other = work.content.find? other := by
  rcases respond_handled h with ⟨endpoint, method, reply, path, allowed, ran, rfl⟩ | ⟨_, kept, _⟩
  case inr => exact .inl kept
  obtain ⟨sort, permitted⟩ := method_of_allowed allowed
  cases endpoint with
  | repositories =>
    obtain rfl := List.mem_singleton.1 permitted
    rcases createRepository_effect path sort ran with kept | ⟨repository, fresh, added, created⟩
    · exact .inl kept
    · refine .inr ⟨repository.name, ?_, ?_⟩
      · rw [added, fresh, Store.find?_add_self fresh]
        exact created
      · intro other apart
        rw [added, Store.find?_add_other apart]
  | repository name resource =>
    rw [handle_repository] at ran
    cases present : work.content.lookup? (.string name) with
    | none =>
      rw [Store.run_within_none present] at ran
      cases ran
    | some repository =>
      obtain ⟨done, handled, rfl⟩ := Store.within_eq present ran
      obtain ⟨named, found⟩ := Store.lookup?_iff.1 present
      cases named
      rcases handleResource_effect path sort permitted handled with kept | changed
      · left
        -- a repository that is put back as it was leaves the store as it was
        rw [kept, Store.replace_self distinct found]
      · right
        have renamed : done.content.name = repository.name := changed.name
        have found' : work.content.find? done.content.name = some repository := by
          rw [renamed]
          exact found
        refine ⟨done.content.name, ?_, fun other apart => Store.find?_replace_other apart⟩
        rw [Store.find?_replace_self found', found', renamed]
        exact changed

/-- Whatever differs under a name after a request differs by a rule. -/
lemma permitted_of_differs {work after : Work Store} {response : Response}
    (distinct : work.content.names.Nodup)
    (h : (service.respond request).run work = (response, after))
    (differs : after.content.find? name ≠ work.content.find? name) :
    Permitted service request name (work.content.find? name) (after.content.find? name) := by
  rcases respond_effect distinct h with kept | ⟨changed, permitted, others⟩
  · exact absurd (by rw [kept]) differs
  obtain rfl : name = changed := by
    by_contra apart
    exact differs (others name apart)
  exact permitted

end Service

end Http

/-- In every history a request changes what stands under a name only by the rules: somebody creates a
repository, the owner changes it but not its name, owner or hash algorithm, or the successor becomes the
owner and nothing else changes. A request that nobody is known to send changes nothing. -/
theorem respond_permitted (actions : List Action) (service : Http.Service) (request : Http.Request)
    (response : Http.Response) (after : Work Store)
    (h : (service.respond request).run (History.ofActions actions).work = (response, after)) :
    (∀ name, after.content.find? name ≠ (History.ofActions actions).work.content.find? name →
      Http.Permitted service request name
        ((History.ofActions actions).work.content.find? name) (after.content.find? name)) ∧
    ((∀ account, service.sender request ≠ .ok (some account)) →
      after.content = (History.ofActions actions).work.content) := by
  have distinct := (History.traced actions).distinct
  refine ⟨fun _ differs => Http.Service.permitted_of_differs distinct h differs, ?_⟩
  intro nobody
  rcases Http.Service.respond_effect distinct h with kept | ⟨_, permitted, _⟩
  · exact kept
  · obtain ⟨account, sent⟩ := permitted.sender
    exact absurd sent (nobody account)

namespace History

/-- The short history, after which the owner names a successor. -/
def offered : List Action :=
  sample ++ [.perform "main" (.call (.inRepository (.string "depot")
    (.transfer (.string "ann") (.string "bob"))))]

/-- The successor accepts, with a password instead of a session. -/
def sampleAcceptance : Http.Request where
  method := "POST"
  target := "/api/git/depot/ownership/accept"
  login := none
  authorization := "Basic Ym9iOnNlY3JldA=="
  body := []

/-- The acceptance once more, with a wrong password. -/
def sampleIntrusion : Http.Request :=
  { sampleAcceptance with authorization := "Basic Ym9iOndyb25n" }

/-- The acceptance changes the repository, and by a rule; with a wrong password it changes nothing. -/
theorem respond_permitted_sample :
    (∃ response after,
      (sampleService.respond sampleAcceptance).run (ofActions offered).work = (response, after) ∧
        after.content.find? "depot" ≠ (ofActions offered).work.content.find? "depot" ∧
        Http.Permitted sampleService sampleAcceptance "depot"
          ((ofActions offered).work.content.find? "depot") (after.content.find? "depot")) ∧
    ∃ response after,
      (sampleService.respond sampleIntrusion).run (ofActions offered).work = (response, after) ∧
        after.content = (ofActions offered).work.content := by
  constructor
  · have differs : ((sampleService.respond sampleAcceptance).run
        (ofActions offered).work).2.content.find? "depot" ≠
          (ofActions offered).work.content.find? "depot" := by decide +kernel
    rcases ran : (sampleService.respond sampleAcceptance).run (ofActions offered).work with
      ⟨response, after⟩
    rw [ran] at differs
    obtain ⟨permitted, _⟩ :=
      respond_permitted offered sampleService sampleAcceptance response after ran
    exact ⟨response, after, rfl, differs, permitted "depot" differs⟩
  · rcases ran : (sampleService.respond sampleIntrusion).run (ofActions offered).work with
      ⟨response, after⟩
    obtain ⟨_, unchanged⟩ :=
      respond_permitted offered sampleService sampleIntrusion response after ran
    have nobody : ∀ account, sampleService.sender sampleIntrusion ≠ .ok (some account) := by
      have anonymous : sampleService.sender sampleIntrusion = .ok none := by rfl
      rw [anonymous]
      exact nofun
    exact ⟨response, after, rfl, unchanged nobody⟩

end History

end ObjectDepot
