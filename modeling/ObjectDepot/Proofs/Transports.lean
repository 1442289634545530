import ObjectDepot.Proofs.ClientRoutes
import ObjectDepot.Proofs.Procedure

/-!
# Transports

What a call makes of the answer to its request (`Client.perform_eq`), and what it comes to over a
transport (`Client.run_perform_over`). Of the target of a request the service looks at the path alone
(`Http.Service.respond_congr`). So a call over a transport that `Delivers` its request comes to what it
comes to beside the service (`Client.perform_of_delivers`), and all that is known of the one is known of
the other.
-/

namespace ObjectDepot

open Procedure Http

namespace Http

variable {σ ρ : Type} [RepositoryBackend ρ] [StoreBackend σ ρ]

/-- A service looks at the target of a request for its path only. -/
lemma Service.respond_congr {service : Service} {first second : Request}
    (method : first.method = second.method) (login : first.login = second.login)
    (authorization : first.authorization = second.authorization) (body : first.body = second.body)
    (path : pathOf first.target = pathOf second.target) :
    (service.respond first : StateM (Work σ) Response) = service.respond second := by
  obtain ⟨_, target, _, _, _⟩ := first
  obtain ⟨_, target', _, _, _⟩ := second
  dsimp only at method login authorization body path
  subst method login authorization body
  unfold Service.respond
  dsimp only
  rw [path]
  rfl

end Http

namespace Client

variable {client : Client} {call : Call} {service : Service} {authorization : Option String}
  {request : Client.Request} {transport : Transport} {passes : String → Prop}

/-- A transport hands over to a service what a client sends to an address: the method, the header and the
body always, and the path if it is of some kind. Nobody is logged in on the way. -/
structure Transport.Delivers (transport : Transport) (address : String) (passes : String → Prop) :
    Prop where
  method : ∀ authorization request, (transport authorization request).method = request.method.name
  login : ∀ authorization request, (transport authorization request).login = none
  authorization : ∀ authorization request,
    (transport authorization request).authorization = authorization.getD ""
  body : ∀ authorization request, (transport authorization request).body = request.body
  path : ∀ authorization method path payload, passes path →
    pathOf (transport authorization ⟨method, address ++ "/" ++ path, payload⟩).target =
      pathOf (root ++ path)

/-- Beside its service a client has everything delivered. -/
lemma Transport.direct_delivers : direct.Delivers defaultAddress passes where
  method _ _ := rfl
  login _ _ := rfl
  authorization _ _ := rfl
  body _ _ := rfl
  path _ _ _ _ _ := by rw [direct, target_toService]

/-- What a call makes of the answer to its request. -/
def Call.take (call : Call) (reply : Reply) : Except Failure Value := do
  let body ← reply.accepted
  (call.read body).mapError .fault

/-- A call that can be sent makes something of the answer to one request. -/
lemma perform_eq {m : Type → Type} [Monad m] [LawfulMonad m] {request : Client.Request}
    (send : Client.Request → m Reply) (asked : client.request call = .ok request) :
    client.perform send call = call.take <$> send request := by
  rw [perform, asked]
  exact bind_pure_comp _ _

/-- One that cannot be sent fails by itself. -/
lemma perform_of_error {m : Type → Type} [Monad m] {cause : ValueFault} (send : Client.Request → m Reply)
    (unasked : client.request call = .error cause) :
    client.perform send call = pure (.error (.fault cause)) := by
  rw [perform, unasked]

/-- A path of quoted names between slashes, none of which is empty, or stands for a folder itself or for the
one above it. Such a path has no other form on the way. -/
def Canonical (path : String) : Prop :=
  ∃ names : List String, names ≠ [] ∧ path = "/".intercalate (names.map (Percent.quote [])) ∧
    ∀ name ∈ names, name ≠ "" ∧ name ≠ "." ∧ name ≠ ".."

section Resolving

/-- The segments of a path without those that stand for a folder itself, and without those that stand for
the one above it, which take the segment before with them. -/
def resolvedSegments (path : List Char) : List (List Char) :=
  (path.splitOn '/').foldl (fun kept segment =>
    if segment = ['.'] then kept
    else if segment = ['.', '.'] then kept.dropLast
    else kept ++ [segment]) []

/-- The transport that resolves a path before it hands over what it is given. -/
def Transport.resolving : Transport := fun authorization request =>
  let received := request.toService authorization
  { received with
    target := String.ofList (['/'].intercalate (resolvedSegments received.target.toList)) }

/-- A path without such segments is not changed. -/
lemma resolvedSegments_of_undotted {path : List Char}
    (undotted : ∀ segment ∈ path.splitOn '/', segment ≠ ['.'] ∧ segment ≠ ['.', '.']) :
    resolvedSegments path = path.splitOn '/' := by
  rw [resolvedSegments]
  generalize path.splitOn '/' = segments at undotted
  -- what was kept before stands in front
  suffices kept : ∀ kept, segments.foldl (fun kept segment =>
      if segment = ['.'] then kept else if segment = ['.', '.'] then kept.dropLast else kept ++ [segment])
      kept = kept ++ segments by rw [kept, List.nil_append]
  induction segments with
  | nil => exact fun kept => (List.append_nil kept).symm
  | cons segment segments ih =>
    obtain ⟨⟨noDot, noDots⟩, others⟩ := List.forall_mem_cons.1 undotted
    intro kept
    rw [List.foldl_cons, if_neg noDot, if_neg noDots, ih others, List.append_assoc, List.singleton_append]

/-- A quoted name has no slash. -/
lemma slash_not_mem_quote (name : String) : '/' ∉ (Percent.quote [] name).toList := fun member =>
  absurd (Percent.isQuoting_quote member) (by decide)

/-- A name that is quoted as a text without percent signs is this text. -/
lemma eq_of_quote {name text : String} (unsigned : '%' ∉ text.toList) (same : Percent.quote [] name = text) :
    name = text := by
  have read := (Percent.StandsFor.quote List.not_mem_nil name).unquote
  rw [same, (Percent.StandsFor.plain unsigned).unquote] at read
  exact (String.toList_inj.1 read).symm

/-- The segments of a canonical path below the root of a service. -/
lemma splitOn_of_canonical {path : String} (canonical : Canonical path) :
    ∃ names : List String, (root ++ path).toList.splitOn '/' =
        [] :: "api".toList :: "git".toList :: names.map (fun name => (Percent.quote [] name).toList) ∧
      ∀ name ∈ names, name ≠ "." ∧ name ≠ ".." := by
  obtain ⟨names, some, rfl, proper⟩ := canonical
  refine ⟨names, ?_, fun name member => (proper name member).2⟩
  obtain ⟨name, names, rfl⟩ := List.exists_cons_of_ne_nil some
  have joined : (root ++ "/".intercalate ((name :: names).map (Percent.quote []))).toList =
      ['/'].intercalate ([] :: "api".toList :: "git".toList ::
        (name :: names).map fun name => (Percent.quote [] name).toList) := by
    rw [String.toList_append, String.toList_intercalate, List.map_map]
    rfl
  rw [joined, List.splitOn_intercalate]
  · intro segment member
    simp only [List.mem_cons, List.mem_map] at member
    rcases member with rfl | rfl | rfl | ⟨name, _, rfl⟩
    · decide
    · decide
    · decide
    · exact slash_not_mem_quote name
  · exact List.cons_ne_nil _ _

/-- Resolving a path leaves the canonical ones alone. -/
lemma Transport.resolving_delivers : resolving.Delivers defaultAddress Canonical where
  method _ _ := rfl
  login _ _ := rfl
  authorization _ _ := rfl
  body _ _ := rfl
  path authorization method path payload canonical := by
    obtain ⟨names, split, proper⟩ := splitOn_of_canonical canonical
    have undotted : ∀ segment ∈ (root ++ path).toList.splitOn '/',
        segment ≠ ['.'] ∧ segment ≠ ['.', '.'] := by
      rw [split]
      intro segment member
      simp only [List.mem_cons, List.mem_map] at member
      rcases member with rfl | rfl | rfl | ⟨name, listed, rfl⟩
      · decide
      · decide
      · decide
      · obtain ⟨noDot, noDots⟩ := proper name listed
        constructor
        · exact fun dot => noDot (eq_of_quote (by decide) (String.toList_inj.1 dot))
        · exact fun dots => noDots (eq_of_quote (by decide) (String.toList_inj.1 dots))
    have kept : resolvedSegments (root ++ path).toList = (root ++ path).toList.splitOn '/' :=
      resolvedSegments_of_undotted undotted
    rw [resolving, target_toService, kept, List.intercalate_splitOn, String.ofList_toList]

end Resolving

/-- The path for which a call asks is of some kind. -/
def Call.Passes (call : Call) (client : Client) (passes : String → Prop) : Prop :=
  ∀ method path payload, client.request call = .ok (client.requestFor method path payload) → passes path

/-- A call that is known to ask for a path asks for no other. -/
lemma passes_of_request {method : Method} {path : String} {payload : Option Json}
    (asked : client.request call = .ok (client.requestFor method path payload)) (passed : passes path) :
    call.Passes client passes := by
  intro _ _ _ also
  have same := congrArg Client.Request.url (Except.ok.inj (asked.symm.trans also))
  exact (String.append_right_inj _).1 same ▸ passed

section Runs

variable {σ ρ : Type} [RepositoryBackend ρ] [StoreBackend σ ρ] {work : Work σ}

/-- A call over a transport is answered with what the service makes of the request that it receives. -/
lemma run_perform_over (asked : client.request call = .ok request) :
    (client.perform (sendOver transport service authorization) call).run work =
      (call.take (Reply.ofResponse ((service.respond (transport authorization request)).run work).1),
        ((service.respond (transport authorization request)).run work).2) := by
  rw [perform_eq _ asked, sendOver]
  generalize (service.respond (transport authorization request) : StateM (Work σ) _) = answer
  rfl

/-- A call beside a service is answered with what the service makes of its request. -/
lemma run_perform (asked : client.request call = .ok request) :
    (client.perform (sendTo service authorization) call).run work =
      (call.take (Reply.ofResponse ((service.respond (request.toService authorization)).run work).1),
        ((service.respond (request.toService authorization)).run work).2) :=
  run_perform_over asked

/-- A call that cannot be sent changes nothing. -/
lemma run_perform_of_error {cause : ValueFault} (unasked : client.request call = .error cause) :
    (client.perform (sendTo service authorization) call).run work = (.error (.fault cause), work) := by
  rw [perform_of_error _ unasked]
  rfl

/-- The client of the same repository at the default address. -/
def atDefault (client : Client) : Client :=
  { client with address := defaultAddress }

/-- Every request is one for a path, which does not depend on the address. -/
lemma request_eq (asked : client.request call = .ok request) :
    ∃ method path payload, request = client.requestFor method path payload ∧
      client.atDefault.request call = .ok (client.atDefault.requestFor method path payload) := by
  cases call with
  | upsertReference name | deleteReference name | getReference name =>
    cases name with
    | string name =>
      cases asked
      exact ⟨_, _, _, rfl, rfl⟩
    | _ => cases asked
  | resolveReferences names =>
    obtain ⟨listed, found, asked⟩ := except_bind_ok asked
    cases asked
    refine ⟨_, _, _, rfl, ?_⟩
    rw [Client.request, found]
    rfl
  | _ =>
    cases asked
    exact ⟨_, _, _, rfl, rfl⟩

/-- Whether a call can be sent does not depend on the address either. -/
lemma request_atDefault_error {cause : ValueFault} (unasked : client.request call = .error cause) :
    client.atDefault.request call = .error cause := by
  cases call with
  | upsertReference name | deleteReference name | getReference name =>
    cases name with
    | string name => cases unasked
    | _ => exact unasked
  | resolveReferences names =>
    rw [Client.request] at unasked ⊢
    cases listed : Client.elements names with
    | error cause =>
      rw [listed] at unasked
      cases unasked
      rfl
    | ok elements =>
      rw [listed] at unasked
      cases unasked
  | _ => cases unasked

/-- Where the path of a call is delivered its request is taken as the one beside the service. -/
lemma respond_of_delivers {method : Method} {path : String} {payload : Option Json}
    (delivers : transport.Delivers client.address passes) (passed : passes path) :
    (service.respond (transport authorization (client.requestFor method path payload)) :
        StateM (Work σ) Response) =
      service.respond ((client.atDefault.requestFor method path payload).toService authorization) := by
  refine Service.respond_congr (delivers.method _ _) (delivers.login _ _) (delivers.authorization _ _)
    (delivers.body _ _) ?_
  rw [requestFor, delivers.path _ _ _ _ passed, requestFor]
  exact congrArg pathOf target_toService.symm

/-- A call over a transport that delivers its path comes to what it comes to beside the service. -/
lemma perform_of_delivers (delivers : transport.Delivers client.address passes)
    (passed : call.Passes client passes) (work : Work σ) :
    (client.perform (sendOver transport service authorization) call).run work =
      (client.atDefault.perform (sendTo service authorization) call).run work := by
  cases asked : client.request call with
  | error cause =>
    rw [perform_of_error _ asked, run_perform_of_error (request_atDefault_error asked)]
    rfl
  | ok request =>
    obtain ⟨method, path, payload, rfl, asked'⟩ := request_eq asked
    rw [run_perform_over asked, run_perform asked',
      respond_of_delivers delivers (passed method path payload asked)]

end Runs

end Client

end ObjectDepot
