import ObjectDepot.Proofs.Authorization
import ObjectDepot.Proofs.ClientPaths
import ObjectDepot.Proofs.Isolation
import ObjectDepot.Proofs.Transports

/-!
# What a client can reach

A client asks for the repository that is named by the first segment of its own name, and for no other
(`Client.asks_only`): what it does leaves all others alone, and what it is answered does not depend on
them. The first segment is the name itself unless this has a slash. Which names with a slash reach
another repository is told by `Client.Strays`. All of this is known beside the service first, and then over
every transport that delivers the paths of the client (`Client.asks_iff`).
-/

namespace ObjectDepot

open Http Procedure

/-- A path matches no repository without a name, or with a slash in it. -/
lemma Http.Endpoint.Matches.named {name : String} {resource : Resource} {path : List Char}
    (matched : (Endpoint.repository name resource).Matches path) : name ≠ "" ∧ '/' ∉ name.toList := by
  cases matched with
  | repository full flat => exact ⟨full, flat⟩

/-- A method is found under its name. -/
lemma Http.Method.ofName?_name (method : Method) : Method.ofName? method.name = some method := by
  cases method <;> rfl

namespace Client

/-- A call is sent as a request that comes over a transport as one for an endpoint. -/
def Asks (client : Client) (transport : Transport) (call : Call) (endpoint : Endpoint) : Prop :=
  ∃ request authorization, client.request call = .ok request ∧
    Endpoint.ofPath? (pathOf (transport authorization request).target) = some endpoint

/-- A name whose slash stands where the service cuts, before what may follow the name of another
repository. -/
def Strays (repository : String) : Prop :=
  ∃ first more : String, repository = first ++ "/" ++ more ∧ first ≠ "" ∧ '/' ∉ first.toList ∧
    (more = "objects" ∨ more = "refs" ∨ ∃ name, more = "refs/" ++ name ∧ '\n' ∉ name.toList)

variable {client : Client} {call : Call} {endpoint : Endpoint} {name : String} {resource : Resource}
  {service : Service} {authorization : Option String} {request : Client.Request} {work : Work Store}

/-- A call asks to create a repository, or for something of the one that is named by the first segment. -/
lemma asks_only (address : client.address = defaultAddress) (asks : client.Asks .direct call endpoint) :
    (∃ sha256, call = .create sha256 ∧ endpoint = .repositories) ∨
      ∃ resource, endpoint = .repository (firstSegment client.repository) resource := by
  obtain ⟨request, authorization, asked, path⟩ := asks
  rcases endpoint_of_request address asked path with created | ⟨_, _, resource, _, _, here, _⟩
  · exact .inl created
  · exact .inr ⟨resource, here⟩

/-- No tail of a call is that of a change of owner. -/
lemma tail?_ne {tail : List Char} (is_tail : call.tail? = some tail) :
    tail ≠ "transfer".toList ∧ tail ≠ "accept".toList := by
  cases call with
  | create => cases is_tail
  | upsertReference name | deleteReference name | getReference name =>
    obtain ⟨_, _, rfl⟩ := Option.map_eq_some_iff.1 is_tail
    exact ⟨nofun, nofun⟩
  | _ =>
    cases is_tail
    exact ⟨nofun, nofun⟩

/-- Where a slash of the repository's name is followed by something of another repository, the name
goes on with the folder of its objects or with that of its references. -/
lemma folder_of_matches {more : String} {tail : List Char} (is_tail : call.tail? = some tail)
    (matched : resource.Matches (more.toList ++ '/' :: tail)) :
    more = "objects" ∨ more = "refs" ∨ ∃ name, more = "refs/" ++ name ∧ '\n' ∉ name.toList := by
  have word {text : List Char} (flat : '/' ∉ text) : more.toList ++ '/' :: tail ≠ text := by
    rintro rfl
    exact flat (List.mem_append_right _ List.mem_cons_self)
  have later {others text : List Char} (flat : '/' ∉ text) : text ≠ others ++ '/' :: tail := by
    rintro rfl
    exact flat (List.mem_append_right _ List.mem_cons_self)
  obtain ⟨notTransfer, notAccept⟩ := tail?_ne is_tail
  generalize whole : more.toList ++ '/' :: tail = path at matched
  cases matched with
  | push | objects | references | resolve | defaultBranch => exact absurd whole (word (by decide))
  | @object hash full flat =>
    obtain ⟨_, ⟨folder, _⟩ | ⟨_, _, rest⟩⟩ := cut_at_slash "objects".toList hash.toList (by decide) whole
    · exact .inl (String.toList_inj.1 folder)
    · exact absurd rest (later flat)
  | @reference name full line =>
    obtain ⟨_, ⟨folder, _⟩ | ⟨others, folder, rest⟩⟩ :=
      cut_at_slash "refs".toList name.toList (by decide) whole
    · exact .inr (.inl (String.toList_inj.1 folder))
    · obtain ⟨text, rfl⟩ := exists_toList others
      refine .inr (.inr ⟨text, String.toList_inj.1 ?_, fun member => line ?_⟩)
      · rw [folder, String.toList_append]
        rfl
      · rw [rest]
        exact List.mem_append_left _ member
  | transfer =>
    obtain ⟨_, ⟨_, rest⟩ | ⟨_, _, rest⟩⟩ :=
      cut_at_slash "ownership".toList "transfer".toList (by decide) whole
    · exact absurd rest.symm notTransfer
    · exact absurd rest (later (by decide))
  | accept =>
    obtain ⟨_, ⟨_, rest⟩ | ⟨_, _, rest⟩⟩ :=
      cut_at_slash "ownership".toList "accept".toList (by decide) whole
    · exact absurd rest.symm notAccept
    · exact absurd rest (later (by decide))

/-- In such a folder the list of all objects stands for one object, or for a reference. -/
lemma matches_of_folder {more : String}
    (folder : more = "objects" ∨ more = "refs" ∨ ∃ name, more = "refs/" ++ name ∧ '\n' ∉ name.toList) :
    ∃ resource : Resource, resource.Matches (more.toList ++ '/' :: "objects".toList) := by
  rcases folder with rfl | rfl | ⟨name, rfl, line⟩
  · have matched : (Resource.object "objects").Matches ("objects/".toList ++ "objects".toList) :=
      .object (by decide) (by decide)
    exact ⟨_, matched⟩
  · have matched : (Resource.reference "objects").Matches ("refs/".toList ++ "objects".toList) :=
      .reference (by decide) (by decide)
    exact ⟨_, matched⟩
  · have text : ("refs/" ++ name).toList ++ '/' :: "objects".toList =
        "refs/".toList ++ (name ++ "/objects").toList := by
      simp only [String.toList_append, List.append_assoc]
      rfl
    have line' : '\n' ∉ (name ++ "/objects").toList := by
      rw [String.toList_append, List.mem_append, not_or]
      exact ⟨line, by decide⟩
    rw [text]
    exact ⟨_, .reference (by simp) line'⟩

/-- A client reaches another repository than its own exactly if its name strays. -/
lemma strays_iff (address : client.address = defaultAddress) :
    (∃ call name resource, client.Asks .direct call (.repository name resource) ∧ name ≠ client.repository) ↔
      Strays client.repository := by
  constructor
  · rintro ⟨call, name, resource, ⟨request, authorization, asked, path⟩, apart⟩
    obtain ⟨full, flat⟩ := (Endpoint.matches_iff.2 path).named
    rcases endpoint_of_request address asked path with
      ⟨_, _, e⟩ | ⟨tail, rest, resource, is_tail, matched, e, cuts⟩
    · cases e
    cases e
    rcases cuts with ⟨whole, _⟩ | ⟨more, parts, rfl⟩
    · exact absurd whole.symm apart
    · obtain ⟨text, rfl⟩ := exists_toList more
      refine ⟨_, text, String.toList_inj.1 ?_, full, flat, folder_of_matches is_tail matched⟩
      rw [parts, String.append_assoc, String.toList_append, String.toList_append]
      rfl
  · rintro ⟨first, more, named, full, flat, folder⟩
    obtain ⟨resource, matched⟩ := matches_of_folder folder
    have word : Carries "/objects" ('/' :: "objects".toList) := .literal (by decide) (by decide)
    refine ⟨.listObjects, first, resource, ⟨_, none, rfl, ?_⟩, ?_⟩
    · rw [Transport.direct]
      have text : root.toList ++ (first ++ "/" ++ more).toList ++ '/' :: "objects".toList =
          root.toList ++ first.toList ++ '/' :: (more.toList ++ '/' :: "objects".toList) := by
        simp [String.toList_append]
      rw [pathOf_requestFor_whole address word, named, text]
      exact Endpoint.matches_iff.1 (.repository full flat matched)
    · intro same
      have slash : '/' ∈ (first ++ "/" ++ more).toList := by simp [String.toList_append]
      rw [← named, ← same] at slash
      exact flat slash

/-- The body of an answer below 400 is taken; any other is a refusal. -/
lemma accepted_of_lt {reply : Reply} (accepted : reply.status < 400) :
    reply.accepted = .ok (reply.body.getD (.object [])) := by
  rw [Reply.accepted, if_neg (Int.not_le.2 accepted)]
  rfl

/-- An answer from 400 on is a refusal, or is stumbled over. -/
lemma accepted_of_le {reply : Reply} (refused : 400 ≤ reply.status) :
    ∃ failure, reply.accepted = .error failure := by
  rw [Reply.accepted, if_pos refused]
  cases reply.body.getD (.object []) <;> exact ⟨_, rfl⟩

variable (client) in
/-- Where a call changes what stands under a name, it creates a repository there, or the name is the
first segment of its own. -/
lemma named_of_differs (address : client.address = defaultAddress) (distinct : work.content.names.Nodup)
    (differs : ((client.perform (sendTo service authorization) call).run work).2.content.find? name ≠
      work.content.find? name) :
    (∃ sha256, call = .create sha256 ∧ work.content.find? name = none) ∨
      name = firstSegment client.repository := by
  cases asked : client.request call with
  | error cause =>
    rw [run_perform_of_error asked] at differs
    exact absurd rfl differs
  | ok request =>
    rw [run_perform asked] at differs
    rcases ran : (service.respond (request.toService authorization)).run work with ⟨response, after⟩
    rw [ran] at differs
    have permitted := Service.permitted_of_differs distinct ran differs
    generalize work.content.find? name = before at permitted ⊢
    generalize after.content.find? name = left at permitted
    cases permitted with
    | create path =>
      rcases asks_only address ⟨_, _, asked, path⟩ with ⟨sha256, created, _⟩ | ⟨_, e⟩
      · exact .inl ⟨sha256, created, rfl⟩
      · cases e
    | own path | succeed path =>
      rcases asks_only address ⟨_, _, asked, path⟩ with ⟨_, _, e⟩ | ⟨_, e⟩
      · cases e
      · cases e
        exact .inr rfl

variable (client) in
/-- What a call is answered is told by what stands under the first segment, if it creates nothing. -/
lemma answer_of_found {work' : Work Store} (address : client.address = defaultAddress)
    (creates : ∀ sha256, call ≠ .create sha256)
    (same : work.content.find? (firstSegment client.repository) =
      work'.content.find? (firstSegment client.repository)) :
    ((client.perform (sendTo service authorization) call).run work).1 =
      ((client.perform (sendTo service authorization) call).run work').1 := by
  cases asked : client.request call with
  | error cause => rw [run_perform_of_error asked, run_perform_of_error asked]
  | ok request =>
    rw [run_perform asked, run_perform asked]
    cases path : Endpoint.ofPath? (pathOf (request.toService authorization).target) with
    | none => rw [Service.run_respond_of_path path, Service.run_respond_of_path path]
    | some endpoint =>
      rcases asks_only address ⟨_, _, asked, path⟩ with ⟨_, e, _⟩ | ⟨resource, rfl⟩
      · exact absurd e (creates _)
      have routed : (request.toService authorization).isFor (firstSegment client.repository) := by
        simp [Http.Request.isFor, path]
      obtain ⟨response, _, _, acts⟩ := service.respond_confined routed _
      obtain ⟨_, ran, _⟩ := acts work same
      obtain ⟨_, ran', _⟩ := acts work' rfl
      rw [ran, ran']

variable {transport : Transport}

/-- Over a transport that delivers its paths a client asks for what it asks for beside the service. -/
lemma asks_iff (delivers : transport.Delivers client.address fun _ => True) :
    client.Asks transport call endpoint ↔ client.atDefault.Asks .direct call endpoint := by
  cases asked : client.request call with
  | error cause =>
    have unasked := request_atDefault_error asked
    constructor
    · rintro ⟨_, _, asked', _⟩
      cases asked.symm.trans asked'
    · rintro ⟨_, _, asked', _⟩
      cases unasked.symm.trans asked'
  | ok request =>
    obtain ⟨method, path, payload, rfl, askedDefault⟩ := request_eq asked
    have target (authorization : Option String) :
        pathOf (transport authorization (client.requestFor method path payload)).target =
          pathOf (Transport.direct authorization (client.atDefault.requestFor method path payload)).target := by
      rw [requestFor, delivers.path authorization method path payload trivial, requestFor, atDefault,
        Transport.direct, target_toService]
    constructor
    · rintro ⟨_, authorization, asked', routed⟩
      cases asked.symm.trans asked'
      exact ⟨_, authorization, askedDefault, target authorization ▸ routed⟩
    · rintro ⟨_, authorization, asked', routed⟩
      cases askedDefault.symm.trans asked'
      exact ⟨_, authorization, asked, (target authorization).symm ▸ routed⟩

end Client

/-- Whatever the name of a repository is, over a transport that delivers the paths of its client the calls
of this client ask to create it, or for something of the repository that is named by the first segment,
which is the name itself unless it has a slash. Another repository is asked exactly for the names that
stray. In every history a call changes nothing else, and what it is answered does not depend on anything
else. -/
theorem client_calls_reach (transport : Client.Transport) (repository address : String)
    (credentials : Option (String × String))
    (delivers : transport.Delivers (Client.connect repository address credentials).address fun _ => True) :
    let client := Client.connect repository address credentials
    let first := Client.firstSegment repository
    (first = repository ↔ '/' ∉ repository.toList) ∧
    (∀ call endpoint, client.Asks transport call endpoint →
      (∃ sha256, call = .create sha256 ∧ endpoint = .repositories) ∨
        ∃ resource, endpoint = .repository first resource) ∧
    ((∃ call name resource, client.Asks transport call (.repository name resource) ∧ name ≠ repository) ↔
      Client.Strays repository) ∧
    ∀ actions service authorization call,
      let work := (History.ofActions actions).work
      let performed := (client.perform (Client.sendOver transport service authorization) call).run work
      (∀ name, performed.2.content.find? name ≠ work.content.find? name →
        (∃ sha256, call = .create sha256 ∧ work.content.find? name = none) ∨ name = first) ∧
      ∀ other : Work Store, (∀ sha256, call ≠ .create sha256) →
        other.content.find? first = work.content.find? first →
        ((client.perform (Client.sendOver transport service authorization) call).run other).1 =
          performed.1 := by
  intro client first
  have address : client.atDefault.address = Client.defaultAddress := rfl
  refine ⟨Client.firstSegment_eq_iff, fun call endpoint asks => ?_, ?_, ?_⟩
  · exact Client.asks_only address ((Client.asks_iff delivers).1 asks)
  · refine .trans ?_ (Client.strays_iff address)
    constructor
    · rintro ⟨call, name, resource, asks, apart⟩
      exact ⟨call, name, resource, (Client.asks_iff delivers).1 asks, apart⟩
    · rintro ⟨call, name, resource, asks, apart⟩
      exact ⟨call, name, resource, (Client.asks_iff delivers).2 asks, apart⟩
  intro actions service authorization call work performed
  have passed : call.Passes client fun _ => True := fun _ _ _ _ => trivial
  have beside (work : Work Store) :
      (client.perform (Client.sendOver transport service authorization) call).run work =
        (client.atDefault.perform (Client.sendTo service authorization) call).run work :=
    Client.perform_of_delivers delivers passed work
  have distinct : work.content.names.Nodup := (History.traced actions).distinct
  constructor
  · intro name differs
    have same : performed = _ := beside work
    rw [same] at differs
    exact client.atDefault.named_of_differs address distinct differs
  · intro other creates same
    have same' : performed = _ := beside work
    rw [same', beside other]
    exact client.atDefault.answer_of_found address creates same

/-- Beside the service a call asks for nothing but what the name leads to. -/
theorem client_calls_reach_direct :
    Client.Transport.direct.Delivers (Client.connect "depot" Client.defaultAddress none).address
        (fun _ => True) ∧
      ¬ ∃ call name resource,
        (Client.connect "depot" Client.defaultAddress none).Asks .direct call (.repository name resource) ∧
          name ≠ "depot" := by
  refine ⟨Client.Transport.direct_delivers, fun strays => ?_⟩
  obtain ⟨_, _, only, _⟩ := client_calls_reach .direct "depot" Client.defaultAddress none
    Client.Transport.direct_delivers
  obtain ⟨first, more, named, _⟩ := only.1 strays
  have slash : '/' ∈ "depot".toList := by
    rw [named]
    simp [String.toList_append]
  exact absurd slash (by decide)

namespace History

/-- A repository with a reference, and another one that is named like the folder of its references. -/
def foldered : List Action :=
  [.perform "main" (.call (.create (.string "depot") (.string "ann") (.string "sha256"))),
    .perform "main" (.call (.create (.string "depot/refs") (.string "ann") (.string "sha256"))),
    .perform "main" (.call (.inRepository (.string "depot")
      (.push [(Hash.digest .sha256 [1], [1])] [(.string "refs/main", Hash.digest .sha256 [1])])))]

/-- The client of the other one, with the credentials of the owner of both. -/
def folderClient : Client :=
  Client.connect "depot/refs" Client.defaultAddress (some ("ann", "secret"))

/-- What is left when it deletes a reference. -/
def afterDeletion : Work Store :=
  ((folderClient.perform (Client.sendTo sampleService (some "Basic YW5uOnNlY3JldA=="))
    (.deleteReference (.string "main"))).run (ofActions foldered).work).2

/-- Both repositories are there, and the client of the one deletes the reference of the other. -/
theorem client_calls_reach_elsewhere :
    (ofActions foldered).work.content.names = ["depot", "depot/refs"] ∧
      folderClient.authorization.toOption = some (some "Basic YW5uOnNlY3JldA==") ∧
      folderClient.Asks .direct (.deleteReference (.string "main"))
        (.repository "depot" (.reference "refs/main")) ∧
      ((ofActions foldered).work.content.find? "depot").map (·.references) =
        some [⟨1, "refs/main", Hash.digest .sha256 [1]⟩] ∧
      (afterDeletion.content.find? "depot").map (·.references) = some [] := by
  refine ⟨by decide +kernel, by decide +kernel, ⟨_, none, rfl, ?_⟩, by decide +kernel, by decide +kernel⟩
  decide +kernel

end History

end ObjectDepot
