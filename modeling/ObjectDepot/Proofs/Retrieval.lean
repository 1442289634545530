import ObjectDepot.Proofs.Answers
import ObjectDepot.Proofs.Batches
import ObjectDepot.Proofs.ClientReach
import ObjectDepot.Proofs.ExitStatus
import ObjectDepot.Proofs.FlatObjects
import ObjectDepot.Proofs.Persistence
import ObjectDepot.Proofs.Transports

/-!
# What a client adds is served

The hash that a client computes as text and the one that the store computes as bytes are the same
(`Client.hashText_eq`), and what a client sends is read as the object that it means, unless it is too long
(`Client.operation_of_add`). So adding succeeds exactly where the store lets the object be put
(`Client.add_performs`). Since objects stay, all clients are given it later (`History.serves_later`).

The paths of both calls are canonical, if the name of the repository is neither `.` nor `..`
(`Client.passes_addObject`, `Client.passes_getObject`).
-/

namespace ObjectDepot

open Procedure Http

namespace Hex

/-- The digits of a text are plain in a path, and stand for themselves. -/
lemma plain_of_mem_encode {bytes : Bytes} {c : Char} (member : c ∈ (encode bytes).toList) :
    isPlain c ∧ c ≠ '%' ∧ c ≠ '/' := by
  have all : ∀ c ∈ digits, isPlain c ∧ c ≠ '%' ∧ c ≠ '/' :=
    List.all_iff_forall_prop.1 (by decide)
  exact all c (mem_encode member)

/-- A text of digits is quoted as itself. -/
lemma quote_encode (bytes : Bytes) : Percent.quote [] (encode bytes) = encode bytes := by
  have all : ∀ c ∈ digits, Percent.isUnreserved c := List.all_iff_forall_prop.1 (by decide)
  have kept : ∀ c ∈ (encode bytes).toList,
      (if Percent.isUnreserved c || List.contains [] c then [c]
        else (String.utf8EncodeChar c).flatMap Percent.escape) = [c] :=
    fun c member => if_pos (Bool.or_eq_true_iff.2 (.inl (all c (mem_encode member))))
  rw [Percent.quote, List.flatMap_congr kept, List.flatMap_singleton', String.ofList_toList]

/-- The digits of some bytes stand for no folder. -/
lemma encode_undotted {bytes : Bytes} (nonempty : bytes ≠ []) :
    encode bytes ≠ "" ∧ encode bytes ≠ "." ∧ encode bytes ≠ ".." := by
  have noDot : '.' ∉ (encode bytes).toList := fun member => absurd (mem_encode member) (by decide)
  have long : 2 ≤ (encode bytes).length := by
    have some : 0 < bytes.length := List.length_pos_iff.2 nonempty
    rw [length_encode]
    omega
  refine ⟨fun empty => ?_, fun dot => ?_, fun dots => ?_⟩
  · rw [empty] at long
    exact absurd long (by decide)
  · exact noDot (dot ▸ by decide)
  · exact noDot (dots ▸ by decide)

end Hex

namespace Hash

/-- A hash is read back from the text of its digest, with its zeros or without. -/
lemma ofJson_encode {raw : Bytes} (sized : raw.length = 20 ∨ raw.length = size) :
    ofJson (.string (Hex.encode raw)) = .ok (fill raw) := by
  have length : (Hex.encode raw).length = 40 ∨ (Hex.encode raw).length = 64 := by
    rw [Hex.length_encode]
    rw [size] at sized
    omega
  have short : raw.length ≤ size := by
    rw [size] at sized ⊢
    omega
  rw [ofJson, if_pos length, Hex.decode_encode]
  dsimp only
  rw [pad, if_pos short]
  rfl

/-- What fills a slot needs no zeros. -/
lemma fill_of_length {raw : Bytes} (filled : raw.length = size) : fill raw = raw := by
  rw [fill, filled, Nat.sub_self, List.replicate_zero, List.append_nil]

end Hash

/-- The flag of an algorithm selects it. -/
lemma Algorithm.ofFlag_decide (algorithm : Algorithm) :
    ofFlag (decide (algorithm = .sha256)) = algorithm := by
  cases algorithm <;> rfl

namespace Client

/-- The hash that a client computes is the text of the one that the store expects. -/
lemma hashText_eq (data : Bytes) (sha256 : Bool) :
    hashText data sha256 = Hex.encode (Hash.digest (.ofFlag sha256) data) := by
  cases sha256 with
  | true =>
    have filled : Hash.fill (Sha256.digest data) = Sha256.digest data :=
      Hash.fill_of_length (Sha256.digest_length data)
    change Hex.encode (Sha256.digest data) = Hex.encode (Hash.fill (Sha256.digest data))
    rw [filled]
  | false =>
    have filled : Hash.digest (.ofFlag false) data = Sha1.digest data ++ List.replicate 12 0 := rfl
    rw [filled, Hex.encode_append]
    rfl

/-- With the flag of the algorithm of a repository the text is that of the digest there. -/
lemma hashText_of_algorithm (algorithm : Algorithm) (data : Bytes) :
    hashText data (decide (algorithm = .sha256)) = Hex.encode (Hash.digest algorithm data) := by
  rw [hashText_eq, Algorithm.ofFlag_decide]

end Client

namespace Repository

variable {repository left : Repository} {hash data : Bytes} {sent : List Event}

/-- Which objects may be put under the digest of their payload. -/
lemma change_put_iff :
    (∃ left sent, repository.Change (.put (Hash.digest repository.algorithm data) data) left sent) ↔
      data ≠ [] ∧ Hash.digest repository.algorithm data ≠ Hash.zero ∧
        Hash.digest repository.algorithm data ∉ repository.objectHashes := by
  have filled := Hash.length_digest repository.algorithm data
  generalize same : Hash.digest repository.algorithm data = hash at filled ⊢
  constructor
  · rintro ⟨left, sent, change⟩
    cases change with
    | read reading => cases reading
    | put full nonzero digest absent =>
      refine ⟨full, Hash.ne_zero nonzero, ?_⟩
      rw [← hasObject_iff_mem, absent]
      exact Bool.false_ne_true
  · rintro ⟨full, nonzero, absent⟩
    rw [ne_eq, ← Hash.isZero_iff filled, Bool.not_eq_true] at nonzero
    rw [← hasObject_iff_mem, Bool.not_eq_true] at absent
    exact ⟨_, _, .put full nonzero same absent⟩

/-- What was put can be had. -/
lemma Change.had (change : repository.Change (.put hash data) left sent) :
    outcome (getObject hash) left = .ok data := by
  cases change with
  | read reading => cases reading
  | put _ _ _ absent =>
    have fresh : repository.findObject? hash = none := by
      rw [hasObject, Option.isSome_eq_false_iff, Option.isNone_iff_eq_none] at absent
      exact absent
    have found : (repository.addObject hash data).findObject? hash = some ⟨hash, data⟩ := by
      unfold findObject? at fresh ⊢
      rw [addObject, List.find?_append, fresh]
      simp
    rw [outcome_getObject, found]

end Repository

namespace Http

/-- Whoever is proved by a header has an account. -/
lemma account_of_headerCaller {accounts : List Account} {header name : String}
    (sent : headerCaller accounts header = .ok (some name)) : ∃ account ∈ accounts, account.name = name := by
  unfold headerCaller at sent
  dsimp only at sent
  split at sent
  case isTrue => cases sent
  case isFalse =>
    split at sent
    case isTrue => cases sent
    case isFalse =>
      obtain ⟨_, _, sent⟩ := Option.bind_eq_some_iff.1 (Except.ok.inj sent)
      obtain ⟨account, proved, named⟩ := Option.bind_eq_some_iff.1 sent
      have active : activeAccount? accounts _ = some account := (Option.filter_eq_some_iff.1 proved).1
      have found := (Option.filter_eq_some_iff.1 active).1
      exact ⟨account, List.mem_of_find?_eq_some found, Option.some.inj named⟩

namespace Service

variable {service : Service} {request : Request} {name : String} {hash data : Bytes}
  {repository left : Repository} {sent : List Event}

/-- The owner of a repository passes the gate. -/
lemma run_gate_of_owner {work : Work Repository}
    (sender : service.sender request = .ok (some work.content.owner)) (named : work.content.owner ≠ "") :
    (service.gate request).run work = (.ok (), work) := by
  have owner : Repository.isAccount (callerValue (some work.content.owner)) work.content.owner := by
    rw [Repository.isAccount, callerValue, validName?, if_neg named, beq_self_eq_true]
  rw [run_gate sender, if_pos owner]

/-- An object that may be put is put for the owner. -/
lemma addObject_performs {work : Work Repository}
    (sender : service.sender request = .ok (some work.content.owner)) (named : work.content.owner ≠ "")
    (asks : service.operation request .post .objects = .ok (.put hash data))
    (change : work.content.Change (.put hash data) left sent) :
    ∃ after, (service.addObject request).run work =
      (.ok ⟨201, .object [("hash", hexText hash)]⟩, after) := by
  obtain ⟨answer, after, performed, _⟩ := change.performs rfl
  obtain ⟨_, done, put, _⟩ := bind_ok performed
  obtain ⟨members, read, asks⟩ := except_bind_ok asks
  obtain ⟨_, given, asks⟩ := except_bind_ok asks
  obtain ⟨_, payload, asks⟩ := except_bind_ok asks
  cases asks
  refine ⟨done, ?_⟩
  rw [addObject, run_bind_of_ok (run_gate_of_owner sender named), run_ofExcept_bind read,
    run_ofExcept_bind given, run_ofExcept_bind payload]
  exact run_bind_of_ok put

/-- A request to put an object that the owner sends succeeds if the object may be put. -/
lemma succeeded_of_put {work : Work Store}
    (path : Endpoint.ofPath? (pathOf request.target) = some (.repository name .objects))
    (sort : Method.ofName? request.method = some .post)
    (sender : service.sender request = .ok (some repository.owner)) (named : repository.owner ≠ "")
    (asks : service.operation request .post .objects = .ok (.put hash data))
    (here : work.content.find? name = some repository)
    (change : repository.Change (.put hash data) left sent) :
    ((service.respond request).run work).1.succeeded := by
  let inside : Work Repository := { work with content := repository }
  have change : inside.content.Change (.put hash data) left sent := change
  obtain ⟨done, added⟩ := addObject_performs sender named asks change
  rw [respond_of_handleResource path sort (by decide) here added]
  rfl

/-- One that succeeds has put its object. -/
lemma put_of_succeeded {work after : Work Store} {response : Response}
    (path : Endpoint.ofPath? (pathOf request.target) = some (.repository name .objects))
    (sort : Method.ofName? request.method = some .post)
    (asks : service.operation request .post .objects = .ok (.put hash data))
    (here : work.content.find? name = some repository)
    (ran : (service.respond request).run work = (response, after)) (succeeded : response.succeeded) :
    ∃ left sent, repository.Change (.put hash data) left sent ∧ after.content.find? name = some left := by
  rcases respond_cases ran with ⟨_, done, answer, asked, performed⟩ | ⟨failed, _⟩
  · have meant : service.call? request = some (.inRepository (.string name) (.put hash data)) := by
      have permitted : Method.post ∈ Resource.objects.methods := by decide
      have allowed : (Method.ofName? request.method).filter
        (· ∈ (Endpoint.repository name .objects).methods) = some .post := allowed_of_method sort permitted
      simp only [call?, path, allowed, Option.bind_eq_bind, Option.bind_some, Service.call, asks]
      rfl
    cases meant.symm.trans asked
    have inside : (Store.within (.string name) (RepositoryCall.put hash data).perform).run work =
      (.ok answer, after) := performed
    obtain ⟨done, put, rfl⟩ := Store.within_eq (Store.lookup?_string.trans here) inside
    obtain ⟨sent, change⟩ := Repository.change_of_perform rfl put
    refine ⟨_, sent, change, ?_⟩
    obtain ⟨_, rfl⟩ := Store.mem_of_find? here
    rw [← change.name] at here ⊢
    exact Store.find?_replace_self here
  · rw [failed] at succeeded
    cases succeeded

/-- A request to put an object that succeeds is not too long. -/
lemma short_of_succeeded {work after : Work Store} {response : Response}
    (path : Endpoint.ofPath? (pathOf request.target) = some (.repository name .objects))
    (sort : Method.ofName? request.method = some .post)
    (ran : (service.respond request).run work = (response, after)) (succeeded : response.succeeded) :
    request.tooLong = false := by
  rcases respond_cases ran with ⟨_, call, answer, asked, _⟩ | ⟨failed, _⟩
  · by_contra long
    have unread : request.members = .error (.fault .aborted) := if_pos (Bool.not_eq_false _ ▸ long)
    have permitted : Method.post ∈ Resource.objects.methods := by decide
    have allowed : (Method.ofName? request.method).filter
      (· ∈ (Endpoint.repository name .objects).methods) = some .post := allowed_of_method sort permitted
    have notGet : Method.post ≠ .get := nofun
    simp only [call?, path, allowed, Option.bind_some, Service.call, operation,
      if_neg notGet, bind, Except.bind, unread] at asked
    cases asked
  · rw [failed] at succeeded
    cases succeeded

/-- An object is shown under a text that is read as its hash. -/
lemma run_showObject {work : Work Repository} {text : String}
    (given : Hash.ofJson (.string text) = .ok hash)
    (stored : outcome (Repository.getObject hash) work.content = .ok data) :
    (showObject text).run work =
      (.ok ⟨200, .object [("hash", hexText hash), ("data", hexText data)]⟩, work) := by
  have got : (Repository.getObject hash).run work = (.ok data, work) := by
    rw [Repository.run_getObject, ← Repository.outcome_getObject, stored]
  rw [showObject, run_ofExcept_bind given]
  exact run_bind_of_ok got

variable (service) in
/-- Everyone is answered the payload of an object. -/
lemma respond_shows {work : Work Store} {text : String}
    (path : Endpoint.ofPath? (pathOf request.target) = some (.repository name (.object text)))
    (sort : Method.ofName? request.method = some .get)
    (here : work.content.find? name = some repository) (given : Hash.ofJson (.string text) = .ok hash)
    (stored : outcome (Repository.getObject hash) repository = .ok data) :
    ((service.respond request).run work).1 =
      .json 200 (.object [("hash", hexText hash), ("data", hexText data)]) := by
  let inside : Work Repository := { work with content := repository }
  have shown : (service.handleResource request .get (.object text)).run inside =
    (.ok ⟨200, .object [("hash", hexText hash), ("data", hexText data)]⟩, inside) :=
    run_showObject given stored
  exact respond_of_handleResource path sort List.mem_cons_self here shown

end Service

end Http

namespace Client

open Http

/-- Of the text of a short digest the first forty characters are its digits. -/
lemma take_hashText (data : Bytes) :
    String.ofList ((hashText data false).toList.take 40) = Hex.encode (Sha1.digest data) := by
  have length : (Hex.encode (Sha1.digest data)).toList.length = 40 := by
    rw [String.length_toList, Hex.length_encode, Sha1.digest_length]
  have text : hashText data false =
    Hex.encode (Sha1.digest data) ++ String.ofList (List.replicate 24 '0') := rfl
  rw [text, String.toList_append, ← length, List.take_left, String.ofList_toList]

variable {client : Client} {call : Call} {endpoint : Endpoint} {service : Service}
  {authorization : Option String} {work after : Work Store} {repository : Repository} {data : Bytes}
  {sha256 : Bool} {hash : Bytes} {request : Client.Request}

/-- An answer that does not tell of success is one that a client takes for a refusal. -/
lemma refused_of_failed {request : Http.Request} {response : Http.Response}
    (answered : (service.respond request).run work = (response, after))
    (failed : response.succeeded = false) : 400 ≤ (Reply.ofResponse response).status := by
  have ends : service.Answers request ((service.respond request).run work).1 ∨
      ∃ cause, ((service.respond request).run work).1 = .crashed cause ∧
        service.Crashes request work.content cause := Service.respond_ends
  rw [answered] at ends
  rcases ends with answers | ⟨cause, rfl, _⟩
  · cases answers with
    | unrouted => exact (by decide : (400 : Int) ≤ 404)
    | unallowed => exact (by decide : (400 : Int) ≤ 405)
    | stranger => exact (by decide : (400 : Int) ≤ 401)
    | @rejected _ _ error => cases error <;> exact Int.ofNat_le.2 (Nat.le_of_ble_eq_true rfl)
    | done _ _ _ status =>
      rcases status with rfl | rfl <;> cases failed
  · cases cause <;> exact Int.ofNat_le.2 (Nat.le_of_ble_eq_true rfl)

/-- Where a call leads, its request is routed. -/
lemma Leads.routed (leads : client.Leads call endpoint) (asked : client.request call = .ok request)
    (authorization : Option String) :
    Endpoint.ofPath? (pathOf (request.toService authorization).target) = some endpoint := by
  obtain ⟨_, asked', only, same⟩ := leads
  cases asked.symm.trans asked'
  rw [same]
  exact Endpoint.matches_iff.1 ((only endpoint).2 rfl)

/-- What a client sends to add an object has two bytes for each of the payload, and some more. -/
lemma tooLong_of_add (asked : client.request (.addObject data sha256) = .ok request) :
    (request.toService authorization).tooLong = false ↔ 88 + 2 * data.length ≤ uploadLimit := by
  have bare : Json.IsBare "hash" ∧ Json.IsBare (hashText data sha256) := by
    refine ⟨List.all_iff_forall_prop.1 (by decide), ?_⟩
    rw [hashText_eq]
    exact Json.isBare_encode _
  have bare' : Json.IsBare "data" ∧ Json.IsBare (Hex.encode data) :=
    ⟨List.all_iff_forall_prop.1 (by decide), Json.isBare_encode data⟩
  have hash : (hashText data sha256).length = 64 := by
    rw [hashText_eq, Hex.length_encode, Hash.length_digest, Hash.size]
  have length : (request.toService authorization).body.length = 88 + 2 * data.length := by
    cases asked
    have body := Json.length_toBytes bare bare'
    rw [hash, Hex.length_encode] at body
    refine body.trans ?_
    have words : "hash".length = 4 ∧ "data".length = 4 := ⟨rfl, rfl⟩
    omega
  rw [Http.Request.tooLong, length, decide_eq_false_iff_not, Nat.not_lt]

/-- What a client sends to add an object is read as that object under its digest. -/
lemma operation_of_add (asked : client.request (.addObject data sha256) = .ok request)
    (short : (request.toService authorization).tooLong = false) :
    service.operation (request.toService authorization) .post .objects =
      .ok (.put (Hash.digest (.ofFlag sha256) data) data) := by
  have keys : ["hash", "data"].Nodup := by decide
  have sent : (request.toService authorization).members =
      .ok (Json.texts [("hash", hashText data sha256), ("data", Hex.encode data)]) := by
    cases asked
    exact Request.members_of_texts rfl keys short
  have filled := Hash.length_digest (.ofFlag sha256) data
  have hash : Hash.ofJson (.string (hashText data sha256)) = .ok (Hash.digest (.ofFlag sha256) data) := by
    rw [hashText_eq, Hash.ofJson_encode (.inr filled), Hash.fill_of_length filled]
  have payload : payloadOfJson (.string (Hex.encode data)) = .ok data := by
    rw [payloadOfJson, Hex.decode_encode]
  have given : field (Json.texts [("hash", hashText data sha256), ("data", Hex.encode data)]) "hash" =
    .string (hashText data sha256) := rfl
  have carried : field (Json.texts [("hash", hashText data sha256), ("data", Hex.encode data)]) "data" =
    .string (Hex.encode data) := rfl
  have notGet : Method.post ≠ .get := nofun
  simp only [Service.operation, if_neg notGet, bind, Except.bind, sent, given, hash, carried, payload]
  rfl

/-- An answer that tells of success has a status below 400. -/
lemma lt_of_succeeded {response : Http.Response} (succeeded : response.succeeded) :
    (Reply.ofResponse response).status < 400 := by
  cases response with
  | json status body =>
    rw [Response.succeeded, Bool.and_eq_true, decide_eq_true_eq, decide_eq_true_eq] at succeeded
    have small : status < 400 := by omega
    exact Int.ofNat_lt.2 small
  | _ => cases succeeded

/-- A client has added its object if the answer tells of success, and fails if it does not. -/
lemma add_cases {response : Http.Response} (asked : client.request (.addObject data sha256) = .ok request)
    (answered : (service.respond (request.toService authorization)).run work = (response, after)) :
    ∃ result, (client.perform (sendTo service authorization) (.addObject data sha256)).run work =
        (result, after) ∧
      (response.succeeded ∧ result = .ok (.json (.string (hashText data sha256))) ∨
        response.succeeded = false ∧ ∃ failure, result = .error failure) := by
  rw [run_perform asked, answered]
  refine ⟨_, rfl, ?_⟩
  dsimp only
  cases succeeded : response.succeeded with
  | true =>
    rw [Call.take, accepted_of_lt (lt_of_succeeded succeeded)]
    exact .inl ⟨rfl, rfl⟩
  | false =>
    obtain ⟨failure, refused⟩ := accepted_of_le (refused_of_failed answered succeeded)
    rw [Call.take, refused]
    exact .inr ⟨rfl, _, rfl⟩

/-- A client that is taken for the owner of its repository adds an object exactly if the object may be put
and what is sent is not too long. It answers the text of the digest, and has put the object. -/
lemma add_performs {result : Except Failure Value} (address : client.address = defaultAddress)
    (full : client.repository ≠ "") (flat : '/' ∉ client.repository.toList)
    (here : work.content.find? client.repository = some repository)
    (owner : caller service.accounts none (authorization.getD "") = .ok (some repository.owner))
    (named : repository.owner ≠ "") (chosen : Algorithm.ofFlag sha256 = repository.algorithm)
    (ran : (client.perform (sendTo service authorization) (.addObject data sha256)).run work =
      (result, after)) :
    ((∃ value, result = .ok value) ↔ 88 + 2 * data.length ≤ uploadLimit ∧ ∃ left sent,
      repository.Change (.put (Hash.digest repository.algorithm data) data) left sent) ∧
    ∀ value, result = .ok value → value = .json (.string (hashText data sha256)) ∧
      ∃ left sent, repository.Change (.put (Hash.digest repository.algorithm data) data) left sent ∧
        after.content.find? client.repository = some left := by
  have folder : Carries "/objects" ('/' :: "objects".toList) := .literal (by decide) (by decide)
  have leads : client.Leads (.addObject data sha256) (.repository client.repository .objects) :=
    leads_to_resource address full flat rfl folder .objects
  obtain ⟨request, asked, posts⟩ : ∃ request, client.request (.addObject data sha256) = .ok request ∧
    request.method = .post := ⟨_, rfl, rfl⟩
  have path := leads.routed asked authorization
  have sort : Method.ofName? (request.toService authorization).method = some .post := by
    change Method.ofName? request.method.name = _
    rw [posts, Method.ofName?_name]
  have asks (short : (request.toService authorization).tooLong = false) :
      service.operation (request.toService authorization) .post .objects =
        .ok (.put (Hash.digest repository.algorithm data) data) := by
    rw [operation_of_add asked short, chosen]
  have sender : service.sender (request.toService authorization) = .ok (some repository.owner) := by
    change Except.mapError _ (caller service.accounts none (authorization.getD "")) = _
    rw [owner]
    rfl
  rcases answered : (service.respond (request.toService authorization)).run work with ⟨response, done⟩
  obtain ⟨_, performed, cases⟩ := add_cases asked answered
  cases performed.symm.trans ran
  rcases cases with ⟨succeeded, rfl⟩ | ⟨failed, failure, rfl⟩
  · have short := Service.short_of_succeeded path sort answered succeeded
    obtain ⟨left, sent, change, there⟩ :=
      Service.put_of_succeeded path sort (asks short) here answered succeeded
    refine ⟨⟨fun _ => ⟨(tooLong_of_add asked).1 short, left, sent, change⟩, fun _ => ⟨_, rfl⟩⟩, ?_⟩
    rintro _ ⟨⟩
    exact ⟨rfl, left, sent, change, there⟩
  · refine ⟨⟨nofun, fun ⟨short, left, sent, change⟩ => ?_⟩, nofun⟩
    have asks := asks ((tooLong_of_add asked).2 short)
    have succeeded := Service.succeeded_of_put path sort sender named asks here change
    rw [answered] at succeeded
    cases failed.symm.trans succeeded

/-- A call for the object under the digits of some bytes leads to it. -/
lemma leads_to_object {raw : Bytes} (address : client.address = defaultAddress)
    (full : client.repository ≠ "") (flat : '/' ∉ client.repository.toList) (digits : raw ≠ []) :
    client.Leads (.getObject (.string (Hex.encode raw)))
      (.repository client.repository (.object (Hex.encode raw))) := by
  have plain : (Hex.encode raw).toList.all isPlain :=
    List.all_eq_true.2 fun c member => (Hex.plain_of_mem_encode member).1
  have unsigned : '%' ∉ (Hex.encode raw).toList := fun member => (Hex.plain_of_mem_encode member).2.1 rfl
  have whole : '/' ∉ (Hex.encode raw).toList := fun member => (Hex.plain_of_mem_encode member).2.2 rfl
  have long : Hex.encode raw ≠ "" := by
    intro empty
    have length := Hex.length_encode raw
    rw [empty, String.length_empty] at length
    exact digits (List.eq_nil_of_length_eq_zero (by omega))
  have folder : Carries "/objects/" ('/' :: "objects/".toList) := .literal (by decide) (by decide)
  have asked : client.request (.getObject (.string (Hex.encode raw))) =
      .ok (client.requestFor .get (client.repositoryPath ++ ("/objects/" ++ Hex.encode raw)) none) := by
    rw [← String.append_assoc]
    rfl
  exact leads_to_resource address full flat asked (folder.append (.literal plain unsigned))
    (.object long whole)

/-- The payload is read off the answer that shows an object. -/
lemma read_shown (text : Json) (hash data : Bytes) :
    (Call.getObject text).read (.object [("hash", hexText hash), ("data", hexText data)]) =
      .ok (.bytes data) := by
  have read : hexBytes (hexText data) = .ok data := by
    rw [hexText, hexBytes, Hex.decode_encode]
    rfl
  change (do return .bytes (← hexBytes (hexText data)) : Except ValueFault Value) = _
  rw [read]
  rfl

/-- A client of a repository is given the payload of an object under the text of its digest, with the
zeros that fill its slot or without. -/
lemma perform_getObject {raw : Bytes} (address : client.address = defaultAddress)
    (full : client.repository ≠ "") (flat : '/' ∉ client.repository.toList)
    (here : work.content.find? client.repository = some repository)
    (sized : raw.length = 20 ∨ raw.length = Hash.size)
    (stored : outcome (Repository.getObject (Hash.fill raw)) repository = .ok data) :
    ((client.perform (sendTo service authorization) (.getObject (.string (Hex.encode raw)))).run work).1 =
      .ok (.bytes data) := by
  have digits : raw ≠ [] := by
    rintro rfl
    revert sized
    decide
  have leads := leads_to_object address full flat digits
  obtain ⟨request, asked, gets⟩ : ∃ request, client.request (.getObject (.string (Hex.encode raw))) =
    .ok request ∧ request.method = .get := ⟨_, rfl, rfl⟩
  have sort : Method.ofName? (request.toService authorization).method = some .get := by
    change Method.ofName? request.method.name = _
    rw [gets, Method.ofName?_name]
  have shown := service.respond_shows (leads.routed asked authorization) sort here
    (Hash.ofJson_encode sized) stored
  have accepted (body : Json) : (Reply.ofResponse (.json 200 body)).accepted = .ok body :=
    accepted_of_lt (by decide : (200 : Int) < 400)
  rw [run_perform asked, shown, Call.take, accepted]
  change ((Call.getObject (.string (Hex.encode raw))).read _).mapError Failure.fault = _
  rw [read_shown]
  rfl

/-- The path under which a client adds objects is canonical. -/
lemma passes_addObject (full : client.repository ≠ "")
    (undotted : client.repository ≠ "." ∧ client.repository ≠ "..") :
    (Call.addObject data sha256).Passes client Canonical := by
  have word : Percent.quote [] "objects" = "objects" := by decide
  refine passes_of_request rfl
    ⟨[client.repository, "objects"], List.cons_ne_nil _ _, ?_, by simp [full, undotted]⟩
  rw [List.map_cons, List.map_singleton, word]
  change client.repositoryPath ++ ("/" ++ "objects") = client.repositoryPath ++ "/" ++ "objects"
  rw [String.append_assoc]

/-- The path under which a client gets an object by the digits of its hash is canonical. -/
lemma passes_getObject {raw : Bytes} (full : client.repository ≠ "")
    (undotted : client.repository ≠ "." ∧ client.repository ≠ "..") (digits : raw ≠ []) :
    (Call.getObject (.string (Hex.encode raw))).Passes client Canonical := by
  have word : Percent.quote [] "objects" = "objects" := by decide
  refine passes_of_request rfl ⟨[client.repository, "objects", Hex.encode raw], List.cons_ne_nil _ _, ?_,
    by simp [full, undotted, Hex.encode_undotted digits]⟩
  rw [List.map_cons, List.map_cons, List.map_singleton, word, Hex.quote_encode]
  change client.repositoryPath ++ ("/" ++ "objects" ++ "/") ++ Hex.encode raw =
    client.repositoryPath ++ "/" ++ "objects" ++ "/" ++ Hex.encode raw
  simp only [String.append_assoc]

/-- All clients of a repository that can send a request, whoever they are and over whatever transport that
delivers canonical paths, are given a payload under a text. -/
def Serves (work : Work Store) (repository text : String) (data : Bytes) : Prop :=
  ∀ (transport : Transport) service address credentials authorization,
    transport.Delivers (connect repository address credentials).address Canonical →
      (((connect repository address credentials).perform (sendOver transport service authorization)
        (.getObject (.string text))).run work).1 = .ok (.bytes data)

end Client

namespace History

variable {earlier : List Action} {name : String} {repository : Repository}

/-- What is stored after some actions is served after any others, under each text of its hash. -/
lemma serves_later {raw data : Bytes} (full : name ≠ "") (flat : '/' ∉ name.toList)
    (undotted : name ≠ "." ∧ name ≠ "..")
    (here : (ofActions earlier).work.content.find? name = some repository)
    (sized : raw.length = 20 ∨ raw.length = Hash.size)
    (stored : outcome (Repository.getObject (Hash.fill raw)) repository = .ok data) (later : List Action) :
    Client.Serves (later.foldl (fun work action => action.act work) (ofActions earlier).work) name
      (Hex.encode raw) data := by
  intro transport service address credentials authorization delivers
  have more := calls_prefix earlier later
  obtain ⟨grown, there, grows⟩ := (traced earlier).grown (traced (earlier ++ later)) more here
  rw [work_append] at there
  have digits : raw ≠ [] := by
    rintro rfl
    revert sized
    decide
  have passed : (Client.Call.getObject (.string (Hex.encode raw))).Passes
      (Client.connect name address credentials) Client.Canonical :=
    Client.passes_getObject full undotted digits
  rw [Client.perform_of_delivers delivers passed]
  exact Client.perform_getObject rfl full flat there sized (Repository.get_of_prefix grows stored)

/-- In particular it is served under the text that a client computes, and under the first forty characters
of it if the digest has no more. -/
lemma serves_hashText {algorithm : Algorithm} {data : Bytes} (full : name ≠ "") (flat : '/' ∉ name.toList)
    (undotted : name ≠ "." ∧ name ≠ "..")
    (here : (ofActions earlier).work.content.find? name = some repository)
    (stored : outcome (Repository.getObject (Hash.digest algorithm data)) repository = .ok data)
    (later : List Action) :
    let work := later.foldl (fun work action => action.act work) (ofActions earlier).work
    let text := Client.hashText data (decide (algorithm = .sha256))
    Client.Serves work name text data ∧
      (algorithm = .sha1 → Client.Serves work name (String.ofList (text.toList.take 40)) data) := by
  intro work text
  have filled := Hash.length_digest algorithm data
  have whole : text = Hex.encode (Hash.digest algorithm data) := Client.hashText_of_algorithm algorithm data
  constructor
  · rw [whole]
    refine serves_later full flat undotted here (.inr filled) ?_ later
    rwa [Hash.fill_of_length filled]
  · rintro rfl
    have first : String.ofList (text.toList.take 40) = Hex.encode (Sha1.digest data) :=
      Client.take_hashText data
    rw [first]
    exact serves_later full flat undotted here (.inl (Sha1.digest_length data)) stored later

end History

/-- In every history, over a transport that delivers canonical paths, a client that a service takes for the
owner of a repository adds a payload if this is not empty, its digest is neither zero nor the hash of an
object that is there, and what is sent is not too long for a service to read, which takes 88 bytes and two
for each of the payload; the name of the repository has no slash and is neither `.` nor `..`, and the
accounts of the service have names. The client then answers the text of the digest. From then on, whatever
is done, all clients that can send a request are given the payload under that text, and under the first
forty characters of it if the digest has no more. -/
theorem added_object_served (actions : List Action) (service : Http.Service) (transport : Client.Transport)
    (address : String) (credentials : Option (String × String)) (authorization : Option String)
    (repository : Repository) (data : Bytes)
    (delivers : transport.Delivers (Client.connect repository.name address credentials).address
      Client.Canonical)
    (present : repository ∈ (History.ofActions actions).work.content.repositories)
    (flat : '/' ∉ repository.name.toList) (undotted : repository.name ≠ "." ∧ repository.name ≠ "..")
    (named : ∀ account ∈ service.accounts, account.name ≠ "")
    (owner : Http.caller service.accounts none (authorization.getD "") = .ok (some repository.owner)) :
    let client := Client.connect repository.name address credentials
    let sha256 := decide (repository.algorithm = .sha256)
    let hash := Hash.digest repository.algorithm data
    let text := Client.hashText data sha256
    let added := (client.perform (Client.sendOver transport service authorization)
      (.addObject data sha256)).run (History.ofActions actions).work
    text = Hex.encode hash ∧
    ((∃ value, added.1 = .ok value) ↔ 88 + 2 * data.length ≤ Http.uploadLimit ∧
      data ≠ [] ∧ hash ≠ Hash.zero ∧ hash ∉ repository.objectHashes) ∧
    ∀ value, added.1 = .ok value → value = .json (.string text) ∧ ∀ later : List Action,
      let work := later.foldl (fun work action => action.act work) added.2
      Client.Serves work repository.name text data ∧
        (repository.algorithm = .sha1 →
          Client.Serves work repository.name (String.ofList (text.toList.take 40)) data) := by
  intro client sha256 hash text added
  have traced := History.traced actions
  have here : (History.ofActions actions).work.content.find? repository.name = some repository :=
    (Keys.find?_key_iff traced.distinct).2 ⟨present, rfl⟩
  have full : repository.name ≠ "" := traced.named _ (List.mem_map_of_mem present)
  have chosen : Algorithm.ofFlag sha256 = repository.algorithm := Algorithm.ofFlag_decide _
  obtain ⟨account, member, same⟩ := Http.account_of_headerCaller owner
  have someone : repository.owner ≠ "" := same ▸ named account member
  have passed : (Client.Call.addObject data sha256).Passes client Client.Canonical :=
    Client.passes_addObject full undotted
  have beside : added = (client.atDefault.perform (Client.sendTo service authorization)
      (.addObject data sha256)).run (History.ofActions actions).work :=
    Client.perform_of_delivers delivers passed _
  rcases ran : added with ⟨result, after⟩
  rw [beside] at ran
  obtain ⟨adds, put⟩ := Client.add_performs rfl full flat here owner someone chosen ran
  refine ⟨Client.hashText_of_algorithm _ data, adds.trans (and_congr_right' Repository.change_put_iff), ?_⟩
  intro value succeeded
  obtain ⟨told, left, sent, change, there⟩ := put value succeeded
  refine ⟨told, fun later => ?_⟩
  -- adding the object is one more action, so what comes later follows on it
  obtain ⟨request, asked⟩ : ∃ request, client.atDefault.request (.addObject data sha256) = .ok request :=
    ⟨_, rfl⟩
  obtain rfl : after =
      (History.ofActions (actions ++ [.ask service (request.toService authorization)])).work := by
    rw [History.work_append]
    exact (Prod.mk.inj ((Client.run_perform asked).symm.trans ran)).2.symm
  exact History.serves_hashText full flat undotted there change.had later

namespace History

/-- The owner of the repository of the short history adds an object, over a transport that resolves paths. -/
def sampleAddition : Except Client.Failure Client.Value × Work Store :=
  (sampleClient.perform (Client.sendOver .resolving sampleService (some "Basic YW5uOnNlY3JldA=="))
    (.addObject [2] true)).run (ofActions sample).work

/-- The object is new, and is served after the sequel of the history, which tries to put it once more. -/
theorem added_object_served_sample :
    sampleRepository ∈ (ofActions sample).work.content.repositories ∧
      Http.caller sampleService.accounts none "Basic YW5uOnNlY3JldA==" = .ok (some "ann") ∧
      sampleAddition.1 = .ok (.json (.string (Client.hashText [2] true))) ∧
      Client.Serves (sampleSequel.foldl (fun work action => action.act work) sampleAddition.2) "depot"
        (Client.hashText [2] true) [2] := by
  have present := mem_sample
  have owner : Http.caller sampleService.accounts none "Basic YW5uOnNlY3JldA==" = .ok (some "ann") := by
    rfl
  have named : ∀ account ∈ sampleService.accounts, account.name ≠ "" := by decide
  have nonzero : Hash.digest .sha256 [2] ≠ Hash.zero := by decide +kernel
  have fresh : Hash.digest .sha256 [2] ∉ sampleRepository.objectHashes := by decide +kernel
  have flat : '/' ∉ sampleRepository.name.toList := by decide
  have undotted : sampleRepository.name ≠ "." ∧ sampleRepository.name ≠ ".." := by decide
  have long : decide (sampleRepository.algorithm = .sha256) = true := rfl
  obtain ⟨_, adds, put⟩ := added_object_served sample sampleService .resolving Client.defaultAddress
    (some ("ann", "secret")) (some "Basic YW5uOnNlY3JldA==") sampleRepository [2]
    Client.Transport.resolving_delivers present flat undotted named owner
  rw [long] at adds put
  obtain ⟨value, added⟩ := adds.2 ⟨by decide, by decide, nonzero, fresh⟩
  obtain ⟨rfl, served⟩ := put value added
  exact ⟨present, owner, added, (served sampleSequel).1⟩

/-- A run that shows the object which was added, to whoever has some credentials. -/
def sampleShow (credentials : Option (String × String)) : CommandLine.Outcome × CommandLine.Ledger :=
  (CommandLine.run sampleSite.recorded (some (Client.connect "depot" Client.defaultAddress credentials))
    ["cat", "-r", "depot", "-H", Client.hashText [2] true]).run ⟨sampleAddition.2, []⟩

/-- The owner of the repository of the short history adds no payload that is too long to be sent. -/
lemma sample_long {data : Bytes} (long : 1310676 < data.length) :
    ((sampleClient.perform (Client.sendTo sampleService (some "Basic YW5uOnNlY3JldA=="))
      (.addObject data true)).run (ofActions sample).work).1.toOption.isNone := by
  have here : (ofActions sample).work.content.find? sampleClient.repository = some sampleRepository :=
    find?_sample
  have owner : Http.caller sampleService.accounts none "Basic YW5uOnNlY3JldA==" = .ok (some "ann") := by
    rfl
  rcases ran : (sampleClient.perform (Client.sendTo sampleService (some "Basic YW5uOnNlY3JldA=="))
    (.addObject data true)).run (ofActions sample).work with ⟨result, after⟩
  obtain ⟨adds, _⟩ := Client.add_performs rfl (by decide) (by decide) here owner (by decide) rfl ran
  cases result with
  | error failure => rfl
  | ok value =>
    have short := (adds.1 ⟨value, rfl⟩).1
    rw [Http.uploadLimit] at short
    omega

/-- A repository whose name stands for a folder itself. -/
def dotted : List Action :=
  [.perform "main" (.call (.create (.string ".") (.string "ann") (.string "sha256")))]

/-- The object is shown to somebody without credentials, but whoever has a name that is not written in
Latin-1 sends nothing and is shown nothing. No payload of more than 1310676 bytes is added. Over a transport
that resolves paths the owner of the dotted repository adds nothing to it, though the payload is not empty
and its digest is new. -/
theorem added_object_unserved :
    sampleAddition.1.toOption.isSome ∧
      (sampleShow none).1.output = [2] ∧
      (sampleShow (some ("€", "secret"))).1.status? = none ∧
      (sampleShow (some ("€", "secret"))).1.output = [] ∧
      (sampleShow (some ("€", "secret"))).2.exchanges.isEmpty ∧
    (∀ data : Bytes, 1310676 < data.length →
      ((sampleClient.perform (Client.sendTo sampleService (some "Basic YW5uOnNlY3JldA=="))
        (.addObject data true)).run (ofActions sample).work).1.toOption.isNone) ∧
    ((ofActions dotted).work.content.find? ".").map (fun repository =>
      (repository.owner, repository.objectHashes)) = some ("ann", []) ∧
      Hash.digest .sha256 [2] ≠ Hash.zero ∧
      (((Client.connect "." Client.defaultAddress (some ("ann", "secret"))).perform
        (Client.sendOver .resolving sampleService (some "Basic YW5uOnNlY3JldA=="))
        (.addObject [2] true)).run (ofActions dotted).work).1.toOption.isNone := by
  refine ⟨?_, ?_, ?_, ?_, ?_, fun data long => sample_long long, ?_, ?_, ?_⟩ <;> decide +kernel

end History

end ObjectDepot
