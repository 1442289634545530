import ObjectDepot.Proofs.ExitStatus
import ObjectDepot.Proofs.Retrieval

/-!
# Answers that refuse a call

A call is refused by an answer with a status of 400 or more, if the body can be asked for members: the
refusal then `Reports` the answer (`Client.Call.take_remote_iff`). With another body the call stumbles
(`Client.Call.take_of_not_hasMembers`), and below 400 no status is told from 200 (`Client.Call.take_of_lt`).
A run of the command line finishes its job with the one answer that it gets
(`CommandLine.run_answered_cases`), and ends with status one for a refusal alone
(`CommandLine.finish_status_one_iff`). No answer of the service itself is one to stumble over
(`Client.hasMembers_of_failed`).
-/

namespace ObjectDepot

namespace Client

/-- A refusal reports an answer: its status, and the error and the detail in its body, or else `HTTPError`
and the text of the body. A body that is no JSON counts as an object without members. -/
structure RemoteError.Reports (refusal : RemoteError) (reply : Reply) : Prop where
  status : refusal.status = reply.status
  words : ∃ members, reply.body.getD (.object []) = .object members ∧
    refusal.error = (members.lookup "error").getD (.string "HTTPError") ∧
    refusal.detail = (members.lookup "detail").getD (.string reply.text)

/-- The body of an answer can be asked for members: it is an object, or no JSON and counts as one. -/
def Reply.HasMembers (reply : Reply) : Prop :=
  ∃ members, reply.body.getD (.object []) = .object members

variable {client : Client} {call : Call} {reply : Reply} {refusal : RemoteError}

/-- An answer whose body has members is reported by a refusal, and no other is. -/
lemma exists_reports_iff : (∃ refusal : RemoteError, refusal.Reports reply) ↔ reply.HasMembers := by
  constructor
  · rintro ⟨refusal, reports⟩
    obtain ⟨members, body, _⟩ := reports.words
    exact ⟨members, body⟩
  · rintro ⟨members, body⟩
    exact ⟨⟨_, _, _⟩, rfl, members, body, rfl, rfl⟩

/-- A member with a default can be asked for in an object alone. -/
lemma memberOr_of_not_object {value : Json} (key : String) (default : Json)
    (other : ∀ members, value ≠ .object members) :
    memberOr value key default = .error (.noMembers value) := by
  cases value with
  | object members => exact absurd rfl (other members)
  | _ => rfl

/-- An answer from 400 on that is reported by a refusal is this refusal. -/
lemma accepted_of_reports (refused : 400 ≤ reply.status) (reports : refusal.Reports reply) :
    reply.accepted = .error (.remote refusal) := by
  obtain ⟨members, body, error, detail⟩ := reports.words
  obtain ⟨status, _, _⟩ := refusal
  cases error
  cases detail
  obtain rfl : status = reply.status := reports.status
  rw [Reply.accepted, if_pos refused, body]
  rfl

/-- An answer from 400 on whose body has no members is stumbled over. -/
lemma accepted_of_not_hasMembers (refused : 400 ≤ reply.status) (bare : ¬ reply.HasMembers) :
    ∃ body, reply.body = some body ∧ reply.accepted = .error (.fault (.noMembers body)) := by
  cases given : reply.body with
  | none => exact absurd ⟨[], by rw [given]; rfl⟩ bare
  | some body =>
    have other : ∀ members, body ≠ .object members := by
      rintro members rfl
      exact bare ⟨members, by rw [given]; rfl⟩
    refine ⟨body, rfl, ?_⟩
    rw [Reply.accepted, if_pos refused, given, Option.getD_some, memberOr_of_not_object _ _ other]
    rfl

namespace Call

/-- What is wrong with the body of an answer is no refusal. -/
lemma read_not_remote (body : Json) :
    (call.read body).mapError Failure.fault ≠ .error (.remote refusal) := by
  cases call.read body with
  | error cause => exact nofun
  | ok value => exact nofun

/-- An answer that a refusal reports makes the call fail with that refusal. -/
lemma take_of_reports (refused : 400 ≤ reply.status) (reports : refusal.Reports reply) :
    call.take reply = .error (.remote refusal) := by
  rw [take, accepted_of_reports refused reports]
  rfl

/-- An answer with the status of a refusal, but with a body that has no members, is stumbled over. -/
lemma take_of_not_hasMembers (refused : 400 ≤ reply.status) (bare : ¬ reply.HasMembers) :
    ∃ body, reply.body = some body ∧ call.take reply = .error (.fault (.noMembers body)) := by
  obtain ⟨body, given, stumbled⟩ := accepted_of_not_hasMembers refused bare
  refine ⟨body, given, ?_⟩
  rw [take, stumbled]
  rfl

/-- Below 400 an answer is read as though its status were 200. -/
lemma take_of_lt (accepted : reply.status < 400) :
    call.take reply = call.take { reply with status := 200 } := by
  have usual : ({ reply with status := 200 } : Reply).accepted = .ok (reply.body.getD (.object [])) :=
    accepted_of_lt (by decide : (200 : Int) < 400)
  rw [take, take, accepted_of_lt accepted, usual]

/-- A call is refused by those answers that have a status of 400 or more and that a refusal reports. -/
lemma take_remote_iff :
    call.take reply = .error (.remote refusal) ↔ 400 ≤ reply.status ∧ refusal.Reports reply := by
  refine ⟨fun taken => ?_, fun ⟨refused, reports⟩ => take_of_reports refused reports⟩
  by_cases accepted : reply.status < 400
  · rw [take, accepted_of_lt accepted] at taken
    exact absurd taken (read_not_remote _)
  have refused : 400 ≤ reply.status := Int.not_lt.1 accepted
  by_cases members : reply.HasMembers
  · obtain ⟨other, reports⟩ := exists_reports_iff.2 members
    rw [take_of_reports refused reports] at taken
    cases taken
    exact ⟨refused, reports⟩
  · obtain ⟨_, _, stumbled⟩ : ∃ body, reply.body = some body ∧
        call.take reply = .error (.fault (.noMembers body)) := take_of_not_hasMembers refused members
    cases stumbled.symm.trans taken

/-- A call is refused exactly by the answers from 400 on whose body has members. -/
lemma exists_remote_iff :
    (∃ refusal, call.take reply = .error (.remote refusal)) ↔ 400 ≤ reply.status ∧ reply.HasMembers := by
  simp only [take_remote_iff, exists_and_left, exists_reports_iff]

end Call

/-- An answer of the service that does not tell of success can be asked for members. -/
lemma hasMembers_of_failed {service : Http.Service} {request : Http.Request} {response : Http.Response}
    {work after : Work Store} (answered : (service.respond request).run work = (response, after))
    (failed : response.succeeded = false) : (Reply.ofResponse response).HasMembers := by
  have ends : service.Answers request ((service.respond request).run work).1 ∨
      ∃ cause, ((service.respond request).run work).1 = .crashed cause ∧
        service.Crashes request work.content cause := Http.Service.respond_ends
  rw [answered] at ends
  rcases ends with answers | ⟨cause, rfl, _⟩
  · cases answers with
    | unrouted | unallowed | stranger | rejected => exact ⟨_, rfl⟩
    | done _ _ _ status => rcases status with rfl | rfl <;> cases failed
  · exact ⟨_, rfl⟩

/-- The requests that went out, with their answers. -/
abbrev Exchanges := List (Client.Request × Reply)

/-- Sends requests to somebody who answers by what went before, and keeps what is exchanged. -/
def exchange (answer : Exchanges → Option String → Client.Request → Reply)
    (authorization : Option String) (request : Client.Request) : StateM Exchanges Reply := do
  let past ← get
  let reply := answer past authorization request
  set (past ++ [(request, reply)])
  return reply

section

variable {answer : Exchanges → Option String → Client.Request → Reply} {authorization : Option String}
  {past : Exchanges} {request : Client.Request}

/-- A call that can be sent makes something of the answer, and both are kept. -/
lemma run_perform_exchange (asked : client.request call = .ok request) :
    (client.perform (exchange answer authorization) call).run past =
      (call.take (answer past authorization request),
        past ++ [(request, answer past authorization request)]) := by
  rw [perform_eq _ asked, StateT.run_map]
  rfl

/-- A call that cannot be sent adds nothing to what is exchanged. -/
lemma run_perform_exchange_of_error {cause : ValueFault} (unasked : client.request call = .error cause) :
    (client.perform (exchange answer authorization) call).run past = (.error (.fault cause), past) := by
  rw [perform_of_error _ unasked]
  rfl

/-- A call that cannot be sent leaves what is exchanged alone, and any other adds one request to it. -/
lemma perform_exchange_cases :
    (∃ cause, (client.perform (exchange answer authorization) call).run past =
      (.error (.fault cause), past)) ∨
    ∃ request reply, ((client.perform (exchange answer authorization) call).run past).2 =
      past ++ [(request, reply)] := by
  cases asked : client.request call with
  | error cause => exact .inl ⟨cause, run_perform_exchange_of_error asked⟩
  | ok request => exact .inr ⟨request, _, congrArg Prod.snd (run_perform_exchange asked)⟩

/-- What is exchanged is the request of the call and the answer of which it makes something. -/
lemma perform_exchanged
    (exchanged : ((client.perform (exchange answer authorization) call).run past).2 =
      past ++ [(request, reply)]) :
    client.request call = .ok request ∧
      ((client.perform (exchange answer authorization) call).run past).1 = call.take reply := by
  cases asked : client.request call with
  | error cause =>
    rw [run_perform_exchange_of_error asked] at exchanged
    exact absurd exchanged (by simp)
  | ok sent =>
    rw [run_perform_exchange asked] at exchanged ⊢
    cases List.append_cancel_left exchanged
    exact ⟨rfl, rfl⟩

end

end Client

namespace CommandLine

open Client (Exchanges)

/-- Surroundings with some variables and files, an address and an encoding, in which requests are answered
by what went before. -/
def answered (answer : Exchanges → Option String → Client.Request → Client.Reply)
    (variableOf : String → Option String) (contentsOf : String → Except FileFault Bytes)
    (address : String) (encode : String → Except Charset.Fault Bytes) :
    Surroundings (StateM Exchanges) where
  variableOf := variableOf
  contentsOf path := return contentsOf path
  send := Client.exchange answer
  address := address
  encode := encode

/-- A job ends with status one for a refused call alone. -/
lemma finish_status_one_iff {encode : String → Except Charset.Fault Bytes} {job : Job}
    {result : Except Client.Failure Client.Value} :
    (job.finish encode result).status? = some 1 ↔
      ∃ refusal : Client.RemoteError, result = .error (.remote refusal) := by
  constructor
  · intro one
    cases result with
    | error failure =>
      cases failure with
      | remote refusal => exact ⟨refusal, rfl⟩
      | fault cause => cases one
    | ok value =>
      rw [Job.finish] at one
      split at one
      case h_1 => split at one <;> cases one
      case h_2 => cases one
  · rintro ⟨refusal, rfl⟩
    rfl

/-- A run either sends nothing and does not end with status one, or it finishes a job with the one answer
that it got. -/
lemma run_answered_cases (answer : Exchanges → Option String → Client.Request → Client.Reply)
    (variableOf : String → Option String) (contentsOf : String → Except FileFault Bytes) (address : String)
    (encode : String → Except Charset.Fault Bytes) (ready : Option Client) (words : List String) :
    let surroundings := answered answer variableOf contentsOf address encode
    (∃ outcome, (run surroundings ready words).run [] = (outcome, []) ∧ outcome.status? ≠ some 1) ∨
    ∃ job call request reply, (run surroundings ready words).run [] =
      (Job.finish encode job (Client.Call.take call reply), [(request, reply)]) := by
  intro surroundings
  have known : ∀ path, surroundings.contentsOf path = pure (contentsOf path) := fun _ => rfl
  rcases run_eq surroundings ready words with
    ⟨outcome, eq, _, unlike, _⟩ | ⟨client, job, _, eq⟩
  · rw [eq]
    exact .inl ⟨outcome, rfl, unlike⟩
  rcases Job.carryOut_eq known client job with ⟨cause, eq'⟩ | ⟨call, authorization, request, _, _, eq'⟩
  · rw [eq, eq']
    exact .inl ⟨.broken cause, rfl, nofun⟩
  · rw [eq, eq', StateT.run_map]
    exact .inr ⟨job, call, request, _, rfl⟩

section

variable {answer : Exchanges → Option String → Client.Request → Client.Reply}
  {variableOf : String → Option String} {contentsOf : String → Except FileFault Bytes} {address : String}
  {encode : String → Except Charset.Fault Bytes} {ready : Option Client} {words : List String}

/-- The command line sends one request at most. -/
lemma length_run_le :
    ((run (answered answer variableOf contentsOf address encode) ready words).run []).2.length ≤ 1 := by
  rcases run_answered_cases answer variableOf contentsOf address encode ready words with
    ⟨outcome, silent, _⟩ | ⟨job, call, request, reply, spoken⟩
  · exact (congrArg (·.2.length) silent).le.trans (Nat.zero_le 1)
  · exact (congrArg (·.2.length) spoken).le

/-- The command line ends with status one if its request is refused, and only then. -/
lemma run_status_one_iff :
    ((run (answered answer variableOf contentsOf address encode) ready words).run []).1.status? = some 1 ↔
      ∃ request reply,
        ((run (answered answer variableOf contentsOf address encode) ready words).run []).2 =
          [(request, reply)] ∧ 400 ≤ reply.status ∧ reply.HasMembers := by
  rcases run_answered_cases answer variableOf contentsOf address encode ready words with
    ⟨outcome, silent, unlike⟩ | ⟨job, call, request, reply, spoken⟩
  · rw [silent]
    exact ⟨fun one => absurd one unlike, nofun⟩
  · rw [spoken, finish_status_one_iff, Client.Call.exists_remote_iff]
    constructor
    · exact fun refused => ⟨request, reply, rfl, refused⟩
    · rintro ⟨_, _, same, refused⟩
      cases same
      exact refused

/-- Where a request went out and an answer came back, a job is finished with what a call makes of it. -/
lemma run_exchanged {request : Client.Request} {reply : Client.Reply}
    (exchanged : ((run (answered answer variableOf contentsOf address encode) ready words).run []).2 =
      [(request, reply)]) :
    ∃ job call, ((run (answered answer variableOf contentsOf address encode) ready words).run []).1 =
      Job.finish encode job (Client.Call.take call reply) := by
  rcases run_answered_cases answer variableOf contentsOf address encode ready words with
    ⟨_, silent, _⟩ | ⟨job, call, request', reply', spoken⟩
  · rw [silent] at exchanged
    cases exchanged
  · rw [spoken] at exchanged ⊢
    cases exchanged
    exact ⟨job, call, rfl⟩

end

end CommandLine

open CommandLine in
/-- Which answers refuse a call. For every client, every call and everybody who answers: a call sends one
request, if its arguments can be sent. It is refused if the answer has a status of 400 or more and a body
with members, or none that is JSON, and only then; the refusal carries the status. Any other body stops the
call at such a status, and below 400 the status makes no difference. The command line sends one request at
most. It ends with status one if this is refused, and only then, and writes the refusal; a body without
members stops it. What the service answers refuses the call, unless it tells of success. -/
theorem refusals_raised (client : Client) (call : Client.Call)
    (answer : Client.Exchanges → Option String → Client.Request → Client.Reply)
    (authorization : Option String) (past : Client.Exchanges) (variableOf : String → Option String)
    (contentsOf : String → Except FileFault Bytes) (address : String)
    (encode : String → Except Charset.Fault Bytes) (ready : Option Client) (words : List String)
    (service : Http.Service) (incoming : Http.Request) (work : Work Store) :
    let called := (client.perform (Client.exchange answer authorization) call).run past
    let ended := (run (answered answer variableOf contentsOf address encode) ready words).run []
    let response := ((service.respond incoming).run work).1
    (((∃ cause, called = (.error (.fault cause), past)) ∨
        ∃ request reply, called.2 = past ++ [(request, reply)]) ∧
      ∀ request reply, called.2 = past ++ [(request, reply)] →
        ((∃ refusal, called.1 = .error (.remote refusal)) ↔ 400 ≤ reply.status ∧ reply.HasMembers) ∧
        (∀ refusal, called.1 = .error (.remote refusal) → refusal.Reports reply) ∧
        (400 ≤ reply.status → ¬ reply.HasMembers →
          ∃ body, reply.body = some body ∧ called.1 = .error (.fault (.noMembers body))) ∧
        (reply.status < 400 → called.1 = ((client.perform (Client.exchange
          (fun _ _ _ => { reply with status := 200 }) authorization) call).run past).1)) ∧
    (ended.2.length ≤ 1 ∧
      (ended.1.status? = some 1 ↔ ∃ request reply, ended.2 = [(request, reply)] ∧
        400 ≤ reply.status ∧ reply.HasMembers) ∧
      ∀ request reply, ended.2 = [(request, reply)] → 400 ≤ reply.status →
        (∀ refusal : Client.RemoteError, refusal.Reports reply →
          ended.1 = .exit 1 [] ("error: " ++ refusal.message ++ "\n")) ∧
        (¬ reply.HasMembers →
          ∃ body, reply.body = some body ∧ ended.1 = .broken (.value (.noMembers body)))) ∧
    (response.succeeded = false →
      400 ≤ (Client.Reply.ofResponse response).status ∧ (Client.Reply.ofResponse response).HasMembers) := by
  intro called ended response
  refine ⟨⟨Client.perform_exchange_cases, fun request reply exchanged => ?_⟩,
    ⟨length_run_le, run_status_one_iff, fun request reply exchanged refused => ?_⟩, ?served⟩
  · obtain ⟨asked, taken⟩ : client.request call = .ok request ∧ called.1 = call.take reply :=
      Client.perform_exchanged exchanged
    rw [taken]
    refine ⟨Client.Call.exists_remote_iff, fun refusal refused => ?_, fun refused bare => ?_, fun below => ?_⟩
    · exact (Client.Call.take_remote_iff.1 refused).2
    · exact Client.Call.take_of_not_hasMembers refused bare
    · rw [Client.run_perform_exchange asked]
      exact Client.Call.take_of_lt below
  · obtain ⟨job, call, finished⟩ : ∃ job call, ended.1 = Job.finish encode job (Client.Call.take call reply) :=
      run_exchanged exchanged
    rw [finished]
    refine ⟨fun refusal reports => ?_, fun bare => ?_⟩
    · rw [Client.Call.take_of_reports refused reports]
      rfl
    · obtain ⟨body, given, stumbled⟩ : ∃ body, reply.body = some body ∧
          call.take reply = .error (.fault (.noMembers body)) :=
        Client.Call.take_of_not_hasMembers refused bare
      refine ⟨body, given, ?_⟩
      rw [stumbled]
      rfl
  case served =>
    rcases ran : (service.respond incoming).run work with ⟨other, after⟩
    have same : response = other := congrArg Prod.fst ran
    rw [same]
    exact fun failed => ⟨Client.refused_of_failed ran failed, Client.hasMembers_of_failed ran failed⟩

namespace CommandLine

open Client (Exchanges)

/-- What a call for a reference makes of an answer. -/
def askedReference (reply : Client.Reply) : Except Client.Failure Client.Value × Exchanges :=
  ((Client.connect "depot" Client.defaultAddress none).perform
    (Client.exchange (fun _ _ _ => reply) none) (.getReference (.string "main"))).run []

/-- A run that asks for a reference. -/
def shownReference (reply : Client.Reply) : Outcome × Exchanges :=
  (run (answered (fun _ _ _ => reply) (fun _ => none) (fun path => .error ⟨.missing, path⟩)
    Client.defaultAddress fun text => .ok (Bytes.ofText text)) none
    ["show-ref", "-r", "depot", "-n", "main"]).run []

/-- An answer that there is no such reference. -/
def missingReference : Client.Reply where
  status := 404
  body := some (.object [("error", .string "ReferenceNotFound"), ("detail", .string "Ref not found: main")])
  text := ""

/-- A list that something before the service answers. -/
def listOfErrors : Client.Reply := ⟨502, some (.array [.string "Bad Gateway"]), ""⟩

/-- An answer that sends the client elsewhere. -/
def redirection : Client.Reply := ⟨302, some (.object [("hash", .string "elsewhere")]), ""⟩

/-- The call for a reference that is missing is refused, and so is the run; over a list both break off, and
the redirection might as well be a success. -/
theorem refusals_raised_sample :
    (∃ refusal, (askedReference missingReference).1 = .error (.remote refusal) ∧
      refusal.Reports missingReference) ∧
    (shownReference missingReference).1 =
      .exit 1 [] "error: 404 ReferenceNotFound: Ref not found: main\n" ∧
    (∃ body, listOfErrors.body = some body ∧
      (askedReference listOfErrors).1 = .error (.fault (.noMembers body))) ∧
    (∃ body, listOfErrors.body = some body ∧
      (shownReference listOfErrors).1 = .broken (.value (.noMembers body))) ∧
    (askedReference redirection).1 = (askedReference { redirection with status := 200 }).1 := by
  have told := fun reply : Client.Reply =>
    refusals_raised (Client.connect "depot" Client.defaultAddress none) (.getReference (.string "main"))
      (fun _ _ _ => reply) none [] (fun _ => none) (fun path => .error ⟨.missing, path⟩)
      Client.defaultAddress (fun text => .ok (Bytes.ofText text)) none
      ["show-ref", "-r", "depot", "-n", "main"] History.sampleService History.garbledCreation
      (History.ofActions History.sample).work
  have bare : ¬ listOfErrors.HasMembers := by
    rintro ⟨_, ⟨⟩⟩
  obtain ⟨refused, reports, _⟩ := (told missingReference).1.2 _ missingReference rfl
  obtain ⟨_, _, stumbles, _⟩ := (told listOfErrors).1.2 _ listOfErrors rfl
  obtain ⟨_, _, _, below⟩ := (told redirection).1.2 _ redirection rfl
  obtain ⟨writes, _⟩ := (told missingReference).2.1.2.2 _ missingReference rfl (by decide)
  obtain ⟨_, breaks⟩ := (told listOfErrors).2.1.2.2 _ listOfErrors rfl (by decide)
  obtain ⟨refusal, raised⟩ := refused.2 ⟨by decide, _, rfl⟩
  refine ⟨⟨refusal, raised, reports refusal raised⟩, ?_, stumbles (by decide) bare, breaks bare,
    below (by decide)⟩
  exact writes ⟨404, .string "ReferenceNotFound", .string "Ref not found: main"⟩ ⟨rfl, _, rfl, rfl, rfl⟩

/-- Neither the redirection nor the list is raised as a refusal: the one is taken for the answer, and over
the other the call and the run break off. -/
theorem refusals_missed :
    ¬ (200 ≤ redirection.status ∧ redirection.status < 300) ∧
      (askedReference redirection).1 = .ok (.json (.string "elsewhere")) ∧
      (shownReference redirection).1 = .exit 0 (Bytes.ofText "elsewhere\n") "" ∧
    ¬ (200 ≤ listOfErrors.status ∧ listOfErrors.status < 300) ∧
      (askedReference listOfErrors).1 = .error (.fault (.noMembers (.array [.string "Bad Gateway"]))) ∧
      (shownReference listOfErrors).1 = .broken (.value (.noMembers (.array [.string "Bad Gateway"]))) :=
  ⟨by decide, rfl, rfl, by decide, rfl, rfl⟩

end CommandLine

end ObjectDepot
