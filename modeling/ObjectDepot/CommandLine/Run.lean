import ObjectDepot.Client.Basic
import ObjectDepot.Client.Listing
import ObjectDepot.CommandLine.Arguments
import ObjectDepot.CommandLine.FileTree

/-!
# The command line

A command line is read as a `Job`, which makes one call of a client and writes what comes back.
`run` works over any surroundings: where variables, files and the remote service come from, and in which
encoding text is written, is a parameter. What is written about an error can always be encoded.
-/

namespace ObjectDepot.CommandLine

/-- What breaks a run off. -/
inductive Breakdown where
  | value (cause : Client.ValueFault)
  | file (cause : FileFault)
  | encoding (cause : Charset.Fault)

/-- The words for a breakdown. -/
def Breakdown.message : Breakdown → String
  | .value cause => cause.message
  | .file cause => cause.message
  | .encoding cause => cause.message

/-- How a run ends: with an exit status and what it wrote, or broken off with nothing written. -/
inductive Outcome where
  | exit (status : Nat) (output : Bytes) (errors : String)
  | broken (cause : Breakdown)

/-- The surroundings of a run. A request goes out with an `Authorization` header or without. The address
of the service is that of when the program was loaded. Text is written in an encoding that may not have all
characters. -/
structure Surroundings (m : Type → Type) where
  variableOf : String → Option String
  contentsOf : String → m (Except FileFault Bytes)
  send : Option String → Client.Request → m Client.Reply
  address : String := Client.defaultAddress
  encode : String → Except Charset.Fault Bytes := fun text => .ok (Bytes.ofText text)

/-- A command with all that it asks for. -/
inductive Job where
  | create (sha256 : Bool)
  | add (path : String) (sha256 : Bool)
  | cat (hash : String)
  | setRef (name hash : String)
  | deleteRef (name : String)
  | showRef (name : String)
  | lsRefs
  | setDefaultBranch (name : String)
  deriving DecidableEq

/-- A text unless it is empty. -/
def nonempty? (text : String) : Option String :=
  if text = "" then none else some text

/-- The text of a value that was given and is not empty. -/
def given? (value : Option OptionValue) : Option String :=
  (value.bind OptionValue.text?).bind nonempty?

/-- The job of a command line; an empty value counts as none. -/
def Arguments.job (arguments : Arguments) : Except Mistake Job :=
  let name := given? arguments.name
  let hash := given? arguments.hash
  match arguments.command, name, hash, given? arguments.path with
  | .create, _, _, _ => .ok (.create !arguments.sha1)
  | .add, _, _, some path => .ok (.add path !arguments.sha1)
  | .cat, _, some hash, _ => .ok (.cat hash)
  | .setRef, some name, some hash, _ => .ok (.setRef name hash)
  | .deleteRef, some name, _, _ => .ok (.deleteRef name)
  | .showRef, some name, _, _ => .ok (.showRef name)
  | .lsRefs, _, _, _ => .ok .lsRefs
  | .setDefaultBranch, some name, _, _ => .ok (.setDefaultBranch name)
  | command, _, _, _ => .error (.incomplete command)

/-- The call that a job makes; a file is read before. -/
def Job.call {m : Type → Type} [Monad m] (contentsOf : String → m (Except FileFault Bytes)) :
    Job → m (Except FileFault Client.Call)
  | .create sha256 => return .ok (.create (.bool sha256))
  | .add path sha256 => do
    match ← contentsOf path with
    | .ok data => return .ok (.addObject data sha256)
    | .error cause => return .error cause
  | .cat hash => return .ok (.getObject (.string hash))
  | .setRef name hash => return .ok (.upsertReference (.string name) (.string hash))
  | .deleteRef name => return .ok (.deleteReference (.string name))
  | .showRef name => return .ok (.getReference (.string name))
  | .lsRefs => return .ok .listReferences
  | .setDefaultBranch name => return .ok (.setDefaultBranch (.string name))

/-- What a job writes: bytes as they are, or a line of text. -/
inductive Output where
  | raw (data : Bytes)
  | line (text : String)

/-- What a job writes when its call has succeeded. -/
def Job.output : Job → Client.Value → Except Client.ValueFault Output
  | _, .bytes data => .ok (.raw data)
  | .create _, .json body => do
    let name ← Client.entry body "name"
    let algorithm ← Client.entry body "hash_algorithm"
    return .line ("Created " ++ name.plain ++ " (" ++ algorithm.plain ++ ")")
  | .setRef name hash, .json _ => .ok (.line (name ++ " -> " ++ hash))
  | .deleteRef name, .json _ => .ok (.line ("Deleted " ++ name))
  | .lsRefs, .json body => do return .line (← Client.listingText body)
  | _, .json value => .ok (.line value.plain)

/-- The bytes that are written, where text is written in an encoding. -/
def Output.toBytes (encode : String → Except Charset.Fault Bytes) : Output → Except Charset.Fault Bytes
  | .raw data => .ok data
  | .line text => encode (text ++ "\n")

/-- The name under which the program complains. -/
def programName : String := "git_store_cli.py"

/-- The end of a run whose command line has a mistake. The usage, which comes before, is left out. -/
def complain (mistake : Mistake) : Outcome :=
  .exit 2 [] (programName ++ ": error: " ++ mistake.message ++ "\n")

/-- The user and the password in the surroundings; without a user there are none. -/
def credentials? (variableOf : String → Option String) : Option (String × String) :=
  ((variableOf "GIT_STORE_USER").bind nonempty?).map fun user =>
    (user, (variableOf "GIT_STORE_PASSWORD").getD "")

/-- The client for the repository that a command line names. -/
def Arguments.client (arguments : Arguments) (address : String) (variableOf : String → Option String) :
    Except Client.ValueFault Client :=
  match arguments.repository with
  | .text name => .ok (Client.connect name address (credentials? variableOf))
  | .struckOut => .error .notQuotable

/-- How a run ends after its call. It breaks off if what it would write cannot be encoded. -/
def Job.finish (encode : String → Except Charset.Fault Bytes) (job : Job) :
    Except Client.Failure Client.Value → Outcome
  | .ok value =>
    match job.output value with
    | .ok output =>
      match output.toBytes encode with
      | .ok bytes => .exit 0 bytes ""
      | .error cause => .broken (.encoding cause)
    | .error cause => .broken (.value cause)
  | .error (.remote refusal) => .exit 1 [] ("error: " ++ refusal.message ++ "\n")
  | .error (.fault cause) => .broken (.value cause)

/-- Carries out a job with a client. -/
def Job.carryOut {m : Type → Type} [Monad m] (surroundings : Surroundings m) (client : Client)
    (job : Job) : m Outcome := do
  match ← job.call surroundings.contentsOf with
  | .error cause => return .broken (.file cause)
  | .ok call =>
    match client.authorization with
    | .error cause => return .broken (.encoding cause)
    | .ok authorization =>
      return job.finish surroundings.encode (← client.perform (surroundings.send authorization) call)

/-- Carries out a command line. A client that is ready is used as it is; else one is made for the
repository that the command line names. Where help is asked for, its text is left out. -/
def run {m : Type → Type} [Monad m] (surroundings : Surroundings m) (ready : Option Client)
    (words : List String) : m Outcome :=
  match Arguments.parse words with
  | .error .help => return .exit 0 [] ""
  | .error (.mistake mistake) => return complain mistake
  | .ok arguments =>
    match ready.elim (arguments.client surroundings.address surroundings.variableOf) .ok with
    | .error cause => return .broken (.value cause)
    | .ok client =>
      match arguments.job with
      | .error mistake => return complain mistake
      | .ok job => job.carryOut surroundings client

end ObjectDepot.CommandLine
