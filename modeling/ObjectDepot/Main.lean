import ObjectDepot.Client.Wire
import ObjectDepot.CommandLine.Run
import Std.Async.DNS
import Std.Async.TCP

/-!
# The program

The command line client of a remote store. Requests go out over TCP, one connection each.

## What is left out

The library, the service and the client are modelled without the following.

* The help and the usage that a command line shows. A run that asks for help writes nothing, and a mistake
  is told without the usage.
* Texts with lone surrogates. The reader of JSON has the replacement character in their place.
* The bounds of a machine: memory, the depth to which JSON nests, how many values one query is given. Of
  such bounds only that on the body of a request is kept (`Http.uploadLimit`).
* Rows that a caller reads, keeps, and passes on when they have changed. Each call reads its repository.
* Pages of the service that are no JSON, and where log records are written.

What is between a client and the service is a parameter (`Client.Transport`), and so is the encoding in
which a run writes (`Surroundings.encode`); this program writes UTF-8.
-/

namespace ObjectDepot.CommandLine

open Std.Async Std.Net

/-- The addresses of a host. -/
def socketAddresses (host : String) (channel : UInt16) : Async (List SocketAddress) := do
  let found ← DNS.getAddrInfo host (toString channel) none
  return found.toList.map fun
    | .v4 address => .v4 ⟨address, channel⟩
    | .v6 address => .v6 ⟨address, channel⟩

/-- Connects to the first address that takes the connection. -/
def connectTo (host : String) : List SocketAddress → Async TCP.Socket.Client
  | [] => throw (.userError ("no connection to " ++ host))
  | address :: rest =>
    try
      let socket ← TCP.Socket.Client.mk
      socket.connect address
      return socket
    catch _ => connectTo host rest

/-- Reads what a connection brings up to its end. -/
partial def readAll (socket : TCP.Socket.Client) (received : ByteArray) : Async ByteArray := do
  match ← socket.recv? 65536 with
  | some chunk => readAll socket (received ++ chunk)
  | none => return received

/-- Sends a request to the host that its address names. -/
def sendRequest (authorization : Option String) (request : Client.Request) :
    IO Client.Reply := do
  match Client.Destination.ofUrl? request.url with
  | none => throw (.userError ("not an address: " ++ request.url))
  | some destination =>
    let message := request.message destination authorization
    let received ← Async.block do
      let addresses ← socketAddresses destination.host (UInt16.ofNat destination.channel)
      let socket ← connectTo destination.host addresses
      socket.sendAll #[message.toByteArray]
      readAll socket ByteArray.empty
    match Client.Reply.ofMessage? received.toList with
    | some reply => return reply
    | none => throw (.userError ("no answer from " ++ destination.host))

/-- The number by which the system reports a failure, which may come with a minus. -/
def codeOf? : IO.Error → Option Nat
  | .noFileOrDirectory _ code _ | .inappropriateType _ code _ | .invalidArgument _ code _ =>
    some code.toInt32.toInt.natAbs
  | _ => none

/-- Reads a file. -/
def fileContents (path : String) : IO (Except FileFault Bytes) := do
  match ← (IO.FS.readBinFile path).toBaseIO with
  | .ok data => return .ok data.toList
  | .error failure =>
    match (codeOf? failure).bind Unreadable.ofCode? with
    | some reason => return .error ⟨reason, path⟩
    | none => throw failure

/-- The variables that a run looks at. -/
def knownVariables : List String :=
  ["GIT_STORE_REMOTE_URL", "GIT_STORE_USER", "GIT_STORE_PASSWORD"]

end ObjectDepot.CommandLine

open ObjectDepot ObjectDepot.CommandLine in
/-- Runs the command line and ends with its status. -/
def main (words : List String) : IO UInt32 := do
  let known ← knownVariables.mapM fun name => return (name, ← IO.getEnv name)
  let variableOf (name : String) : Option String := (known.lookup name).bind id
  let surroundings : Surroundings IO := {
    variableOf := variableOf
    contentsOf := fileContents
    send := sendRequest
    address := Client.addressIn variableOf }
  match ← run surroundings none words with
  | .exit status output errors =>
    (← IO.getStdout).write output.toByteArray
    IO.eprint errors
    return UInt32.ofNat status
  | .broken cause =>
    IO.eprintln cause.message
    return 1
