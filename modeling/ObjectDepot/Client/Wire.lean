import ObjectDepot.Client.Basic
import ObjectDepot.Http.Caller
import ObjectDepot.Json.Reader

/-!
# Requests on the wire

The form of a request and of its answer in HTTP/1.0, where the end of the connection ends the
answer.
-/

namespace ObjectDepot.Client

/-- Where a request goes: the host, its channel, and the target there. -/
structure Destination where
  host : String
  channel : Nat
  target : String
  deriving DecidableEq

/-- The destination of an address; the channel is 80 unless the address names one. -/
def Destination.ofUrl? (url : String) : Option Destination := do
  let rest ← "http://".toList.isPrefixOf? url.toList
  let authority := rest.takeWhile (· != '/')
  let path := (rest.dropWhile (· != '/')).takeWhile (· != '#')
  let (host, channel) := Http.cutAt ':' authority
  let channel ← if channel.isEmpty then some 80 else (String.ofList channel).toNat?
  some ⟨String.ofList host, channel, String.ofList path⟩

/-- A target without characters that would end it early: blanks and what is not ASCII are quoted. -/
def wireTarget (target : String) : String :=
  if target.isEmpty then "/"
  else String.ofList (target.toList.flatMap fun c =>
    if 0x20 < c.toNat ∧ c.toNat < 0x7f then [c]
    else (String.utf8EncodeChar c).flatMap Percent.escape)

/-- The bytes of a request. -/
def Request.message (request : Request) (destination : Destination)
    (authorization : Option String) : Bytes :=
  let body := request.body
  let headers := [
    request.method.name ++ " " ++ wireTarget destination.target ++ " HTTP/1.0",
    "Host: " ++ destination.host,
    "Accept: application/json",
    "Content-Length: " ++ toString body.length]
    ++ (if request.payload.isSome then ["Content-Type: application/json"] else [])
    ++ (authorization.map ("Authorization: " ++ ·)).toList
  Bytes.ofText ("\r\n".intercalate headers ++ "\r\n\r\n") ++ body

/-- What follows the empty line that ends the headers of a message. -/
def bodyOfMessage : Bytes → Bytes
  | 13 :: 10 :: 13 :: 10 :: rest => rest
  | _ :: rest => bodyOfMessage rest
  | [] => []

/-- The status in the first line of a message. -/
def statusOfMessage? (message : Bytes) : Option Nat := do
  let line ← Utf8.decode? (message.takeWhile (· != 13))
  let (_, rest) := Http.cutAt ' ' line
  (String.ofList (rest.takeWhile Char.isDigit)).toNat?

/-- The answer in a message. -/
def Reply.ofMessage? (message : Bytes) : Option Reply := do
  let status ← statusOfMessage? message
  let body := bodyOfMessage message
  some ⟨status, Json.ofBytes? body, String.ofList ((Utf8.decode? body).getD [])⟩

end ObjectDepot.Client
