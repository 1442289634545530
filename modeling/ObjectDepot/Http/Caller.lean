import ObjectDepot.Codec.Base64
import ObjectDepot.Codec.Charset
import ObjectDepot.Codec.Utf8
import ObjectDepot.Error

/-!
# Who sends a request

A request is sent by the account that is logged in, else by the account that its `Authorization`
header proves, else by nobody. Accounts that are not active are nobody.
-/

namespace ObjectDepot.Http

/-- An account. -/
structure Account where
  name : String
  password : String
  active : Bool
  deriving DecidableEq

/-- The account with a name, if it is active. -/
def activeAccount? (accounts : List Account) (name : String) : Option Account :=
  (accounts.find? (·.name == name)).filter (·.active)

/-- The account that a name and a password prove. -/
def authenticate? (accounts : List Account) (name password : String) : Option Account :=
  (activeAccount? accounts name).filter (·.password == password)

/-- Cuts a text at the first separator, which belongs to neither part. -/
def cutAt (separator : Char) (text : List Char) : List Char × List Char :=
  (text.takeWhile (· != separator), (text.dropWhile (· != separator)).drop 1)

/-- The name and the password that credentials of the basic scheme hold. -/
def basicCredentials? (credentials : List Char) : Option (String × String) := do
  let text ← Utf8.decode? (← Base64.decode? credentials)
  let (name, password) := cutAt ':' text
  some (String.ofList name, String.ofList password)

/-- The account that an `Authorization` header proves. -/
def headerCaller (accounts : List Account) (header : String) : Except Fault (Option String) :=
  let (scheme, credentials) := cutAt ' ' header.toList
  if scheme.map Char.toLower ≠ "basic".toList ∨ credentials.isEmpty then .ok none
  else if credentials.any fun c => 128 ≤ c.toNat then .error .credentialsNotAscii
  else .ok (do
    let (name, password) ← basicCredentials? credentials
    let account ← authenticate? accounts name password
    some account.name)

/-- The account that sends a request with a session and a header; an absent header is empty. -/
def caller (accounts : List Account) (login : Option String) (header : String) :
    Except Fault (Option String) :=
  match login.bind (activeAccount? accounts) with
  | some account => .ok (some account.name)
  | none => headerCaller accounts header

/-- The caller as the store is told: nobody is the null value. -/
def callerValue : Option String → Json
  | some name => .string name
  | none => .null

/-- The header of the basic scheme for a name and a password, each of which is written in
Latin-1. -/
def basicHeader (name password : String) : Except Charset.Fault String := do
  let name ← Charset.latin1.encode name
  let password ← Charset.latin1.encode password
  return "Basic " ++ Base64.encode (name ++ Bytes.ofText ":" ++ password)

end ObjectDepot.Http
