import ObjectDepot.Client.Basic
import ObjectDepot.Http.Service

/-!
# A client beside its service

A way of sending that hands requests to a service in the same process. How a request of the client comes
to the service, through whatever library and network, is a `Transport`. The transport of `sendTo` does no
more than to leave out the default host.
-/

namespace ObjectDepot.Client

/-- How a service receives the requests that a client sends with an `Authorization` header or without. -/
abbrev Transport : Type :=
  Option String → Request → Http.Request

/-- The request that a service receives which takes the place of the default host. -/
def Request.toService (request : Request) (authorization : Option String) : Http.Request where
  method := request.method.name
  target := String.ofList
    ((defaultHost.toList.isPrefixOf? request.url.toList).getD request.url.toList)
  login := none
  authorization := authorization.getD ""
  body := request.body

/-- The transport that changes nothing. -/
def Transport.direct : Transport :=
  fun authorization request => request.toService authorization

/-- What a client receives of an answer. -/
def Reply.ofResponse : Http.Response → Reply
  | .json status body => ⟨status, some body, body.render⟩
  | .methodNotAllowed _ => ⟨405, none, "<not json>"⟩
  | .notFound => ⟨404, none, "<not json>"⟩
  | .crashed cause => ⟨cause.status, none, "<not json>"⟩

/-- Sends a request to a service over a transport. -/
def sendOver {σ ρ : Type} [RepositoryBackend ρ] [StoreBackend σ ρ] (transport : Transport)
    (service : Http.Service) (authorization : Option String) (request : Request) :
    StateM (Work σ) Reply := do
  return Reply.ofResponse (← service.respond (transport authorization request))

/-- Hands a request to a service. -/
def sendTo {σ ρ : Type} [RepositoryBackend ρ] [StoreBackend σ ρ] (service : Http.Service) :
    Option String → Request → StateM (Work σ) Reply :=
  sendOver .direct service

end ObjectDepot.Client
