import ObjectDepot.Codec.Percent
import ObjectDepot.Text.Uppercase

/-!
# Routes

The paths of the service and the methods that each of them takes. A repository's name in a path has
no slash, and the name of a reference no line feed.
-/

namespace ObjectDepot.Http

/-- The methods of requests. -/
inductive Method where
  | get
  | post
  | put
  | delete
  deriving DecidableEq

/-- The name of a method. -/
def Method.name : Method → String
  | .get => "GET"
  | .post => "POST"
  | .put => "PUT"
  | .delete => "DELETE"

/-- The method with a name, in any case. -/
def Method.ofName? (name : String) : Option Method :=
  match Text.uppercase name with
  | "GET" => some .get
  | "POST" => some .post
  | "PUT" => some .put
  | "DELETE" => some .delete
  | _ => none

/-- What can be asked of a repository. -/
inductive Resource where
  | push
  | objects
  | object (hash : String)
  | references
  | reference (name : String)
  | resolve
  | defaultBranch
  | transfer
  | accept
  deriving DecidableEq

/-- What a path leads to. -/
inductive Endpoint where
  | repositories
  | repository (name : String) (resource : Resource)
  deriving DecidableEq

/-- The methods that something asked of a repository takes. -/
def Resource.methods : Resource → List Method
  | .push | .resolve | .transfer | .accept => [.post]
  | .objects => [.get, .post]
  | .object _ | .references => [.get]
  | .reference _ => [.get, .put, .delete]
  | .defaultBranch => [.put]

/-- The methods that an endpoint takes. -/
def Endpoint.methods : Endpoint → List Method
  | .repositories => [.post]
  | .repository _ resource => resource.methods

/-- What stands before every path of the service. -/
def root : String := "/api/git/"

/-- The part of a path after the name of a repository and a slash. -/
def Resource.ofPath? (path : List Char) : Option Resource :=
  match String.ofList path with
  | "push" => some .push
  | "objects" => some .objects
  | "refs" => some .references
  | "resolve" => some .resolve
  | "default-branch" => some .defaultBranch
  | "ownership/transfer" => some .transfer
  | "ownership/accept" => some .accept
  | _ =>
    match "objects/".toList.isPrefixOf? path, "refs/".toList.isPrefixOf? path with
    | some hash, _ =>
      if hash.isEmpty || hash.contains '/' then none else some (.object (String.ofList hash))
    | none, some name =>
      if name.isEmpty || name.contains '\n' then none else some (.reference (String.ofList name))
    | none, none => none

/-- The endpoint of a path. -/
def Endpoint.ofPath? (path : List Char) : Option Endpoint :=
  match root.toList.isPrefixOf? path with
  | none => none
  | some rest =>
    if rest = "repos".toList then some .repositories
    else
      let name := rest.takeWhile (· != '/')
      match rest.dropWhile (· != '/') with
      | '/' :: tail =>
        if name.isEmpty then none
        else (Resource.ofPath? tail).map (.repository (String.ofList name))
      | _ => none

/-- Whether a character is passed over before a target: the controls of ASCII and the space. -/
def isMargin (c : Char) : Bool :=
  c.toNat ≤ 0x20

/-- Whether a character is passed over wherever it stands in a target. -/
def isBreak (c : Char) : Bool :=
  c == '\t' || c == '\n' || c == '\r'

/-- Whether a character starts the query or the fragment of a target. -/
def endsPath (c : Char) : Bool :=
  c == '?' || c == '#'

/-- What follows the scheme of a target that has one; a scheme starts with a letter. -/
def dropScheme (target : List Char) : List Char :=
  match target.span fun c => c.isAlphanum || "+-.".toList.contains c with
  | (first :: _, ':' :: rest) => if first.isAlpha then rest else target
  | _ => target

/-- What follows the host of a target that names one after two slashes. -/
def dropHost : List Char → List Char
  | '/' :: '/' :: rest => rest.dropWhile fun c => c != '/' && !endsPath c
  | target => target

/-- The path that the target of a request names: what stands after a host and before a query or a
fragment, read from its quoted form. -/
def pathOf (target : String) : List Char :=
  let rest := dropHost (dropScheme ((target.toList.dropWhile isMargin).filter (!isBreak ·)))
  Percent.unquote (rest.takeWhile (!endsPath ·))

end ObjectDepot.Http
