import ObjectDepot.Client.Loopback
import ObjectDepot.Proofs.Quoting
import ObjectDepot.Proofs.Routes

/-!
# Where the calls of a client lead

A path `Carries` a text if its characters reach the service as they are and stand for the text there.
The paths that a client puts together carry the names that it is given (`Carries.quote`), so each of
its calls leads to the endpoint with those names and to no other (`Client.leads_of_carries`).
-/

namespace ObjectDepot

namespace Http

/-- Whether a character of a target is neither passed over nor ends the path. -/
def isPlain (c : Char) : Bool :=
  !isBreak c && !endsPath c

/-- What needs no quoting is plain. -/
lemma isPlain_of_isUnreserved {c : Char} (unreserved : Percent.isUnreserved c) : isPlain c := by
  unfold isPlain isBreak endsPath
  by_contra special
  have cases : c = '\t' ∨ c = '\n' ∨ c = '\r' ∨ c = '?' ∨ c = '#' := by
    simp only [Bool.and_eq_true, Bool.not_eq_true', Bool.or_eq_false_iff, beq_eq_false_iff_ne] at special
    tauto
  rcases cases with rfl | rfl | rfl | rfl | rfl <;> exact absurd unreserved (by decide)

/-- Quoted text has only characters that stay as they are, if those that are not quoted do. -/
lemma isPlain_of_isQuoting {safe : List Char} (harmless : safe.all isPlain) {c : Char}
    (quoting : Percent.isQuoting safe c) : isPlain c := by
  rcases Bool.or_eq_true_iff.1 quoting with general | given
  · rcases Bool.or_eq_true_iff.1 general with unreserved | sign
    · exact isPlain_of_isUnreserved unreserved
    · obtain rfl := beq_iff_eq.1 sign
      rfl
  · exact List.all_eq_true.1 harmless c (by simpa using given)

end Http

namespace Client

open Http Percent

/-- A path reaches a service as it is and stands for a text there. -/
structure Carries (path : String) (text : List Char) : Prop where
  plain : ∀ c ∈ path.toList, isPlain c
  stands : StandsFor path.toList text

namespace Carries

variable {path path' : String} {text text' : List Char}

/-- Two paths in a row carry both texts. -/
lemma append (first : Carries path text) (second : Carries path' text') :
    Carries (path ++ path') (text ++ text') where
  plain c member := by
    rw [String.toList_append] at member
    exact (List.mem_append.1 member).elim (first.plain c) (second.plain c)
  stands := by
    rw [String.toList_append]
    exact first.stands.append second.stands

/-- The quoted form of a text carries it. -/
lemma quote {safe : List Char} (harmless : safe.all isPlain) (quotedSign : '%' ∉ safe)
    (text : String) : Carries (Percent.quote safe text) text.toList where
  plain _ member := isPlain_of_isQuoting harmless (isQuoting_quote member)
  stands := .quote quotedSign text

/-- A path of plain characters without percent signs carries itself. -/
lemma literal (plain : path.toList.all isPlain) (unsigned : '%' ∉ path.toList) :
    Carries path path.toList where
  plain := List.all_eq_true.1 plain
  stands := .plain unsigned

/-- Below the root of a service all characters are plain. -/
lemma isPlain_rooted (carries : Carries path text) :
    ∀ c ∈ root.toList ++ path.toList, isPlain c := by
  intro c member
  rcases List.mem_append.1 member with here | later
  · exact List.all_eq_true.1 (by decide : root.toList.all isPlain) c here
  · exact carries.plain c later

/-- Below the root of a service nothing of a path is passed over. -/
lemma filter_rooted (carries : Carries path text) :
    (root.toList ++ path.toList).filter (!isBreak ·) = root.toList ++ path.toList :=
  List.filter_eq_self.2 fun c member =>
    (Bool.and_eq_true_iff.1 (carries.isPlain_rooted c member)).1

/-- All of it is read, as the text that the path carries. -/
lemma unquote_rooted (carries : Carries path text) :
    Percent.unquote ((root.toList ++ path.toList).takeWhile (!endsPath ·)) = root.toList ++ text := by
  have all : (root.toList ++ path.toList).takeWhile (!endsPath ·) = root.toList ++ path.toList :=
    List.takeWhile_eq_self_iff.2 fun c member =>
      (Bool.and_eq_true_iff.1 (carries.isPlain_rooted c member)).2
  have stands : StandsFor (root.toList ++ path.toList) (root.toList ++ text) :=
    (StandsFor.plain (by decide)).append carries.stands
  rw [all, stands.unquote]

/-- Below the root a service reads the text that a path carries. -/
lemma pathOf_target (carries : Carries path text) :
    pathOf (root ++ path) = root.toList ++ text := by
  have front : (root.toList ++ path.toList).dropWhile isMargin = root.toList ++ path.toList := rfl
  rw [pathOf, String.toList_append, front, carries.filter_rooted]
  exact carries.unquote_rooted

/-- In an address the scheme and the host stand before the path, and are left out. -/
lemma pathOf_url (carries : Carries path text) :
    pathOf (defaultAddress ++ "/" ++ path) = root.toList ++ text := by
  have url : (defaultAddress ++ "/" ++ path).toList =
      "http:".toList ++ ("//localhost:8000".toList ++ (root.toList ++ path.toList)) := by
    rw [String.toList_append]
    rfl
  -- only the path is general, so what is cut off in front of it can be computed
  have front (rest : List Char) :
    ("http:".toList ++ rest).dropWhile isMargin = "http:".toList ++ rest := rfl
  rw [pathOf, url, front, List.filter_append, List.filter_append, carries.filter_rooted]
  exact carries.unquote_rooted

end Carries

/-- A call is sent as a request that leads to an endpoint and to no other, by the path of its address
as well as by the target that a service beside the client receives. -/
def Leads (client : Client) (call : Call) (endpoint : Endpoint) : Prop :=
  ∃ request, client.request call = .ok request ∧
    (∀ other, Endpoint.Matches other (pathOf request.url) ↔ other = endpoint) ∧
    ∀ authorization, pathOf (request.toService authorization).target = pathOf request.url

/-- The target in an address of the default host is what follows the host. -/
lemma target_toService {method : Method} {path : String} {payload : Option Json}
    {authorization : Option String} :
    (Request.toService ⟨method, defaultAddress ++ "/" ++ path, payload⟩ authorization).target =
      root ++ path := by
  have url : (defaultAddress ++ "/" ++ path).toList = defaultHost.toList ++ (root ++ path).toList := by
    simp only [String.toList_append]
    rfl
  have host : defaultHost.toList.isPrefixOf? (defaultAddress ++ "/" ++ path).toList =
    some (root ++ path).toList := List.isPrefixOf?_eq_some_iff_append_eq.2 url.symm
  rw [Request.toService, host, Option.getD_some, String.ofList_toList]

/-- A call leads to the endpoint that matches the text of its path. -/
lemma leads_of_carries {client : Client} {call : Call} {endpoint : Endpoint} {method : Method}
    {path : String} {text : List Char} {payload : Option Json}
    (address : client.address = defaultAddress)
    (asked : client.request call = .ok (client.requestFor method path payload))
    (carries : Carries path text) (matched : endpoint.Matches (root.toList ++ text)) :
    client.Leads call endpoint := by
  rw [requestFor, address] at asked
  refine ⟨_, asked, fun other => ?_, fun authorization => ?_⟩
  · rw [carries.pathOf_url]
    constructor
    · intro also
      exact Option.some.inj ((Endpoint.matches_iff.1 also).symm.trans (Endpoint.matches_iff.1 matched))
    · rintro rfl
      exact matched
  · rw [target_toService, carries.pathOf_target, carries.pathOf_url]

section Calls

variable {client : Client} {name path : String} {resource : Resource} {call : Call} {method : Method}
  {payload : Option Json} {text : List Char}

/-- A call for something of its repository leads there. -/
lemma leads_to_resource (address : client.address = defaultAddress) (full : client.repository ≠ "")
    (flat : '/' ∉ client.repository.toList)
    (asked : client.request call =
      .ok (client.requestFor method (client.repositoryPath ++ path) payload))
    (carries : Carries path ('/' :: text)) (matched : resource.Matches text) :
    client.Leads call (.repository client.repository resource) := by
  have named : Carries client.repositoryPath client.repository.toList :=
    .quote (by decide) (by decide) client.repository
  refine leads_of_carries address asked (named.append carries) ?_
  rw [← List.append_assoc]
  exact .repository full flat matched

/-- A call for one of its references leads there, whatever characters are in the name. -/
lemma leads_to_reference (address : client.address = defaultAddress) (full : client.repository ≠ "")
    (flat : '/' ∉ client.repository.toList) (some : name ≠ "") (line : '\n' ∉ name.toList)
    (asked : client.request call = .ok (client.requestFor method
      (client.repositoryPath ++ "/refs/" ++ Percent.quote ['/'] name) payload)) :
    client.Leads call (.repository client.repository (.reference name)) := by
  have carries : Carries ("/refs/" ++ Percent.quote ['/'] name) ("/refs/".toList ++ name.toList) :=
    (Carries.literal (by decide) (by decide)).append (.quote (by decide) (by decide) name)
  -- the slash is left as it is, so the name may have several segments
  rw [String.append_assoc] at asked
  exact leads_to_resource address full flat asked carries (.reference some line)

end Calls

end Client

/-- Whatever the names of a repository and of a reference are, if the one has no slash and the other
no line feed, each call of the client of the repository leads to the endpoint with these names and to no
other. -/
theorem client_calls_routed (repository : String) (credentials : Option (String × String))
    (full : repository ≠ "") (flat : '/' ∉ repository.toList) :
    let client := Client.connect repository Client.defaultAddress credentials
    (∀ name : String, name ≠ "" → '\n' ∉ name.toList →
      (∀ hash, client.Leads (.upsertReference (.string name) hash)
        (.repository repository (.reference name))) ∧
      client.Leads (.getReference (.string name)) (.repository repository (.reference name)) ∧
      client.Leads (.deleteReference (.string name)) (.repository repository (.reference name))) ∧
    (∀ data sha256, client.Leads (.addObject data sha256) (.repository repository .objects)) ∧
    client.Leads .listObjects (.repository repository .objects) ∧
    client.Leads .listReferences (.repository repository .references) ∧
    (∀ names elements, Client.elements names = .ok elements →
      client.Leads (.resolveReferences names) (.repository repository .resolve)) ∧
    (∀ objects references, client.Leads (.push objects references) (.repository repository .push)) ∧
    ∀ name, client.Leads (.setDefaultBranch name) (.repository repository .defaultBranch) := by
  intro client
  have address : client.address = Client.defaultAddress := rfl
  refine ⟨fun name some line => ⟨fun hash => ?_, ?_, ?_⟩, fun data sha256 => ?_, ?_, ?_,
    fun names elements listed => ?_, fun objects references => ?_, fun name => ?_⟩
  · exact Client.leads_to_reference address full flat some line rfl
  · exact Client.leads_to_reference address full flat some line rfl
  · exact Client.leads_to_reference address full flat some line rfl
  · exact Client.leads_to_resource address full flat rfl (.literal (by decide) (by decide)) .objects
  · exact Client.leads_to_resource address full flat rfl (.literal (by decide) (by decide)) .objects
  · exact Client.leads_to_resource address full flat rfl (.literal (by decide) (by decide)) .references
  · have asked : client.request (.resolveReferences names) =
        .ok (client.requestFor .post (client.repositoryPath ++ "/resolve")
          (some (.object [("names", .array elements)]))) := by
      rw [Client.request, listed]
      rfl
    exact Client.leads_to_resource address full flat asked (.literal (by decide) (by decide)) .resolve
  · exact Client.leads_to_resource address full flat rfl (.literal (by decide) (by decide)) .push
  · exact Client.leads_to_resource address full flat rfl (.literal (by decide) (by decide)) .defaultBranch

/-- Names of signs that mean something in a target, and of the words of other patterns. -/
theorem client_calls_routed_sample :
    let repository := "100% é?#"
    let name := "/ownership//accept#%41?é /"
    (repository ≠ "" ∧ '/' ∉ repository.toList ∧ name ≠ "" ∧ '\n' ∉ name.toList) ∧
      (Client.connect repository Client.defaultAddress none).Leads (.deleteReference (.string name))
        (.repository repository (.reference name)) := by
  intro repository name
  obtain ⟨references, _⟩ := client_calls_routed repository none (by decide) (by decide)
  exact ⟨by decide, (references name (by decide) (by decide)).2.2⟩

end ObjectDepot
