import ObjectDepot.Proofs.ClientRoutes
import ObjectDepot.Proofs.Procedure

/-!
# The paths of a client's calls

All calls of a client but the creation of its repository ask for a path that is read as the name of the
repository, a slash, and the tail of the call (`pathOf_request`). A hash stands in the tail as it is
given. The service cuts this text at its first slash, which may be one of the name: the repository that
is asked is the first segment of the name (`Client.endpoint_of_request`).
-/

namespace ObjectDepot

open Http Procedure

namespace Percent

/-- What stands for a text is read back as it in front of anything else. -/
lemma StandsFor.unquote_append {quoted text : List Char} (stands : StandsFor quoted text)
    (rest : List Char) : Percent.unquote (quoted ++ rest) = text ++ Percent.unquote rest := by
  have scanned (bytes : Bytes) :
      Utf8.scan (text.flatMap String.utf8EncodeChar ++ bytes) = text.map .ok ++ Utf8.scan bytes := by
    clear stands
    induction text with
    | nil => rfl
    | cons c text ih =>
      rw [List.flatMap_cons, List.append_assoc, Utf8.scan_encoded_append, ih, List.map_cons,
        List.cons_append]
  rw [Percent.unquote, stands, scanned, List.flatMap_append, List.flatMap_map]
  exact congrArg (· ++ _) (List.flatMap_singleton' text)

end Percent

namespace Client

/-- How the rest of a target is read that stands there as it is given. -/
def restOf (text : String) : List Char :=
  Percent.unquote ((text.toList.filter (!isBreak ·)).takeWhile (!endsPath ·))

/-- What follows the name of the repository and a slash in the path of a call. There is no such path
where a repository is created, or where a name is no text. -/
def Call.tail? : Call → Option (List Char)
  | .create _ => none
  | .addObject .. | .listObjects => some "objects".toList
  | .getObject hash => some ("objects/".toList ++ restOf hash.plain)
  | .upsertReference name _ | .deleteReference name | .getReference name =>
    name.text?.map fun name => "refs/".toList ++ name.toList
  | .resolveReferences _ => some "resolve".toList
  | .listReferences => some "refs".toList
  | .push .. => some "push".toList
  | .setDefaultBranch _ => some "default-branch".toList

variable {client : Client} {call : Call} {request : Client.Request} {method : Method}
  {payload : Option Json} {path : String} {text tail : List Char} {authorization : Option String}

/-- A path that carries a text is read as it, whatever comes after it. -/
lemma Carries.pathOf_append (carries : Carries path text) (rest : String) :
    pathOf (root ++ (path ++ rest)) = root.toList ++ text ++ restOf rest := by
  have plain : ∀ c ∈ root.toList ++ path.toList, (!endsPath c) = true := fun c member =>
    (Bool.and_eq_true_iff.1 (carries.isPlain_rooted c member)).2
  have stands : Percent.StandsFor (root.toList ++ path.toList) (root.toList ++ text) :=
    (Percent.StandsFor.plain (by decide)).append carries.stands
  have front (others : List Char) :
    (root.toList ++ others).dropWhile isMargin = root.toList ++ others := rfl
  have cut : dropHost (dropScheme (root.toList ++ path.toList ++ rest.toList.filter (!isBreak ·))) =
    root.toList ++ path.toList ++ rest.toList.filter (!isBreak ·) := rfl
  rw [pathOf, String.toList_append, String.toList_append, front, ← List.append_assoc,
    List.filter_append, carries.filter_rooted, cut, List.takeWhile_append_of_pos plain, stands.unquote_append]
  rfl

/-- The path of a repository carries its name. -/
lemma carries_repositoryPath : Carries client.repositoryPath client.repository.toList :=
  .quote (by decide) (by decide) client.repository

/-- A request for something of the repository of a client is read with the name of the repository. -/
lemma pathOf_requestFor (address : client.address = defaultAddress) (carries : Carries path ('/' :: text))
    (rest : String) :
    pathOf ((client.requestFor method (client.repositoryPath ++ (path ++ rest)) payload).toService
      authorization).target =
      root.toList ++ client.repository.toList ++ '/' :: (text ++ restOf rest) := by
  have same : client.repositoryPath ++ (path ++ rest) = (client.repositoryPath ++ path) ++ rest :=
    (String.append_assoc ..).symm
  rw [requestFor, address, target_toService, same, (carries_repositoryPath.append carries).pathOf_append]
  simp only [List.append_assoc, List.cons_append]

/-- What a client asks for is told from a path that ends with it. -/
lemma pathOf_requestFor_whole (address : client.address = defaultAddress)
    (carries : Carries path ('/' :: text)) :
    pathOf ((client.requestFor method (client.repositoryPath ++ path) payload).toService
      authorization).target = root.toList ++ client.repository.toList ++ '/' :: text := by
  rw [requestFor, address, target_toService, (carries_repositoryPath.append carries).pathOf_target,
    List.append_assoc]

/-- A call either creates the repository of the client, or asks for the path with its tail. -/
lemma pathOf_request (address : client.address = defaultAddress) (asked : client.request call = .ok request) :
    (∃ sha256, call = .create sha256) ∨ ∃ tail, call.tail? = some tail ∧ ∀ authorization,
      pathOf (request.toService authorization).target =
        root.toList ++ client.repository.toList ++ '/' :: tail := by
  cases call with
  | create sha256 => exact .inl ⟨sha256, rfl⟩
  | addObject | listObjects =>
    cases asked
    have word : Carries "/objects" ('/' :: "objects".toList) := .literal (by decide) (by decide)
    exact .inr ⟨_, rfl, fun _ => pathOf_requestFor_whole address word⟩
  | getObject hash =>
    cases asked
    have folder : Carries "/objects/" ('/' :: "objects/".toList) := .literal (by decide) (by decide)
    refine .inr ⟨_, rfl, fun _ => ?_⟩
    rw [String.append_assoc]
    exact pathOf_requestFor address folder hash.plain
  | upsertReference name | deleteReference name | getReference name =>
    cases name with
    | string name =>
      cases asked
      have folder : Carries "/refs/" ('/' :: "refs/".toList) := .literal (by decide) (by decide)
      have named : Carries (Percent.quote ['/'] name) name.toList :=
        .quote (by decide) (by decide) name
      refine .inr ⟨_, rfl, fun _ => ?_⟩
      rw [String.append_assoc]
      exact pathOf_requestFor_whole address (folder.append named)
    | _ => cases asked
  | resolveReferences =>
    obtain ⟨elements, _, told⟩ := except_bind_ok asked
    cases told
    have word : Carries "/resolve" ('/' :: "resolve".toList) := .literal (by decide) (by decide)
    exact .inr ⟨_, rfl, fun _ => pathOf_requestFor_whole address word⟩
  | listReferences =>
    cases asked
    have word : Carries "/refs" ('/' :: "refs".toList) := .literal (by decide) (by decide)
    exact .inr ⟨_, rfl, fun _ => pathOf_requestFor_whole address word⟩
  | push =>
    cases asked
    have word : Carries "/push" ('/' :: "push".toList) := .literal (by decide) (by decide)
    exact .inr ⟨_, rfl, fun _ => pathOf_requestFor_whole address word⟩
  | setDefaultBranch =>
    cases asked
    have word : Carries "/default-branch" ('/' :: "default-branch".toList) :=
      .literal (by decide) (by decide)
    exact .inr ⟨_, rfl, fun _ => pathOf_requestFor_whole address word⟩

/-- The part of a name before its first slash. -/
def firstSegment (name : String) : String :=
  String.ofList (name.toList.takeWhile (· != '/'))

/-- The characters of the first segment. -/
lemma toList_firstSegment (name : String) :
    (firstSegment name).toList = name.toList.takeWhile (· != '/') :=
  String.toList_ofList

/-- A name is its own first segment if it has no slash. -/
lemma firstSegment_eq_iff {name : String} : firstSegment name = name ↔ '/' ∉ name.toList := by
  rw [← String.toList_inj, toList_firstSegment, List.takeWhile_eq_self_iff]
  constructor
  · intro all slash
    exact absurd (all _ slash) (by decide)
  · intro flat c member
    exact bne_iff_ne.2 fun slash => flat (slash ▸ member)

/-- What stands before the first slash of a text that has one anyway, and what follows it: the slash is
that one, or one before. -/
lemma cut_at_slash {before after : List Char} (first path : List Char) (flat : '/' ∉ first)
    (same : before ++ '/' :: after = first ++ '/' :: path) :
    first = before.takeWhile (· != '/') ∧
      (before = first ∧ path = after ∨
        ∃ more, before = first ++ '/' :: more ∧ path = more ++ '/' :: after) := by
  have inside : ∀ c ∈ first, (c != '/') = true := fun c member =>
    bne_iff_ne.2 fun slash => flat (slash ▸ member)
  have cuts : before = first ∧ path = after ∨
      ∃ more, before = first ++ '/' :: more ∧ path = more ++ '/' :: after := by
    rcases List.append_eq_append_iff.1 same with ⟨others, rfl, cut⟩ | ⟨others, rfl, cut⟩
    · cases others with
      | nil =>
        rw [List.nil_append] at cut
        cases cut
        exact .inl ⟨(List.append_nil before).symm, rfl⟩
      | cons c others =>
        cases cut
        exact absurd (List.mem_append_right _ List.mem_cons_self) flat
    · cases others with
      | nil =>
        rw [List.nil_append] at cut
        cases cut
        exact .inl ⟨List.append_nil first, rfl⟩
      | cons c others =>
        cases cut
        exact .inr ⟨others, rfl, rfl⟩
  refine ⟨?_, cuts⟩
  rcases cuts with ⟨rfl, _⟩ | ⟨more, rfl, _⟩
  · exact (List.takeWhile_eq_self_iff.2 inside).symm
  · rw [List.takeWhile_append_of_pos inside, List.takeWhile_cons_of_neg (by decide), List.append_nil]

/-- A request of a client that reaches anything reaches something of the repository that is named by the
first segment, unless it creates one. -/
lemma endpoint_of_request {endpoint : Endpoint} (address : client.address = defaultAddress)
    (asked : client.request call = .ok request)
    (path : Endpoint.ofPath? (pathOf (request.toService authorization).target) = some endpoint) :
    (∃ sha256, call = .create sha256 ∧ endpoint = .repositories) ∨
      ∃ tail rest resource, call.tail? = some tail ∧ resource.Matches rest ∧
        endpoint = .repository (firstSegment client.repository) resource ∧
        (client.repository = firstSegment client.repository ∧ rest = tail ∨
          ∃ more, client.repository.toList = (firstSegment client.repository).toList ++ '/' :: more ∧
            rest = more ++ '/' :: tail) := by
  rcases pathOf_request address asked with ⟨sha256, rfl⟩ | ⟨tail, is_tail, read⟩
  · cases asked
    have repos : Carries "repos" "repos".toList := .literal (by decide) (by decide)
    have target : (Request.toService (client.requestFor .post "repos" (some (.object
        [("name", .string client.repository), ("sha256", sha256)]))) authorization).target =
        root ++ "repos" := by
      rw [requestFor, address, target_toService]
    rw [target, repos.pathOf_target] at path
    cases path
    exact .inl ⟨sha256, rfl, rfl⟩
  · rw [read] at path
    have matched := Endpoint.matches_iff.2 path
    generalize text : root.toList ++ client.repository.toList ++ '/' :: tail = whole at matched
    rw [List.append_assoc] at text
    cases matched with
    | repositories =>
      have slash : '/' ∈ "repos".toList := by
        rw [← List.append_cancel_left text]
        exact List.mem_append_right _ List.mem_cons_self
      exact absurd slash (by decide)
    | @repository name resource rest full flat matched =>
      rw [List.append_assoc] at text
      obtain ⟨first, cuts⟩ := cut_at_slash _ _ flat (List.append_cancel_left text)
      rw [← toList_firstSegment] at first
      obtain rfl := String.toList_inj.1 first
      refine .inr ⟨tail, rest, resource, is_tail, matched, rfl, ?_⟩
      exact cuts.imp_left (And.imp_left String.toList_inj.1)

end Client

end ObjectDepot
