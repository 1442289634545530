import Mathlib.Data.List.Infix
import Mathlib.Data.List.TakeWhile
import Mathlib.Tactic.Lemma
import ObjectDepot.Http.Route

/-!
# The patterns of paths

`Resource.Matches` and `Endpoint.Matches` have one rule for each pattern of the service. A path is read
as an endpoint exactly if it matches the pattern of that endpoint (`Endpoint.matches_iff`), so no path
matches two of them, and none of them in two ways.
-/

namespace ObjectDepot.Http

/-- The patterns of what can be asked of a repository. -/
inductive Resource.Matches : Resource → List Char → Prop where
  | push :
    Matches .push "push".toList
  | objects :
    Matches .objects "objects".toList
  | object {hash : String} :
    hash ≠ "" →
    '/' ∉ hash.toList →
    Matches (.object hash) ("objects/".toList ++ hash.toList)
  | references :
    Matches .references "refs".toList
  | reference {name : String} :
    name ≠ "" →
    '\n' ∉ name.toList →
    Matches (.reference name) ("refs/".toList ++ name.toList)
  | resolve :
    Matches .resolve "resolve".toList
  | defaultBranch :
    Matches .defaultBranch "default-branch".toList
  | transfer :
    Matches .transfer "ownership/transfer".toList
  | accept :
    Matches .accept "ownership/accept".toList

/-- The patterns of the service. -/
inductive Endpoint.Matches : Endpoint → List Char → Prop where
  | repositories :
    Matches .repositories (root.toList ++ "repos".toList)
  | repository {name : String} {resource : Resource} {path : List Char} :
    name ≠ "" →
    '/' ∉ name.toList →
    resource.Matches path →
    Matches (.repository name resource) (root.toList ++ name.toList ++ '/' :: path)

/-- Characters are put together to the text that has them. -/
lemma ofList_eq_iff {path : List Char} {text : String} :
    String.ofList path = text ↔ path = text.toList := by
  constructor
  · rintro rfl
    rw [String.toList_ofList]
  · rintro rfl
    exact String.ofList_toList

/-- All characters are those of a text. -/
lemma exists_toList (characters : List Char) : ∃ text : String, text.toList = characters :=
  ⟨String.ofList characters, String.toList_ofList⟩

/-- A text that is not empty has characters. -/
lemma isEmpty_toList {text : String} (full : text ≠ "") : text.toList.isEmpty = false := by
  rw [List.isEmpty_eq_false_iff]
  simpa using full

namespace Resource

variable {resource : Resource} {path : List Char}

/-- The path of an object leads to it. -/
lemma ofPath?_object {hash : String} (full : hash ≠ "") (flat : '/' ∉ hash.toList) :
    ofPath? ("objects/".toList ++ hash.toList) = some (.object hash) := by
  have prefixed : "objects/".toList.isPrefixOf? ("objects/".toList ++ hash.toList) =
      some hash.toList := List.isPrefixOf?_eq_some_iff_append_eq.2 rfl
  have kept : (hash.toList.isEmpty || hash.toList.contains '/') = false := by
    simpa [isEmpty_toList full] using flat
  unfold ofPath?
  split
  -- in all other cases the path is one of the fixed words, none of which starts like this
  case h_8 =>
    rw [prefixed]
    simp only [kept, Bool.false_eq_true, if_false, String.ofList_toList]
  all_goals
    rename_i word
    exact absurd (ofList_eq_iff.1 word) (by simp)

/-- The path of a reference leads to it. -/
lemma ofPath?_reference {name : String} (full : name ≠ "") (line : '\n' ∉ name.toList) :
    ofPath? ("refs/".toList ++ name.toList) = some (.reference name) := by
  have other : "objects/".toList.isPrefixOf? ("refs/".toList ++ name.toList) = none := rfl
  have prefixed : "refs/".toList.isPrefixOf? ("refs/".toList ++ name.toList) = some name.toList :=
    List.isPrefixOf?_eq_some_iff_append_eq.2 rfl
  have kept : (name.toList.isEmpty || name.toList.contains '\n') = false := by
    simpa [isEmpty_toList full] using line
  unfold ofPath?
  split
  case h_8 =>
    rw [other, prefixed]
    simp only [kept, Bool.false_eq_true, if_false, String.ofList_toList]
  all_goals
    rename_i word
    exact absurd (ofList_eq_iff.1 word) (by simp)

/-- What a path leads to matches it. -/
lemma matches_of_ofPath? (h : ofPath? path = some resource) : resource.Matches path := by
  unfold ofPath? at h
  split at h
  case h_8 =>
    split at h
    case h_1 hash prefixed =>
      obtain ⟨text, rfl⟩ := exists_toList hash
      rw [← List.isPrefixOf?_eq_some_iff_append_eq.1 prefixed]
      split at h
      case isTrue => cases h
      case isFalse kept =>
        rw [String.ofList_toList] at h
        cases h
        obtain ⟨full, flat⟩ : text ≠ "" ∧ '/' ∉ text.toList := by simpa using kept
        exact .object full flat
    case h_2 name _ prefixed =>
      obtain ⟨text, rfl⟩ := exists_toList name
      rw [← List.isPrefixOf?_eq_some_iff_append_eq.1 prefixed]
      split at h
      case isTrue => cases h
      case isFalse kept =>
        rw [String.ofList_toList] at h
        cases h
        obtain ⟨full, line⟩ : text ≠ "" ∧ '\n' ∉ text.toList := by simpa using kept
        exact .reference full line
    case h_3 => cases h
  all_goals
    rename_i word
    obtain rfl := ofList_eq_iff.1 word
    cases h
    constructor

/-- What can be asked of a repository is read off the path by its pattern. -/
lemma matches_iff : resource.Matches path ↔ ofPath? path = some resource := by
  refine ⟨fun matched => ?_, matches_of_ofPath?⟩
  cases matched with
  | object full flat => exact ofPath?_object full flat
  | reference full line => exact ofPath?_reference full line
  | _ => rfl

end Resource

namespace Endpoint

variable {endpoint : Endpoint} {path : List Char}

/-- The path of something of a repository leads there. -/
lemma ofPath?_repository {name : String} {resource : Resource} (full : name ≠ "")
    (flat : '/' ∉ name.toList) (read : Resource.ofPath? path = some resource) :
    ofPath? (root.toList ++ name.toList ++ '/' :: path) = some (.repository name resource) := by
  have prefixed : root.toList.isPrefixOf? (root.toList ++ name.toList ++ '/' :: path) =
      some (name.toList ++ '/' :: path) := by
    rw [List.append_assoc]
    exact List.isPrefixOf?_eq_some_iff_append_eq.2 rfl
  have notRepos : name.toList ++ '/' :: path ≠ "repos".toList := by
    intro same
    have slash : '/' ∈ "repos".toList := same ▸ List.mem_append_right _ List.mem_cons_self
    exact absurd slash (by decide)
  have inside : ∀ c ∈ name.toList, (c != '/') = true := by
    intro c member
    exact bne_iff_ne.2 fun slash => flat (slash ▸ member)
  unfold ofPath?
  rw [prefixed]
  dsimp only
  rw [if_neg notRepos, List.takeWhile_append_of_pos inside, List.dropWhile_append_of_pos inside]
  simp [isEmpty_toList full, read, String.ofList_toList]

/-- What a whole path leads to matches it. -/
lemma matches_of_ofPath? (h : ofPath? path = some endpoint) : endpoint.Matches path := by
  unfold ofPath? at h
  split at h
  case h_1 => cases h
  case h_2 rest prefixed =>
    rw [← List.isPrefixOf?_eq_some_iff_append_eq.1 prefixed]
    split at h
    case isTrue repos =>
      cases h
      rw [repos]
      exact .repositories
    case isFalse =>
      dsimp only at h
      split at h
      case h_2 => cases h
      case h_1 tail ends =>
        split at h
        case isTrue => cases h
        case isFalse full =>
          obtain ⟨resource, read, rfl⟩ := Option.map_eq_some_iff.1 h
          have parts : rest = rest.takeWhile (· != '/') ++ '/' :: tail := by
            rw [← ends, List.takeWhile_append_dropWhile]
          have flat : '/' ∉ rest.takeWhile (· != '/') := by
            intro member
            simpa using List.mem_takeWhile_imp member
          obtain ⟨text, named⟩ := exists_toList (rest.takeWhile (· != '/'))
          rw [← named] at full parts flat ⊢
          rw [parts, ← List.append_assoc, String.ofList_toList]
          exact .repository (by simpa using full) flat (Resource.matches_iff.2 read)

/-- A path is read as an endpoint exactly if it matches the pattern of the endpoint. -/
theorem matches_iff : endpoint.Matches path ↔ ofPath? path = some endpoint := by
  refine ⟨fun matched => ?_, matches_of_ofPath?⟩
  cases matched with
  | repositories => rfl
  | repository full flat matched => exact ofPath?_repository full flat (Resource.matches_iff.1 matched)

end Endpoint

end ObjectDepot.Http
