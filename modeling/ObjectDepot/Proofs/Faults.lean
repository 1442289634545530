import ObjectDepot.Json.Key
import ObjectDepot.Proofs.Hexadecimal
import ObjectDepot.Proofs.Requests

/-!
# What a request can stumble over

Two things in a request are no matter for a rejection: credentials that are not ASCII, and a list or an
object among the names to resolve. `sender_fault` and `resolveNames_fault` say when either is found, and
the other readers of a request are `Faultless`: whatever they are given, they succeed or reject it.
-/

namespace ObjectDepot

open Procedure

variable {α β : Type}

/-- A calculation that succeeds or ends in a rejection. -/
def Faultless (outcome : Except Failure α) : Prop :=
  ∀ cause, outcome ≠ .error (.fault cause)

namespace Faultless

/-- A value is no fault. -/
lemma ok (a : α) : Faultless (.ok a : Except Failure α) := fun _ => nofun

/-- A rejection is no fault. -/
lemma rejected (error : StoreError) : Faultless (.error (.rejected error) : Except Failure α) :=
  fun _ => nofun

/-- What follows on what is faultless is faultless if each step is. -/
lemma bind {first : Except Failure α} {f : α → Except Failure β} (begins : Faultless first)
    (rest : ∀ a, first = .ok a → Faultless (f a)) : Faultless (first >>= f) := by
  cases first with
  | error failure =>
    cases failure with
    | rejected error => exact rejected error
    | fault cause => exact absurd rfl (begins cause)
  | ok a => exact rest a rfl

/-- A step without faults, taken for each of some items, has no faults. -/
lemma mapM {f : α → Except Failure β} (each : ∀ a, Faultless (f a)) (items : List α) :
    Faultless (items.mapM f) := by
  induction items with
  | nil => exact ok []
  | cons item rest ih =>
    rw [List.mapM_cons]
    exact (each item).bind fun _ _ => ih.bind fun _ _ => ok _

end Faultless

/-- No text of the length of a hash stands for more bytes than a slot has. -/
lemma Hash.ofJson_faultless (value : Json) : Faultless (Hash.ofJson value) := by
  cases value with
  | string text =>
    unfold Hash.ofJson
    dsimp only
    split
    case isFalse => exact .rejected _
    case isTrue length =>
      cases read : Hex.decode text with
      | error => exact .rejected _
      | ok raw =>
        have bound := Hex.length_decode read
        have fits : raw.length ≤ Hash.size := by
          rw [Hash.size]
          omega
        dsimp only
        rw [pad, if_pos fits]
        exact .ok _
  | _ => exact .rejected _

/-- To read a payload is faultless. -/
lemma payloadOfJson_faultless (value : Json) : Faultless (payloadOfJson value) := by
  cases value with
  | string text =>
    unfold payloadOfJson
    dsimp only
    split
    · exact .ok _
    · exact .rejected _
  | _ => exact .rejected _

namespace Http

/-- The body of a request ends in a fault only where it is too long. -/
lemma members_fault {request : Request} {cause : Fault} :
    request.members = .error (.fault cause) ↔ cause = .aborted ∧ request.tooLong := by
  unfold Request.members
  cases long : request.tooLong with
  | true => simp [eq_comm]
  | false =>
    rw [if_neg Bool.false_ne_true]
    constructor
    · intro read
      split at read
      · cases read
      · split at read <;> cases read
    · rintro ⟨_, h⟩
      cases h

/-- The items of a member end in no fault. -/
lemma items_faultless (members : Json.Members) (key : String) : Faultless (items members key) := by
  unfold items
  dsimp only
  split
  · exact .ok _
  · split
    · exact .ok _
    · exact .rejected _
  · exact .rejected _

/-- To read an object of a push is faultless. -/
lemma pushedObject_faultless (item : Json.Members) : Faultless (pushedObject item) := by
  refine (Hash.ofJson_faultless _).bind fun hash _ => ?_
  exact (payloadOfJson_faultless _).bind fun data _ => .ok _

/-- To read a reference of a push is faultless. -/
lemma pushedReference_faultless (item : Json.Members) : Faultless (pushedReference item) :=
  (Hash.ofJson_faultless _).bind fun _ _ => .ok _

/-- A request without a session whose header has credentials of the basic scheme with a character in
them that is not ASCII. -/
structure Service.Garbles (service : Service) (request : Request) : Prop where
  anonymous : request.login.bind (activeAccount? service.accounts) = none
  basic : (cutAt ' ' request.authorization.toList).1.map Char.toLower = "basic".toList
  foreign : ∃ c ∈ (cutAt ' ' request.authorization.toList).2, 128 ≤ c.toNat

/-- A header is stumbled over only for a foreign character in credentials of the basic scheme. -/
lemma headerCaller_error {accounts : List Account} {header : String} {cause : Fault} :
    headerCaller accounts header = .error cause ↔
      cause = .credentialsNotAscii ∧
        (cutAt ' ' header.toList).1.map Char.toLower = "basic".toList ∧
        ∃ c ∈ (cutAt ' ' header.toList).2, 128 ≤ c.toNat := by
  unfold headerCaller
  rcases cutAt ' ' header.toList with ⟨scheme, credentials⟩
  dsimp only
  constructor
  · intro h
    split at h
    case isTrue => cases h
    case isFalse kept =>
      split at h
      case isFalse => cases h
      case isTrue foreign =>
        cases h
        refine ⟨rfl, Decidable.of_not_not (not_or.1 kept).1, ?_⟩
        simpa using foreign
  · rintro ⟨rfl, basic, c, member, foreign⟩
    have some : ¬ credentials.isEmpty := by
      rw [List.isEmpty_iff]
      exact List.ne_nil_of_mem member
    have any : credentials.any fun c => 128 ≤ c.toNat :=
      List.any_eq_true.2 ⟨c, member, by simpa using foreign⟩
    rw [if_neg (not_or.2 ⟨not_not.2 basic, some⟩), if_pos any]

/-- Only such a request hides who sends it. -/
lemma Service.sender_fault {service : Service} {request : Request} {cause : Fault} :
    service.sender request = .error (.fault cause) ↔
      cause = .credentialsNotAscii ∧ service.Garbles request := by
  have asked : service.sender request = .error (.fault cause) ↔
      Http.caller service.accounts request.login request.authorization = .error cause := by
    unfold sender
    cases Http.caller service.accounts request.login request.authorization with
    | error other => simp [Except.mapError]
    | ok account => simp [Except.mapError]
  rw [asked, Http.caller]
  cases session : request.login.bind (activeAccount? service.accounts) with
  | some account =>
    refine ⟨nofun, fun ⟨_, garbles⟩ => ?_⟩
    cases session.symm.trans garbles.anonymous
  | none =>
    dsimp only
    rw [headerCaller_error]
    constructor
    · rintro ⟨same, basic, foreign⟩
      exact ⟨same, session, basic, foreign⟩
    · rintro ⟨same, garbles⟩
      exact ⟨same, garbles.basic, garbles.foreign⟩

end Http

namespace Repository

variable {repository : Repository} {value : Json} {names : List Json} {cause : Fault}

/-- A value that is no key cannot be looked for among names. -/
lemma resolveName_error :
    repository.resolveName value = .error cause ↔
      value.keyForm? = none ∧ cause = .notHashable value := by
  cases value <;> simp [resolveName, Json.keyForm?, eq_comm]

/-- The first of the names that is no key stops the resolution. -/
lemma resolveNames_error :
    repository.resolveNames names = .error cause ↔
      ∃ value, names.find? (·.keyForm?.isNone) = some value ∧ cause = .notHashable value := by
  unfold resolveNames
  induction names with
  | nil => simp [pure, Except.pure]
  | cons name rest ih =>
    rw [List.mapM_cons]
    cases first : repository.resolveName name with
    | error other =>
      obtain ⟨noKey, rfl⟩ := resolveName_error.1 first
      simp [bind, Except.bind, noKey, eq_comm]
    | ok hash =>
      have key : name.keyForm?.isNone = false := by
        cases known : name.keyForm? with
        | some form => rfl
        | none =>
          have stopped : repository.resolveName name = .error (.notHashable name) :=
            resolveName_error.2 ⟨known, rfl⟩
          cases first.symm.trans stopped
      rw [List.find?_cons_of_neg (by simp [key]), ← ih]
      cases rest.mapM repository.resolveName <;> simp [bind, Except.bind, pure, Except.pure]

end Repository

/-- Whether the body of a request is looked at. -/
def Http.Resource.readsBody (method : Method) : Resource → Bool
  | .push | .resolve | .defaultBranch | .transfer => true
  | .objects => method = .post
  | .reference _ => method = .put
  | _ => false

/-- The faults in which what is asked of a repository ends: who sends the request is hidden, where
that is asked, its body is too long, where it is looked at, or a name to resolve is no key. -/
inductive Http.Service.Stumbles (service : Service) (request : Request) (method : Method) :
    Resource → Fault → Prop where
  | sender {resource : Resource} :
    method ≠ .get →
    resource ≠ .resolve →
    service.Garbles request →
    Stumbles service request method resource .credentialsNotAscii
  | body {resource : Resource} :
    resource.readsBody method →
    request.tooLong →
    Stumbles service request method resource .aborted
  | names {members : Json.Members} {names : List Json} {value : Json} :
    request.members = .ok members →
    members.get? "names" = some (.array names) →
    names.find? (·.keyForm?.isNone) = some value →
    Stumbles service request method .resolve (.notHashable value)

end ObjectDepot
