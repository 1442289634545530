import ObjectDepot.Http.Caller
import ObjectDepot.Proofs.Base64
import ObjectDepot.Proofs.Keys
import ObjectDepot.Proofs.Quoting

/-!
# Who a header proves

A header `Shows` a name and a password if it is the basic scheme, in any case, and credentials that stand
for them. `caller_of_header` says that without a session the sender is the active account whose name
and password the header shows, and nobody if there is none. The standard encoding of a name and a password
shows them (`Shows.encoded`).
-/

namespace ObjectDepot.Http

variable {accounts : List Account} {account : Account} {name password header : String}
  {separator : Char} {text front back : List Char}

/-- A text is cut at its first character, or later. -/
lemma cutAt_cons (c : Char) : cutAt separator (c :: text) =
    if c = separator then ([], text)
    else (c :: (cutAt separator text).1, (cutAt separator text).2) := by
  unfold cutAt
  by_cases same : c = separator <;> simp [same]

/-- A text is cut at its first separator, and one without any at its end. -/
lemma cutAt_eq_iff : cutAt separator text = (front, back) ↔
    separator ∉ front ∧ (text = front ++ separator :: back ∨ text = front ∧ back = []) := by
  induction text generalizing front with
  | nil => cases front <;> simp [cutAt, eq_comm]
  | cons c text ih =>
    rw [cutAt_cons]
    by_cases same : c = separator
    · cases front with
      | nil => simp [same, eq_comm]
      | cons d front => grind
    · cases front with
      | nil => simp [same]
      | cons d front => grind

/-- An account is authenticated by its own name and password, if it is active. -/
lemma authenticate?_iff (distinct : (accounts.map Account.name).Nodup) :
    authenticate? accounts name password = some account ↔
      account ∈ accounts ∧ account.active ∧ account.name = name ∧ account.password = password := by
  simp only [authenticate?, activeAccount?, Option.filter_eq_some_iff, Keys.find?_key_iff distinct,
    beq_iff_eq]
  constructor
  · rintro ⟨⟨⟨member, named⟩, active⟩, known⟩
    exact ⟨member, active, named, known⟩
  · rintro ⟨member, active, named, known⟩
    exact ⟨⟨⟨member, named⟩, active⟩, known⟩

/-- The name of the basic scheme, each letter in either case. -/
def IsBasic (scheme : List Char) : Prop :=
  List.Forall₂ (fun c letter => c = letter ∨ c = letter.toUpper) scheme "basic".toList

/-- What is a letter of the scheme in lower case is this letter, in one of the cases. -/
lemma toLower_eq_iff {c letter : Char} (member : letter ∈ "basic".toList) :
    c.toLower = letter ↔ c = letter ∨ c = letter.toUpper := by
  have all : ∀ letter ∈ "basic".toList, ∀ code : Fin 128,
      (Char.ofNat code).toLower = letter → Char.ofNat code = letter ∨ Char.ofNat code = letter.toUpper :=
    List.all_iff_forall_prop.1 (by decide)
  have back : ∀ letter ∈ "basic".toList, letter.toLower = letter ∧ letter.toUpper.toLower = letter ∧
    letter.toNat < 128 := List.all_iff_forall_prop.1 (by decide)
  obtain ⟨kept, raised, ascii⟩ := back letter member
  constructor
  · intro same
    have small : c.toNat < 128 := by
      unfold Char.toLower at same
      split at same
      case isTrue upper => exact Nat.lt_of_le_of_lt (UInt32.le_iff_toNat_le.1 upper.2) (by decide)
      case isFalse => exact same ▸ ascii
    have known : c.toLower = letter → c = letter ∨ c = letter.toUpper := by
      apply Hex.forall_ascii small
      exact all letter member
    exact known same
  · rintro (rfl | rfl)
    · exact kept
    · exact raised

/-- A word of such letters is spelled in either case. -/
lemma spelled_iff {scheme word : List Char} (letters : ∀ letter ∈ word, letter ∈ "basic".toList) :
    List.Forall₂ (fun c letter => c = letter ∨ c = letter.toUpper) scheme word ↔
      scheme.map Char.toLower = word := by
  induction word generalizing scheme with
  | nil => simp
  | cons letter word ih =>
    obtain ⟨here, letters⟩ := List.forall_mem_cons.1 letters
    cases scheme with
    | nil => simp
    | cons c scheme => rw [List.forall₂_cons, ih letters, List.map_cons, List.cons.injEq, toLower_eq_iff here]

/-- The spellings of the basic scheme are the texts that are it in lower case. -/
lemma isBasic_iff {scheme : List Char} : IsBasic scheme ↔ scheme.map Char.toLower = "basic".toList :=
  spelled_iff fun _ => id

/-- No spelling of the basic scheme has a blank. -/
lemma IsBasic.solid {scheme : List Char} (basic : IsBasic scheme) : ' ' ∉ scheme := by
  intro member
  have letter : ' '.toLower ∈ scheme.map Char.toLower := List.mem_map_of_mem member
  rw [isBasic_iff.1 basic] at letter
  exact absurd letter (by decide)

/-- A header of the basic scheme is cut after the scheme. -/
lemma IsBasic.cutAt {scheme : List Char} (basic : IsBasic scheme) (credentials : List Char) :
    cutAt ' ' (String.ofList (scheme ++ ' ' :: credentials)).toList = (scheme, credentials) := by
  rw [String.toList_ofList]
  exact cutAt_eq_iff.2 ⟨basic.solid, .inl rfl⟩

/-- A header shows a name and a password: what counts of its credentials is read as a text that holds both
with a colon between them, or the name alone where the password is empty. -/
inductive Shows : String → String → String → Prop where
  | basic {scheme credentials : List Char} {text name password : String} :
    IsBasic scheme →
    credentials ≠ [] →
    Base64.Reads (credentials.filter Base64.counts) (Bytes.ofText text) →
    ':' ∉ name.toList →
    text = name ++ ":" ++ password ∨ text = name ∧ password = "" →
    Shows (String.ofList (scheme ++ ' ' :: credentials)) name password

/-- Which name and password credentials hold: the text that they encode is cut at its first colon. -/
lemma basicCredentials?_iff {credentials : List Char} :
    basicCredentials? credentials = some (name, password) ↔
      ∃ text, Base64.Reads (credentials.filter Base64.counts) (Bytes.ofText text) ∧ ':' ∉ name.toList ∧
        (text = name ++ ":" ++ password ∨ text = name ∧ password = "") := by
  have held : ∀ text : String, cutAt ':' text.toList = (name.toList, password.toList) ↔
      ':' ∉ name.toList ∧ (text = name ++ ":" ++ password ∨ text = name ∧ password = "") := by
    intro text
    have joined : (name ++ ":" ++ password).toList = name.toList ++ ':' :: password.toList := by simp
    rw [cutAt_eq_iff, ← joined, String.toList_inj, String.toList_inj, String.toList_eq_nil_iff]
  simp only [basicCredentials?, Option.bind_eq_bind, Option.bind_eq_some_iff, Base64.decode?_iff,
    Utf8.decode?_eq_some_iff, Option.some.injEq, Prod.mk.injEq]
  constructor
  · rintro ⟨bytes, decoded, chars, rfl, rfl, rfl⟩
    refine ⟨String.ofList chars, ?_, (held _).1 ?_⟩
    · rwa [Bytes.ofText, String.toList_ofList]
    · rw [String.toList_ofList, String.toList_ofList, String.toList_ofList]
  · rintro ⟨text, decoded, parts⟩
    have cut := (held text).2 parts
    refine ⟨_, decoded, text.toList, rfl, ?_⟩
    rw [cut, String.ofList_toList, String.ofList_toList]
    exact ⟨rfl, rfl⟩

/-- What a header shows is found where it is cut. -/
lemma shows_iff : Shows header name password ↔
    (cutAt ' ' header.toList).1.map Char.toLower = "basic".toList ∧ (cutAt ' ' header.toList).2 ≠ [] ∧
      basicCredentials? (cutAt ' ' header.toList).2 = some (name, password) := by
  constructor
  · rintro ⟨basic, full, decoded, flat, held⟩
    rename_i text
    rw [basic.cutAt]
    exact ⟨isBasic_iff.1 basic, full, basicCredentials?_iff.2 ⟨text, decoded, flat, held⟩⟩
  · rcases cut : cutAt ' ' header.toList with ⟨scheme, credentials⟩
    rintro ⟨basic, full, found⟩
    obtain ⟨_, whole | ⟨_, rfl⟩⟩ := cutAt_eq_iff.1 cut
    · obtain ⟨text, decoded, flat, held⟩ := basicCredentials?_iff.1 found
      rw [← String.ofList_toList (s := header), whole]
      exact .basic (isBasic_iff.2 basic) full decoded flat held
    · exact absurd rfl full

/-- Without a session, and with credentials in ASCII, the sender is the active account whose name and
password the header shows. -/
lemma caller_of_header {login : Option String} (distinct : (accounts.map Account.name).Nodup)
    (anonymous : login.bind (activeAccount? accounts) = none)
    (ascii : ∀ c ∈ (cutAt ' ' header.toList).2, c.toNat < 128) :
    ∃ sender, caller accounts login header = .ok sender ∧ ∀ name, sender = some name ↔
      ∃ account ∈ accounts, account.active ∧ account.name = name ∧
        Shows header name account.password := by
  simp only [shows_iff]
  unfold caller headerCaller
  rw [anonymous]
  generalize cutAt ' ' header.toList = parts at ascii ⊢
  obtain ⟨scheme, credentials⟩ := parts
  dsimp only at ascii ⊢
  have plain : ¬ credentials.any fun c => 128 ≤ c.toNat := by
    simpa using ascii
  by_cases other : scheme.map Char.toLower ≠ "basic".toList ∨ credentials.isEmpty
  · refine ⟨none, by rw [if_pos other], fun name => ⟨nofun, ?_⟩⟩
    rintro ⟨_, _, _, _, basic, full, _⟩
    rcases other with wrong | empty
    · exact absurd basic wrong
    · exact absurd (List.isEmpty_iff.1 empty) full
  · obtain ⟨basic, full⟩ := not_or.1 other
    refine ⟨_, by rw [if_neg other, if_neg plain], fun name => ?_⟩
    simp only [Option.bind_eq_bind, Option.bind_eq_some_iff, authenticate?_iff distinct, Option.some.injEq]
    constructor
    · rintro ⟨⟨_, _⟩, found, account, ⟨member, active, rfl, rfl⟩, rfl⟩
      exact ⟨account, member, active, rfl, not_not.1 basic, fun e => full (by rw [e]; rfl), found⟩
    · rintro ⟨account, member, active, rfl, _, _, found⟩
      exact ⟨_, found, account, ⟨member, active, rfl, rfl⟩, rfl⟩

/-- The characters of a header. -/
lemma scheme_append_encode (scheme : List Char) (bytes : Bytes) :
    String.ofList scheme ++ " " ++ Base64.encode bytes =
      String.ofList (scheme ++ ' ' :: Base64.encodeChars bytes) := by
  rw [← String.toList_inj]
  simp [Base64.encode]

/-- The standard encoding of a name and a password shows them. -/
lemma Shows.encoded {scheme : List Char} (basic : IsBasic scheme) (flat : ':' ∉ name.toList) :
    Shows (String.ofList scheme ++ " " ++ Base64.encode (Bytes.ofText (name ++ ":" ++ password))) name
      password := by
  have decoded := Base64.decode?_encodeChars (Bytes.ofText (name ++ ":" ++ password))
  have full : Base64.encodeChars (Bytes.ofText (name ++ ":" ++ password)) ≠ [] := by
    intro empty
    rw [empty] at decoded
    -- no bytes are the encoding of no character, but there is the colon
    have nothing := List.flatMap_eq_nil_iff.1 (Option.some.inj decoded).symm ':' (by simp)
    exact String.utf8EncodeChar_ne_nil nothing
  rw [scheme_append_encode]
  exact .basic basic full (Base64.decode?_iff.1 decoded) flat (.inl rfl)

/-- Basic authentication is complete and sound. Without a session the standard header for an active account
proves it, whatever the case of the scheme. Any header with credentials in ASCII is answered, and it
proves the active account whose name and password it shows, or nobody. -/
theorem basic_authentication (accounts : List Account) (login : Option String)
    (distinct : (accounts.map Account.name).Nodup)
    (anonymous : login.bind (activeAccount? accounts) = none) :
    (∀ account ∈ accounts, account.active → ':' ∉ account.name.toList → ∀ scheme, IsBasic scheme →
      caller accounts login (String.ofList scheme ++ " " ++
        Base64.encode (Bytes.ofText (account.name ++ ":" ++ account.password))) =
          .ok (some account.name)) ∧
    (∀ header : String, (∀ c ∈ (cutAt ' ' header.toList).2, c.toNat < 128) →
      ∃ sender, caller accounts login header = .ok sender ∧ ∀ name, sender = some name ↔
        ∃ account ∈ accounts, account.active ∧ account.name = name ∧
          Shows header name account.password) := by
  refine ⟨fun account member active flat scheme basic => ?_, fun header ascii =>
    caller_of_header distinct anonymous ascii⟩
  have shown : Shows _ account.name account.password := Shows.encoded basic flat
  rw [scheme_append_encode] at shown ⊢
  have ascii := Base64.ascii_encodeChars (Bytes.ofText (account.name ++ ":" ++ account.password))
  obtain ⟨sender, same, proved⟩ := caller_of_header distinct anonymous (by rwa [basic.cutAt])
  rw [same, (proved account.name).2 ⟨account, member, active, rfl, shown⟩]

/-- The scheme is written in any case, and the password may hold a colon, but it may not be left out. -/
theorem basic_authentication_sample :
    caller [⟨"ann", "a:b", true⟩] none "bAsIC YW5uOmE6Yg==" = .ok (some "ann") ∧
    caller [⟨"ann", "a:b", true⟩] none "Basic YW5u" = .ok none := by
  obtain ⟨complete, sound⟩ := basic_authentication [⟨"ann", "a:b", true⟩] none (by simp) rfl
  have basic : IsBasic "bAsIC".toList := isBasic_iff.2 (by decide)
  have header : String.ofList "bAsIC".toList ++ " " ++ Base64.encode (Bytes.ofText ("ann" ++ ":" ++ "a:b")) =
    "bAsIC YW5uOmE6Yg==" := by decide +kernel
  have proved := complete ⟨"ann", "a:b", true⟩ (.head _) rfl (by decide) _ basic
  obtain ⟨sender, answered, only⟩ := sound "Basic YW5u" (List.all_iff_forall_prop.1 (by decide))
  have nobody : sender = none := by
    refine Option.eq_none_iff_forall_ne_some.2 fun name found => ?_
    obtain ⟨account, member, _, rfl, shown⟩ := (only name).1 found
    cases List.mem_singleton.1 member
    exact absurd (shows_iff.1 shown).2.2 (by decide +kernel)
  exact ⟨header ▸ proved, nobody ▸ answered⟩

end ObjectDepot.Http
