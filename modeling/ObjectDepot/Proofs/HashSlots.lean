import ObjectDepot.Proofs.HashTexts
import ObjectDepot.Proofs.Retrieval

/-!
# Hashes fill their slots

Whatever is read as a hash has the size of a slot (`Hash.Denotes.filled`), so that no request overflows one
(`Http.Service.respond_fits`). A slot is read back from its digits in either case
(`Hash.Denotes.of_spells`), a short digest from its digits with the zeros of its slot or without. Filling
up tells byte strings of one length apart (`Hash.pad_injective`), and what is zero fills up to the slot of
zeros (`Hash.isZero_iff_pad`).
-/

namespace ObjectDepot

namespace Hex

/-- The digits that are written are in lower case, and their capitals are digits too. -/
lemma cases_of_mem_encode {bytes : Bytes} {c : Char} (member : c ∈ (encode bytes).toList) :
    c.toLower = c ∧ c.toUpper.toLower = c ∧ c ∈ digits ∧ c.toUpper ∈ digits := by
  have all : ∀ value : Fin 16, (digit value).toLower = digit value ∧
    (digit value).toUpper.toLower = digit value ∧ digit value ∈ digits ∧
      (digit value).toUpper ∈ digits := by decide
  obtain ⟨value, small, rfl⟩ := exists_of_mem_encode member
  exact all ⟨value, small⟩

/-- A text spells a word if it has its letters, each as it is or as a capital. -/
def Spells (text word : List Char) : Prop :=
  List.Forall₂ (fun c letter => c = letter ∨ c = letter.toUpper) text word

instance (text word : List Char) : Decidable (Spells text word) :=
  inferInstanceAs (Decidable (List.Forall₂ _ text word))

/-- A text that spells digits in lower case consists of digits, and these are they in lower case. -/
lemma Spells.toLower {text word : List Char} (spells : Spells text word)
    (letters : ∀ letter ∈ word, letter.toLower = letter ∧ letter.toUpper.toLower = letter ∧
      letter ∈ digits ∧ letter.toUpper ∈ digits) :
    text.map Char.toLower = word ∧ ∀ c ∈ text, c ∈ digits := by
  induction spells with
  | nil => exact ⟨rfl, nofun⟩
  | @cons c letter text word here _ ih =>
    obtain ⟨⟨kept, lowered, small, capital⟩, letters⟩ := List.forall_mem_cons.1 letters
    obtain ⟨same, all⟩ := ih letters
    rw [List.map_cons, same, List.forall_mem_cons]
    rcases here with rfl | rfl
    · exact ⟨by rw [kept], small, all⟩
    · exact ⟨by rw [lowered], capital, all⟩

end Hex

namespace Hash

variable {text : String} {hash raw other : Bytes}

/-- A text denotes a hash of the size of a slot. -/
lemma Denotes.filled (denotes : Denotes text hash) : hash.length = size := by
  have digits := congrArg List.length denotes.digits
  have bound := denotes.length_dense
  rw [String.length_toList, Hex.length_encode, slotDigits, List.length_append, List.length_map,
    List.length_replicate] at digits
  rw [size]
  omega

/-- The digits of a slot denote it, in whatever case they are written. -/
lemma Denotes.of_spells (filled : hash.length = size)
    (spells : Hex.Spells text.toList (Hex.encode hash).toList) : Denotes text hash := by
  obtain ⟨lower, all⟩ := spells.toLower fun _ => Hex.cases_of_mem_encode
  have length : text.length = 64 := by
    rw [← String.length_toList, ← List.length_map Char.toLower, lower, String.length_toList,
      Hex.length_encode, filled, size]
  have even : text.toList.length % 2 = 0 := by
    rw [String.length_toList, length]
  refine ⟨.inr length, Hex.Paired.of_digits all even, ?_⟩
  rw [slotDigits_of_solid fun c member => Hex.isBlank_of_digit (all c member), lower, length,
    Nat.sub_self, List.replicate_zero, List.append_nil]

/-- The digits of a short digest in its slot are its own and twenty-four zeros. -/
lemma encode_fill_of_short (short : raw.length = 20) :
    Hex.encode (fill raw) = Hex.encode raw ++ String.ofList (List.replicate 24 '0') := by
  have length : (Hex.encode raw).toList.length = 40 := by
    rw [String.length_toList, Hex.length_encode, short]
  rw [← String.toList_inj, toList_encode_fill, length, String.toList_append, String.toList_ofList]

/-- Byte strings of one length stay different when they are filled up. -/
lemma pad_injective (same : raw.length = other.length) (short : raw.length ≤ size)
    (padded : pad raw = pad other) : raw = other := by
  rw [pad, pad, if_pos short, if_pos (same ▸ short)] at padded
  exact List.append_inj_left (Except.ok.inj padded) same

/-- A byte string is zero if it fits into a slot and fills up to the slot of zeros. -/
lemma isZero_iff_pad : isZero raw ↔ raw.length ≤ size ∧ pad raw = .ok zero := by
  rw [isZero, Bool.and_eq_true, decide_eq_true_eq]
  refine and_congr_right fun short => ?_
  rw [pad, if_pos short, Except.ok.injEq, fill, zero, List.append_eq_replicate_iff, List.all_eq_true,
    List.length_replicate, Nat.add_sub_cancel' short, List.eq_replicate_iff]
  simp only [beq_iff_eq, true_and, and_true]

/-- A digest that is filled up is the digest of the store. -/
lemma pad_rawDigest (algorithm : Algorithm) (message : Bytes) :
    pad (algorithm.rawDigest message) = .ok (digest algorithm message) :=
  if_pos (length_rawDigest algorithm message)

end Hash

/-- No request overflows a slot. -/
lemma Http.Service.respond_fits (service : Service) (request : Request) (work : Work Store) :
    ((service.respond request).run work).1 ≠ .crashed .slotOverflow := by
  have ends : service.Answers request ((service.respond request).run work).1 ∨
      ∃ cause, ((service.respond request).run work).1 = .crashed cause ∧
        service.Crashes request work.content cause := respond_ends
  intro overflows
  rw [overflows] at ends
  rcases ends with answers | ⟨cause, same, crashes⟩
  · cases answers
  · cases same
    cases crashes with
    | repository _ _ _ _ stumbles => cases stumbles

/-- How hashes are put into slots and read. Every value is malformed or is read as a hash that fills a slot,
and neither a request nor a digest overflows one. A hash that fills a slot is read from its digits, each in
either case. A hash of twenty bytes is read from its digits as it is padded, and also from these and
twenty-four zeros. Padding tells byte strings of one length apart, and a byte string is zero if it fits and
is padded to the slot of zeros. -/
theorem hash_slots_filled (value : Json) (text : String) (hash raw other : Bytes) (algorithm : Algorithm)
    (service : Http.Service) (request : Http.Request) (work : Work Store) :
    (((∃ hash, Hash.ofJson value = .ok hash ∧ hash.length = Hash.size) ∨
        Hash.ofJson value = .error (.rejected (.malformedHash value))) ∧
      ((service.respond request).run work).1 ≠ .crashed .slotOverflow ∧
      Hash.pad (algorithm.rawDigest raw) = .ok (Hash.digest algorithm raw)) ∧
    (hash.length = Hash.size → Hex.Spells text.toList (Hex.encode hash).toList →
      Hash.ofJson (.string text) = .ok hash) ∧
    (raw.length = 20 → ∃ slot, Hash.pad raw = .ok slot ∧
      Hash.ofJson (.string (Hex.encode raw)) = .ok slot ∧
      Hash.ofJson (.string (Hex.encode raw ++ String.ofList (List.replicate 24 '0'))) = .ok slot) ∧
    (raw.length = other.length → raw.length ≤ Hash.size → Hash.pad raw = Hash.pad other → raw = other) ∧
    (Hash.isZero raw ↔ raw.length ≤ Hash.size ∧ Hash.pad raw = .ok Hash.zero) := by
  refine ⟨⟨?_, service.respond_fits request work, Hash.pad_rawDigest algorithm raw⟩,
    fun filled spells => (Hash.Denotes.of_spells filled spells).ofJson, fun short => ?_,
    Hash.pad_injective, Hash.isZero_iff_pad⟩
  · rcases Hash.ofJson_cases value with ⟨text, hash, rfl, denotes⟩ | malformed
    · exact .inl ⟨hash, denotes.ofJson, denotes.filled⟩
    · exact .inr malformed
  · have fits : raw.length ≤ Hash.size := by
      rw [short]
      decide
    have filled : (Hash.fill raw).length = Hash.size := Hash.length_fill fits
    refine ⟨Hash.fill raw, if_pos fits, Hash.ofJson_encode (.inl short), ?_⟩
    rw [← Hash.encode_fill_of_short short, Hash.ofJson_encode (.inr filled), Hash.fill_of_length filled]

/-- A slot of one byte over and over is read from mixed cases, and a hash of twenty bytes from its digits. Two
ways to write down twenty zeros come to one slot, that of zero, and are one byte string. -/
theorem hash_slots_filled_sample :
    Hash.ofJson (.string "aBABabAbaBABabAbaBABabAbaBABabAbaBABabAbaBABabAbaBABabAbaBABabAb") =
      .ok (List.replicate 32 0xab) ∧
    (∃ slot, Hash.pad (List.replicate 20 7) = .ok slot ∧
      Hash.ofJson (.string (Hex.encode (List.replicate 20 7))) = .ok slot ∧
      Hash.ofJson (.string (Hex.encode (List.replicate 20 7) ++ String.ofList (List.replicate 24 '0'))) =
        .ok slot) ∧
    (List.range 20).map (fun _ => 0) = List.replicate 20 (0 : UInt8) ∧
    Hash.pad (List.replicate 20 0) = .ok Hash.zero := by
  have told := fun hash raw other : Bytes =>
    hash_slots_filled .null "aBABabAbaBABabAbaBABabAbaBABabAbaBABabAbaBABabAbaBABabAbaBABabAb" hash raw other
      .sha256 History.sampleService History.garbledCreation (History.ofActions History.sample).work
  obtain ⟨_, spelled, digest, _⟩ := told (List.replicate 32 0xab) (List.replicate 20 7) []
  obtain ⟨_, _, _, same, _⟩ := told [] ((List.range 20).map fun _ => 0) (List.replicate 20 0)
  obtain ⟨_, _, _, _, zero⟩ := told [] (List.replicate 20 0) []
  exact ⟨spelled (by decide) (by decide), digest (by decide), same (by decide) (by decide) rfl,
    (zero.1 (by decide)).2⟩

end ObjectDepot
