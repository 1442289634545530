import ObjectDepot.Hash
import ObjectDepot.Proofs.Hexadecimal

/-!
# Texts that denote hashes

`Hash.Denotes` says how a text denotes a hash: by forty or sixty-four characters, of which the digits
stand in pairs and are those of the hash. `Hash.ofJson_ok_iff` says that a value is read as a hash if it
is a text that denotes it, and `Hash.ofJson_cases` that every other value is malformed. The blanks
between the pairs count as characters, so a text with blanks denotes a hash of fewer digits and more
zeros.
-/

namespace ObjectDepot

namespace Hash

/-- The digits of a slot for a text: its own in lower case, followed by zeros. -/
def slotDigits (text : String) : List Char :=
  let written := (Hex.dense text.toList).map Char.toLower
  written ++ List.replicate (64 - written.length) '0'

/-- A text denotes a hash. -/
structure Denotes (text : String) (hash : Bytes) : Prop where
  length : text.length = 40 ∨ text.length = 64
  paired : Hex.Paired text.toList
  digits : (Hex.encode hash).toList = slotDigits text

variable {value : Json} {text other : String} {hash raw : Bytes}

/-- Zeros are written as twice as many zeros. -/
lemma toList_encode_replicate (count : Nat) :
    (Hex.encode (List.replicate count 0)).toList = List.replicate (2 * count) '0' := by
  rw [Hex.encode, String.toList_ofList]
  induction count with
  | zero => rfl
  | succ count ih =>
    rw [List.replicate_succ, List.flatMap_cons, ih]
    rfl

/-- The zero hash is written as sixty-four zeros. -/
lemma toList_encode_zero : (Hex.encode zero).toList = List.replicate 64 '0' :=
  toList_encode_replicate size

/-- The zeros that fill a slot are written as zeros. -/
lemma toList_encode_fill : (Hex.encode (fill raw)).toList =
    (Hex.encode raw).toList ++ List.replicate (64 - (Hex.encode raw).toList.length) '0' := by
  have zeros : 2 * (size - raw.length) = 64 - 2 * raw.length := by
    rw [size]
    omega
  rw [fill, Hex.encode_append, String.toList_append, toList_encode_replicate, zeros,
    String.length_toList, Hex.length_encode]

/-- A text that denotes a hash is read, and as this hash. -/
lemma Denotes.ofJson (denotes : Denotes text hash) : ofJson (.string text) = .ok hash := by
  obtain ⟨raw, read⟩ := denotes.paired.decode
  have fits : raw.length ≤ size := by
    have bound := Hex.length_decode read
    have length := denotes.length
    rw [size]
    omega
  have same : Hex.encode (fill raw) = Hex.encode hash := by
    rw [← String.toList_inj, toList_encode_fill, (Hex.decode_ok_iff.1 read).2, denotes.digits]
    rfl
  rw [Hash.ofJson, if_pos denotes.length, read]
  dsimp only
  rw [pad, if_pos fits, Hex.encode_injective same]
  rfl

/-- Every value either is a text that denotes a hash, or is malformed. -/
lemma ofJson_cases (value : Json) :
    (∃ text hash, value = .string text ∧ Denotes text hash) ∨
      Hash.ofJson value = .error (.rejected (.malformedHash value)) := by
  cases value with
  | string text =>
    by_cases length : text.length = 40 ∨ text.length = 64
    · cases read : Hex.decode text with
      | error position =>
        rw [Hash.ofJson, if_pos length, read]
        exact .inr rfl
      | ok raw =>
        obtain ⟨paired, written⟩ := Hex.decode_ok_iff.1 read
        refine .inl ⟨text, fill raw, rfl, length, paired, ?_⟩
        rw [toList_encode_fill, written]
        rfl
    · rw [Hash.ofJson, if_neg length]
      exact .inr rfl
  | _ => exact .inr rfl

/-- A value is read as a hash if it is a text that denotes it. -/
lemma ofJson_ok_iff : Hash.ofJson value = .ok hash ↔ ∃ text, value = .string text ∧ Denotes text hash := by
  constructor
  · intro read
    rcases ofJson_cases value with ⟨text, other, rfl, denotes⟩ | malformed
    · obtain rfl : other = hash := Except.ok.inj (denotes.ofJson.symm.trans read)
      exact ⟨text, rfl, denotes⟩
    · cases malformed.symm.trans read
  · rintro ⟨text, rfl, denotes⟩
    exact denotes.ofJson

/-- A text is read as a hash if it denotes it. -/
lemma ofJson_string_iff : Hash.ofJson (.string text) = .ok hash ↔ Denotes text hash := by
  rw [ofJson_ok_iff]
  constructor
  · rintro ⟨_, same, denotes⟩
    cases same
    exact denotes
  · exact fun denotes => ⟨text, rfl, denotes⟩

/-- A text without blanks denotes a hash if it is forty or sixty-four digits. -/
lemma denotes_iff_of_solid (solid : ∀ c ∈ text.toList, Hex.isBlank c = false) :
    (∃ hash, Denotes text hash) ↔
      (text.length = 40 ∨ text.length = 64) ∧ ∀ c ∈ text.toList, c ∈ Hex.digits := by
  constructor
  · rintro ⟨hash, denotes⟩
    exact ⟨denotes.length, fun c member => denotes.paired.mem_digits member (solid c member)⟩
  · rintro ⟨length, all⟩
    have even : text.toList.length % 2 = 0 := by
      rw [String.length_toList]
      omega
    have paired := Hex.Paired.of_digits all even
    obtain ⟨raw, read⟩ := paired.decode
    refine ⟨fill raw, length, paired, ?_⟩
    rw [toList_encode_fill, (Hex.decode_ok_iff.1 read).2]
    rfl

/-- The digits of a slot for a text without blanks. -/
lemma slotDigits_of_solid (solid : ∀ c ∈ text.toList, Hex.isBlank c = false) :
    slotDigits text = text.toList.map Char.toLower ++ List.replicate (64 - text.length) '0' := by
  have dense : Hex.dense text.toList = text.toList :=
    List.filter_eq_self.2 fun c member => by simp [solid c member]
  rw [slotDigits, dense, List.length_map, String.length_toList]

/-- Texts denote one hash if they have the digits of one slot. -/
lemma Denotes.eq_iff {other : String} {hash' : Bytes} (denotes : Denotes text hash)
    (denotes' : Denotes other hash') : hash = hash' ↔ slotDigits text = slotDigits other := by
  rw [← denotes.digits, ← denotes'.digits, String.toList_inj]
  exact ⟨fun same => by rw [same], Hex.encode_injective⟩

/-- A text that denotes a hash has no more digits than a slot. -/
lemma Denotes.length_dense (denotes : Denotes text hash) : (Hex.dense text.toList).length ≤ 64 := by
  have shorter : (Hex.dense text.toList).length ≤ text.toList.length := List.length_filter_le _ _
  have length := denotes.length
  rw [String.length_toList] at shorter
  omega

/-- The zero hash is denoted by zeros and blanks alone. -/
lemma Denotes.eq_zero_iff (denotes : Denotes text hash) :
    hash = zero ↔ ∀ c ∈ text.toList, c = '0' ∨ Hex.isBlank c := by
  have lower : ∀ c ∈ Hex.digits, c.toLower = '0' ↔ c = '0' := List.all_iff_forall_prop.1 (by decide)
  constructor
  · rintro rfl c member
    cases blank : Hex.isBlank c with
    | true => exact .inr rfl
    | false =>
      -- the digit stands in the slot in lower case, and the slot is all zeros
      have kept : c ∈ Hex.dense text.toList := List.mem_filter.2 ⟨member, by simp [blank]⟩
      have there : c.toLower ∈ slotDigits text := List.mem_append_left _ (List.mem_map_of_mem kept)
      rw [← denotes.digits, toList_encode_zero] at there
      exact .inl ((lower c (denotes.paired.mem_digits member blank)).1 (List.eq_of_mem_replicate there))
  · intro all
    have zeros : (Hex.dense text.toList).map Char.toLower =
        List.replicate (Hex.dense text.toList).length '0' := by
      refine List.eq_replicate_iff.2 ⟨List.length_map _, fun d member => ?_⟩
      obtain ⟨c, kept, rfl⟩ := List.mem_map.1 member
      obtain ⟨member, solid⟩ := List.mem_filter.1 kept
      rcases all c member with rfl | blank
      · rfl
      · simp [blank] at solid
    apply Hex.encode_injective
    rw [← String.toList_inj, denotes.digits, toList_encode_zero, slotDigits, zeros]
    simp only [List.length_replicate, List.replicate_append_replicate]
    rw [Nat.add_sub_cancel' denotes.length_dense]

end Hash

/-- Which values are read as hashes, and as which. A value is read as a hash if it is a text of forty or
sixty-four characters that has its digits in pairs, with blanks before, between and after the pairs; the
digits of the hash are then those of the text in lower case, followed by zeros. Every other value is
malformed. A text without blanks is read if it is forty or sixty-four digits, and as these digits with
zeros for those that a short one lacks. Texts that are read as one hash have the same digits but for the
zeros at the end, and those that are read as the zero hash are zeros and blanks. -/
theorem hash_texts_read (value : Json) (text other : String) (hash hash' : Bytes) :
    (Hash.ofJson value = .ok hash ↔ ∃ text, value = .string text ∧
      (text.length = 40 ∨ text.length = 64) ∧ Hex.Paired text.toList ∧
        (Hex.encode hash).toList = Hash.slotDigits text) ∧
    ((∀ hash, Hash.ofJson value ≠ .ok hash) →
      Hash.ofJson value = .error (.rejected (.malformedHash value))) ∧
    ((∀ c ∈ text.toList, Hex.isBlank c = false) →
      ((∃ hash, Hash.ofJson (.string text) = .ok hash) ↔
        (text.length = 40 ∨ text.length = 64) ∧ ∀ c ∈ text.toList, c ∈ Hex.digits) ∧
      (Hash.ofJson (.string text) = .ok hash → (Hex.encode hash).toList =
        text.toList.map Char.toLower ++ List.replicate (64 - text.length) '0')) ∧
    (Hash.ofJson (.string text) = .ok hash → Hash.ofJson (.string other) = .ok hash' →
      (hash = hash' ↔ Hash.slotDigits text = Hash.slotDigits other)) ∧
    (Hash.ofJson (.string text) = .ok hash →
      (hash = Hash.zero ↔ ∀ c ∈ text.toList, c = '0' ∨ Hex.isBlank c)) := by
  simp only [Hash.ofJson_string_iff]
  refine ⟨?_, fun refused => ?_, fun solid => ⟨Hash.denotes_iff_of_solid solid, fun denotes => ?_⟩,
    fun denotes denotes' => denotes.eq_iff denotes', fun denotes => denotes.eq_zero_iff⟩
  · rw [Hash.ofJson_ok_iff]
    constructor
    · rintro ⟨text, same, denotes⟩
      exact ⟨text, same, denotes.length, denotes.paired, denotes.digits⟩
    · rintro ⟨text, same, length, paired, digits⟩
      exact ⟨text, same, length, paired, digits⟩
  · rcases Hash.ofJson_cases value with ⟨text, hash, rfl, denotes⟩ | malformed
    · exact absurd denotes.ofJson (refused hash)
    · exact malformed
  · rw [denotes.digits, Hash.slotDigits_of_solid solid]

/-- Forty blanks are no digits, and are read as the zero hash. -/
theorem blanks_read_as_zero :
    ' ' ∉ Hex.digits ∧ Hash.ofJson (.string "                                        ") = .ok Hash.zero := by
  refine ⟨by decide, ?_⟩
  rfl

end ObjectDepot
