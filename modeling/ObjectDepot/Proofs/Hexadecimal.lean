import Mathlib.Data.Bool.AllAny
import Mathlib.Tactic.Lemma
import Mathlib.Tactic.SplitIfs
import ObjectDepot.Codec.Hex

/-!
# Digits and bytes

A digit is read back as its value in either case, a byte from its two digits, and a byte string from its
text (`decode_encode`). A text has two characters at least for each byte that is read from it
(`length_decode`). `decode_ok_iff` says which texts are read, and as what: those whose digits are
`Paired`, as the bytes that have these digits.
-/

namespace ObjectDepot.Hex

/-- A digit in upper case is read back as its value. -/
lemma digitValue?_toUpper {value : Nat} (small : value < 16) :
    digitValue? (digit value).toUpper = some value := by
  have all : ∀ value : Fin 16, digitValue? (digit value).toUpper = some value.val := by decide
  exact all ⟨value, small⟩

/-- A digit in lower case is read back as its value. -/
lemma digitValue?_digit {value : Nat} (small : value < 16) : digitValue? (digit value) = some value := by
  have all : ∀ value : Fin 16, digitValue? (digit value) = some value.val := by decide
  exact all ⟨value, small⟩

/-- A byte is put together from its halves. -/
lemma ofNat_halves (byte : UInt8) :
    UInt8.ofNat (16 * (byte.toNat / 16) + byte.toNat % 16) = byte := by
  rw [Nat.div_add_mod, UInt8.ofNat_toNat]

/-- The high half of a byte is a digit. -/
lemma high_lt (byte : UInt8) : byte.toNat / 16 < 16 := by
  have bound : byte.toNat < 256 := byte.toNat_lt
  omega

/-- The low half of a byte is a digit. -/
lemma low_lt (byte : UInt8) : byte.toNat % 16 < 16 :=
  Nat.mod_lt _ (by decide)

/-- A digit is a character of ASCII and no blank. -/
lemma digit_plain {value : Nat} (small : value < 16) :
    (digit value).toNat < 128 ∧ isBlank (digit value) = false := by
  have all : ∀ value : Fin 16, (digit value).toNat < 128 ∧ isBlank (digit value) = false := by decide
  exact all ⟨value, small⟩

/-- The digits of bytes are read back as they. -/
lemma decodeFrom_encode (bytes : Bytes) (position : Nat) :
    decodeFrom position (bytes.flatMap pair) = .ok bytes := by
  induction bytes generalizing position with
  | nil => rfl
  | cons byte bytes ih =>
    have high := high_lt byte
    have low := low_lt byte
    rw [List.flatMap_cons, pair, List.cons_append, List.cons_append, List.nil_append, decodeFrom,
      digitValue?_digit high, digitValue?_digit low, ih, (digit_plain high).2]
    simp only [Bool.false_eq_true, if_false, Except.map, ofNat_halves]

/-- A byte string is read back from its text. -/
lemma decode_encode (bytes : Bytes) : decode (encode bytes) = .ok bytes := by
  have ascii : (bytes.flatMap pair).findIdx? (fun c => 128 ≤ c.toNat) = none := by
    rw [List.findIdx?_eq_none_iff]
    intro c member
    obtain ⟨byte, _, member⟩ := List.mem_flatMap.1 member
    have high := (digit_plain (high_lt byte)).1
    have low := (digit_plain (low_lt byte)).1
    simp only [pair, List.mem_cons, List.not_mem_nil, or_false] at member
    rcases member with rfl | rfl
    · simpa using high
    · simpa using low
  rw [decode, encode, String.toList_ofList, ascii]
  exact decodeFrom_encode bytes 0

/-- Different bytes have different digits. -/
lemma encode_injective {bytes others : Bytes} (same : encode bytes = encode others) : bytes = others := by
  have read := decode_encode bytes
  rw [same, decode_encode] at read
  exact (Except.ok.inj read).symm

/-- Bytes in a row are written in a row. -/
lemma encode_append (front back : Bytes) : encode (front ++ back) = encode front ++ encode back := by
  rw [encode, List.flatMap_append, String.ofList_append]
  rfl

/-- A byte has two digits. -/
lemma length_encode (bytes : Bytes) : (encode bytes).length = 2 * bytes.length := by
  have each : ∀ byte, (pair byte).length = 2 := fun _ => rfl
  rw [encode, String.length_ofList, List.length_flatMap]
  simp only [each, List.map_const', List.sum_replicate_nat]
  exact Nat.mul_comm _ _

/-- No byte is read without two characters. -/
lemma length_decodeFrom {position : Nat} {text : List Char} {bytes : Bytes}
    (h : decodeFrom position text = .ok bytes) : 2 * bytes.length ≤ text.length := by
  fun_induction decodeFrom position text generalizing bytes with
  | case1 | case2 =>
    cases h
    simp
  | case3 | case4 | case6 | case7 => cases h
  | case5 position c d rest blank ih =>
    have later := ih h
    simp only [List.length_cons] at later ⊢
    omega
  | case8 position c d rest _ high low hd hc ih =>
    -- two characters make one byte
    cases read : decodeFrom (position + 2) rest with
    | error failure =>
      rw [read] at h
      cases h
    | ok others =>
      rw [read] at h
      cases h
      have later := ih read
      simp only [List.length_cons]
      omega

/-- A text that is read has at least twice as many characters as bytes. -/
lemma length_decode {text : String} {bytes : Bytes} (h : decode text = .ok bytes) :
    2 * bytes.length ≤ text.length := by
  unfold decode at h
  split at h
  case h_1 => cases h
  case h_2 =>
    rw [← String.length_toList]
    exact length_decodeFrom h

/-- The digits, in either case. -/
def digits : List Char := "0123456789abcdefABCDEF".toList

/-- The characters of a text that are no blanks. -/
def dense (text : List Char) : List Char :=
  text.filter (!isBlank ·)

/-- A text of digits in pairs, with blanks before, between and after the pairs. -/
inductive Paired : List Char → Prop where
  | done :
    Paired []
  | blank {c : Char} {text : List Char} :
    isBlank c →
    Paired text →
    Paired (c :: text)
  | pair {c d : Char} {text : List Char} :
    c ∈ digits →
    d ∈ digits →
    Paired text →
    Paired (c :: d :: text)

variable {c : Char} {text : List Char} {bytes : Bytes} {position : Nat}

/-- A digit is an ASCII character. -/
lemma ascii_of_digitValue? {value : Nat} (h : digitValue? c = some value) : c.toNat < 128 := by
  have below : ∀ {d : Char}, d.toNat < 128 → c ≤ d → c.toNat < 128 := fun small least =>
    Nat.lt_of_le_of_lt (UInt32.le_iff_toNat_le.1 (Char.le_def.1 least)) small
  unfold digitValue? at h
  split_ifs at h with decimal lower upper
  · exact below (by decide) decimal.2
  · exact below (by decide) lower.2
  · exact below (by decide) upper.2

/-- What holds of the characters of ASCII one by one holds of each of them. -/
lemma forall_ascii {P : Char → Prop} (small : c.toNat < 128) (all : ∀ code : Fin 128, P (Char.ofNat code)) :
    P c := by
  have known := all ⟨c.toNat, small⟩
  rwa [Char.ofNat_toNat] at known

/-- What is read as a digit is one, and in lower case it is the digit of its value. -/
lemma digitValue?_some {value : Nat} (h : digitValue? c = some value) :
    c ∈ digits ∧ value < 16 ∧ digit value = c.toLower := by
  have known : ∀ value ∈ digitValue? c, c ∈ digits ∧ value < 16 ∧ digit value = c.toLower := by
    apply forall_ascii (ascii_of_digitValue? h)
    decide
  exact known value h

/-- All digits have a value. -/
lemma digitValue?_of_mem (member : c ∈ digits) : ∃ value, digitValue? c = some value := by
  have all : ∀ c ∈ digits, (digitValue? c).isSome := List.all_iff_forall_prop.1 (by decide)
  exact Option.isSome_iff_exists.1 (all c member)

/-- What is encoded is written in the digits of values. -/
lemma exists_of_mem_encode {bytes : Bytes} {c : Char} (member : c ∈ (encode bytes).toList) :
    ∃ value, value < 16 ∧ digit value = c := by
  rw [encode, String.toList_ofList, List.mem_flatMap] at member
  obtain ⟨byte, _, half⟩ := member
  simp only [pair, List.mem_cons, List.not_mem_nil, or_false] at half
  rcases half with rfl | rfl
  · exact ⟨_, high_lt byte, rfl⟩
  · exact ⟨_, low_lt byte, rfl⟩

/-- Bytes are written in digits. -/
lemma mem_encode {bytes : Bytes} {c : Char} (member : c ∈ (encode bytes).toList) : c ∈ digits := by
  have all : ∀ value : Fin 16, digit value ∈ digits := by decide
  obtain ⟨value, small, rfl⟩ := exists_of_mem_encode member
  exact all ⟨value, small⟩

/-- No digit is a blank. -/
lemma isBlank_of_digit (member : c ∈ digits) : isBlank c = false := by
  have all : ∀ c ∈ digits, isBlank c = false := List.all_iff_forall_prop.1 (by decide)
  exact all c member

/-- A blank is left out. -/
lemma dense_blank (blank : isBlank c) : dense (c :: text) = dense text :=
  List.filter_cons_of_neg (by simp [blank])

/-- A digit stays. -/
lemma dense_digit (member : c ∈ digits) : dense (c :: text) = c :: dense text :=
  List.filter_cons_of_pos (by simp [isBlank_of_digit member])

/-- A byte is written with the digits from which it is read, in lower case. -/
lemma pair_ofNat {high low : Nat} (hHigh : high < 16) (hLow : low < 16) :
    pair (UInt8.ofNat (16 * high + low)) = [digit high, digit low] := by
  have value : (UInt8.ofNat (16 * high + low)).toNat = 16 * high + low := by
    rw [UInt8.toNat_ofNat']
    omega
  have first : (16 * high + low) / 16 = high := by omega
  have second : (16 * high + low) % 16 = low := by omega
  rw [pair, value, first, second]

/-- A text that is read as bytes has its digits in pairs, and they are those of the bytes. -/
lemma paired_of_decodeFrom (h : decodeFrom position text = .ok bytes) :
    Paired text ∧ bytes.flatMap pair = (dense text).map Char.toLower := by
  fun_induction decodeFrom position text generalizing bytes with
  | case1 =>
    cases h
    exact ⟨.done, rfl⟩
  | case2 position c blank =>
    cases h
    exact ⟨.blank blank .done, by rw [dense_blank blank]; rfl⟩
  | case3 | case4 | case6 | case7 => cases h
  | case5 position c d rest blank ih =>
    obtain ⟨paired, written⟩ := ih h
    exact ⟨.blank blank paired, by rw [written, dense_blank blank]⟩
  | case8 position c d rest _ high low hd hc ih =>
    cases read : decodeFrom (position + 2) rest with
    | error failure =>
      rw [read] at h
      cases h
    | ok others =>
      rw [read] at h
      cases h
      obtain ⟨paired, written⟩ := ih read
      obtain ⟨first, hHigh, upper⟩ := digitValue?_some hc
      obtain ⟨second, hLow, lower⟩ := digitValue?_some hd
      refine ⟨.pair first second paired, ?_⟩
      rw [List.flatMap_cons, pair_ofNat hHigh hLow, upper, lower, written, dense_digit first,
        dense_digit second]
      rfl

/-- A text with its digits in pairs is read, from wherever it is counted. -/
lemma Paired.decodeFrom (paired : Paired text) :
    ∀ position, ∃ bytes, decodeFrom position text = .ok bytes := by
  induction paired with
  | done => exact fun _ => ⟨[], rfl⟩
  | @blank c text blank _ ih =>
    intro position
    cases text with
    | nil => exact ⟨[], by rw [Hex.decodeFrom, if_pos blank]⟩
    | cons d rest =>
      obtain ⟨bytes, read⟩ := ih (position + 1)
      exact ⟨bytes, by rw [Hex.decodeFrom, if_pos blank, read]⟩
  | @pair c d text first second _ ih =>
    intro position
    obtain ⟨high, hHigh⟩ := digitValue?_of_mem first
    obtain ⟨low, hLow⟩ := digitValue?_of_mem second
    obtain ⟨bytes, read⟩ := ih (position + 2)
    refine ⟨UInt8.ofNat (16 * high + low) :: bytes, ?_⟩
    rw [Hex.decodeFrom, if_neg (by simp [isBlank_of_digit first]), hHigh, hLow, read]
    rfl

/-- What is no blank in a text with its digits in pairs is a digit. -/
lemma Paired.mem_digits (paired : Paired text) (member : c ∈ text) (solid : isBlank c = false) :
    c ∈ digits := by
  induction paired with
  | done => cases member
  | blank blank _ ih =>
    rcases List.mem_cons.1 member with rfl | member
    · exact absurd blank (by simp [solid])
    · exact ih member
  | pair first second _ ih =>
    rcases List.mem_cons.1 member with rfl | member
    · exact first
    rcases List.mem_cons.1 member with rfl | member
    · exact second
    · exact ih member

/-- Paired digits are ASCII characters. -/
lemma Paired.ascii (paired : Paired text) : ∀ c ∈ text, c.toNat < 128 := by
  intro c member
  cases blank : isBlank c with
  | true =>
    simp only [isBlank, Bool.or_eq_true, beq_iff_eq, Bool.and_eq_true, decide_eq_true_eq] at blank
    rcases blank with rfl | ⟨_, bound⟩
    · decide
    · omega
  | false =>
    have small : ∀ c ∈ digits, c.toNat < 128 := List.all_iff_forall_prop.1 (by decide)
    exact small c (paired.mem_digits member blank)

/-- A text with its digits in pairs is read as bytes. -/
lemma Paired.decode {text : String} (paired : Paired text.toList) : ∃ bytes, decode text = .ok bytes := by
  have ascii : text.toList.findIdx? (fun c => 128 ≤ c.toNat) = none := by
    rw [List.findIdx?_eq_none_iff]
    intro c member
    simpa using paired.ascii c member
  rw [Hex.decode, ascii]
  exact paired.decodeFrom 0

/-- The texts that are read as bytes are those with their digits in pairs, which are the digits of the
bytes. -/
lemma decode_ok_iff {text : String} :
    decode text = .ok bytes ↔
      Paired text.toList ∧ (encode bytes).toList = (dense text.toList).map Char.toLower := by
  have told : ∀ {others}, decode text = .ok others →
      Paired text.toList ∧ (encode others).toList = (dense text.toList).map Char.toLower := by
    intro others h
    rw [encode, String.toList_ofList]
    unfold decode at h
    split at h
    case h_1 => cases h
    case h_2 => exact paired_of_decodeFrom h
  refine ⟨told, fun ⟨paired, written⟩ => ?_⟩
  obtain ⟨others, read⟩ := paired.decode
  -- what is read has the same digits, and the digits determine the bytes
  have same : encode others = encode bytes := by
    rw [← String.toList_inj, written, (told read).2]
  rw [read, encode_injective same]

/-- Digits in an even number stand in pairs. -/
lemma Paired.of_digits : ∀ {text : List Char}, (∀ c ∈ text, c ∈ digits) → text.length % 2 = 0 → Paired text
  | [], _, _ => .done
  | [_], _, even => by cases even
  | c :: d :: text, all, even => by
    obtain ⟨first, rest⟩ := List.forall_mem_cons.1 all
    obtain ⟨second, rest⟩ := List.forall_mem_cons.1 rest
    refine .pair first second (of_digits rest ?_)
    simp only [List.length_cons] at even
    omega

end ObjectDepot.Hex
