import ObjectDepot.Codec.Percent
import ObjectDepot.Proofs.Hexadecimal

/-!
# Texts and their quoted forms

Text `StandsFor` another if it is read as that wherever it occurs in a target. So does the quoted form
of a text (`StandsFor.quote`), and what stands for a text is read back as it (`StandsFor.unquote`),
since the characters of a text are found again in its UTF-8 form (`Utf8.scan_encoded`). Bytes in which
they are found are that form (`Utf8.encoded_of_scan`).
-/

namespace ObjectDepot

namespace Utf8

/-- The character at the start of an encoding is found, whatever follows it. -/
lemma first?_encoded (c : Char) (rest : Bytes) : first? (String.utf8EncodeChar c ++ rest) = some c := by
  have short : (String.utf8EncodeChar c).length ≤ 4 := by
    rw [String.length_utf8EncodeChar]
    exact c.utf8Size_le_four
  rw [first?, List.take_append, List.take_of_length_le short, List.toByteArray_append]
  exact ByteArray.utf8DecodeChar?_utf8EncodeChar_append

/-- Bytes that are part of a character are passed over. -/
lemma scanFrom_skip (bytes rest : Bytes) : scanFrom bytes.length (bytes ++ rest) = scan rest := by
  induction bytes with
  | nil => rfl
  | cons byte bytes ih => exact ih

/-- The encoding of a character is found as it in front of anything else. -/
lemma scan_encoded_append (c : Char) (rest : Bytes) :
    scan (String.utf8EncodeChar c ++ rest) = .ok c :: scan rest := by
  have found := first?_encoded c rest
  have size := String.length_utf8EncodeChar c
  cases encoded : String.utf8EncodeChar c with
  | nil =>
    -- every character has at least one byte
    rw [encoded] at size
    exact absurd size (Nat.ne_of_lt c.utf8Size_pos)
  | cons byte others =>
    rw [encoded] at found size
    have left : c.utf8Size - 1 = others.length := by
      rw [← size, List.length_cons, Nat.add_sub_cancel]
    rw [List.cons_append] at found ⊢
    rw [scan, scanFrom, found]
    dsimp only
    rw [left, scanFrom_skip]

/-- A text is found again in its encoding, and nothing else is. -/
lemma scan_encoded (text : List Char) : scan (text.flatMap String.utf8EncodeChar) = text.map .ok := by
  induction text with
  | nil => rfl
  | cons c text ih => rw [List.flatMap_cons, scan_encoded_append, ih, List.map_cons]

/-- A character that is found at the start of bytes is encoded there. -/
lemma encoded_of_first? {bytes : Bytes} {c : Char} (found : first? bytes = some c) :
    ∃ rest, bytes = String.utf8EncodeChar c ++ rest := by
  obtain ⟨tail, same⟩ := ByteArray.exists_of_utf8DecodeChar?_eq_some found
  have front : bytes.take 4 = String.utf8EncodeChar c ++ tail.data.toList := by
    have data := congrArg (fun bytes => bytes.data.toList) same
    simpa using data
  exact ⟨tail.data.toList ++ bytes.drop 4, by
    rw [← List.append_assoc, ← front, List.take_append_drop]⟩

/-- Bytes in which nothing but the characters of a text is found are its encoding. -/
lemma encoded_of_scan {bytes : Bytes} {text : List Char} (found : scan bytes = text.map .ok) :
    bytes = text.flatMap String.utf8EncodeChar := by
  induction text generalizing bytes with
  | nil =>
    cases bytes with
    | nil => rfl
    | cons byte bytes =>
      -- a byte is found as a character or as a stray byte
      rw [scan, scanFrom] at found
      split at found <;> cases found
  | cons c text ih =>
    cases bytes with
    | nil => cases found
    | cons byte bytes =>
      cases first : first? (byte :: bytes) with
      | none =>
        rw [scan, scanFrom, first] at found
        cases found
      | some d =>
        obtain ⟨rest, split⟩ := encoded_of_first? first
        rw [split, scan_encoded_append, List.map_cons] at found
        obtain ⟨same, later⟩ := List.cons.inj found
        cases same
        rw [split, ih later, List.flatMap_cons]

/-- What is scanned is a text if it is nothing but characters. -/
lemma mapM_toOption_iff {found : List (Except UInt8 Char)} {text : List Char} :
    found.mapM Except.toOption = some text ↔ found = text.map .ok := by
  induction found generalizing text with
  | nil => cases text <;> simp
  | cons item found ih =>
    cases item with
    | error byte =>
      cases text <;> simp [Except.toOption]
    | ok c =>
      cases text with
      | nil => simp [Except.toOption, Option.bind_eq_some_iff]
      | cons d text =>
        simp only [List.mapM_cons, Except.toOption, Option.pure_def, Option.bind_eq_bind,
          Option.bind_some, Option.bind_eq_some_iff, ih, Option.some.injEq, List.cons.injEq,
          exists_eq_right_right, List.map_cons, Except.ok.injEq]
        exact and_comm

/-- Bytes are read as a text if they are its encoding. -/
lemma decode?_eq_some_iff {bytes : Bytes} {text : List Char} :
    decode? bytes = some text ↔ bytes = text.flatMap String.utf8EncodeChar := by
  rw [decode?, mapM_toOption_iff]
  constructor
  · exact encoded_of_scan
  · rintro rfl
    exact scan_encoded text

end Utf8

namespace Percent

/-- An escape stands for its byte. -/
lemma unquoteBytes_escape (byte : UInt8) (rest : List Char) :
    unquoteBytes (escape byte ++ rest) = byte :: unquoteBytes rest := by
  have high := Hex.digitValue?_toUpper (Hex.high_lt byte)
  have low := Hex.digitValue?_toUpper (Hex.low_lt byte)
  simp only [escape, Hex.pair, List.map_cons, List.map_nil, List.cons_append, List.nil_append,
    unquoteBytes, high, low, Hex.ofNat_halves]

/-- Escapes stand for their bytes. -/
lemma unquoteBytes_escapes (bytes : Bytes) (rest : List Char) :
    unquoteBytes (bytes.flatMap escape ++ rest) = bytes ++ unquoteBytes rest := by
  induction bytes with
  | nil => rfl
  | cons byte bytes ih =>
    rw [List.flatMap_cons, List.append_assoc, unquoteBytes_escape, ih, List.cons_append]

/-- A character that is no percent sign stands for its encoding. -/
lemma unquoteBytes_cons {c : Char} (plain : c ≠ '%') (rest : List Char) :
    unquoteBytes (c :: rest) = String.utf8EncodeChar c ++ unquoteBytes rest := by
  rw [unquoteBytes]
  rintro _ _ _ rfl
  exact absurd rfl plain

/-- A quoted text is read as a text wherever it occurs. -/
def StandsFor (quoted text : List Char) : Prop :=
  ∀ rest, unquoteBytes (quoted ++ rest) = text.flatMap String.utf8EncodeChar ++ unquoteBytes rest

namespace StandsFor

variable {quoted quoted' text text' : List Char}

/-- Nothing stands for nothing. -/
lemma nil : StandsFor [] [] := fun _ => rfl

/-- Quoted texts in a row stand for the texts in a row. -/
lemma append (first : StandsFor quoted text) (second : StandsFor quoted' text') :
    StandsFor (quoted ++ quoted') (text ++ text') := by
  intro rest
  rw [List.append_assoc, first, second, List.flatMap_append, List.append_assoc]

/-- A character that is no percent sign stands for itself. -/
lemma char {c : Char} (plain : c ≠ '%') : StandsFor [c] [c] := by
  intro rest
  rw [List.singleton_append, unquoteBytes_cons plain, List.flatMap_singleton]

/-- The escapes of a character stand for it. -/
lemma escaped (c : Char) : StandsFor ((String.utf8EncodeChar c).flatMap escape) [c] := by
  intro rest
  rw [unquoteBytes_escapes, List.flatMap_singleton]

/-- What is quoted character by character stands for the text. -/
lemma flatMap {f : Char → List Char} (each : ∀ c ∈ text, StandsFor (f c) [c]) :
    StandsFor (text.flatMap f) text := by
  induction text with
  | nil => exact nil
  | cons c text ih =>
    obtain ⟨here, later⟩ := List.forall_mem_cons.1 each
    exact here.append (ih later)

/-- A text without a percent sign stands for itself. -/
lemma plain (unsigned : '%' ∉ text) : StandsFor text text := by
  have each : ∀ c ∈ text, StandsFor [c] [c] := fun c member =>
    char fun sign => unsigned (sign ▸ member)
  simpa using flatMap each

/-- The quoted form of a text stands for it, if the percent sign is among what is quoted. -/
lemma quote {safe : List Char} (quotedSign : '%' ∉ safe) (text : String) :
    StandsFor (Percent.quote safe text).toList text.toList := by
  rw [Percent.quote, String.toList_ofList]
  refine flatMap fun c _ => ?_
  split
  case isFalse => exact escaped c
  case isTrue kept =>
    refine char ?_
    rintro rfl
    rcases Bool.or_eq_true_iff.1 kept with unreserved | given
    · exact absurd unreserved (by decide)
    · exact quotedSign (by simpa using given)

/-- What stands for a text is read back as it. -/
lemma unquote (stands : StandsFor quoted text) : Percent.unquote quoted = text := by
  have bytes : unquoteBytes quoted = text.flatMap String.utf8EncodeChar := by
    simpa [unquoteBytes] using stands []
  rw [Percent.unquote, bytes, Utf8.scan_encoded, List.flatMap_map]
  exact List.flatMap_singleton' text

end StandsFor

/-- The characters that quoted texts are made of. -/
def isQuoting (safe : List Char) (c : Char) : Bool :=
  isUnreserved c || c == '%' || safe.contains c

/-- The digits of escapes need no quoting. -/
lemma isUnreserved_digit {value : Nat} (small : value < 16) :
    isUnreserved (Hex.digit value).toUpper := by
  have all : ∀ value : Fin 16, isUnreserved (Hex.digit value).toUpper := by decide
  exact all ⟨value, small⟩

/-- Escapes are made of percent signs and digits. -/
lemma isQuoting_escape {safe : List Char} {byte : UInt8} {c : Char} (member : c ∈ escape byte) :
    isQuoting safe c := by
  have high := isUnreserved_digit (Hex.high_lt byte)
  have low := isUnreserved_digit (Hex.low_lt byte)
  simp only [escape, Hex.pair, List.map_cons, List.map_nil, List.mem_cons, List.not_mem_nil,
    or_false] at member
  rcases member with rfl | rfl | rfl
  · simp [isQuoting]
  · simp [isQuoting, high]
  · simp [isQuoting, low]

/-- A quoted text is made of such characters, unreserved ones and those that stay as they are. -/
lemma isQuoting_quote {safe : List Char} {text : String} {c : Char}
    (member : c ∈ (quote safe text).toList) : isQuoting safe c := by
  rw [quote, String.toList_ofList] at member
  obtain ⟨source, _, member⟩ := List.mem_flatMap.1 member
  split at member
  case isTrue kept =>
    obtain rfl := List.mem_singleton.1 member
    rcases Bool.or_eq_true_iff.1 kept with unreserved | given
    · simp only [isQuoting, unreserved, Bool.true_or]
    · simp only [isQuoting, given, Bool.or_true]
  case isFalse =>
    obtain ⟨byte, _, member⟩ := List.mem_flatMap.1 member
    exact isQuoting_escape member

end Percent

end ObjectDepot
