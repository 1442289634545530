import Mathlib.Data.List.Nodup
import ObjectDepot.Http.Message
import ObjectDepot.Proofs.Hexadecimal
import ObjectDepot.Proofs.Quoting

/-!
# Flat objects in JSON

A string is read back as the text that was written, whatever characters it has (`readString?_write`),
and so is an object whose members are texts under distinct keys, from its bytes (`ofBytes?_toBytes`). How
many bytes these are is counted where the texts are written as they stand (`length_toBytes`).
-/

namespace ObjectDepot

namespace Entries

variable {κ α : Type} [BEq κ] [LawfulBEq κ]

/-- Pairs with distinct keys are kept as they stand. -/
lemma ofList_of_nodup {pairs : List (κ × α)} (distinct : (pairs.map (·.1)).Nodup) :
    ofList pairs = pairs := by
  have grows (front back : List (κ × α)) (distinct : ((front ++ back).map (·.1)).Nodup) :
      back.foldl (fun entries pair => set entries pair.1 pair.2) front = front ++ back := by
    induction back generalizing front with
    | nil => exact (List.append_nil front).symm
    | cons pair back ih =>
      have fresh : front.any (·.1 == pair.1) = false := by
        rw [List.map_append] at distinct
        rw [List.any_eq_false]
        intro entry member same
        exact List.disjoint_of_nodup_append distinct (List.mem_map_of_mem member)
          (beq_iff_eq.1 same ▸ List.mem_cons_self)
      rw [List.foldl_cons, set, fresh]
      simp only [Bool.false_eq_true, if_false]
      rw [ih _ (by simpa using distinct), List.append_assoc, List.singleton_append]
  exact grows [] pairs distinct

end Entries

namespace Utf8

/-- A text is read back from its encoding. -/
lemma decode?_encoded (text : List Char) :
    decode? (text.flatMap String.utf8EncodeChar) = some text := by
  rw [decode?, scan_encoded]
  induction text with
  | nil => rfl
  | cons c text ih =>
    rw [List.map_cons, List.mapM_cons, ih]
    rfl

end Utf8

namespace Utf16

/-- No character is a half of a pair. -/
lemma not_half (c : Char) : isHigh c.toNat = false ∧ isLow c.toNat = false := by
  have valid : c.toNat < 0xd800 ∨ 0xdfff < c.toNat ∧ c.toNat < 0x110000 := c.valid
  simp only [isHigh, isLow, Bool.and_eq_false_iff, decide_eq_false_iff_not]
  omega

/-- A unit that is a character stands for it. -/
lemma scan_char (c : Char) (units : List Nat) : scan (c.toNat :: units) = .ok c :: scan units := by
  obtain ⟨high, low⟩ := not_half c
  cases units with
  | nil => simp [scan, high, low]
  | cons next units => simp [scan, high, low]

/-- The units of a character stand for it. -/
lemma scan_units (c : Char) (rest : List Nat) : scan (units c ++ rest) = .ok c :: scan rest := by
  have valid : c.toNat < 0xd800 ∨ 0xdfff < c.toNat ∧ c.toNat < 0x110000 := c.valid
  rw [units]
  split
  case isTrue small => exact scan_char c rest
  case isFalse large =>
    have high : isHigh (0xd800 + (c.toNat - 0x10000) / 0x400) = true := by
      simp only [isHigh, Bool.and_eq_true, decide_eq_true_eq]
      omega
    have low : isLow (0xdc00 + (c.toNat - 0x10000) % 0x400) = true := by
      simp only [isLow, Bool.and_eq_true, decide_eq_true_eq]
      omega
    have joined : join (0xd800 + (c.toNat - 0x10000) / 0x400) (0xdc00 + (c.toNat - 0x10000) % 0x400) = c := by
      have code : 0x10000 + (0xd800 + (c.toNat - 0x10000) / 0x400 - 0xd800) * 0x400 +
          (0xdc00 + (c.toNat - 0x10000) % 0x400 - 0xdc00) = c.toNat := by omega
      rw [join, code, Char.ofNat_toNat]
    rw [List.cons_append, List.singleton_append, scan, high, low, joined]
    rfl

/-- The units of a text stand for its characters. -/
lemma scan_text (text : List Char) : scan (text.flatMap units) = text.map .ok := by
  induction text with
  | nil => rfl
  | cons c text ih => rw [List.flatMap_cons, scan_units, ih, List.map_cons]

/-- All units of a character have four digits. -/
lemma lt_of_mem_units {c : Char} {unit : Nat} (member : unit ∈ units c) : unit < 0x10000 := by
  have valid : c.toNat < 0xd800 ∨ 0xdfff < c.toNat ∧ c.toNat < 0x110000 := c.valid
  rw [units] at member
  split at member
  case isTrue small => exact List.mem_singleton.1 member ▸ small
  case isFalse large =>
    rcases List.mem_cons.1 member with rfl | member
    · omega
    · rw [List.mem_singleton.1 member]
      omega

end Utf16

namespace Json

/-- The text of the units of characters has these characters. -/
lemma textOfUnits_text (text : List Char) :
    textOfUnits (text.flatMap Utf16.units) = String.ofList text := by
  rw [textOfUnits, Utf16.scan_text, List.map_map]
  exact congrArg String.ofList (List.map_id text)

/-- A unit is read back from its digits. -/
lemma unit?_hexDigits {unit : Nat} (small : unit < 0x10000) :
    ∃ a b c d, Text.hexDigits 4 unit = [a, b, c, d] ∧ unit? a b c d = some unit := by
  refine ⟨_, _, _, _, rfl, ?_⟩
  have digit (value : Nat) : Hex.digitValue? (Hex.digit (value % 16)) = some (value % 16) :=
    Hex.digitValue?_digit (Nat.mod_lt _ (by decide))
  simp only [unit?, digit, Option.bind_eq_bind, Option.bind_some, Option.some.injEq]
  omega

/-- What was written for a unit is read as it. -/
lemma readUnits?_escapeUnit {text rest : List Char} {units : List Nat} {unit : Nat}
    (small : unit < 0x10000) (read : readUnits? text = some (units, rest)) :
    readUnits? (escapeUnit unit ++ text) = some (unit :: units, rest) := by
  obtain ⟨a, b, c, d, digits, value⟩ := unit?_hexDigits small
  simp [escapeUnit, digits, readUnits?, value, read]

/-- What was written for units is read as them. -/
lemma readUnits?_escapeUnits {text rest : List Char} {before units : List Nat}
    (small : ∀ unit ∈ before, unit < 0x10000) (read : readUnits? text = some (units, rest)) :
    readUnits? (before.flatMap escapeUnit ++ text) = some (before ++ units, rest) := by
  induction before with
  | nil => exact read
  | cons unit before ih =>
    obtain ⟨here, later⟩ := List.forall_mem_cons.1 small
    rw [List.flatMap_cons, List.append_assoc]
    exact readUnits?_escapeUnit here (ih later)

/-- A control that has a letter is read back from it. -/
lemma escaped?_controlLetter {c letter : Char} (written : controlLetter? c = some letter) :
    escaped? letter = some c ∧ letter ≠ 'u' := by
  unfold controlLetter? at written
  split at written <;> cases written <;> exact ⟨rfl, by decide⟩

/-- What was written for a character is read as its units. -/
lemma readUnits?_escapeChar {text rest : List Char} {units : List Nat} (c : Char)
    (read : readUnits? text = some (units, rest)) :
    readUnits? (escapeChar c ++ text) = some (Utf16.units c ++ units, rest) := by
  have basic (small : c.toNat < 0x7f) : Utf16.units c = [c.toNat] := if_pos (by omega)
  unfold escapeChar
  split
  case isTrue special =>
    rcases special with rfl | rfl <;> simp [readUnits?, escaped?, read, Utf16.units]
  case isFalse plain =>
    obtain ⟨noQuote, noBackslash⟩ := not_or.1 plain
    split
    case isTrue shown =>
      have bounds : 0x20 ≤ c.toNat ∧ c.toNat ≤ 0x7e := shown
      have printed : ¬ c.toNat < 0x20 := by omega
      rw [basic (by omega)]
      simp [readUnits?, noBackslash, printed, read]
    case isFalse hidden =>
      split
      case h_1 letter written =>
        obtain ⟨back, other⟩ := escaped?_controlLetter written
        have control : c.toNat < 0x7f := by
          unfold controlLetter? at written
          split at written <;> first | decide | cases written
        rw [basic control]
        simp [readUnits?, back, other, read]
      case h_2 => exact readUnits?_escapeUnits (fun _ => Utf16.lt_of_mem_units) read

/-- A string is read back as it was written. -/
lemma readString?_write (text : String) (rest : List Char) :
    readString? (text.toList.flatMap escapeChar ++ '"' :: rest) = some (text, rest) := by
  have units (characters : List Char) :
      readUnits? (characters.flatMap escapeChar ++ '"' :: rest) =
        some (characters.flatMap Utf16.units, rest) := by
    induction characters with
    | nil => rfl
    | cons c characters ih =>
      rw [List.flatMap_cons, List.append_assoc]
      exact readUnits?_escapeChar c ih
  rw [readString?, units, Option.map_some]
  dsimp only
  rw [textOfUnits_text, String.ofList_toList]

/-- Members that are texts. -/
def texts (members : List (String × String)) : Members :=
  members.map fun member => (member.1, .string member.2)

/-- A string that is written starts with its quote. -/
lemma writeString_append (text : String) (rest : List Char) :
    writeString text ++ rest = '"' :: (text.toList.flatMap escapeChar ++ '"' :: rest) := by
  simp [writeString]

/-- Nothing is passed over where no blank stands. -/
lemma skipBlanks_cons {c : Char} (plain : isBlank c = false) (rest : List Char) :
    skipBlanks (c :: rest) = c :: rest := by
  rw [skipBlanks, List.dropWhile_cons_of_neg (by simp [plain])]

/-- One blank is passed over like none. -/
lemma skipBlanks_blank (rest : List Char) : skipBlanks (' ' :: rest) = skipBlanks rest := rfl

/-- After a member that is a text the closing brace or a comma decides. -/
lemma readMembers?_member (fuel : Nat) (key value : String) (after : List Char) :
    readMembers? (fuel + 2) (writeString key ++ ':' :: ' ' :: (writeString value ++ after)) =
      match skipBlanks after with
      | '\x7d' :: rest => some ([(key, .string value)], rest)
      | ',' :: rest => do
        let (pairs, rest) ← readMembers? (fuel + 1) (skipBlanks rest)
        some ((key, .string value) :: pairs, rest)
      | _ => none := by
  rw [writeString_append, readMembers?, readString?_write]
  simp only [Option.bind_eq_bind, Option.bind_some, skipBlanks_cons (c := ':') rfl, skipBlanks_blank]
  rw [writeString_append, skipBlanks_cons (c := '"') rfl, readValue?, readString?_write]
  rfl

/-- A member before the closing brace is the last one. -/
lemma readMembers?_last (fuel : Nat) (key value : String) (rest : List Char) :
    readMembers? (fuel + 2) (writeString key ++ ':' :: ' ' :: (writeString value ++ '\x7d' :: rest)) =
      some ([(key, .string value)], rest) := by
  rw [readMembers?_member, skipBlanks_cons rfl]
  rfl

/-- A member before a comma is followed by others. -/
lemma readMembers?_more {fuel : Nat} {next : String} {after rest : List Char} {pairs : Members}
    (key value : String) (read : readMembers? (fuel + 1) (writeString next ++ after) = some (pairs, rest)) :
    readMembers? (fuel + 2)
        (writeString key ++ ':' :: ' ' :: (writeString value ++ ',' :: ' ' :: (writeString next ++ after))) =
      some ((key, .string value) :: pairs, rest) := by
  have quoted : skipBlanks (writeString next ++ after) = writeString next ++ after := by
    rw [writeString_append, skipBlanks_cons rfl]
  rw [readMembers?_member, skipBlanks_cons rfl]
  change (readMembers? (fuel + 1) (skipBlanks (' ' :: (writeString next ++ after)))).bind _ = _
  rw [skipBlanks_blank, quoted, read]
  rfl

/-- Members are read back as they were written, from the first one on. -/
lemma readMembers?_write {members : List (String × String)} {fuel : Nat} (key value : String)
    (rest : List Char) (enough : members.length ≤ fuel) :
    readMembers? (fuel + 2)
        (writeString key ++ ':' :: ' ' :: (writeString value ++ (writeMembers (texts members) ++ rest))) =
      some (texts ((key, value) :: members), rest) := by
  induction members generalizing fuel key value with
  | nil => exact readMembers?_last fuel key value rest
  | cons member members ih =>
    obtain ⟨fuel, rfl⟩ := Nat.exists_eq_succ_of_ne_zero (Nat.ne_of_gt (Nat.zero_lt_of_lt enough))
    have next : writeMembers (texts (member :: members)) ++ rest =
        ',' :: ' ' :: (writeString member.1 ++ ':' :: ' ' :: (writeString member.2 ++
          (writeMembers (texts members) ++ rest))) := by
      simp [texts, writeMembers, write]
    rw [next]
    exact readMembers?_more key value (ih member.1 member.2 (Nat.le_of_succ_le_succ enough))

/-- Members are written with a character each at least. -/
lemma length_writeMembers (members : List (String × String)) :
    members.length ≤ (writeMembers (texts members)).length := by
  induction members with
  | nil => exact Nat.zero_le _
  | cons member members ih =>
    simp only [texts, List.map_cons, writeMembers, List.length_append, List.length_cons] at ih ⊢
    omega

/-- An object of texts is read back from the characters that it was written as. -/
lemma read?_write {key value : String} {members : List (String × String)}
    (distinct : (((key, value) :: members).map (·.1)).Nodup) :
    read? (write (.object (texts ((key, value) :: members)))) =
      some (.object (texts ((key, value) :: members))) := by
  have written : write (.object (texts ((key, value) :: members))) =
      '\x7b' :: (writeString key ++ ':' :: ' ' :: (writeString value ++
        (writeMembers (texts members) ++ []))) := by
    simp [texts, write]
  have kept : Entries.ofList (texts ((key, value) :: members)) = texts ((key, value) :: members) := by
    refine Entries.ofList_of_nodup ?_
    rwa [texts, List.map_map]
  have quoted (rest : List Char) : skipBlanks (writeString key ++ rest) = writeString key ++ rest := by
    rw [writeString_append, skipBlanks_cons rfl]
  rw [written, read?, skipBlanks_cons rfl]
  generalize long : 2 * List.length _ = length
  obtain ⟨fuel, rfl, enough⟩ : ∃ fuel, length = fuel + 1 ∧ members.length ≤ fuel := by
    have longer := length_writeMembers members
    simp only [List.length_cons, List.length_append] at long
    exact ⟨length - 1, by omega, by omega⟩
  have read : readValue? (fuel + 1 + 2) ('\x7b' :: (writeString key ++
      ':' :: ' ' :: (writeString value ++ (writeMembers (texts members) ++ [])))) =
      some (.object (texts ((key, value) :: members)), []) := by
    rw [readValue?, quoted]
    change (readMembers? (fuel + 2) (writeString key ++ _)).map _ = _
    rw [readMembers?_write key value [] enough, Option.map_some]
    dsimp only
    rw [kept]
  rw [read]
  rfl

/-- A text that starts like an object with members is read as UTF-8. -/
lemma charsOfBytes?_encoded (rest : List Char) :
    charsOfBytes? (('\x7b' :: '"' :: rest).flatMap String.utf8EncodeChar) = some ('\x7b' :: '"' :: rest) := by
  have bytes : ('\x7b' :: '"' :: rest).flatMap String.utf8EncodeChar =
      0x7b :: 0x22 :: rest.flatMap String.utf8EncodeChar := rfl
  have detected : Encoding.detect (('\x7b' :: '"' :: rest).flatMap String.utf8EncodeChar) =
      (.utf8, ('\x7b' :: '"' :: rest).flatMap String.utf8EncodeChar) := by
    rw [bytes]
    rfl
  rw [charsOfBytes?, detected]
  exact Utf8.decode?_encoded _

/-- A text that is written as it stands, with a byte for each character. -/
def IsBare (text : String) : Prop :=
  ∀ c ∈ text.toList, escapeChar c = [c] ∧ c.utf8Size = 1

/-- The digits of bytes are written as they stand. -/
lemma isBare_encode (bytes : Bytes) : IsBare (Hex.encode bytes) := by
  have all : ∀ c ∈ Hex.digits, escapeChar c = [c] ∧ c.utf8Size = 1 :=
    List.all_iff_forall_prop.1 (by decide)
  exact fun c member => all c (Hex.mem_encode member)

/-- A text that is written as it stands has two more bytes than characters, for its quotes. -/
lemma length_writeString {text : String} (bare : IsBare text) :
    ((writeString text).flatMap String.utf8EncodeChar).length = text.length + 2 := by
  have plain (characters : List Char) (bare : ∀ c ∈ characters, escapeChar c = [c] ∧ c.utf8Size = 1) :
      ((characters.flatMap escapeChar).flatMap String.utf8EncodeChar).length = characters.length := by
    induction characters with
    | nil => rfl
    | cons c characters ih =>
      obtain ⟨⟨same, size⟩, others⟩ := List.forall_mem_cons.1 bare
      rw [List.flatMap_cons, same, List.singleton_append, List.flatMap_cons, List.length_append, ih others,
        String.length_utf8EncodeChar, size, List.length_cons, Nat.add_comm]
  have quote : String.utf8EncodeChar '"' = [0x22] := rfl
  rw [writeString, List.cons_append, List.flatMap_cons, List.flatMap_append, List.flatMap_singleton, quote,
    List.length_append, List.length_append, plain _ bare, String.length_toList]
  simp only [List.length_singleton]
  omega

/-- How many bytes an object of two texts has that are written as they stand. -/
lemma length_toBytes {key key' value value' : String} (bare : IsBare key ∧ IsBare value)
    (bare' : IsBare key' ∧ IsBare value') :
    (toBytes (.object (texts [(key, value), (key', value')]))).length =
      key.length + value.length + key'.length + value'.length + 16 := by
  have written : write (.object (texts [(key, value), (key', value')])) =
      ['\x7b'] ++ writeString key ++ [':', ' '] ++ writeString value ++ [',', ' '] ++
        writeString key' ++ [':', ' '] ++ writeString value' ++ ['\x7d'] := by
    simp [texts, write, writeMembers]
  have opening : (['\x7b'].flatMap String.utf8EncodeChar).length = 1 := rfl
  have colon : ([':', ' '].flatMap String.utf8EncodeChar).length = 2 := rfl
  have comma : ([',', ' '].flatMap String.utf8EncodeChar).length = 2 := rfl
  have closing : (['\x7d'].flatMap String.utf8EncodeChar).length = 1 := rfl
  rw [toBytes, written]
  simp only [List.flatMap_append, List.length_append, length_writeString bare.1, length_writeString bare.2,
    length_writeString bare'.1, length_writeString bare'.2, opening, colon, comma, closing]
  omega

/-- An object of texts is read back from its bytes. -/
lemma ofBytes?_toBytes {key value : String} {members : List (String × String)}
    (distinct : (((key, value) :: members).map (·.1)).Nodup) :
    ofBytes? (toBytes (.object (texts ((key, value) :: members)))) =
      some (.object (texts ((key, value) :: members))) := by
  obtain ⟨rest, starts⟩ : ∃ rest, write (.object (texts ((key, value) :: members))) =
    '\x7b' :: '"' :: rest := ⟨_, rfl⟩
  have decoded : charsOfBytes? (toBytes (.object (texts ((key, value) :: members)))) =
      some (write (.object (texts ((key, value) :: members)))) := by
    rw [toBytes, starts, charsOfBytes?_encoded]
  rw [ofBytes?, decoded, Option.bind_some, read?_write distinct]

end Json

namespace Http

/-- The members of a body that is an object of texts are these texts, if it is not too long to be read. -/
lemma Request.members_of_texts {request : Request} {key value : String} {members : List (String × String)}
    (body : request.body = Json.toBytes (.object (Json.texts ((key, value) :: members))))
    (distinct : (((key, value) :: members).map (·.1)).Nodup) (short : request.tooLong = false) :
    request.members = .ok (Json.texts ((key, value) :: members)) := by
  have full : request.body.isEmpty = false := by
    rw [body]
    rfl
  rw [Request.members, short, full, body, Json.ofBytes?_toBytes distinct]
  rfl

end Http

end ObjectDepot
