import Mathlib.Tactic.Lemma
import ObjectDepot.Codec.Base64

/-!
# Base64, strict and lenient

Bytes are read back from their digits, whatever their number (`decode?_encodeChars`). Of all other
texts `Reads` tells which are read, and as which bytes; `decode?_iff` says that the reader accepts
exactly these once the characters that are neither digits nor padding are dropped.
-/

namespace ObjectDepot.Base64

variable {c : Char} {value bits pads : Nat} {rest text : List Char} {bytes : Bytes} {position : Position}

/-! ## Steps of the reader -/

/-- Padding is no digit. -/
lemma ne_padding (known : digitValue? c = some value) : c ≠ '=' := by
  have none : digitValue? '=' = none := by decide
  rintro rfl
  cases none.symm.trans known

/-- The first digit of a group is kept. -/
lemma decodeFrom_start (known : digitValue? c = some value) :
    decodeFrom .start pads (c :: rest) = decodeFrom (.afterOne value) 0 rest := by
  simp only [decodeFrom, if_neg (ne_padding known), known]

/-- The second digit completes the first byte. -/
lemma decodeFrom_afterOne (known : digitValue? c = some value) :
    decodeFrom (.afterOne bits) pads (c :: rest) =
      (decodeFrom (.afterTwo (value % 16)) 0 rest).map (UInt8.ofNat (bits * 4 + value / 16) :: ·) := by
  simp only [decodeFrom, if_neg (ne_padding known), known]

/-- The third digit completes the second byte. -/
lemma decodeFrom_afterTwo (known : digitValue? c = some value) :
    decodeFrom (.afterTwo bits) pads (c :: rest) =
      (decodeFrom (.afterThree (value % 4)) 0 rest).map (UInt8.ofNat (bits * 16 + value / 4) :: ·) := by
  simp only [decodeFrom, if_neg (ne_padding known), known]

/-- The fourth digit completes the third byte and the group. -/
lemma decodeFrom_afterThree (known : digitValue? c = some value) :
    decodeFrom (.afterThree bits) pads (c :: rest) =
      (decodeFrom .start 0 rest).map (UInt8.ofNat (bits * 64 + value) :: ·) := by
  simp only [decodeFrom, if_neg (ne_padding known), known]

/-- In the first two places of a group padding is passed over. -/
lemma decodeFrom_marks (early : ∀ seen, position.completes seen = false) (count : Nat) :
    decodeFrom position pads (List.replicate count '=' ++ rest) = decodeFrom position pads rest := by
  induction count with
  | zero => rfl
  | succ count ih =>
    cases position with
    | afterTwo => cases early 1
    | _ => simp only [List.replicate_succ, List.cons_append, decodeFrom, if_pos, early, Bool.false_eq_true,
        if_false, ih]

/-- In the third place one padding mark is passed over. -/
lemma decodeFrom_mark {count : Nat} (single : count ≤ 1) (bits : Nat) (rest : List Char) :
    ∃ pads, decodeFrom (.afterTwo bits) 0 (List.replicate count '=' ++ rest) =
      decodeFrom (.afterTwo bits) pads rest := by
  obtain rfl | rfl : count = 0 ∨ count = 1 := by omega
  · exact ⟨0, rfl⟩
  · exact ⟨1, rfl⟩

/-! ## What is written is read back -/

/-- A digit is a character of ASCII, and read back as its value. -/
lemma digit_spec (small : value < 64) :
    (digit value).toNat < 128 ∧ digitValue? (digit value) = some value := by
  have all : ∀ value : Fin 64, (digit value).toNat < 128 ∧ digitValue? (digit value) = some value.val := by
    decide
  exact all ⟨value, small⟩

/-- A digit is read back as its value. -/
lemma digitValue?_digit (small : value < 64) : digitValue? (digit value) = some value :=
  (digit_spec small).2

/-- A byte is put together from the parts that its digits carry. -/
lemma ofNat_parts {byte : UInt8} {number : Nat} (same : number = byte.toNat) : UInt8.ofNat number = byte := by
  rw [same, UInt8.ofNat_toNat]

/-- A byte string is read back from its digits. -/
lemma decode?_encodeChars (bytes : Bytes) : decode? (encodeChars bytes) = some bytes := by
  unfold decode?
  fun_induction encodeChars bytes with
  | case1 => rfl
  | case2 a =>
    have ha : a.toNat < 256 := a.toNat_lt
    rw [decodeFrom_start (digitValue?_digit (by omega)), decodeFrom_afterOne (digitValue?_digit (by omega))]
    have first : UInt8.ofNat (a.toNat / 4 * 4 + a.toNat % 4 * 16 / 16) = a := ofNat_parts (by omega)
    rw [first]
    rfl
  | case3 a b =>
    have ha : a.toNat < 256 := a.toNat_lt
    have hb : b.toNat < 256 := b.toNat_lt
    rw [decodeFrom_start (digitValue?_digit (by omega)), decodeFrom_afterOne (digitValue?_digit (by omega)),
      decodeFrom_afterTwo (digitValue?_digit (by omega))]
    have first : UInt8.ofNat (a.toNat / 4 * 4 + (a.toNat % 4 * 16 + b.toNat / 16) / 16) = a :=
      ofNat_parts (by omega)
    have second : UInt8.ofNat ((a.toNat % 4 * 16 + b.toNat / 16) % 16 * 16 + b.toNat % 16 * 4 / 4) = b :=
      ofNat_parts (by omega)
    rw [first, second]
    rfl
  | case4 a b c rest ih =>
    have ha : a.toNat < 256 := a.toNat_lt
    have hb : b.toNat < 256 := b.toNat_lt
    have hc : c.toNat < 256 := c.toNat_lt
    rw [decodeFrom_start (digitValue?_digit (by omega)), decodeFrom_afterOne (digitValue?_digit (by omega)),
      decodeFrom_afterTwo (digitValue?_digit (by omega)),
      decodeFrom_afterThree (digitValue?_digit (by omega)), ih]
    have first : UInt8.ofNat (a.toNat / 4 * 4 + (a.toNat % 4 * 16 + b.toNat / 16) / 16) = a :=
      ofNat_parts (by omega)
    have second : UInt8.ofNat ((a.toNat % 4 * 16 + b.toNat / 16) % 16 * 16 +
      (b.toNat % 16 * 4 + c.toNat / 64) / 4) = b := ofNat_parts (by omega)
    have third : UInt8.ofNat ((b.toNat % 16 * 4 + c.toNat / 64) % 4 * 64 + c.toNat % 64) = c :=
      ofNat_parts (by omega)
    rw [first, second, third]
    rfl

/-- What is encoded is in ASCII. -/
lemma ascii_encodeChars (bytes : Bytes) : ∀ c ∈ encodeChars bytes, c.toNat < 128 := by
  have ascii : ∀ {value : Nat}, value < 64 → (digit value).toNat < 128 := fun small =>
    (digit_spec small).1
  fun_induction encodeChars bytes with
  | case1 => exact nofun
  | case2 a =>
    have ha : a.toNat < 256 := a.toNat_lt
    simp only [List.forall_mem_cons]
    exact ⟨ascii (by omega), ascii (by omega), by decide, by decide, nofun⟩
  | case3 a b =>
    have ha : a.toNat < 256 := a.toNat_lt
    have hb : b.toNat < 256 := b.toNat_lt
    simp only [List.forall_mem_cons]
    exact ⟨ascii (by omega), ascii (by omega), ascii (by omega), by decide, nofun⟩
  | case4 a b c rest ih =>
    have ha : a.toNat < 256 := a.toNat_lt
    have hb : b.toNat < 256 := b.toNat_lt
    have hc : c.toNat < 256 := c.toNat_lt
    simp only [List.forall_mem_cons]
    exact ⟨ascii (by omega), ascii (by omega), ascii (by omega), ascii (by omega), ih⟩

/-! ## What is read -/

/-- A character that counts: a digit or padding. -/
def counts (c : Char) : Bool :=
  c = '=' ∨ (digitValue? c).isSome

/-- How a text of digits and padding is read. The digits stand in groups of four with padding passed over
before each, but a second mark in the third place of a group completes it, and so does a first one in the
fourth place; what follows then does not matter. -/
inductive Reads : List Char → Bytes → Prop where
  | done {marks : Nat} :
    Reads (List.replicate marks '=') []
  | one {a b : Char} {i j x y : Nat} {rest : List Char} :
    digitValue? a = some x →
    digitValue? b = some y →
    Reads (List.replicate i '=' ++ a :: (List.replicate j '=' ++ b :: '=' :: '=' :: rest))
      [UInt8.ofNat (x * 4 + y / 16)]
  | two {a b c : Char} {i j k x y z : Nat} {rest : List Char} :
    digitValue? a = some x →
    digitValue? b = some y →
    k ≤ 1 →
    digitValue? c = some z →
    Reads (List.replicate i '=' ++ a :: (List.replicate j '=' ++ b ::
        (List.replicate k '=' ++ c :: '=' :: rest)))
      [UInt8.ofNat (x * 4 + y / 16), UInt8.ofNat (y % 16 * 16 + z / 4)]
  | three {a b c d : Char} {i j k x y z w : Nat} {rest : List Char} {bytes : Bytes} :
    digitValue? a = some x →
    digitValue? b = some y →
    k ≤ 1 →
    digitValue? c = some z →
    digitValue? d = some w →
    Reads rest bytes →
    Reads (List.replicate i '=' ++ a :: (List.replicate j '=' ++ b ::
        (List.replicate k '=' ++ c :: d :: rest)))
      (UInt8.ofNat (x * 4 + y / 16) :: UInt8.ofNat (y % 16 * 16 + z / 4) ::
        UInt8.ofNat (z % 4 * 64 + w) :: bytes)

/-- What does not count is passed over. -/
lemma decodeFrom_filter (text : List Char) :
    decodeFrom position pads (text.filter counts) = decodeFrom position pads text := by
  induction text generalizing position pads with
  | nil => rfl
  | cons c text ih =>
    by_cases counted : counts c
    · simp only [List.filter_cons_of_pos counted, decodeFrom, ih]
    · have foreign : c ≠ '=' ∧ digitValue? c = none := by simpa [counts] using counted
      simp only [List.filter_cons_of_neg counted, decodeFrom, if_neg foreign.1, foreign.2, ih]

/-- What follows the grammar is read. -/
lemma Reads.decodeFrom (reads : Reads text bytes) : decodeFrom .start pads text = some bytes := by
  have start : ∀ seen, Position.start.completes seen = false := fun _ => rfl
  have afterOne : ∀ bits seen, (Position.afterOne bits).completes seen = false := fun _ _ => rfl
  induction reads generalizing pads with
  | @done marks =>
    rw [← List.append_nil (List.replicate marks '='), decodeFrom_marks start]
    rfl
  | one first second =>
    rw [decodeFrom_marks start, decodeFrom_start first, decodeFrom_marks (afterOne _),
      decodeFrom_afterOne second]
    rfl
  | @two _ _ c _ _ k _ y _ rest first second single third =>
    obtain ⟨seen, same⟩ := decodeFrom_mark single (y % 16) (c :: '=' :: rest)
    rw [decodeFrom_marks start, decodeFrom_start first, decodeFrom_marks (afterOne _),
      decodeFrom_afterOne second, same, decodeFrom_afterTwo third]
    rfl
  | @three _ _ c d _ _ k _ y _ _ rest _ first second single third fourth _ ih =>
    obtain ⟨seen, same⟩ := decodeFrom_mark single (y % 16) (c :: d :: rest)
    rw [decodeFrom_marks start, decodeFrom_start first, decodeFrom_marks (afterOne _),
      decodeFrom_afterOne second, same, decodeFrom_afterTwo third, decodeFrom_afterThree fourth, ih]
    rfl

/-- Text that counts is padding up to its first digit. -/
lemma marks_or_digit (text : List Char) (counted : ∀ c ∈ text, counts c) :
    ∃ marks, text = List.replicate marks '=' ∨ ∃ c value rest, digitValue? c = some value ∧
      (∀ c ∈ rest, counts c) ∧ text = List.replicate marks '=' ++ c :: rest := by
  induction text with
  | nil => exact ⟨0, .inl rfl⟩
  | cons c text ih =>
    obtain ⟨here, others⟩ := List.forall_mem_cons.1 counted
    cases known : digitValue? c with
    | some value => exact ⟨0, .inr ⟨c, value, text, known, others, rfl⟩⟩
    | none =>
      have mark : c = '=' := by simpa [counts, known] using here
      subst mark
      obtain ⟨marks, rfl | ⟨c, value, rest, known, later, rfl⟩⟩ := ih others
      · exact ⟨marks + 1, .inl rfl⟩
      · exact ⟨marks + 1, .inr ⟨c, value, rest, known, later, rfl⟩⟩

/-- In the first place of a group the text may end. -/
lemma start_inv (counted : ∀ c ∈ text, counts c) (read : decodeFrom .start pads text = some bytes) :
    ∃ marks, text = List.replicate marks '=' ∧ bytes = [] ∨ ∃ c value rest,
      text = List.replicate marks '=' ++ c :: rest ∧ digitValue? c = some value ∧
      (∀ c ∈ rest, counts c) ∧ decodeFrom (.afterOne value) 0 rest = some bytes := by
  obtain ⟨marks, rfl | ⟨c, value, rest, known, others, rfl⟩⟩ := marks_or_digit text counted
  · rw [← List.append_nil (List.replicate marks '='), decodeFrom_marks fun _ => rfl] at read
    exact ⟨marks, .inl ⟨rfl, (Option.some.inj read).symm⟩⟩
  · rw [decodeFrom_marks fun _ => rfl, decodeFrom_start known] at read
    exact ⟨marks, .inr ⟨c, value, rest, rfl, known, others, read⟩⟩

/-- In the second place of a group there is a digit. -/
lemma afterOne_inv (counted : ∀ c ∈ text, counts c)
    (read : decodeFrom (.afterOne bits) pads text = some bytes) :
    ∃ marks c value rest later, text = List.replicate marks '=' ++ c :: rest ∧
      digitValue? c = some value ∧ (∀ c ∈ rest, counts c) ∧
      decodeFrom (.afterTwo (value % 16)) 0 rest = some later ∧
      bytes = UInt8.ofNat (bits * 4 + value / 16) :: later := by
  obtain ⟨marks, rfl | ⟨c, value, rest, known, others, rfl⟩⟩ := marks_or_digit text counted
  · rw [← List.append_nil (List.replicate marks '='), decodeFrom_marks fun _ => rfl] at read
    cases read
  · rw [decodeFrom_marks fun _ => rfl, decodeFrom_afterOne known, Option.map_eq_some_iff] at read
    obtain ⟨later, read, rfl⟩ := read
    exact ⟨marks, c, value, rest, later, rfl, known, others, read, rfl⟩

/-- In the third place of a group there are two padding marks, or a digit after at most one. -/
lemma afterTwo_inv (counted : ∀ c ∈ text, counts c)
    (read : decodeFrom (.afterTwo bits) 0 text = some bytes) :
    (∃ rest, text = '=' :: '=' :: rest ∧ bytes = []) ∨ ∃ marks c value rest later, marks ≤ 1 ∧
      text = List.replicate marks '=' ++ c :: rest ∧ digitValue? c = some value ∧ (∀ c ∈ rest, counts c) ∧
      decodeFrom (.afterThree (value % 4)) 0 rest = some later ∧
      bytes = UInt8.ofNat (bits * 16 + value / 4) :: later := by
  obtain ⟨marks, shape⟩ := marks_or_digit text counted
  by_cases many : 2 ≤ marks
  · obtain ⟨marks, rfl⟩ := Nat.exists_eq_add_of_le' many
    rcases shape with rfl | ⟨c, value, rest, _, _, rfl⟩
    · exact .inl ⟨_, rfl, (Option.some.inj read).symm⟩
    · exact .inl ⟨_, rfl, (Option.some.inj read).symm⟩
  · have single : marks ≤ 1 := by omega
    rcases shape with rfl | ⟨c, value, rest, known, others, rfl⟩
    · obtain ⟨seen, same⟩ := decodeFrom_mark single bits []
      rw [← List.append_nil (List.replicate marks '='), same] at read
      cases read
    · obtain ⟨seen, same⟩ := decodeFrom_mark single bits (c :: rest)
      rw [same, decodeFrom_afterTwo known, Option.map_eq_some_iff] at read
      obtain ⟨later, read, rfl⟩ := read
      exact .inr ⟨marks, c, value, rest, later, single, rfl, known, others, read, rfl⟩

/-- In the fourth place of a group there is padding or a digit. -/
lemma afterThree_inv (counted : ∀ c ∈ text, counts c)
    (read : decodeFrom (.afterThree bits) pads text = some bytes) :
    (∃ rest, text = '=' :: rest ∧ bytes = []) ∨ ∃ c value rest later,
      text = c :: rest ∧ digitValue? c = some value ∧ (∀ c ∈ rest, counts c) ∧
      decodeFrom .start 0 rest = some later ∧ bytes = UInt8.ofNat (bits * 64 + value) :: later := by
  obtain ⟨_ | marks, rfl | ⟨c, value, rest, known, others, rfl⟩⟩ := marks_or_digit text counted
  · cases read
  · rw [List.replicate_zero, List.nil_append, decodeFrom_afterThree known, Option.map_eq_some_iff] at read
    obtain ⟨later, read, rfl⟩ := read
    exact .inr ⟨c, value, rest, later, rfl, known, others, read, rfl⟩
  · exact .inl ⟨_, rfl, (Option.some.inj read).symm⟩
  · exact .inl ⟨_, rfl, (Option.some.inj read).symm⟩

/-- What is read follows the grammar. A group is taken apart place by place, and what is left is shorter. -/
lemma reads_of_decodeFrom {pads : Nat} {text : List Char} {bytes : Bytes} (counted : ∀ c ∈ text, counts c)
    (read : decodeFrom .start pads text = some bytes) : Reads text bytes := by
  obtain ⟨i, ⟨rfl, rfl⟩ | ⟨a, x, rest₁, e₁, first, counted₁, read₁⟩⟩ := start_inv counted read
  · exact .done
  obtain ⟨j, b, y, rest₂, bytes₂, e₂, second, counted₂, read₂, same₂⟩ := afterOne_inv counted₁ read₁
  obtain ⟨_, e₃, same₃⟩ | ⟨k, c, z, rest₃, bytes₃, single, e₃, third, counted₃, read₃, same₃⟩ :=
    afterTwo_inv counted₂ read₂
  · subst_vars
    exact .one first second
  obtain ⟨_, e₄, same₄⟩ | ⟨d, w, rest₄, bytes₄, e₄, fourth, counted₄, read₄, same₄⟩ :=
    afterThree_inv counted₃ read₃
  · subst_vars
    exact .two first second single third
  have later : Reads rest₄ bytes₄ := reads_of_decodeFrom counted₄ read₄
  subst_vars
  exact .three first second single third fourth later
termination_by text.length
decreasing_by
  subst_vars
  simp only [List.length_append, List.length_cons]
  omega

/-- The reader accepts a text if its digits and padding are read. -/
lemma decode?_iff : decode? text = some bytes ↔ Reads (text.filter counts) bytes := by
  rw [decode?, ← decodeFrom_filter]
  exact ⟨reads_of_decodeFrom fun _ member => (List.mem_filter.1 member).2, Reads.decodeFrom⟩

end ObjectDepot.Base64
