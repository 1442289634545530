import ObjectDepot.Bytes

/-!
# Hexadecimal text

`encode` writes a byte as two lower-case digits. `decode` reads pairs of digits in either case and
passes over blanks between the pairs, never inside one; where it fails it says at which character.
-/

namespace ObjectDepot.Hex

/-- The digit that stands for a value below sixteen. -/
def digit (value : Nat) : Char :=
  if value < 10 then Char.ofNat ('0'.toNat + value) else Char.ofNat ('a'.toNat + (value - 10))

/-- The value of a digit, in either case. -/
def digitValue? (c : Char) : Option Nat :=
  if '0' ≤ c ∧ c ≤ '9' then some (c.toNat - '0'.toNat)
  else if 'a' ≤ c ∧ c ≤ 'f' then some (c.toNat - 'a'.toNat + 10)
  else if 'A' ≤ c ∧ c ≤ 'F' then some (c.toNat - 'A'.toNat + 10)
  else none

/-- The blanks that may stand between pairs: the space and the five ASCII controls from tab to
carriage return. -/
def isBlank (c : Char) : Bool :=
  c == ' ' || (9 ≤ c.toNat && c.toNat ≤ 13)

/-- The two digits of a byte, the high half first. -/
def pair (byte : UInt8) : List Char :=
  [digit (byte.toNat / 16), digit (byte.toNat % 16)]

/-- The hexadecimal text of a byte string. -/
def encode (bytes : Bytes) : String :=
  String.ofList (bytes.flatMap pair)

/-- Reads pairs from characters of which the first stands at `position`; a failure is the position
of the first character that does not fit, for a digit without its partner the one after it. -/
def decodeFrom (position : Nat) : List Char → Except Nat Bytes
  | [] => .ok []
  | [c] =>
    if isBlank c then .ok []
    else match digitValue? c with
      | none => .error position
      | some _ => .error (position + 1)
  | c :: d :: rest =>
    if isBlank c then decodeFrom (position + 1) (d :: rest)
    else match digitValue? c, digitValue? d with
      | none, _ => .error position
      | some _, none => .error (position + 1)
      | some high, some low =>
        (decodeFrom (position + 2) rest).map (UInt8.ofNat (16 * high + low) :: ·)

/-- Reads a text as bytes. A character outside ASCII is refused before any other. -/
def decode (text : String) : Except Nat Bytes :=
  match text.toList.findIdx? (fun c => 128 ≤ c.toNat) with
  | some position => .error position
  | none => decodeFrom 0 text.toList

end ObjectDepot.Hex
