import ObjectDepot.Bytes

/-!
# Base64

`encode` is the standard encoding with padding. `decode?` is a lenient reader: it passes over every
character outside the alphabet, stops at the padding that completes a group, and fails only when
the text ends inside a group.
-/

namespace ObjectDepot.Base64

/-- The digit for a value below sixty-four. -/
def digit (value : Nat) : Char :=
  if value < 26 then Char.ofNat ('A'.toNat + value)
  else if value < 52 then Char.ofNat ('a'.toNat + (value - 26))
  else if value < 62 then Char.ofNat ('0'.toNat + (value - 52))
  else if value = 62 then '+'
  else '/'

/-- The value of a digit. -/
def digitValue? (c : Char) : Option Nat :=
  if 'A' ≤ c ∧ c ≤ 'Z' then some (c.toNat - 'A'.toNat)
  else if 'a' ≤ c ∧ c ≤ 'z' then some (c.toNat - 'a'.toNat + 26)
  else if '0' ≤ c ∧ c ≤ '9' then some (c.toNat - '0'.toNat + 52)
  else if c = '+' then some 62
  else if c = '/' then some 63
  else none

/-- The digits of a byte string: four for every three bytes, the last group filled up with `=`. -/
def encodeChars : Bytes → List Char
  | [] => []
  | [a] => [digit (a.toNat / 4), digit (a.toNat % 4 * 16), '=', '=']
  | [a, b] =>
    [digit (a.toNat / 4), digit (a.toNat % 4 * 16 + b.toNat / 16), digit (b.toNat % 16 * 4), '=']
  | a :: b :: c :: rest =>
    digit (a.toNat / 4) :: digit (a.toNat % 4 * 16 + b.toNat / 16) ::
      digit (b.toNat % 16 * 4 + c.toNat / 64) :: digit (c.toNat % 64) :: encodeChars rest

/-- The base64 text of a byte string. -/
def encode (bytes : Bytes) : String :=
  String.ofList (encodeChars bytes)

/-- Where a reader stands inside a group of four digits; a position after the first digit carries
the bits that are not yet part of a byte. -/
inductive Position where
  | start
  | afterOne (bits : Nat)
  | afterTwo (bits : Nat)
  | afterThree (bits : Nat)
  deriving DecidableEq

/-- Padding marks count from the third place of a group on; `seen` of them stand just before. -/
def Position.completes : Position → Nat → Bool
  | .start, _ | .afterOne _, _ => false
  | .afterTwo _, seen => 2 ≤ seen + 1
  | .afterThree _, _ => true

/-- Reads on from a position with `pads` padding marks just before. -/
def decodeFrom : Position → Nat → List Char → Option Bytes
  | position, _, [] => if position = .start then some [] else none
  | position, pads, c :: rest =>
    if c = '=' then
      if position.completes pads then some []
      else
        match position with
        | .afterTwo _ => decodeFrom position (pads + 1) rest
        | _ => decodeFrom position pads rest
    else
      match digitValue? c with
      | none => decodeFrom position pads rest
      | some value =>
        match position with
        | .start => decodeFrom (.afterOne value) 0 rest
        | .afterOne bits =>
          (decodeFrom (.afterTwo (value % 16)) 0 rest).map
            (UInt8.ofNat (bits * 4 + value / 16) :: ·)
        | .afterTwo bits =>
          (decodeFrom (.afterThree (value % 4)) 0 rest).map
            (UInt8.ofNat (bits * 16 + value / 4) :: ·)
        | .afterThree bits => (decodeFrom .start 0 rest).map (UInt8.ofNat (bits * 64 + value) :: ·)

/-- Reads a text leniently. -/
def decode? (text : List Char) : Option Bytes :=
  decodeFrom .start 0 text

end ObjectDepot.Base64
