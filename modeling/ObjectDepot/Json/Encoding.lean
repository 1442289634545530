import ObjectDepot.Codec.Utf8
import ObjectDepot.Codec.Utf16

/-!
# The encoding of a JSON text

A byte order mark settles the encoding; without one the zeros among the first four bytes tell how
wide a unit is and in which order its bytes stand, since a JSON text starts with ASCII characters.
-/

namespace ObjectDepot.Json

/-- The order of the bytes of a unit. -/
inductive ByteOrder where
  | big
  | little
  deriving DecidableEq

/-- The encodings of a JSON text. -/
inductive Encoding where
  | utf8
  | utf16 (order : ByteOrder)
  | utf32 (order : ByteOrder)
  deriving DecidableEq

/-- The encoding that the first bytes of a text without a byte order mark show. -/
def Encoding.guess : Bytes → Encoding
  | [0, _] => .utf16 .big
  | [_, 0] => .utf16 .little
  | 0 :: b :: _ :: _ :: _ => if b = 0 then .utf32 .big else .utf16 .big
  | _ :: 0 :: c :: d :: _ => if c = 0 ∧ d = 0 then .utf32 .little else .utf16 .little
  | _ => .utf8

/-- The encoding of a text, and the text without its byte order mark. -/
def Encoding.detect : Bytes → Encoding × Bytes
  | 0 :: 0 :: 0xfe :: 0xff :: rest => (.utf32 .big, rest)
  | 0xff :: 0xfe :: 0 :: 0 :: rest => (.utf32 .little, rest)
  | 0xfe :: 0xff :: rest => (.utf16 .big, rest)
  | 0xff :: 0xfe :: rest => (.utf16 .little, rest)
  | 0xef :: 0xbb :: 0xbf :: rest => (.utf8, rest)
  | bytes => (Encoding.guess bytes, bytes)

/-- The value of a unit. -/
def ByteOrder.value : ByteOrder → Bytes → Nat
  | .big, bytes => bytes.foldl (fun value byte => 256 * value + byte.toNat) 0
  | .little, bytes => bytes.foldr (fun byte value => 256 * value + byte.toNat) 0

/-- The units of two bytes, if the bytes come out even. -/
def units16? (order : ByteOrder) : Bytes → Option (List Nat)
  | [] => some []
  | a :: b :: rest => (units16? order rest).map (order.value [a, b] :: ·)
  | _ => none

/-- The units of four bytes, if the bytes come out even. -/
def units32? (order : ByteOrder) : Bytes → Option (List Nat)
  | [] => some []
  | a :: b :: c :: d :: rest => (units32? order rest).map (order.value [a, b, c, d] :: ·)
  | _ => none

/-- The character with a code point. -/
def charOf? (code : Nat) : Option Char :=
  if code.isValidChar then some (Char.ofNat code) else none

/-- The characters of a text in an encoding. -/
def Encoding.decode? : Encoding → Bytes → Option (List Char)
  | .utf8, bytes => Utf8.decode? bytes
  | .utf16 order, bytes => do (Utf16.scan (← units16? order bytes)).mapM Except.toOption
  | .utf32 order, bytes => do (← units32? order bytes).mapM charOf?

/-- The characters of a JSON text given as bytes. -/
def charsOfBytes? (bytes : Bytes) : Option (List Char) :=
  let (encoding, rest) := Encoding.detect bytes
  encoding.decode? rest

end ObjectDepot.Json
