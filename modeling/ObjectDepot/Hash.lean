import ObjectDepot.Digest.Sha1
import ObjectDepot.Digest.Sha256
import ObjectDepot.Error

/-!
# Hashes

A hash is kept in a slot of thirty-two bytes; a shorter digest is followed by zeros. The slot of
zeros stands for the absence of a hash. `Hash.ofJson` reads the hexadecimal form of a slot or of a
SHA-1 digest.
-/

namespace ObjectDepot

/-- The hash algorithms of a repository. -/
inductive Algorithm where
  | sha1
  | sha256
  deriving DecidableEq

namespace Algorithm

/-- The name of an algorithm. -/
def name : Algorithm → String
  | .sha1 => "sha1"
  | .sha256 => "sha256"

/-- The algorithm that a flag selects. -/
def ofFlag (sha256 : Bool) : Algorithm :=
  if sha256 then .sha256 else .sha1

/-- The algorithm with a name. -/
def ofJson : Json → Except Fault Algorithm
  | .string "sha1" => .ok .sha1
  | .string "sha256" => .ok .sha256
  | value => .error (.unknownAlgorithm value)

/-- The digest of a message without padding. -/
def rawDigest : Algorithm → Bytes → Bytes
  | .sha1, message => Sha1.digest message
  | .sha256, message => Sha256.digest message

end Algorithm

namespace Hash

/-- The size of a slot. -/
def size : Nat := 32

/-- The slot of zeros. -/
def zero : Bytes := List.replicate size 0

/-- A byte string followed by zeros up to the size of a slot. -/
def fill (raw : Bytes) : Bytes :=
  raw ++ List.replicate (size - raw.length) 0

/-- Puts a byte string into a slot, if it is not longer than one. -/
def pad (raw : Bytes) : Except Fault Bytes :=
  if raw.length ≤ size then .ok (fill raw) else .error .slotOverflow

/-- Whether a byte string is the slot of zeros once it is padded. -/
def isZero (value : Bytes) : Bool :=
  value.length ≤ size && value.all (· == 0)

/-- The digest of a message in its slot. -/
def digest (algorithm : Algorithm) (message : Bytes) : Bytes :=
  fill (algorithm.rawDigest message)

/-- Reads a hash from a text of 40 or 64 characters. -/
def ofJson (value : Json) : Except Failure Bytes :=
  match value with
  | .string text =>
    if text.length = 40 ∨ text.length = 64 then
      match Hex.decode text with
      | .ok raw => (pad raw).mapError .fault
      | .error _ => .error (.rejected (.malformedHash value))
    else .error (.rejected (.malformedHash value))
  | _ => .error (.rejected (.malformedHash value))

end Hash

/-- Reads the payload of an object from its hexadecimal text. -/
def payloadOfJson (value : Json) : Except Failure Bytes :=
  match value with
  | .string text =>
    match Hex.decode text with
    | .ok bytes => .ok bytes
    | .error _ => .error (.rejected (.badRequest .payloadNotHex))
  | _ => .error (.rejected (.badRequest .payloadNotHex))

end ObjectDepot
