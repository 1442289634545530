import ObjectDepot.Bytes

/-!
# Padded messages

SHA-1 and SHA-256 read a message in the same way: a one bit, zeros up to eight bytes short of a
block, the length in bits, and then blocks of sixteen big-endian words.
-/

namespace ObjectDepot

/-- The four bytes of a word, the highest first. -/
def bigEndian (word : UInt32) : Bytes :=
  [(word >>> 24).toUInt8, (word >>> 16).toUInt8, (word >>> 8).toUInt8, word.toUInt8]

/-- The words of a byte string, four bytes each, the highest byte first. -/
def wordsOf : Bytes → List UInt32
  | a :: b :: c :: d :: rest =>
    ((a.toUInt32 <<< 24) ||| (b.toUInt32 <<< 16) ||| (c.toUInt32 <<< 8) ||| d.toUInt32)
      :: wordsOf rest
  | _ => []

/-- Rotation towards the low end. -/
def rotateRight (word amount : UInt32) : UInt32 :=
  (word >>> amount) ||| (word <<< (32 - amount))

/-- Rotation towards the high end. -/
def rotateLeft (word amount : UInt32) : UInt32 :=
  (word <<< amount) ||| (word >>> (32 - amount))

/-- How many zero bytes follow the mark that ends a message of a given size. -/
def zerosAfter (size : Nat) : Nat :=
  (119 - size % 64) % 64

/-- A message with its mark, its zeros and its length in bits; the size is a multiple of 64. -/
def padMessage (message : Bytes) : Bytes :=
  let bits := 8 * message.length
  message ++ 0x80 :: List.replicate (zerosAfter message.length) 0
    ++ bigEndian (UInt32.ofNat (bits / 0x100000000)) ++ bigEndian (UInt32.ofNat bits)

/-- Cuts words into a number of blocks of sixteen. -/
def blocksOf : Nat → List UInt32 → List (List UInt32)
  | 0, _ => []
  | count + 1, words => words.take 16 :: blocksOf count (words.drop 16)

/-- The blocks of a message. -/
def messageBlocks (message : Bytes) : List (List UInt32) :=
  let words := wordsOf (padMessage message)
  blocksOf (words.length / 16) words

end ObjectDepot
