import ObjectDepot.Bytes

/-!
# UTF-8

`scan` cuts a byte string into the characters it encodes and the stray bytes that belong to none.
`decode?` reads a byte string that has no stray byte.
-/

namespace ObjectDepot.Utf8

/-- The character whose encoding starts a byte string. -/
def first? (bytes : Bytes) : Option Char :=
  (bytes.take 4).toByteArray.utf8DecodeChar? 0

/-- Cuts what follows `skip` bytes that are already accounted for. -/
def scanFrom : Nat → Bytes → List (Except UInt8 Char)
  | _, [] => []
  | skip + 1, _ :: rest => scanFrom skip rest
  | 0, byte :: rest =>
    match first? (byte :: rest) with
    | some c => .ok c :: scanFrom (c.utf8Size - 1) rest
    | none => .error byte :: scanFrom 0 rest

/-- The characters of a byte string in order, and the bytes that are part of none. -/
def scan (bytes : Bytes) : List (Except UInt8 Char) :=
  scanFrom 0 bytes

/-- The characters of a byte string that encodes nothing but characters. -/
def decode? (bytes : Bytes) : Option (List Char) :=
  (scan bytes).mapM Except.toOption

end ObjectDepot.Utf8
