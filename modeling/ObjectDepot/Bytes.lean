/-!
# Byte strings

Payloads, hashes and message bodies are lists of bytes.
-/

namespace ObjectDepot

/-- A string of bytes. -/
abbrev Bytes := List UInt8

/-- The UTF-8 form of a text. -/
def Bytes.ofText (text : String) : Bytes :=
  text.toList.flatMap String.utf8EncodeChar

end ObjectDepot
