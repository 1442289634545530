import ObjectDepot.Bytes
import ObjectDepot.Text.Quoted

/-!
# Character sets

The encodings that give the first characters a byte each, and all others none.
-/

namespace ObjectDepot

/-- A character set by its name, and how many characters have a byte. -/
structure Charset where
  name : String
  size : Nat
  deriving DecidableEq

namespace Charset

/-- Latin-1. -/
def latin1 : Charset := ⟨"latin-1", 0x100⟩

/-- ASCII. -/
def ascii : Charset := ⟨"ascii", 0x80⟩

/-- Whether a character has a byte. -/
def hasByte (charset : Charset) (c : Char) : Bool :=
  c.toNat < charset.size

/-- A text has characters without a byte: the first of them, its position, and how many stand there
in a row. -/
structure Fault where
  charset : Charset
  first : Char
  position : Nat
  count : Nat
  deriving DecidableEq

/-- The characters of a fault, by their place. -/
def Fault.place (fault : Fault) : String :=
  if fault.count = 1 then
    "character " ++ Text.singleQuoted (String.ofList (Text.codeEscape fault.first))
      ++ " in position " ++ toString fault.position
  else
    "characters in position " ++ toString fault.position ++ "-"
      ++ toString (fault.position + fault.count - 1)

/-- The words for a fault. -/
def Fault.message (fault : Fault) : String :=
  Text.singleQuoted fault.charset.name ++ " codec can't encode " ++ fault.place
    ++ ": ordinal not in range(" ++ toString fault.charset.size ++ ")"

/-- The bytes of a text. -/
def encode (charset : Charset) (text : String) : Except Fault Bytes :=
  let encoded := text.toList.takeWhile charset.hasByte
  match text.toList.dropWhile charset.hasByte with
  | [] => .ok (encoded.map fun c => UInt8.ofNat c.toNat)
  | c :: rest =>
    .error ⟨charset, c, encoded.length, 1 + (rest.takeWhile fun c => !charset.hasByte c).length⟩

end Charset

end ObjectDepot
