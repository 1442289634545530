import ObjectDepot.Codec.Hex
import ObjectDepot.Codec.Utf8

/-!
# Percent encoding

`quote` writes a text so that it can stand in a request target; `unquote` reads the text that a
request target names. Reading is total: a percent sign without two digits stands for itself, and a
byte that is part of no character is written out again.
-/

namespace ObjectDepot.Percent

/-- The characters that need no quoting anywhere. -/
def isUnreserved (c : Char) : Bool :=
  c.isAlphanum || c == '_' || c == '.' || c == '-' || c == '~'

/-- A byte as a percent sign and two upper-case digits. -/
def escape (byte : UInt8) : List Char :=
  '%' :: (Hex.pair byte).map Char.toUpper

/-- Quotes all characters of a text but the unreserved ones and those in `safe`. -/
def quote (safe : List Char) (text : String) : String :=
  String.ofList (text.toList.flatMap fun c =>
    if isUnreserved c || safe.contains c then [c] else (String.utf8EncodeChar c).flatMap escape)

/-- The bytes that a quoted text stands for. -/
def unquoteBytes : List Char → Bytes
  | [] => []
  | '%' :: c :: d :: rest =>
    match Hex.digitValue? c, Hex.digitValue? d with
    | some high, some low => UInt8.ofNat (16 * high + low) :: unquoteBytes rest
    | _, _ => '%'.toUInt8 :: unquoteBytes (c :: d :: rest)
  | c :: rest => String.utf8EncodeChar c ++ unquoteBytes rest

/-- The text that a quoted text stands for. -/
def unquote (text : List Char) : List Char :=
  (Utf8.scan (unquoteBytes text)).flatMap fun
    | .ok c => [c]
    | .error byte => escape byte

end ObjectDepot.Percent
