import ObjectDepot.Text.Printable
import ObjectDepot.Codec.Hex

/-!
# Quoted text

How a message shows a text so that it cannot be mistaken for anything else: between quotes, with
escapes for the quote in use, the backslash and every character that is not printable.
-/

namespace ObjectDepot.Text

/-- The `count` lowest hexadecimal digits of a value. -/
def hexDigits : Nat → Nat → List Char
  | 0, _ => []
  | count + 1, value => hexDigits count (value / 16) ++ [Hex.digit (value % 16)]

/-- A character by its code point, with as few digits as its range needs. -/
def codeEscape (c : Char) : List Char :=
  if c.toNat < 0x100 then '\\' :: 'x' :: hexDigits 2 c.toNat
  else if c.toNat < 0x10000 then '\\' :: 'u' :: hexDigits 4 c.toNat
  else '\\' :: 'U' :: hexDigits 8 c.toNat

/-- How a character stands between two quotes. -/
def escape (quote c : Char) : List Char :=
  if c = quote ∨ c = '\\' then ['\\', c]
  else if c = '\n' then ['\\', 'n']
  else if c = '\r' then ['\\', 'r']
  else if c = '\t' then ['\\', 't']
  else if isPrintable c then [c]
  else codeEscape c

/-- The quote for a text: the single one, unless the text holds it and no double one. -/
def quoteFor (text : List Char) : Char :=
  if text.contains '\'' && !text.contains '"' then '"' else '\''

/-- A text between quotes. -/
def quoted (text : String) : String :=
  let quote := quoteFor text.toList
  String.ofList (quote :: text.toList.flatMap (escape quote) ++ [quote])

/-- A word of the program's own between single quotes. -/
def singleQuoted (word : String) : String :=
  "'" ++ word ++ "'"

end ObjectDepot.Text
