import ObjectDepot.Codec.Hex
import ObjectDepot.Codec.Utf16
import ObjectDepot.Json.Basic
import ObjectDepot.Number.Shortest
import ObjectDepot.Text.Quoted

/-!
# Writing JSON

A value on one line, with one blank after each comma and each colon. Quotes and backslashes are escaped,
and so is every character that is not printable in ASCII: a text of JSON has no others.
-/

namespace ObjectDepot.Json

/-- The letter that stands for a control after a backslash. -/
def controlLetter? : Char → Option Char
  | '\x08' => some 'b'
  | '\x0c' => some 'f'
  | '\n' => some 'n'
  | '\r' => some 'r'
  | '\t' => some 't'
  | _ => none

/-- A code unit by its digits. -/
def escapeUnit (unit : Nat) : List Char :=
  '\\' :: 'u' :: Text.hexDigits 4 unit

/-- A character inside a string. -/
def escapeChar (c : Char) : List Char :=
  if c = '"' ∨ c = '\\' then ['\\', c]
  else if ' ' ≤ c ∧ c ≤ '~' then [c]
  else
    match controlLetter? c with
    | some letter => ['\\', letter]
    | none => (Utf16.units c).flatMap escapeUnit

/-- A string with its quotes. -/
def writeString (text : String) : List Char :=
  '"' :: text.toList.flatMap escapeChar ++ ['"']

/-- A number of double precision. -/
def writeFloat (value : Binary64) : List Char :=
  if value.isNaN then "NaN".toList
  else if value.isInfinite then
    (if value.isNegative then "-Infinity" else "Infinity").toList
  else value.text.toList

mutual
/-- The characters of a value. -/
def write : Json → List Char
  | .null => "null".toList
  | .bool true => "true".toList
  | .bool false => "false".toList
  | .int value => (toString value).toList
  | .float value => writeFloat value
  | .string value => writeString value
  | .array [] => ['[', ']']
  | .array (item :: items) => '[' :: item.write ++ writeItems items
  | .object [] => ['\x7b', '\x7d']
  | .object ((key, value) :: members) =>
    '\x7b' :: writeString key ++ ':' :: ' ' :: value.write ++ writeMembers members

/-- The items after the first, and the closing bracket. -/
def writeItems : List Json → List Char
  | [] => [']']
  | item :: items => ',' :: ' ' :: item.write ++ writeItems items

/-- The members after the first, and the closing brace. -/
def writeMembers : List (String × Json) → List Char
  | [] => ['\x7d']
  | (key, value) :: members =>
    ',' :: ' ' :: writeString key ++ ':' :: ' ' :: value.write ++ writeMembers members
end

/-- The text of a value. -/
def render (value : Json) : String :=
  String.ofList value.write

/-- The text of a value in UTF-8. -/
def toBytes (value : Json) : Bytes :=
  value.write.flatMap String.utf8EncodeChar

end ObjectDepot.Json
