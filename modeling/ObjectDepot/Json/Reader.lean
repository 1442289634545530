import ObjectDepot.Codec.Hex
import ObjectDepot.Entries
import ObjectDepot.Json.Basic
import ObjectDepot.Json.Encoding

/-!
# Reading JSON

The reader takes what RFC 8259 allows and also `NaN`, `Infinity` and `-Infinity`. It refuses control
characters inside a string and integers of more than 4300 digits. Of members with one key the last
value counts. Values nest to any depth. `read?` takes characters, `ofBytes?` bytes in any encoding of a
JSON text.
-/

namespace ObjectDepot.Json

/-- The blanks between tokens. -/
def isBlank (c : Char) : Bool :=
  c == ' ' || c == '\t' || c == '\n' || c == '\r'

/-- A text without the blanks at its start. -/
def skipBlanks (text : List Char) : List Char :=
  text.dropWhile isBlank

/-- The value of four hexadecimal digits. -/
def unit? (a b c d : Char) : Option Nat := do
  some ((((← Hex.digitValue? a) * 16 + (← Hex.digitValue? b)) * 16 + (← Hex.digitValue? c)) * 16
    + (← Hex.digitValue? d))

/-- The character that a backslash and a letter stand for. -/
def escaped? : Char → Option Char
  | '"' => some '"'
  | '\\' => some '\\'
  | '/' => some '/'
  | 'b' => some '\x08'
  | 'f' => some '\x0c'
  | 'n' => some '\n'
  | 'r' => some '\r'
  | 't' => some '\t'
  | _ => none

/-- Reads a string after its opening quote, as code units, and what follows its closing quote. -/
def readUnits? : List Char → Option (List Nat × List Char)
  | [] => none
  | '"' :: rest => some ([], rest)
  | '\\' :: 'u' :: a :: b :: c :: d :: rest => do
    let unit ← unit? a b c d
    let (units, rest) ← readUnits? rest
    some (unit :: units, rest)
  | '\\' :: c :: rest => do
    let character ← escaped? c
    let (units, rest) ← readUnits? rest
    some (character.toNat :: units, rest)
  | c :: rest => do
    if c = '\\' ∨ c.toNat < 0x20 then none
    let (units, rest) ← readUnits? rest
    some (c.toNat :: units, rest)

/-- The text of a sequence of code units. A surrogate without its partner becomes the replacement
character. -/
def textOfUnits (units : List Nat) : String :=
  String.ofList ((Utf16.scan units).map fun
    | .ok c => c
    | .error _ => '\ufffd')

/-- Reads a string after its opening quote. -/
def readString? (text : List Char) : Option (String × List Char) :=
  (readUnits? text).map fun (units, rest) => (textOfUnits units, rest)

/-- The digits at the start of a text and what follows them. -/
def splitDigits (text : List Char) : List Char × List Char :=
  (text.takeWhile Char.isDigit, text.dropWhile Char.isDigit)

/-- The value of decimal digits. -/
def digitsValue (digits : List Char) : Nat :=
  digits.foldl (fun value c => 10 * value + (c.toNat - '0'.toNat)) 0

/-- The digits after a point, if the text goes on with a point and a digit. -/
def splitFraction (text : List Char) : Option (List Char) × List Char :=
  match text with
  | '.' :: after =>
    match splitDigits after with
    | ([], _) => (none, text)
    | (digits, rest) => (some digits, rest)
  | _ => (none, text)

/-- Drops one sign and says whether it was a minus. -/
def splitSign : List Char → Bool × List Char
  | '-' :: rest => (true, rest)
  | '+' :: rest => (false, rest)
  | text => (false, text)

/-- The exponent, if the text goes on with one that has a digit. -/
def splitExponent (text : List Char) : Option Int × List Char :=
  match text with
  | c :: after =>
    if c = 'e' ∨ c = 'E' then
      let (negative, after) := splitSign after
      match splitDigits after with
      | ([], _) => (none, text)
      | (digits, rest) =>
        (some (if negative then -(digitsValue digits : Int) else digitsValue digits), rest)
    else (none, text)
  | [] => (none, text)

/-- The most digits an integer may have. -/
def maxIntegerDigits : Nat := 4300

/-- The whole part of a number: a zero alone, or digits of which the first is no zero. -/
def splitWhole? (text : List Char) : Option (List Char × List Char) :=
  match text with
  | '0' :: rest => some (['0'], rest)
  | _ =>
    match splitDigits text with
    | ([], _) => none
    | parts => some parts

/-- Reads a number. A point or an exponent without digits is no part of it. -/
def readNumber? (text : List Char) : Option (Json × List Char) := do
  let (negative, start) := match text with
    | '-' :: rest => (true, rest)
    | _ => (false, text)
  let (whole, rest) ← splitWhole? start
  let (decimals, rest) := splitFraction rest
  let (exponent, rest) := splitExponent rest
  match decimals, exponent with
  | none, none =>
    if whole.length ≤ maxIntegerDigits then
      let value : Int := digitsValue whole
      some (.int (if negative then -value else value), rest)
    else none
  | _, _ =>
    let decimals := decimals.getD []
    some (.float (Binary64.ofDecimal negative (digitsValue (whole ++ decimals))
      (exponent.getD 0 - decimals.length)), rest)

mutual
/-- Reads a value that starts at the first character. -/
def readValue? : Nat → List Char → Option (Json × List Char)
  | 0, _ => none
  | fuel + 1, text =>
    match text with
    | '"' :: rest => (readString? rest).map fun (value, rest) => (.string value, rest)
    | '\x7b' :: rest =>
      match skipBlanks rest with
      | '\x7d' :: rest => some (.object [], rest)
      | rest => (readMembers? fuel rest).map fun (pairs, rest) =>
        (.object (Entries.ofList pairs), rest)
    | '[' :: rest =>
      match skipBlanks rest with
      | ']' :: rest => some (.array [], rest)
      | rest => (readItems? fuel rest).map fun (items, rest) => (.array items, rest)
    | 'n' :: 'u' :: 'l' :: 'l' :: rest => some (.null, rest)
    | 't' :: 'r' :: 'u' :: 'e' :: rest => some (.bool true, rest)
    | 'f' :: 'a' :: 'l' :: 's' :: 'e' :: rest => some (.bool false, rest)
    | 'N' :: 'a' :: 'N' :: rest => some (.float .nan, rest)
    | 'I' :: 'n' :: 'f' :: 'i' :: 'n' :: 'i' :: 't' :: 'y' :: rest =>
      some (.float (.infinity false), rest)
    | '-' :: 'I' :: 'n' :: 'f' :: 'i' :: 'n' :: 'i' :: 't' :: 'y' :: rest =>
      some (.float (.infinity true), rest)
    | _ => readNumber? text

/-- Reads the items of an array up to its closing bracket. -/
def readItems? : Nat → List Char → Option (List Json × List Char)
  | 0, _ => none
  | fuel + 1, text => do
    let (item, rest) ← readValue? fuel text
    match skipBlanks rest with
    | ']' :: rest => some ([item], rest)
    | ',' :: rest =>
      let (items, rest) ← readItems? fuel (skipBlanks rest)
      some (item :: items, rest)
    | _ => none

/-- Reads the members of an object up to its closing brace, in the order in which they stand. -/
def readMembers? : Nat → List Char → Option (List (String × Json) × List Char)
  | 0, _ => none
  | fuel + 1, text =>
    match text with
    | '"' :: rest => do
      let (key, rest) ← readString? rest
      match skipBlanks rest with
      | ':' :: rest =>
        let (value, rest) ← readValue? fuel (skipBlanks rest)
        match skipBlanks rest with
        | '\x7d' :: rest => some ([(key, value)], rest)
        | ',' :: rest =>
          let (pairs, rest) ← readMembers? fuel (skipBlanks rest)
          some ((key, value) :: pairs, rest)
        | _ => none
      | _ => none
    | _ => none
end

/-- Reads a text that is one value with blanks around it. Each level of nesting takes two steps and
at least one character. -/
def read? (text : List Char) : Option Json :=
  match readValue? (2 * text.length + 2) (skipBlanks text) with
  | some (value, rest) => if (skipBlanks rest).isEmpty then some value else none
  | none => none

/-- Reads bytes that encode one value. -/
def ofBytes? (bytes : Bytes) : Option Json :=
  (charsOfBytes? bytes).bind read?

end ObjectDepot.Json
