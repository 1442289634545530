import ObjectDepot.Json.Basic
import ObjectDepot.Number.Shortest
import ObjectDepot.Text.Quoted

/-!
# Values in messages

`literal` shows a value with its type, a text between quotes; `plain` shows a text as it is and
every other value as its literal.
-/

namespace ObjectDepot.Json

mutual
/-- A value as it stands inside a list or a message that keeps its type visible. -/
def literal : Json → String
  | .null => "None"
  | .bool true => "True"
  | .bool false => "False"
  | .int value => toString value
  | .float value => value.text
  | .string value => Text.quoted value
  | .array items => "[" ++ ", ".intercalate (literals items) ++ "]"
  | .object members => "\x7b" ++ ", ".intercalate (memberLiterals members) ++ "\x7d"

/-- The literals of a list of values. -/
def literals : List Json → List String
  | [] => []
  | item :: rest => item.literal :: literals rest

/-- The members of an object, the key and the value each as a literal. -/
def memberLiterals : List (String × Json) → List String
  | [] => []
  | (key, value) :: rest => (Text.quoted key ++ ": " ++ value.literal) :: memberLiterals rest
end

/-- A value as running text. -/
def plain : Json → String
  | .string value => value
  | value => value.literal

/-- The name of a value's type. -/
def typeName : Json → String
  | .null => "NoneType"
  | .bool _ => "bool"
  | .int _ => "int"
  | .float _ => "float"
  | .string _ => "str"
  | .array _ => "list"
  | .object _ => "dict"

end ObjectDepot.Json
