import ObjectDepot.Number.Binary64

/-!
# JSON values

An object keeps its members in the order in which their keys first came. Integers and numbers of
double precision are told apart, as their texts are.
-/

namespace ObjectDepot

/-- A JSON value. -/
inductive Json where
  | null
  | bool (value : Bool)
  | int (value : Int)
  | float (value : Binary64)
  | string (value : String)
  | array (items : List Json)
  | object (members : List (String × Json))
  deriving BEq, Inhabited

namespace Json

/-- The members of an object. -/
abbrev Members := List (String × Json)

/-- The value of the member with a key. -/
def Members.get? (members : Members) (key : String) : Option Json :=
  List.lookup key members

/-- Whether a value counts as yes: all do but null, false, the zeros and what is empty. -/
def isTruthy : Json → Bool
  | .null => false
  | .bool value => value
  | .int value => value != 0
  | .float value => !value.isZero
  | .string value => value != ""
  | .array items => !items.isEmpty
  | .object members => !members.isEmpty

/-- The value as a text, if it is one. -/
def text? : Json → Option String
  | .string value => some value
  | _ => none

/-- The elements of a value that can be run through: the items of a list, the characters of a text,
the keys of an object. -/
def elements? : Json → Option (List Json)
  | .array items => some items
  | .string text => some (text.toList.map fun c => .string c.toString)
  | .object members => some (members.map fun member => .string member.1)
  | _ => none

end Json

end ObjectDepot
