import ObjectDepot.Codec.Hex
import ObjectDepot.Json.Display
import ObjectDepot.Json.Key

/-!
# Values of the wrong shape

What the client and the command line take out of a value that a remote service sent, or that a
caller gave, and how that can fail.
-/

namespace ObjectDepot.Client

/-- A value does not have the shape that its use asks for. -/
inductive ValueFault where
  | missingKey (key : String)
  | indexedList
  | indexedText
  | notSubscriptable (value : Json)
  | noMembers (value : Json)
  | notIterable (value : Json)
  | notHashable (value : Json)
  | notQuotable
  | addressNotText (value : Json)
  | notHex (position : Nat)
  | hexNotText (value : Json)

/-- The words for a fault. -/
def ValueFault.message : ValueFault → String
  | .missingKey key => Text.quoted key
  | .indexedList => "list indices must be integers or slices, not str"
  | .indexedText => "string indices must be integers, not 'str'"
  | .notSubscriptable value => Text.singleQuoted value.typeName ++ " object is not subscriptable"
  | .noMembers value => Text.singleQuoted value.typeName ++ " object has no attribute 'get'"
  | .notIterable value => Text.singleQuoted value.typeName ++ " object is not iterable"
  | .notHashable value => "unhashable type: " ++ Text.singleQuoted value.typeName
  | .notQuotable => "quote_from_bytes() expected bytes"
  | .addressNotText value =>
    Text.singleQuoted value.typeName ++ " object has no attribute 'rstrip'"
  | .notHex position =>
    "non-hexadecimal number found in fromhex() arg at position " ++ toString position
  | .hexNotText .null => "fromhex() argument must be str, not None"
  | .hexNotText value => "fromhex() argument must be str, not " ++ value.typeName

/-- The value of a member that must be there. -/
def entry (value : Json) (key : String) : Except ValueFault Json :=
  match value with
  | .object members =>
    match members.lookup key with
    | some value => .ok value
    | none => .error (.missingKey key)
  | .array _ => .error .indexedList
  | .string _ => .error .indexedText
  | value => .error (.notSubscriptable value)

/-- The value of a member of something that must have members; a default where it is absent. -/
def memberOr (value : Json) (key : String) (default : Json) : Except ValueFault Json :=
  match value with
  | .object members => .ok ((members.lookup key).getD default)
  | value => .error (.noMembers value)

/-- The elements of a value that must have some. -/
def elements (value : Json) : Except ValueFault (List Json) :=
  match value.elements? with
  | some elements => .ok elements
  | none => .error (.notIterable value)

/-- A value as a key. -/
def asKey (value : Json) : Except ValueFault Json.Key :=
  match value.key? with
  | some key => .ok key
  | none => .error (.notHashable value)

/-- The bytes of a hexadecimal text. -/
def hexBytes : Json → Except ValueFault Bytes
  | .string text => (Hex.decode text).mapError .notHex
  | value => .error (.hexNotText value)

end ObjectDepot.Client
