import ObjectDepot.Json.Basic

/-!
# Values as keys

Two values are the same key if they are equal as numbers or as texts. A truth value is the number
one or zero, and a number of double precision without a fraction is the integer. Lists and objects
are no keys.
-/

namespace ObjectDepot.Json

/-- What values have in common that are the same key. -/
inductive KeyForm where
  | null
  | int (value : Int)
  | float (value : Binary64)
  | string (value : String)
  deriving DecidableEq

/-- The form of a value as a key. -/
def keyForm? : Json → Option KeyForm
  | .null => some .null
  | .bool value => some (.int value.toInt)
  | .int value => some (.int value)
  | .float value => some ((value.integer?.map .int).getD (.float value))
  | .string value => some (.string value)
  | .array _ | .object _ => none

/-- A value that can be a key, with its form. -/
structure Key where
  value : Json
  form : KeyForm
  isForm : value.keyForm? = some form

/-- Keys are the same if their forms are. -/
instance : BEq Key where
  beq key other := key.form == other.form

/-- The key that a value is. -/
def key? (value : Json) : Option Key :=
  match h : value.keyForm? with
  | some form => some ⟨value, form, h⟩
  | none => none

end ObjectDepot.Json
