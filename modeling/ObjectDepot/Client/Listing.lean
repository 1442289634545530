import ObjectDepot.Client.Fault

/-!
# The text of a listing

One line for each entry: references start with their hash, symbolic references with `@`, key-value
entries with `:`.
-/

namespace ObjectDepot.Client

/-- The lines for the entries under a key: a mark, the value of one member, a space, the value of
another. -/
def listingLines (listing : Json) (key mark first second : String) :
    Except ValueFault (List String) := do
  let entries ← elements (← entry listing key)
  entries.mapM fun item => do
    let before ← entry item first
    let after ← entry item second
    return mark ++ before.plain ++ " " ++ after.plain

/-- The text of a listing as a remote service sends it. -/
def listingText (listing : Json) : Except ValueFault String := do
  let normal ← listingLines listing "normal" "" "hash" "name"
  let symbolic ← listingLines listing "symbolic" "@" "target" "name"
  let keyValue ← listingLines listing "kv" ":" "key" "value"
  return "\n".intercalate (normal ++ symbolic ++ keyValue)

end ObjectDepot.Client
