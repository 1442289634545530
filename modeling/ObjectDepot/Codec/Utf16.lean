/-!
# UTF-16 code units

`units` writes a character as one unit or as a surrogate pair. `scan` joins surrogate pairs and keeps a
surrogate without its partner apart.
-/

namespace ObjectDepot.Utf16

/-- Whether a code unit is the first half of a pair. -/
def isHigh (unit : Nat) : Bool :=
  0xd800 ≤ unit && unit < 0xdc00

/-- Whether a code unit is the second half of a pair. -/
def isLow (unit : Nat) : Bool :=
  0xdc00 ≤ unit && unit < 0xe000

/-- The code units of a character. -/
def units (c : Char) : List Nat :=
  if c.toNat < 0x10000 then [c.toNat]
  else [0xd800 + (c.toNat - 0x10000) / 0x400, 0xdc00 + (c.toNat - 0x10000) % 0x400]

/-- The character of a pair. -/
def join (high low : Nat) : Char :=
  Char.ofNat (0x10000 + (high - 0xd800) * 0x400 + (low - 0xdc00))

/-- The characters of a sequence of code units, and the surrogates that are part of none. Units
above the range of UTF-16 stand for their own code point. -/
def scan : List Nat → List (Except Nat Char)
  | [] => []
  | [unit] => [if isHigh unit || isLow unit then .error unit else .ok (Char.ofNat unit)]
  | unit :: next :: rest =>
    if isHigh unit && isLow next then .ok (join unit next) :: scan rest
    else if isHigh unit || isLow unit then .error unit :: scan (next :: rest)
    else .ok (Char.ofNat unit) :: scan (next :: rest)

end ObjectDepot.Utf16
