/-!
# Double precision numbers

A number is kept as its sixty-four bits. `ofDecimal` rounds a decimal to the nearest number, a tie
to the even neighbour, in exact arithmetic on natural numbers.
-/

namespace ObjectDepot

/-- A number of double precision by its bits: the sign, eleven bits of exponent, fifty-two of
fraction. -/
structure Binary64 where
  bits : UInt64
  deriving DecidableEq, Inhabited

namespace Binary64

/-- The weight of the lowest bit of the exponent field, `2 ^ 52`. -/
def fieldUnit : Nat := 0x10000000000000

/-- The weight of the sign bit, `2 ^ 63`. -/
def signUnit : Nat := 0x8000000000000000

/-- The exponent field. -/
def exponentField (x : Binary64) : Nat :=
  x.bits.toNat / fieldUnit % 2048

/-- The fraction field. -/
def fraction (x : Binary64) : Nat :=
  x.bits.toNat % fieldUnit

/-- Whether the sign bit is set. -/
def isNegative (x : Binary64) : Bool :=
  signUnit ≤ x.bits.toNat

/-- Whether the number is one of the two infinities. -/
def isInfinite (x : Binary64) : Bool :=
  x.exponentField == 2047 && x.fraction == 0

/-- Whether the bits stand for no number. -/
def isNaN (x : Binary64) : Bool :=
  x.exponentField == 2047 && x.fraction != 0

/-- Whether the number is one of the two zeros. -/
def isZero (x : Binary64) : Bool :=
  x.exponentField == 0 && x.fraction == 0

/-- The integer `m` of the form `m * 2 ^ q` of a finite number's magnitude. -/
def significand (x : Binary64) : Nat :=
  if x.exponentField = 0 then x.fraction else fieldUnit + x.fraction

/-- The exponent `q` of the form `m * 2 ^ q` of a finite number's magnitude. -/
def scale (x : Binary64) : Int :=
  max 1 (x.exponentField : Int) - 1075

/-- The integer that a number is, if it has no fraction. -/
def integer? (x : Binary64) : Option Int :=
  let dividend := x.significand * Nat.pow 2 x.scale.toNat
  let divisor := Nat.pow 2 (-x.scale).toNat
  if x.exponentField ≠ 2047 ∧ dividend % divisor = 0 then
    some (if x.isNegative then -(dividend / divisor : Nat) else (dividend / divisor : Nat))
  else none

/-- The number with a sign and the lower sixty-three bits. -/
def ofParts (negative : Bool) (magnitude : Nat) : Binary64 :=
  ⟨UInt64.ofNat (magnitude + if negative then signUnit else 0)⟩

/-- The infinity of a sign. -/
def infinity (negative : Bool) : Binary64 :=
  ofParts negative (2047 * fieldUnit)

/-- The value that stands for no number. -/
def nan : Binary64 :=
  ofParts false (2047 * fieldUnit + fieldUnit / 2)

/-- The integer nearest to a quotient, a tie going to the even one. -/
def roundQuotient (numerator denominator : Nat) : Nat :=
  let floor := numerator / denominator
  let twice := 2 * (numerator % denominator)
  if twice < denominator ∨ (twice = denominator ∧ floor % 2 = 0) then floor else floor + 1

/-- The greatest `k` with `2 ^ k` at most a positive quotient. -/
def floorLog2 (numerator denominator : Nat) : Int :=
  let estimate : Int := (Nat.log2 numerator : Int) - Nat.log2 denominator
  if numerator * Nat.pow 2 (-estimate).toNat < denominator * Nat.pow 2 estimate.toNat then
    estimate - 1
  else estimate

/-- The lower sixty-three bits of the number nearest to a positive quotient. A significand that
rounds up to the next power of two carries into the exponent field; what is too large is the
infinity. -/
def roundMagnitude (numerator denominator : Nat) : Nat :=
  let q := max (floorLog2 numerator denominator - 52) (-1074)
  let m := roundQuotient (numerator * Nat.pow 2 (-q).toNat)
    (denominator * Nat.pow 2 q.toNat)
  let bits := if m < fieldUnit then m else (q + 1075).toNat * fieldUnit + (m - fieldUnit)
  min bits (2047 * fieldUnit)

/-- How many decimal digits a positive integer has. -/
def digitCount (n : Nat) : Nat :=
  (Nat.toDigits 10 n).length

/-- The number nearest to `digits * 10 ^ exponent` with a sign. Decimals outside the range of all
finite numbers and their halves are settled by their size alone. -/
def ofDecimal (negative : Bool) (digits : Nat) (exponent : Int) : Binary64 :=
  if digits = 0 then ofParts negative 0
  else
    let size := exponent + digitCount digits
    if size < -330 then ofParts negative 0
    else if 310 < size then infinity negative
    else ofParts negative
      (roundMagnitude (digits * Nat.pow 10 exponent.toNat) (Nat.pow 10 (-exponent).toNat))

end Binary64

end ObjectDepot
