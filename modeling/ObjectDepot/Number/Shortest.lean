import ObjectDepot.Number.Binary64

/-!
# The shortest decimal of a double precision number

`shortest` finds the fewest decimal digits that read back as a number, and of those the nearest to
it. `text` writes them: positional for exponents from -4 to 15, else with an exponent.
-/

namespace ObjectDepot.Binary64

/-- A positive real `numerator / denominator` with the two ends of the interval of reals that round
to it, over the same denominator. -/
structure Interval where
  value : Nat
  low : Nat
  high : Nat
  denominator : Nat
  closed : Bool

/-- The interval of reals that round to a positive finite number. The gap below a power of two is
half as wide; the ends belong to the interval when the significand is even. -/
def interval (x : Binary64) : Interval :=
  let m := x.significand
  let q := x.scale - 2
  let below := if x.fraction = 0 ∧ 1 < x.exponentField then 1 else 2
  let up := Nat.pow 2 q.toNat
  ⟨4 * m * up, (4 * m - below) * up, (4 * m + 2) * up, Nat.pow 2 (-q).toNat, m % 2 = 0⟩

/-- Whether `digits * 10 ^ exponent` lies in an interval. -/
def Interval.contains (i : Interval) (digits : Nat) (exponent : Int) : Bool :=
  let point := digits * Nat.pow 10 exponent.toNat * i.denominator
  let factor := Nat.pow 10 (-exponent).toNat
  if i.closed then i.low * factor ≤ point && point ≤ i.high * factor
  else i.low * factor < point && point < i.high * factor

/-- The greatest `k` with `10 ^ k` at most the value. -/
def Interval.floorLog10 (i : Interval) : Int :=
  let estimate : Int := (digitCount i.value : Int) - digitCount i.denominator
  if i.value * Nat.pow 10 (-estimate).toNat < i.denominator * Nat.pow 10 estimate.toNat then
    estimate - 1
  else estimate

/-- The multiples of `10 ^ exponent` on either side of the value that lie in the interval; of two
the nearer, and the even one on a tie. -/
def Interval.onGrid? (i : Interval) (exponent : Int) : Option Nat :=
  let numerator := i.value * Nat.pow 10 (-exponent).toNat
  let denominator := i.denominator * Nat.pow 10 exponent.toNat
  let floor := numerator / denominator
  match i.contains floor exponent, i.contains (floor + 1) exponent with
  | true, true => some (roundQuotient numerator denominator)
  | true, false => some floor
  | false, true => some (floor + 1)
  | false, false => none

/-- Tries grids of `count` and more digits in turn; seventeen digits always suffice. -/
def Interval.search (i : Interval) (top : Int) : Nat → Nat → Nat × Int
  | 0, count => ((i.onGrid? (top + 1 - count)).getD 0, top + 1 - count)
  | fuel + 1, count =>
    match i.onGrid? (top + 1 - count) with
    | some digits => (digits, top + 1 - count)
    | none => i.search top fuel (count + 1)

/-- The digits and the exponent of the shortest decimal of a positive finite number. -/
def shortest (x : Binary64) : Nat × Int :=
  let i := x.interval
  i.search i.floorLog10 16 1

/-- Drops zeros at the end. -/
def dropEndZeros (digits : List Char) : List Char :=
  (digits.reverse.dropWhile (· == '0')).reverse

/-- The text of a magnitude with given digits, of which the first stands at the place
`10 ^ exponent`. -/
def layout (digits : List Char) (exponent : Int) : List Char :=
  if exponent < -4 ∨ 16 ≤ exponent then
    let size := Nat.toDigits 10 exponent.natAbs
    digits.take 1 ++ (if digits.length = 1 then [] else '.' :: digits.drop 1)
      ++ 'e' :: (if exponent < 0 then '-' else '+')
      :: (if size.length < 2 then '0' :: size else size)
  else if exponent < 0 then
    '0' :: '.' :: List.replicate (-exponent - 1).toNat '0' ++ digits
  else
    let whole := exponent.toNat + 1
    digits.take whole ++ List.replicate (whole - digits.length) '0' ++ '.'
      :: (if digits.length ≤ whole then ['0'] else digits.drop whole)

/-- The text of a number: the shortest decimal, or `nan`, `inf`, `-inf`. -/
def text (x : Binary64) : String :=
  if x.isNaN then "nan"
  else
    let magnitude :=
      if x.isInfinite then ['i', 'n', 'f']
      else if x.isZero then ['0', '.', '0']
      else
        let (n, exponent) := x.shortest
        let digits := Nat.toDigits 10 n
        layout (dropEndZeros digits) (exponent + digits.length - 1)
    String.ofList (if x.isNegative then '-' :: magnitude else magnitude)

end ObjectDepot.Binary64
