import VersionedObjects.Number.Binary64

/-!
# The fewest digits that read back

A finite positive number is the nearest one to every real in an interval around it, whose ends
belong to it when its coefficient is even. For one digit, then two, and so on, the two points of
the decimal grid on either side of the number are tried; of two points in the interval the nearer
is taken, and the upper one on a tie. Seventeen digits always suffice.
-/

namespace VersionedObjects.Number

/-- Decimal digits as one whole number, and the power of ten of the last one. -/
structure Digits where
  value : Nat
  exponent : Int
  deriving DecidableEq, Repr

namespace Binary64

/-- The reals nearest to the number, as numerators over one denominator. -/
structure Interval where
  low : Nat
  middle : Nat
  high : Nat
  denominator : Nat
  closed : Bool

/-- The interval of a number that is finite and not zero. Below a power of two the numbers lie
twice as close. -/
def interval (x : Binary64) : Interval :=
  let m := x.coefficient
  let below := if m = Nat.pow 2 52 ∧ -1074 < x.exponent then 1 else 2
  let up := Nat.pow 2 x.exponent.toNat
  { low := (4 * m - below) * up
    middle := 4 * m * up
    high := (4 * m + 2) * up
    denominator := 4 * Nat.pow 2 (-x.exponent).toNat
    closed := m % 2 == 0 }

/-- The point `digits * 10 ^ exponent` lies in the interval. -/
def Interval.contains (i : Interval) (digits : Nat) (exponent : Int) : Bool :=
  let point := digits * Nat.pow 10 exponent.toNat * i.denominator
  let scale := Nat.pow 10 (-exponent).toNat
  if i.closed then i.low * scale ≤ point && point ≤ i.high * scale
  else i.low * scale < point && point < i.high * scale

/-- The number of digits of a whole number, none for zero. -/
def digitCount (n : Nat) : Nat :=
  if n = 0 then 0 else (Nat.toDigits 10 n).length

/-- The least power of ten above a positive quotient. -/
def decimalMagnitude (numerator denominator : Nat) : Int :=
  if denominator ≤ numerator then digitCount (numerator / denominator)
  else 1 - (digitCount ((denominator + numerator - 1) / numerator - 1) : Int)

/-- The points on both sides of the number on the grid of a power of ten, the lower one and
whether the upper one is at least as near. -/
def gridPoint (i : Interval) (exponent : Int) : Nat × Bool :=
  let n := i.middle * Nat.pow 10 (-exponent).toNat
  let d := i.denominator * Nat.pow 10 exponent.toNat
  (n / d, d ≤ 2 * (n % d))

/-- The first grid with a point in the interval, from `count` digits on. -/
def search (i : Interval) (magnitude : Int) (count : Nat) : Nat → Digits
  | 0 => ⟨(gridPoint i (magnitude - count)).1, magnitude - count⟩
  | more + 1 =>
    let exponent := magnitude - count
    let (lower, upperNear) := gridPoint i exponent
    let lowerIn := i.contains lower exponent
    let upperIn := i.contains (lower + 1) exponent
    if upperIn && (upperNear || !lowerIn) then ⟨lower + 1, exponent⟩
    else if lowerIn then ⟨lower, exponent⟩
    else search i magnitude (count + 1) more

/-- The same decimal without zeros at its end. -/
def Digits.trimZeros (fuel : Nat) (d : Digits) : Digits :=
  match fuel with
  | 0 => d
  | fuel + 1 =>
    if d.value ≠ 0 ∧ d.value % 10 = 0 then trimZeros fuel ⟨d.value / 10, d.exponent + 1⟩ else d

/-- The shortest decimal that reads back as a finite number that is not zero. -/
def shortest (x : Binary64) : Digits :=
  let i := x.interval
  Digits.trimZeros 20 (search i (decimalMagnitude i.middle i.denominator) 1 17)

end Binary64

end VersionedObjects.Number
