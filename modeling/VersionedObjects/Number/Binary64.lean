/-!
# Double-precision numbers

A double-precision number is its 64 bits. Every operation works on the exact rational value and
rounds once, to the nearest number and on a tie to the even one, so that it computes inside the
logic.
-/

namespace VersionedObjects.Number

/-- An IEEE 754 double-precision number. -/
structure Binary64 where
  /-- Sign, eleven bits of exponent, fifty-two bits of fraction. -/
  bits : UInt64
  deriving DecidableEq, Repr, Inhabited

namespace Binary64

/-- The bits of positive infinity. -/
def infinityBits : Nat := 0x7ff0000000000000

/-- The weight of the sign bit. -/
def signBit : Nat := 0x8000000000000000

/-- The sign bit is set. -/
def isNegative (x : Binary64) : Bool :=
  signBit ≤ x.bits.toNat

/-- The bits without the sign. -/
def magnitude (x : Binary64) : Nat :=
  x.bits.toNat % signBit

/-- The number is not a number. -/
def isNaN (x : Binary64) : Bool :=
  infinityBits < x.magnitude

/-- The number is infinite. -/
def isInfinite (x : Binary64) : Bool :=
  x.magnitude == infinityBits

/-- The number is neither infinite nor NaN. -/
def isFinite (x : Binary64) : Bool :=
  x.magnitude < infinityBits

/-- The whole coefficient of a finite number: its magnitude is `coefficient * 2 ^ exponent`. -/
def coefficient (x : Binary64) : Nat :=
  if x.magnitude < Nat.pow 2 52 then x.magnitude else x.magnitude % Nat.pow 2 52 + Nat.pow 2 52

/-- The power of two that the coefficient counts. -/
def exponent (x : Binary64) : Int :=
  if x.magnitude < Nat.pow 2 52 then -1074 else (x.magnitude / Nat.pow 2 52 : Nat) - 1075

/-- Numbers compare by value: zero equals negative zero, and NaN equals nothing. -/
instance : BEq Binary64 where
  beq x y :=
    !x.isNaN && !y.isNaN && (x.bits == y.bits || (x.magnitude == 0 && y.magnitude == 0))

/-- A magnitude with a sign. -/
def ofMagnitude (negative : Bool) (magnitude : Nat) : Binary64 :=
  ⟨UInt64.ofNat (if negative then magnitude + signBit else magnitude)⟩

/-- Positive zero. -/
def zero : Binary64 := ⟨0⟩

/-- The number with its sign turned. -/
def neg (x : Binary64) : Binary64 :=
  ofMagnitude (!x.isNegative) x.magnitude

/-- The whole number nearest to a quotient, the even one on a tie. -/
def roundDiv (numerator denominator : Nat) : Nat :=
  let quotient := numerator / denominator
  let twice := 2 * (numerator % denominator)
  if denominator < twice || (twice == denominator && quotient % 2 == 1) then quotient + 1
  else quotient

/-- A quotient as `numerator * 2 ^ (-shift) / denominator`, in whole numbers. -/
def scaled (numerator denominator : Nat) (shift : Int) : Nat × Nat :=
  (numerator * Nat.pow 2 (-shift).toNat, denominator * Nat.pow 2 shift.toNat)

/-- The bits of the number nearest to a quotient. The exponent makes the coefficient fill
fifty-three bits unless that is below the smallest exponent; a coefficient rounded up to one more
bit carries into the exponent by itself. -/
def ratioBits (numerator denominator : Nat) : Nat :=
  if numerator = 0 then 0
  else
    let guess : Int := (numerator.log2 : Int) - denominator.log2 - 53
    let (n, d) := scaled numerator denominator guess
    let exact := if n / d < Nat.pow 2 53 then guess else guess + 1
    let exponent := max exact (-1074)
    let (n, d) := scaled numerator denominator exponent
    min ((exponent + 1074).toNat * Nat.pow 2 52 + roundDiv n d) infinityBits

/-- The number nearest to a quotient, infinite from half a step above the greatest finite one. -/
def ofRatio (negative : Bool) (numerator denominator : Nat) : Binary64 :=
  ofMagnitude negative (ratioBits numerator denominator)

/-- The number nearest to `digits * 10 ^ exponent`. -/
def ofDecimal (negative : Bool) (digits : Nat) (exponent : Int) : Binary64 :=
  ofRatio negative (digits * Nat.pow 10 exponent.toNat) (Nat.pow 10 (-exponent).toNat)

/-- The magnitude of a finite number as a quotient. -/
def ratio (x : Binary64) : Nat × Nat :=
  (x.coefficient * Nat.pow 2 x.exponent.toNat, Nat.pow 2 (-x.exponent).toNat)

/-- The product of two finite numbers. -/
def mul (x y : Binary64) : Binary64 :=
  ofRatio (x.isNegative != y.isNegative) (x.ratio.1 * y.ratio.1) (x.ratio.2 * y.ratio.2)

/-- The quotient of two finite numbers, of which the second is not zero. -/
def div (x y : Binary64) : Binary64 :=
  ofRatio (x.isNegative != y.isNegative) (x.ratio.1 * y.ratio.2) (x.ratio.2 * y.ratio.1)

end Binary64

end VersionedObjects.Number
