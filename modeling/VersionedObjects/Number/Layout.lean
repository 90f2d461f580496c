import VersionedObjects.Number.Shortest

/-!
# The text of a number

A layout says where positional digits end and exponents begin, and how zero fractions and the
values that are not finite are spelled.
-/

namespace VersionedObjects.Number

/-- The decisions on the text of a double-precision number. -/
structure Layout where
  /-- The least power of ten of the first digit that is written positionally. -/
  leastPositional : Int
  /-- The greatest such power. -/
  greatestPositional : Int
  /-- What follows a whole number in positional form. -/
  wholeSuffix : String
  /-- What stands between the digits and the exponent. -/
  exponentMark : String
  infinity : String
  nan : String

/-- Numbers are positional from `0.0001` to below `1e16`, whole ones end in `.0`, and exponents
have neither a plus sign nor padding. -/
def standardLayout : Layout where
  leastPositional := -4
  greatestPositional := 15
  wholeSuffix := ".0"
  exponentMark := "e"
  infinity := "inf"
  nan := "NaN"

/-- The text of digits whose first one counts `10 ^ power`. -/
def Layout.digits (layout : Layout) (digits : List Char) (power : Int) : String :=
  if layout.leastPositional ≤ power ∧ power ≤ layout.greatestPositional then
    if power < 0 then
      "0." ++ String.ofList (List.replicate (-power - 1).toNat '0' ++ digits)
    else
      let whole := digits.take (power.toNat + 1)
      let padding := List.replicate (power.toNat + 1 - digits.length) '0'
      let fraction := digits.drop (power.toNat + 1)
      String.ofList (whole ++ padding) ++
        (if fraction.isEmpty then layout.wholeSuffix else "." ++ String.ofList fraction)
  else
    let fraction := digits.drop 1
    String.ofList (digits.take 1) ++
      (if fraction.isEmpty then "" else "." ++ String.ofList fraction) ++
      layout.exponentMark ++ toString power

/-- The text of a number. -/
def Layout.text (layout : Layout) (x : Binary64) : String :=
  if x.isNaN then layout.nan
  else
    (if x.isNegative then "-" else "") ++
      if x.isInfinite then layout.infinity
      else if x.magnitude = 0 then "0" ++ layout.wholeSuffix
      else
        let d := x.shortest
        let digits := Nat.toDigits 10 d.value
        layout.digits digits (d.exponent + digits.length - 1)

/-- The text of a number in the standard layout. -/
def Binary64.text (x : Binary64) : String :=
  standardLayout.text x

end VersionedObjects.Number
