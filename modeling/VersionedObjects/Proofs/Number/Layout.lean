import VersionedObjects.Number.Layout
import VersionedObjects.Proofs.Number.Shortest

/-!
# Which numbers are written positionally

The shortest decimal of a number need not be the number itself, but it lies on the same side of the
powers of ten at which the positional form starts and ends. Main statement:
`positional_power_iff`.
-/

namespace VersionedObjects.Number

/-! ## The first digit -/

namespace Digits

variable {d : Digits} {k : ℤ}

/-- The power of ten that the first digit counts. -/
def power (d : Digits) : ℤ :=
  d.exponent + (Nat.toDigits 10 d.value).length - 1

/-- The power of the first digit tells how large a decimal is. -/
theorem power_bounds (hd : 0 < d.value) :
    10 ^ d.power ≤ d.rational ∧ d.rational < 10 ^ (d.power + 1) := by
  have hcount : Binary64.digitCount d.value = (Nat.toDigits 10 d.value).length := if_neg hd.ne'
  have hlow := Binary64.le_of_digitCount hd
  have hhigh := Binary64.digitCount_le_iff.mp (le_refl (Binary64.digitCount d.value))
  have hpos := Nat.length_toDigits_pos (b := 10) (n := d.value)
  rw [hcount] at hlow hhigh
  have hunit : (0 : ℚ) < 10 ^ d.exponent := by positivity
  unfold power rational
  generalize (Nat.toDigits 10 d.value).length = length at hlow hhigh hpos ⊢
  have hsplit (n : ℕ) : (10 : ℚ) ^ (d.exponent + n) = 10 ^ n * 10 ^ d.exponent := by
    rw [zpow_add₀ (by norm_num), zpow_natCast, mul_comm]
  constructor
  · rw [show d.exponent + length - 1 = d.exponent + (length - 1 : ℕ) by omega, hsplit]
    gcongr
    exact_mod_cast hlow
  · rw [sub_add_cancel, hsplit]
    gcongr
    exact_mod_cast hhigh

/-- The power of the first digit reaches a power of ten exactly if the decimal does. -/
theorem le_power_iff (hd : 0 < d.value) : k ≤ d.power ↔ 10 ^ k ≤ d.rational := by
  obtain ⟨hlow, hhigh⟩ := power_bounds hd
  constructor
  · intro h
    exact (zpow_le_zpow_right₀ (by norm_num) h).trans hlow
  · intro h
    have hlt := (zpow_lt_zpow_iff_right₀ (by norm_num : (1 : ℚ) < 10)).mp (h.trans_lt hhigh)
    omega

end Digits

namespace Binary64

variable {x : Binary64} {r s t : ℚ} {k : ℤ}

/-! ## Between two rationals -/

/-- Whatever lies between two rationals that a number is nearest to, it is nearest to. -/
theorem Near.between (hr : x.Near r) (hs : x.Near s) (hrt : r ≤ t) (hts : t ≤ s) : x.Near t :=
  ⟨hr.low.trans hrt, hts.trans hs.high,
    fun hodd => ⟨(hr.odd hodd).1.trans_le hrt, hts.trans_lt (hs.odd hodd).2⟩⟩

/-- A number is nearest to itself. -/
theorem near_value (x : Binary64) : x.Near x.value := by
  have hunit : (0 : ℚ) < 2 ^ x.exponent := by positivity
  have hbelow := mul_pos x.below_pos hunit
  refine near_of_lt ?_ ?_
  · rw [sub_mul]
    exact sub_lt_self _ hbelow
  · rw [add_mul]
    exact lt_add_of_pos_right _ (by positivity)

/-- The ratio of a number is its value. -/
theorem ratio_value (x : Binary64) : (x.ratio.1 / x.ratio.2 : ℚ) = x.value := by
  simp only [ratio, value, Nat.pow_eq]
  rw [zpow_eq_div 2 x.exponent]
  push_cast
  ring

/-- The ratio of a number has a positive denominator. -/
theorem ratio_pos (x : Binary64) : 0 < x.ratio.2 := by
  simp [ratio]

/-- The shortest decimal of a number that is not zero has digits. -/
theorem shortest_value_pos (hx : x.magnitude ≠ 0) : 0 < x.shortest.value := by
  have hpos := (near_shortest hx).pos hx
  rcases Nat.eq_zero_or_pos x.shortest.value with h | h
  · simp [Digits.rational, h] at hpos
  · exact h

/-- A power of ten has itself as the shortest decimal, and the number nearest to it is not below
it. -/
def IsLandmark (k : ℤ) : Prop :=
  ∀ negative, (ofDecimal negative 1 k).shortest = ⟨1, k⟩ ∧ 10 ^ k ≤ (ofDecimal negative 1 k).value

/-- A landmark between a number and its shortest decimal would be rounded to the number, and then
nothing lies in between. -/
theorem IsLandmark.le_shortest_iff (hk : IsLandmark k) (hfinite : x.isFinite = true)
    (hx : x.magnitude ≠ 0) : 10 ^ k ≤ x.shortest.rational ↔ 10 ^ k ≤ x.value := by
  have hshortest := near_shortest hx
  have hself : x.Near (10 ^ k) → x.shortest = ⟨1, k⟩ ∧ 10 ^ k ≤ x.value := by
    intro h
    have hround : ofDecimal x.isNegative 1 k = x :=
      ofDecimal_of_near hfinite hx (by simpa using h)
    have hlandmark := hk x.isNegative
    rwa [hround] at hlandmark
  constructor
  · intro hle
    by_contra hlt
    exact hlt (hself (x.near_value.between hshortest (not_le.mp hlt).le hle)).2
  · intro hle
    by_contra hlt
    have hsame := (hself (hshortest.between x.near_value (not_le.mp hlt).le hle)).1
    refine hlt ?_
    simp [hsame, Digits.rational]

/-- A power of ten is a landmark if its shortest decimal and its ratio say so, which can be
computed. -/
theorem isLandmark_of_ratio (h : ∀ negative, (ofDecimal negative 1 k).shortest = ⟨1, k⟩ ∧
    10 ^ k.toNat * (ofDecimal negative 1 k).ratio.2 ≤
      (ofDecimal negative 1 k).ratio.1 * 10 ^ (-k).toNat) : IsLandmark k := by
  intro negative
  obtain ⟨hshortest, hle⟩ := h negative
  refine ⟨hshortest, ?_⟩
  have hpos : (0 : ℚ) < (ofDecimal negative 1 k).ratio.2 := by exact_mod_cast ratio_pos _
  rw [← ratio_value, zpow_eq_div, div_le_div_iff₀ (by positivity) hpos]
  exact_mod_cast hle

/-- The least power of ten that is written out is a landmark. -/
theorem isLandmark_least : IsLandmark (-4) :=
  isLandmark_of_ratio (by decide +kernel)

/-- The first power of ten that is not written out is a landmark. -/
theorem isLandmark_greatest : IsLandmark 16 :=
  isLandmark_of_ratio (by decide +kernel)

/-! ## The range of the positional form -/

/-- The number is zero, or it is finite and its magnitude is at least `0.0001` and below `1e16`. -/
def isPositional (x : Binary64) : Bool :=
  x.isFinite && (x.magnitude == 0 ||
    (x.ratio.2 ≤ Nat.pow 10 4 * x.ratio.1 && x.ratio.1 < Nat.pow 10 16 * x.ratio.2))

/-- A number that is not zero is written out exactly if it lies between the two landmarks. -/
theorem isPositional_iff (hfinite : x.isFinite = true) (hx : x.magnitude ≠ 0) :
    x.isPositional = true ↔ 10 ^ (-4 : ℤ) ≤ x.value ∧ x.value < 10 ^ (16 : ℤ) := by
  have hpos : (0 : ℚ) < x.ratio.2 := by exact_mod_cast x.ratio_pos
  have hlow : (10 : ℚ) ^ (-4 : ℤ) ≤ x.value ↔ x.ratio.2 ≤ 10 ^ 4 * x.ratio.1 := by
    rw [← ratio_value, zpow_neg, le_div_iff₀ hpos, inv_mul_le_iff₀ (by positivity)]
    norm_cast
  have hhigh : x.value < (10 : ℚ) ^ (16 : ℤ) ↔ x.ratio.1 < 10 ^ 16 * x.ratio.2 := by
    rw [← ratio_value, div_lt_iff₀ hpos]
    norm_cast
  rw [hlow, hhigh]
  simp [isPositional, hfinite, hx]

/-- The positional form is that of the numbers of its range. -/
theorem positional_power_iff (hfinite : x.isFinite = true) (hx : x.magnitude ≠ 0) :
    -4 ≤ x.shortest.power ∧ x.shortest.power ≤ 15 ↔ x.isPositional = true := by
  have hpos := shortest_value_pos hx
  rw [isPositional_iff hfinite hx, ← isLandmark_least.le_shortest_iff hfinite hx,
    ← not_le (b := x.value), ← isLandmark_greatest.le_shortest_iff hfinite hx,
    ← Digits.le_power_iff hpos, ← Digits.le_power_iff hpos]
  omega

end Binary64

end VersionedObjects.Number
