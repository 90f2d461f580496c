import Mathlib.Data.Nat.Cast.Order.Field
import VersionedObjects.Proofs.Number.Rounding

/-!
# The shortest decimal reads back

The search for the fewest digits ends with a decimal of the interval of the number: with seventeen
digits the grid is finer than the interval. So the decimal is rounded to the number. Main
statement: `near_shortest`.
-/

namespace VersionedObjects.Number

/-- The rational that the decimal is. -/
def Digits.rational (d : Digits) : ℚ :=
  d.value * 10 ^ d.exponent

namespace Binary64

/-! ## The interval -/

section Interval

variable {i : Interval} {digits : ℕ} {e : ℤ}

/-- A decimal lies in an interval if its rational lies between the bounds, which count if the
interval is closed. -/
theorem Interval.contains_iff (hd : 0 < i.denominator) : i.contains digits e = true ↔
    if i.closed then
      (i.low / i.denominator : ℚ) ≤ digits * 10 ^ e ∧ digits * 10 ^ e ≤ (i.high / i.denominator : ℚ)
    else
      (i.low / i.denominator : ℚ) < digits * 10 ^ e ∧
        digits * 10 ^ e < (i.high / i.denominator : ℚ) := by
  have hd' : (0 : ℚ) < i.denominator := by exact_mod_cast hd
  have hscale : (0 : ℚ) < 10 ^ (-e).toNat := by positivity
  have hle (a b : ℕ) : a * Nat.pow 10 (-e).toNat ≤ b * i.denominator ↔
      (a / i.denominator : ℚ) ≤ b / 10 ^ (-e).toNat := by
    rw [div_le_div_iff₀ hd' hscale]
    norm_cast
  have hlt (a b : ℕ) : a * Nat.pow 10 (-e).toNat < b * i.denominator ↔
      (a / i.denominator : ℚ) < b / 10 ^ (-e).toNat := by
    rw [div_lt_div_iff₀ hd' hscale]
    norm_cast
  have hge (a b : ℕ) : b * i.denominator ≤ a * Nat.pow 10 (-e).toNat ↔
      (b / 10 ^ (-e).toNat : ℚ) ≤ a / i.denominator := by
    rw [div_le_div_iff₀ hscale hd']
    norm_cast
  have hgt (a b : ℕ) : b * i.denominator < a * Nat.pow 10 (-e).toNat ↔
      (b / 10 ^ (-e).toNat : ℚ) < a / i.denominator := by
    rw [div_lt_div_iff₀ hscale hd']
    norm_cast
  have hpoint : ((digits * Nat.pow 10 e.toNat : ℕ) / 10 ^ (-e).toNat : ℚ) = digits * 10 ^ e := by
    rw [zpow_eq_div]
    simp only [Nat.pow_eq]
    push_cast
    ring
  unfold Interval.contains
  dsimp only
  split <;> simp only [Bool.and_eq_true, decide_eq_true_eq, hle, hlt, hge, hgt, hpoint]

end Interval

variable {x : Binary64}

/-- The bounds of an interval are over a positive denominator. -/
theorem interval_denominator_pos (x : Binary64) : 0 < x.interval.denominator := by
  simp [interval]

/-- An interval is closed if the coefficient is even. -/
theorem interval_closed (x : Binary64) : x.interval.closed = (x.coefficient % 2 == 0) :=
  rfl

/-- In the middle of the interval is the number. -/
theorem interval_middle (x : Binary64) :
    (x.interval.middle / x.interval.denominator : ℚ) = x.value := by
  simp only [interval, value, Nat.pow_eq]
  rw [zpow_eq_div]
  push_cast
  field_simp

/-- The interval goes up by half a place. -/
theorem interval_high (x : Binary64) : (x.interval.high / x.interval.denominator : ℚ) =
    (x.coefficient + 1 / 2) * 2 ^ x.exponent := by
  simp only [interval, Nat.pow_eq]
  rw [zpow_eq_div]
  push_cast
  field_simp
  ring

/-- The interval goes down by half a place, or by a quarter where the numbers below lie closer. -/
theorem interval_low (hx : x.magnitude ≠ 0) :
    (x.interval.low / x.interval.denominator : ℚ) =
      (x.coefficient - x.below) * 2 ^ x.exponent := by
  have hpos := coefficient_pos hx
  rw [zpow_eq_div]
  simp only [interval, below, Nat.pow_eq]
  split
  · rw [Nat.cast_mul, Nat.cast_sub (by omega)]
    push_cast
    field_simp
  · rw [Nat.cast_mul, Nat.cast_sub (by omega)]
    push_cast
    field_simp
    ring

/-- A decimal lies in the interval of a number exactly if the number is the nearest one to it. -/
theorem contains_iff_near (hx : x.magnitude ≠ 0) {digits : ℕ} {e : ℤ} :
    x.interval.contains digits e = true ↔ x.Near (digits * 10 ^ e) := by
  rw [Interval.contains_iff x.interval_denominator_pos, interval_closed, interval_low hx,
    interval_high]
  split
  · next heven =>
    rw [beq_iff_eq] at heven
    exact ⟨fun ⟨hlow, hhigh⟩ => ⟨hlow, hhigh, by omega⟩, fun h => ⟨h.low, h.high⟩⟩
  · next hodd =>
    rw [beq_iff_eq] at hodd
    exact ⟨fun ⟨hlow, hhigh⟩ => ⟨hlow.le, hhigh.le, fun _ => ⟨hlow, hhigh⟩⟩,
      fun h => h.odd (by omega)⟩

/-- What lies inside of the interval is near, whether its ends are or not. -/
theorem near_of_lt {r : ℚ} (hlow : (x.coefficient - x.below) * 2 ^ x.exponent < r)
    (hhigh : r < (x.coefficient + 1 / 2) * 2 ^ x.exponent) : x.Near r :=
  ⟨hlow.le, hhigh.le, fun _ => ⟨hlow, hhigh⟩⟩

/-! ## Decimal digits -/

/-- A number has so many digits at most if it is below that power of ten. -/
theorem digitCount_le_iff {n k : ℕ} : digitCount n ≤ k ↔ n < 10 ^ k := by
  unfold digitCount
  split
  · next h => simp [h]
  · next h =>
    rcases Nat.eq_zero_or_pos k with rfl | hk
    · have := Nat.length_toDigits_pos (b := 10) (n := n)
      omega
    · exact Nat.length_toDigits_le_iff (by decide) hk

/-- A number of so many digits is not below the power of ten of its first one. -/
theorem le_of_digitCount {n : ℕ} (hn : 0 < n) : 10 ^ (digitCount n - 1) ≤ n := by
  by_contra hlt
  have hle := digitCount_le_iff.mpr (Nat.lt_of_not_le hlt)
  have hpos : ¬ digitCount n ≤ 0 := by
    rw [digitCount_le_iff]
    omega
  omega

/-- The quotient has a digit before the power of ten. -/
theorem decimalMagnitude_le {n d : ℕ} (hn : 0 < n) (hd : 0 < d) :
    (10 : ℚ) ^ (decimalMagnitude n d - 1) ≤ n / d := by
  have hd' : (0 : ℚ) < d := by exact_mod_cast hd
  have hn' : (0 : ℚ) < n := by exact_mod_cast hn
  unfold decimalMagnitude
  split
  · next hle =>
    have hwhole : 0 < n / d := Nat.div_pos hle hd
    have hcount : ¬ digitCount (n / d) ≤ 0 := by
      rw [digitCount_le_iff]
      omega
    rw [show ((digitCount (n / d) : ℤ) - 1) = ((digitCount (n / d) - 1 : ℕ) : ℤ) by omega,
      zpow_natCast]
    calc ((10 : ℚ) ^ (digitCount (n / d) - 1)) ≤ (n / d : ℕ) := by
          exact_mod_cast le_of_digitCount hwhole
      _ ≤ n / d := Nat.cast_div_le
  · next hlt =>
    generalize hk : digitCount ((d + n - 1) / n - 1) = k
    have hceil : (d + n - 1) / n - 1 < 10 ^ k := digitCount_le_iff.mp hk.le
    have hle : d ≤ 10 ^ k * n := by
      have hceilLt : d + n - 1 < n * ((d + n - 1) / n) + n := Nat.lt_mul_div_succ _ hn
      have hmul := Nat.mul_le_mul_left n (show (d + n - 1) / n ≤ 10 ^ k by omega)
      rw [Nat.mul_comm]
      omega
    rw [show (1 - (k : ℤ) - 1) = -(k : ℤ) by ring, zpow_neg, zpow_natCast,
      inv_le_comm₀ (by positivity) (by positivity), inv_div, div_le_iff₀ hn']
    exact_mod_cast hle

/-! ## The search -/

/-- Some point of the grid beside the number lies in the interval. -/
def Hit (i : Interval) (exponent : ℤ) : Prop :=
  i.contains (gridPoint i exponent).1 exponent = true ∨
    i.contains ((gridPoint i exponent).1 + 1) exponent = true

/-- The search ends with a point of the interval if some grid on its way has one. -/
theorem search_contains {i : Interval} {magnitude : ℤ} {count more k : ℕ} (hk : k < more)
    (h : Hit i (magnitude - (count + k : ℕ))) :
    i.contains (search i magnitude count more).value (search i magnitude count more).exponent =
      true := by
  induction more generalizing count k with
  | zero => omega
  | succ more ih =>
    rw [search]
    dsimp only
    split
    · next hupper =>
      rw [Bool.and_eq_true] at hupper
      exact hupper.1
    · next hupper =>
      split
      · next hlower => exact hlower
      · next hlower =>
        rcases k with _ | k
        · rcases h with h | h
          · exact absurd h hlower
          · simp_all
        · exact ih (k := k) (by omega) (by rwa [Nat.add_right_comm, Nat.add_assoc])

/-- The number lies between the two points of the grid. -/
theorem gridPoint_bounds (x : Binary64) (e : ℤ) :
    ((gridPoint x.interval e).1 : ℚ) * 10 ^ e ≤ x.value ∧
      x.value < ((gridPoint x.interval e).1 + 1) * 10 ^ e := by
  have hstep : (0 : ℚ) < 10 ^ e := by positivity
  have hdenominator : (0 : ℚ) < x.interval.denominator := by
    exact_mod_cast x.interval_denominator_pos
  have hquotient : ((x.interval.middle * 10 ^ (-e).toNat : ℕ) : ℚ) /
      (x.interval.denominator * 10 ^ e.toNat : ℕ) = x.value / 10 ^ e := by
    rw [← interval_middle, zpow_eq_div]
    push_cast
    field_simp
  have hpos : 0 < x.interval.denominator * 10 ^ e.toNat :=
    Nat.mul_pos x.interval_denominator_pos (by positivity)
  rw [← le_div_iff₀ hstep, ← div_lt_iff₀ hstep, ← hquotient]
  simp only [gridPoint, Nat.pow_eq]
  refine ⟨Nat.cast_div_le, ?_⟩
  rw [div_lt_iff₀ (by exact_mod_cast hpos)]
  have hlt := Nat.lt_mul_div_succ (x.interval.middle * 10 ^ (-e).toNat) hpos
  rw [Nat.mul_comm (_ * 10 ^ e.toNat)] at hlt
  exact_mod_cast hlt

/-- A grid whose points lie closer than the interval reaches from the number hits the interval. -/
theorem hit_of_fine (hx : x.magnitude ≠ 0) {e : ℤ}
    (hfine : (10 : ℚ) ^ e < 2 * (x.below * 2 ^ x.exponent)) : Hit x.interval e := by
  have hunit : (0 : ℚ) < 2 ^ x.exponent := by positivity
  have hpos := mul_pos x.below_pos hunit
  have hbelow := mul_le_mul_of_nonneg_right x.below_le hunit.le
  obtain ⟨hlow, hhigh⟩ := gridPoint_bounds x e
  unfold Hit
  rw [contains_iff_near hx, contains_iff_near hx]
  push_cast
  generalize ((gridPoint x.interval e).1 : ℚ) = lower at hlow hhigh ⊢
  -- the two points are closer to each other than twice the reach
  rcases lt_or_ge (x.value - x.below * 2 ^ x.exponent) (lower * 10 ^ e) with hnear | hfar
  · left
    refine near_of_lt ?_ ?_
    · rw [sub_mul]
      exact hnear
    · rw [add_mul]
      exact hlow.trans_lt (lt_add_of_pos_right _ (by positivity))
  · right
    rw [add_one_mul] at hhigh ⊢
    refine near_of_lt ?_ ?_
    · rw [sub_mul]
      unfold value at hhigh
      linarith
    · rw [add_mul]
      unfold value at hfar
      linarith

/-- Seventeen digits are enough to hit the interval. -/
theorem hit_seventeen (hx : x.magnitude ≠ 0) : Hit x.interval
    (decimalMagnitude x.interval.middle x.interval.denominator - 17) := by
  have hunit : (0 : ℚ) < 2 ^ x.exponent := by positivity
  have hcoefficient : (0 : ℚ) < x.coefficient := by exact_mod_cast coefficient_pos hx
  have hmiddle : 0 < x.interval.middle := by
    have hvalue : (0 : ℚ) < x.value := mul_pos hcoefficient hunit
    rw [← interval_middle] at hvalue
    rcases Nat.eq_zero_or_pos x.interval.middle with h | h
    · simp [h] at hvalue
    · exact h
  have hmagnitude := decimalMagnitude_le hmiddle x.interval_denominator_pos
  rw [interval_middle] at hmagnitude
  generalize decimalMagnitude x.interval.middle x.interval.denominator = m at hmagnitude ⊢
  have hreach : (x.coefficient : ℚ) < 2 * x.below * 10 ^ 16 := by
    rcases x.below_cases with h | ⟨h, hfull, -⟩
    · have : (x.coefficient : ℚ) < 2 ^ 53 := by exact_mod_cast x.coefficient_lt
      rw [h]
      norm_num at this ⊢
      linarith
    · rw [h, hfull]
      norm_num
  refine hit_of_fine hx ?_
  calc (10 : ℚ) ^ (m - 17) = 10 ^ (m - 1) / 10 ^ 16 := by
        rw [show m - 17 = m - 1 - (16 : ℕ) by norm_num; ring, zpow_sub₀ (by norm_num), zpow_natCast]
    _ ≤ x.value / 10 ^ 16 := by gcongr
    _ < 2 * x.below * 10 ^ 16 * 2 ^ x.exponent / 10 ^ 16 := by
        unfold value
        gcongr
    _ = 2 * (x.below * 2 ^ x.exponent) := by ring

/-- Zeros at the end do not change the rational. -/
theorem rational_trimZeros (fuel : ℕ) (d : Digits) :
    (Digits.trimZeros fuel d).rational = d.rational := by
  induction fuel generalizing d with
  | zero => rfl
  | succ fuel ih =>
    rw [Digits.trimZeros]
    split
    · next h =>
      obtain ⟨k, hk⟩ := Nat.dvd_of_mod_eq_zero h.2
      have hvalue : d.value / 10 = k := by omega
      rw [ih, Digits.rational, Digits.rational, hvalue, hk, zpow_add_one₀ (by norm_num)]
      push_cast
      ring
    · rfl

/-- The shortest decimal lies in the interval of the number. -/
theorem near_shortest (hx : x.magnitude ≠ 0) : x.Near x.shortest.rational := by
  rw [shortest, rational_trimZeros]
  exact (contains_iff_near hx).mp (search_contains (k := 16) (by decide) (hit_seventeen hx))

end Binary64

end VersionedObjects.Number
