import Mathlib.Algebra.Order.Field.Power
import Mathlib.Data.Rat.Cast.Order
import Mathlib.Tactic.FieldSimp
import Mathlib.Tactic.Linarith
import Mathlib.Tactic.NormNum
import Mathlib.Tactic.Positivity
import Mathlib.Tactic.Ring
import VersionedObjects.Number.Shortest

/-!
# Rounding to the nearest number

A finite number is a coefficient times a power of two. Around it lies an interval of the rationals
that it is the nearest number to, and each of them is rounded to it. Main statement:
`ofDecimal_of_near`.
-/

namespace VersionedObjects.Number.Binary64

/-! ## Powers and quotients -/

/-- A power is a quotient of powers whose exponents are natural numbers. -/
theorem zpow_eq_div (b : ℚ) (e : ℤ) : b ^ e = b ^ e.toNat / b ^ (-e).toNat := by
  rcases le_total 0 e with h | h
  · obtain ⟨n, rfl⟩ := Int.eq_ofNat_of_zero_le h
    simp
  · obtain ⟨n, hn⟩ := Int.eq_ofNat_of_zero_le (neg_nonneg.mpr h)
    obtain rfl : e = -n := by omega
    simp

/-- The quotient rounds to the whole number, which is the even one where two are as near. -/
structure RoundsTo (r : ℚ) (k : ℕ) : Prop where
  low : (k : ℚ) - 1 / 2 ≤ r
  high : r ≤ k + 1 / 2
  odd : k % 2 = 1 → (k : ℚ) - 1 / 2 < r ∧ r < k + 1 / 2

/-- The quotient is rounded to what the rational rounds to. -/
theorem roundDiv_eq {n d k : ℕ} (hd : 0 < d) (h : RoundsTo ((n : ℚ) / d) k) :
    roundDiv n d = k := by
  have hd' : (0 : ℚ) < d := by exact_mod_cast hd
  have hlow : 2 * k * d ≤ 2 * n + d := by
    have hle := (le_div_iff₀ hd').mp h.low
    have hcast : (2 * k * d : ℚ) ≤ 2 * n + d := by linarith
    exact_mod_cast hcast
  have hhigh : 2 * n ≤ 2 * k * d + d := by
    have hle := (div_le_iff₀ hd').mp h.high
    have hcast : (2 * n : ℚ) ≤ 2 * k * d + d := by linarith
    exact_mod_cast hcast
  have hodd (hk : k % 2 = 1) : 2 * k * d < 2 * n + d ∧ 2 * n < 2 * k * d + d := by
    obtain ⟨hbelow, habove⟩ := h.odd hk
    rw [lt_div_iff₀ hd'] at hbelow
    rw [div_lt_iff₀ hd'] at habove
    have hcast : (2 * k * d : ℚ) < 2 * n + d ∧ (2 * n : ℚ) < 2 * k * d + d := by
      constructor <;> linarith
    exact_mod_cast hcast
  have hsplit := Nat.div_add_mod n d
  have hrest := Nat.mod_lt n hd
  unfold roundDiv
  dsimp only
  generalize n / d = q at hsplit ⊢
  generalize n % d = r at hsplit hrest ⊢
  subst hsplit
  have hcases : k = q ∨ k = q + 1 := by
    have hle : k < q + 2 := by
      by_contra hlt
      have := Nat.mul_le_mul_right d (Nat.le_of_not_lt hlt)
      nlinarith
    have hge : q < k + 1 := by
      by_contra hlt
      have := Nat.mul_le_mul_right d (Nat.le_of_not_lt hlt)
      nlinarith
    omega
  obtain rfl | rfl := hcases
  · have hle : 2 * r ≤ d := by nlinarith
    have hne (hk : k % 2 = 1) : 2 * r ≠ d := by
      have := (hodd hk).2
      intro heq
      nlinarith
    rw [if_neg]
    simp only [Bool.or_eq_true, Bool.and_eq_true, decide_eq_true_eq, beq_iff_eq]
    rintro (hlt | ⟨heq, hk⟩)
    · omega
    · exact hne hk heq
  · have hle : d ≤ 2 * r := by nlinarith
    have hne (hk : (q + 1) % 2 = 1) : 2 * r ≠ d := by
      have := (hodd hk).1
      intro heq
      nlinarith
    rw [if_pos]
    simp only [Bool.or_eq_true, Bool.and_eq_true, decide_eq_true_eq, beq_iff_eq]
    by_cases heq : 2 * r = d
    · exact .inr ⟨heq, by have := mt hne (not_not.mpr heq); omega⟩
    · exact .inl (by omega)

/-- To scale a ratio by a power of two is to divide its rational by that power. -/
theorem scaled_spec {n d : ℕ} (hd : 0 < d) (shift : ℤ) :
    0 < (scaled n d shift).2 ∧
      ((scaled n d shift).1 : ℚ) / (scaled n d shift).2 = n / d / 2 ^ shift := by
  have hd' : (d : ℚ) ≠ 0 := by exact_mod_cast hd.ne'
  simp only [scaled, Nat.pow_eq]
  refine ⟨by positivity, ?_⟩
  rw [zpow_eq_div 2 shift]
  push_cast
  field_simp

/-! ## The exponent of a quotient -/

/-- The bounds of a quotient by the logarithms of its parts. -/
theorem log2_bounds {n d : ℕ} (hn : 0 < n) (hd : 0 < d) :
    (2 : ℚ) ^ ((n.log2 : ℤ) - d.log2 - 1) ≤ n / d ∧
      (n : ℚ) / d < 2 ^ ((n.log2 : ℤ) - d.log2 + 1) := by
  have hd' : (0 : ℚ) < d := by exact_mod_cast hd
  have hnlow : (2 : ℚ) ^ n.log2 ≤ n := by exact_mod_cast Nat.log2_self_le hn.ne'
  have hnhigh : (n : ℚ) < 2 ^ (n.log2 + 1) := by exact_mod_cast Nat.lt_log2_self
  have hdlow : (2 : ℚ) ^ d.log2 ≤ d := by exact_mod_cast Nat.log2_self_le hd.ne'
  have hdhigh : (d : ℚ) < 2 ^ (d.log2 + 1) := by exact_mod_cast Nat.lt_log2_self
  constructor
  · rw [le_div_iff₀ hd']
    calc (2 : ℚ) ^ ((n.log2 : ℤ) - d.log2 - 1) * d
        ≤ 2 ^ ((n.log2 : ℤ) - d.log2 - 1) * 2 ^ (d.log2 + 1) := by gcongr
      _ = 2 ^ n.log2 := by
        rw [← zpow_natCast, ← zpow_natCast, ← zpow_add₀ (by norm_num)]
        congr 1
        push_cast
        ring
      _ ≤ n := hnlow
  · rw [div_lt_iff₀ hd']
    calc (n : ℚ) < 2 ^ (n.log2 + 1) := hnhigh
      _ = 2 ^ ((n.log2 : ℤ) - d.log2 + 1) * 2 ^ d.log2 := by
        rw [← zpow_natCast, ← zpow_natCast, ← zpow_add₀ (by norm_num)]
        congr 1
        push_cast
        ring
      _ ≤ 2 ^ ((n.log2 : ℤ) - d.log2 + 1) * d := by gcongr

/-- The exponent by which a quotient fills fifty-three bits. -/
def fullExponent (n d : ℕ) : ℤ :=
  let guess : ℤ := (n.log2 : ℤ) - d.log2 - 53
  if (scaled n d guess).1 / (scaled n d guess).2 < Nat.pow 2 53 then guess else guess + 1

/-- The full exponent leaves 53 digits before the point. -/
theorem fullExponent_bounds {n d : ℕ} (hn : 0 < n) (hd : 0 < d) :
    (2 : ℚ) ^ 52 * 2 ^ fullExponent n d ≤ n / d ∧
      (n : ℚ) / d < 2 ^ 53 * 2 ^ fullExponent n d := by
  obtain ⟨hlow, hhigh⟩ := log2_bounds hn hd
  unfold fullExponent
  dsimp only
  generalize hguess : (n.log2 : ℤ) - d.log2 - 53 = guess
  have hpow (k : ℕ) : (2 : ℚ) ^ ((k : ℤ) + guess) = 2 ^ k * 2 ^ guess := by
    rw [zpow_add₀ (by norm_num), zpow_natCast]
  have hlow' : (2 : ℚ) ^ 52 * 2 ^ guess ≤ n / d := by
    rw [← hpow 52, show ((52 : ℕ) : ℤ) + guess = (n.log2 : ℤ) - d.log2 - 1 by omega]
    exact hlow
  have hhigh' : (n : ℚ) / d < 2 ^ 54 * 2 ^ guess := by
    rw [← hpow 54, show ((54 : ℕ) : ℤ) + guess = (n.log2 : ℤ) - d.log2 + 1 by omega]
    exact hhigh
  obtain ⟨hpos, hscaled⟩ := scaled_spec (n := n) hd guess
  generalize (scaled n d guess).1 = a at hscaled ⊢
  generalize (scaled n d guess).2 = b at hpos hscaled ⊢
  have hpos' : (0 : ℚ) < b := by exact_mod_cast hpos
  -- whether the guess is an exponent too small shows in the whole part of the quotient
  have hfits : a / b < Nat.pow 2 53 ↔ (n : ℚ) / d < 2 ^ 53 * 2 ^ guess :=
    calc a / b < Nat.pow 2 53 ↔ a < 2 ^ 53 * b := Nat.div_lt_iff_lt_mul hpos
      _ ↔ (a : ℚ) < 2 ^ 53 * b := by norm_cast
      _ ↔ (a : ℚ) / b < 2 ^ 53 := (div_lt_iff₀ hpos').symm
      _ ↔ (n : ℚ) / d < 2 ^ 53 * 2 ^ guess := by rw [hscaled, div_lt_iff₀ (by positivity)]
  have hnext : (2 : ℚ) ^ (guess + 1) = 2 * 2 ^ guess := by
    rw [zpow_add_one₀ (by norm_num), mul_comm]
  split
  · next hsmall => exact ⟨hlow', hfits.mp hsmall⟩
  · next hlarge =>
    rw [hfits, not_lt] at hlarge
    rw [hnext]
    constructor <;> linarith

/-- The bits of a ratio are those of its exponent and of what its coefficient rounds to, or
infinity. -/
theorem ratioBits_eq {n d k : ℕ} (hn : 0 < n) (hd : 0 < d)
    (h : RoundsTo ((n : ℚ) / d / 2 ^ max (fullExponent n d) (-1074)) k) :
    ratioBits n d =
      min ((max (fullExponent n d) (-1074) + 1074).toNat * 2 ^ 52 + k) infinityBits := by
  obtain ⟨hpos, hscaled⟩ := scaled_spec (n := n) hd (max (fullExponent n d) (-1074))
  have hround := roundDiv_eq hpos (hscaled ▸ h)
  unfold ratioBits
  rw [if_neg hn.ne', ← hround]
  rfl

/-! ## The interval of a number -/

variable {x : Binary64} {r : ℚ}

/-- The value of a finite number without its sign. -/
def value (x : Binary64) : ℚ :=
  x.coefficient * 2 ^ x.exponent

/-- A coefficient has 53 digits at most. -/
theorem coefficient_lt (x : Binary64) : x.coefficient < 2 ^ 53 := by
  unfold coefficient
  simp only [Nat.pow_eq]
  split <;> omega

/-- No exponent is below that of the smallest numbers. -/
theorem exponent_ge (x : Binary64) : -1074 ≤ x.exponent := by
  unfold exponent
  simp only [Nat.pow_eq]
  split <;> omega

/-- Only with the least exponent a coefficient does not fill fifty-three bits. -/
theorem exponent_eq_or (x : Binary64) : x.exponent = -1074 ∨ 2 ^ 52 ≤ x.coefficient := by
  unfold exponent coefficient
  simp only [Nat.pow_eq]
  split <;> omega

/-- The bits of a magnitude are those of its exponent and its coefficient. -/
theorem magnitude_eq (x : Binary64) :
    x.magnitude = (x.exponent + 1074).toNat * 2 ^ 52 + x.coefficient := by
  unfold exponent coefficient
  simp only [Nat.pow_eq]
  split <;> omega

/-- A number that is not zero has a coefficient. -/
theorem coefficient_pos (hx : x.magnitude ≠ 0) : 0 < x.coefficient := by
  have hmagnitude := x.magnitude_eq
  have hexponent := x.exponent_eq_or
  omega

/-- How far below the coefficient, in units of its last place, the interval of the number goes. -/
def below (x : Binary64) : ℚ :=
  if x.coefficient = 2 ^ 52 ∧ -1074 < x.exponent then 1 / 4 else 1 / 2

/-- The number is the nearest one to the rational, or as near as another one and even. -/
structure Near (x : Binary64) (r : ℚ) : Prop where
  low : (x.coefficient - x.below) * 2 ^ x.exponent ≤ r
  high : r ≤ (x.coefficient + 1 / 2) * 2 ^ x.exponent
  odd : x.coefficient % 2 = 1 →
    (x.coefficient - x.below) * 2 ^ x.exponent < r ∧
      r < (x.coefficient + 1 / 2) * 2 ^ x.exponent

/-- The interval of a number goes half a place down, or a quarter where the numbers below lie
closer. -/
theorem below_cases (x : Binary64) : x.below = 1 / 2 ∨
    x.below = 1 / 4 ∧ x.coefficient = 2 ^ 52 ∧ -1074 < x.exponent := by
  unfold below
  split
  · next h => exact .inr ⟨rfl, h⟩
  · exact .inl rfl

/-- The interval of a number goes down by half a place at most. -/
theorem below_le (x : Binary64) : x.below ≤ 1 / 2 := by
  rcases x.below_cases with h | ⟨h, -⟩
  · exact h.le
  · rw [h]
    norm_num

/-- The interval of a number goes down. -/
theorem below_pos (x : Binary64) : 0 < x.below := by
  rcases x.below_cases with h | ⟨h, -⟩ <;> norm_num [h]

/-- What a positive number is nearest to is positive. -/
theorem Near.pos (h : x.Near r) (hx : x.magnitude ≠ 0) : 0 < r := by
  have hcoefficient : (1 : ℚ) ≤ x.coefficient := by exact_mod_cast coefficient_pos hx
  have hbelow := x.below_le
  have hunit : (0 : ℚ) < 2 ^ x.exponent := by positivity
  exact lt_of_lt_of_le (mul_pos (by linarith) hunit) h.low

/-- In units of the last place a rational of the interval rounds to the coefficient. -/
theorem Near.roundsTo (h : x.Near r) : RoundsTo (r / 2 ^ x.exponent) x.coefficient := by
  have hunit : (0 : ℚ) < 2 ^ x.exponent := by positivity
  have hbelow := x.below_le
  have hlow (s : ℚ) (hs : s ≤ 1 / 2) : ((x.coefficient : ℚ) - 1 / 2) * 2 ^ x.exponent ≤
      (x.coefficient - s) * 2 ^ x.exponent := by gcongr
  refine ⟨(le_div_iff₀ hunit).mpr ?_, (div_le_iff₀ hunit).mpr h.high, fun hodd => ?_⟩
  · exact (hlow _ hbelow).trans h.low
  · obtain ⟨hlt, hgt⟩ := h.odd hodd
    exact ⟨(lt_div_iff₀ hunit).mpr ((hlow _ hbelow).trans_lt hlt), (div_lt_iff₀ hunit).mpr hgt⟩

/-- The exponent that a rational of the interval is rounded with is that of the number, or the one
below where the rational lies under a power of two. -/
theorem Near.exponent_cases (h : x.Near r) {e : ℤ} (hlow : 2 ^ 52 * 2 ^ e ≤ r)
    (hhigh : r < 2 ^ 53 * 2 ^ e) : max e (-1074) = x.exponent ∨
      e = x.exponent - 1 ∧ x.coefficient = 2 ^ 52 ∧ -1074 < x.exponent := by
  have hge := x.exponent_ge
  have hstep (i j : ℤ) (hij : i ≤ j) : (2 : ℚ) ^ i ≤ 2 ^ j :=
    zpow_le_zpow_right₀ (by norm_num) hij
  have hunit : (0 : ℚ) < 2 ^ x.exponent := by positivity
  have hhalf : (2 : ℚ) ^ x.exponent = 2 * 2 ^ (x.exponent - 1) := by
    rw [← zpow_one_add₀ (by norm_num), add_sub_cancel]
  have hcoefficient : (x.coefficient : ℚ) + 1 / 2 < 2 ^ 53 := by
    have : (x.coefficient : ℚ) + 1 ≤ 2 ^ 53 := by exact_mod_cast x.coefficient_lt
    linarith
  have hle : e ≤ x.exponent := by
    by_contra hlt
    have := hstep (x.exponent + 1) e (by omega)
    rw [zpow_add_one₀ (by norm_num)] at this
    nlinarith [h.high]
  by_cases hleast : x.exponent = -1074
  · left
    omega
  rcases eq_or_lt_of_le hle with rfl | hlt
  · left
    omega
  -- under the power of two the coefficient can only be the least full one
  have hfull : (2 : ℚ) ^ 52 ≤ x.coefficient := by
    exact_mod_cast x.exponent_eq_or.resolve_left hleast
  have hunder : r < 2 ^ 52 * 2 ^ x.exponent := by
    have := hstep e (x.exponent - 1) (by omega)
    linarith
  have hleastFull : x.coefficient = 2 ^ 52 := by
    have hbelow := x.below_le
    have hlt : (x.coefficient : ℚ) - x.below < 2 ^ 52 :=
      lt_of_mul_lt_mul_right (h.low.trans_lt hunder) hunit.le
    have : (x.coefficient : ℚ) < 2 ^ 52 + 1 := by linarith
    have : x.coefficient < 2 ^ 52 + 1 := by exact_mod_cast this
    have := x.exponent_eq_or.resolve_left hleast
    omega
  right
  refine ⟨?_, hleastFull, by omega⟩
  by_contra hne
  have := hstep (e + 1) (x.exponent - 1) (by omega)
  rw [zpow_add_one₀ (by norm_num)] at this
  have hbelow := x.below_le
  have hlowest : (2 ^ 52 - 1 / 2 : ℚ) * 2 ^ x.exponent ≤ r :=
    calc (2 ^ 52 - 1 / 2 : ℚ) * 2 ^ x.exponent
        ≤ (x.coefficient - x.below) * 2 ^ x.exponent := by gcongr
      _ ≤ r := h.low
  linarith

/-- Under a power of two the coefficient is rounded up to one more bit. -/
theorem Near.roundsTo_carry (h : x.Near r) (hfull : x.coefficient = 2 ^ 52)
    (hleast : -1074 < x.exponent) (hhigh : r < 2 ^ 53 * 2 ^ (x.exponent - 1)) :
    RoundsTo (r / 2 ^ (x.exponent - 1)) (2 ^ 53) := by
  have hunit : (0 : ℚ) < 2 ^ (x.exponent - 1) := by positivity
  have hhalf : (2 : ℚ) ^ x.exponent = 2 * 2 ^ (x.exponent - 1) := by
    rw [← zpow_one_add₀ (by norm_num), add_sub_cancel]
  have hlow := h.low
  have hbelow : x.below = 1 / 4 := if_pos ⟨hfull, hleast⟩
  rw [hfull, hhalf, hbelow] at hlow
  push_cast at hlow
  refine ⟨(le_div_iff₀ hunit).mpr ?_, (div_le_iff₀ hunit).mpr ?_, fun hodd => ?_⟩
  · push_cast
    linarith
  · push_cast
    linarith
  · omega

/-- A rational of the interval is rounded to the number. -/
theorem ratioBits_of_near (hfinite : x.isFinite = true) (hx : x.magnitude ≠ 0) {n d : ℕ}
    (hd : 0 < d) (h : x.Near (n / d)) : ratioBits n d = x.magnitude := by
  have hr : (0 : ℚ) < n / d := h.pos hx
  have hn : 0 < n := by
    rcases Nat.eq_zero_or_pos n with rfl | hn
    · simp at hr
    · exact hn
  have hbound : x.magnitude ≤ infinityBits := by
    simp only [isFinite, decide_eq_true_eq] at hfinite
    omega
  have hmagnitude := x.magnitude_eq
  obtain ⟨hlow, hhigh⟩ := fullExponent_bounds hn hd
  rcases h.exponent_cases hlow hhigh with hexponent | ⟨hbelow, hfull, hleast⟩
  · rw [ratioBits_eq hn hd (hexponent ▸ h.roundsTo), hexponent, ← hmagnitude, min_eq_left hbound]
  · have hexponent : max (fullExponent n d) (-1074) = x.exponent - 1 := by omega
    have hround : RoundsTo ((n : ℚ) / d / 2 ^ (x.exponent - 1)) (2 ^ 53) :=
      h.roundsTo_carry hfull hleast (by rwa [hbelow] at hhigh)
    rw [ratioBits_eq hn hd (hexponent ▸ hround), hexponent,
      show (x.exponent - 1 + 1074).toNat * 2 ^ 52 + 2 ^ 53 = x.magnitude by omega,
      min_eq_left hbound]

/-! ## Decimals -/

/-- The sign is the first bit. -/
theorem isNegative_iff (x : Binary64) : x.isNegative = true ↔ 2 ^ 63 ≤ x.bits.toNat :=
  decide_eq_true_iff

/-- A number is made of its sign and its magnitude. -/
theorem ofMagnitude_magnitude (x : Binary64) : ofMagnitude x.isNegative x.magnitude = x := by
  have hlt := x.bits.toNat_lt
  have hbits : x.bits.toNat = if x.isNegative then x.magnitude + 2 ^ 63 else x.magnitude := by
    simp only [magnitude, signBit]
    split
    · next hnegative =>
      rw [isNegative_iff] at hnegative
      omega
    · next hpositive =>
      rw [isNegative_iff] at hpositive
      omega
  calc ofMagnitude x.isNegative x.magnitude = ⟨UInt64.ofNat x.bits.toNat⟩ := by
        rw [hbits]
        rfl
    _ = x := by rw [UInt64.ofNat_toNat]

/-- A decimal of the interval is rounded to the number. -/
theorem ofDecimal_of_near (hfinite : x.isFinite = true) (hx : x.magnitude ≠ 0) {digits : ℕ}
    {e : ℤ} (h : x.Near (digits * 10 ^ e)) : ofDecimal x.isNegative digits e = x := by
  have hquotient : (digits * 10 ^ e : ℚ) =
      (digits * Nat.pow 10 e.toNat : ℕ) / (Nat.pow 10 (-e).toNat : ℕ) := by
    rw [zpow_eq_div]
    simp only [Nat.pow_eq]
    push_cast
    ring
  have hpos : 0 < Nat.pow 10 (-e).toNat := Nat.pow_pos (by decide)
  rw [ofDecimal, ofRatio, ratioBits_of_near hfinite hx hpos (hquotient ▸ h),
    ofMagnitude_magnitude]

end VersionedObjects.Number.Binary64
