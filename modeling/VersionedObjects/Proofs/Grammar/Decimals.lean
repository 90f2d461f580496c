import VersionedObjects.Proofs.Grammar.Reads
import VersionedObjects.Proofs.Number.Layout

/-!
# Numbers as digits

A number of the positional range is written as a sign and digits on both sides of a point, and
those digits are rounded to the number. Any other finite number has an exponent mark after its
digits.
-/

namespace VersionedObjects.Grammar

open Number (Binary64 Digits standardLayout)

/-! ## The value of digits -/

/-- The decimal digits of a number have the number as their value. -/
theorem digitsValue_toDigits (n : Nat) : digitsValue (Nat.toDigits 10 n) = n :=
  Nat.ofDigitChars_toDigits (by decide) (by decide)

/-- The decimal digits of a number are digits. -/
theorem isDigit_toDigits {n : Nat} : ∀ c ∈ Nat.toDigits 10 n, c.isDigit = true :=
  fun _ hc => Nat.isDigit_of_mem_toDigits (by decide) (by decide) hc

/-- Zeros at the end multiply by powers of ten. -/
theorem digitsValue_append_zeros (cs : List Char) (n : Nat) :
    digitsValue (cs ++ List.replicate n '0') = 10 ^ n * digitsValue cs :=
  (Nat.ofDigitChars_append 0).trans Nat.ofDigitChars_replicate_zero

/-- Zeros in front count for nothing. -/
theorem digitsValue_zeros_append (n : Nat) (cs : List Char) :
    digitsValue (List.replicate n '0' ++ cs) = digitsValue cs := by
  have hzeros : Nat.ofDigitChars 10 (List.replicate n '0') 0 = 0 := by
    rw [Nat.ofDigitChars_replicate_zero, Nat.mul_zero]
  exact (Nat.ofDigitChars_append 0).trans (by rw [hzeros]; rfl)

/-- Zeros are digits. -/
theorem isDigit_zeros {n : Nat} : ∀ c ∈ List.replicate n '0', c.isDigit = true := by
  intro c hc
  rw [List.eq_of_mem_replicate hc]
  decide

/-! ## Digits around a point -/

/-- Digits on both sides of a point. -/
structure Decimal where
  whole : List Char
  fraction : List Char
  whole_ne_nil : whole ≠ []
  fraction_ne_nil : fraction ≠ []
  whole_digits : ∀ c ∈ whole, c.isDigit = true
  fraction_digits : ∀ c ∈ fraction, c.isDigit = true

namespace Decimal

/-- The digits with the point. -/
def text (d : Decimal) : List Char :=
  d.whole ++ '.' :: d.fraction

/-- The digits without the point, as a number. -/
def value (d : Decimal) : Nat :=
  digitsValue (d.whole ++ d.fraction)

/-- The rational that the digits are. -/
def rational (d : Decimal) : ℚ :=
  d.value * 10 ^ (-d.fraction.length : ℤ)

end Decimal

section Layout

variable {digits : List Char} {power : ℤ}

/-- Below one the digits follow zeros after the point. -/
theorem exists_decimal_of_neg (hne : digits ≠ []) (hdigits : ∀ c ∈ digits, c.isDigit = true)
    {zeros : ℕ} (hzeros : power + 1 = -zeros) : ∃ d : Decimal,
      d.text = ['0', '.'] ++ List.replicate zeros '0' ++ digits ∧
        d.rational = digitsValue digits * 10 ^ (power + 1 - digits.length) := by
  have hfraction : ∀ c ∈ List.replicate zeros '0' ++ digits, c.isDigit = true := by
    intro c hc
    exact (List.mem_append.mp hc).elim (isDigit_zeros c) (hdigits c)
  refine ⟨⟨['0'], List.replicate zeros '0' ++ digits, by decide, by simp [hne], by decide,
    hfraction⟩, by simp [Decimal.text], ?_⟩
  have hvalue : digitsValue (['0'] ++ (List.replicate zeros '0' ++ digits)) =
      digitsValue digits := digitsValue_zeros_append (zeros + 1) digits
  rw [Decimal.rational, Decimal.value, hvalue]
  congr 2
  simp only [List.length_append, List.length_replicate]
  omega

/-- A whole number is filled up with zeros, and one stands after the point. -/
theorem exists_decimal_of_whole (hne : digits ≠ []) (hdigits : ∀ c ∈ digits, c.isDigit = true)
    {zeros : ℕ} (hzeros : power + 1 = digits.length + zeros) : ∃ d : Decimal,
      d.text = digits ++ List.replicate zeros '0' ++ ['.', '0'] ∧
        d.rational = digitsValue digits * 10 ^ (power + 1 - digits.length) := by
  have hwhole : ∀ c ∈ digits ++ List.replicate zeros '0', c.isDigit = true := by
    intro c hc
    exact (List.mem_append.mp hc).elim (hdigits c) (isDigit_zeros c)
  refine ⟨⟨digits ++ List.replicate zeros '0', ['0'], by simp [hne], by decide, hwhole,
    by decide⟩, by simp [Decimal.text], ?_⟩
  have hvalue : digitsValue (digits ++ List.replicate zeros '0' ++ ['0']) =
      10 ^ (zeros + 1) * digitsValue digits := by
    rw [List.append_assoc, ← List.replicate_succ', digitsValue_append_zeros]
  rw [Decimal.rational, Decimal.value, hvalue, show power + 1 - digits.length = zeros by omega]
  simp only [List.length_singleton]
  push_cast
  rw [zpow_neg, zpow_one, zpow_natCast, pow_succ]
  ring

/-- The point stands between the digits. -/
theorem exists_decimal_of_split (hdigits : ∀ c ∈ digits, c.isDigit = true) {n : ℕ}
    (hpower : power = n) (hn : n + 1 < digits.length) : ∃ d : Decimal,
      d.text = digits.take (n + 1) ++ '.' :: digits.drop (n + 1) ∧
        d.rational = digitsValue digits * 10 ^ (power + 1 - digits.length) := by
  refine ⟨⟨digits.take (n + 1), digits.drop (n + 1), ?_, ?_, ?_, ?_⟩, rfl, ?_⟩
  · exact List.ne_nil_of_length_pos (by simp; omega)
  · exact List.ne_nil_of_length_pos (by simp; omega)
  · exact fun c hc => hdigits c (List.mem_of_mem_take hc)
  · exact fun c hc => hdigits c (List.mem_of_mem_drop hc)
  · rw [Decimal.rational, Decimal.value]
    simp only [List.take_append_drop, List.length_drop]
    congr 2
    omega

/-- In positional form stands what the digits count. -/
theorem exists_decimal (hne : digits ≠ []) (hdigits : ∀ c ∈ digits, c.isDigit = true)
    (hlow : -4 ≤ power) (hhigh : power ≤ 15) : ∃ d : Decimal,
      d.text = (standardLayout.digits digits power).toList ∧
        d.rational = digitsValue digits * 10 ^ (power + 1 - digits.length) := by
  have hpositional : standardLayout.leastPositional ≤ power ∧
      power ≤ standardLayout.greatestPositional := ⟨hlow, hhigh⟩
  have hsuffix : standardLayout.wholeSuffix.toList = ['.', '0'] := rfl
  rw [Number.Layout.digits, if_pos hpositional]
  split
  · next hsmall =>
    have hzeros : power + 1 = -((-power - 1).toNat : ℤ) := by omega
    obtain ⟨d, htext, hrational⟩ := exists_decimal_of_neg hne hdigits hzeros
    exact ⟨d, by simp [htext], hrational⟩
  · next hlarge =>
    obtain ⟨n, rfl⟩ := Int.eq_ofNat_of_zero_le (not_lt.mp hlarge)
    dsimp only
    rw [Int.toNat_natCast]
    rcases Nat.lt_or_ge (n + 1) digits.length with hlong | hshort
    · obtain ⟨d, htext, hrational⟩ := exists_decimal_of_split hdigits rfl hlong
      refine ⟨d, ?_, hrational⟩
      have hfraction : ¬ digits.length ≤ n + 1 := by omega
      have hpadding : n + 1 - digits.length = 0 := by omega
      simp [htext, hfraction, hpadding]
    · have hzeros : (n : ℤ) + 1 = digits.length + (n + 1 - digits.length : ℕ) := by omega
      obtain ⟨d, htext, hrational⟩ := exists_decimal_of_whole hne hdigits hzeros
      refine ⟨d, ?_, hrational⟩
      simp [htext, hsuffix, hshort, List.take_of_length_le]

/-- Outside of the positional range an exponent mark follows the digits, of which the first one
stands before a point. -/
theorem exists_exponential {c : Char} {more : List Char}
    (hdigits : ∀ d ∈ c :: more, d.isDigit = true) (hpower : ¬ (-4 ≤ power ∧ power ≤ 15)) :
    ∃ exponent, (standardLayout.digits (c :: more) power).toList = c :: 'e' :: exponent ∨
      ∃ d : Decimal,
        (standardLayout.digits (c :: more) power).toList = d.text ++ 'e' :: exponent := by
  have hpositional : ¬ (standardLayout.leastPositional ≤ power ∧
      power ≤ standardLayout.greatestPositional) := hpower
  have hmark : standardLayout.exponentMark.toList = ['e'] := rfl
  rw [Number.Layout.digits, if_neg hpositional]
  refine ⟨(toString power).toList, ?_⟩
  rw [List.forall_mem_cons] at hdigits
  cases more with
  | nil =>
    left
    simp [hmark]
  | cons d more =>
    refine .inr ⟨⟨[c], d :: more, by simp, by simp, by simpa using hdigits.1, hdigits.2⟩, ?_⟩
    simp [hmark, Decimal.text]

end Layout

section Text

variable {x : Binary64}

/-- The sign of a number as it is written. -/
def signText (negative : Bool) : List Char :=
  if negative then ['-'] else []

/-- A finite number is written as its sign and what its magnitude is written as. -/
theorem toList_text_of_isFinite (hfinite : x.isFinite = true) :
    x.text.toList = signText x.isNegative ++ if x.magnitude = 0 then ['0', '.', '0'] else
      (standardLayout.digits (Nat.toDigits 10 x.shortest.value) x.shortest.power).toList := by
  simp only [Binary64.isFinite, decide_eq_true_eq] at hfinite
  have hnan : x.isNaN = false := decide_eq_false (by omega)
  have hinfinite : x.isInfinite = false := beq_eq_false_iff_ne.mpr (by omega)
  have hzero : ("0" ++ standardLayout.wholeSuffix).toList = ['0', '.', '0'] := rfl
  have hsign : (if x.isNegative = true then "-" else "").toList = signText x.isNegative := by
    cases x.isNegative <;> rfl
  rw [Binary64.text, Number.Layout.text, hnan, hinfinite, ← hsign, ← hzero]
  rw [if_neg Bool.false_ne_true, String.toList_append, if_neg Bool.false_ne_true]
  congr 1
  split <;> rfl

/-- A decimal with no significand is zero, whatever its exponent. -/
theorem ofDecimal_zero (negative : Bool) (e : ℤ) :
    Binary64.ofDecimal negative 0 e = Binary64.ofMagnitude negative 0 := by
  simp [Binary64.ofDecimal, Binary64.ofRatio, Binary64.ratioBits]

/-- A number of the positional range is written as digits that are rounded to it. -/
theorem toList_text_of_isPositional (h : x.isPositional = true) :
    ∃ d : Decimal, x.text.toList = signText x.isNegative ++ d.text ∧
      Binary64.ofDecimal x.isNegative d.value (-d.fraction.length) = x := by
  have hfinite : x.isFinite = true := by
    rw [Binary64.isPositional, Bool.and_eq_true] at h
    exact h.1
  rw [toList_text_of_isFinite hfinite]
  split
  · next hzero =>
    refine ⟨⟨['0'], ['0'], by decide, by decide, by decide, by decide⟩, rfl, ?_⟩
    have hself := x.ofMagnitude_magnitude
    rw [hzero] at hself
    exact (ofDecimal_zero _ _).trans hself
  · next hx =>
    obtain ⟨hlow, hhigh⟩ := (Binary64.positional_power_iff hfinite hx).mpr h
    obtain ⟨d, htext, hrational⟩ := exists_decimal Nat.toDigits_ne_nil isDigit_toDigits hlow hhigh
    refine ⟨d, by rw [htext], Binary64.ofDecimal_of_near hfinite hx ?_⟩
    have hshortest := Binary64.near_shortest hx
    rw [digitsValue_toDigits, Digits.power, sub_add_cancel, add_sub_cancel_right] at hrational
    rwa [← Decimal.rational, hrational]

/-- Any other finite number is written with an exponent. -/
theorem toList_text_of_not_isPositional (hfinite : x.isFinite = true)
    (h : x.isPositional = false) : ∃ exponent,
      (∃ c, c.isDigit = true ∧ x.text.toList = signText x.isNegative ++ c :: 'e' :: exponent) ∨
      ∃ d : Decimal,
        x.text.toList = signText x.isNegative ++ (d.text ++ 'e' :: exponent) := by
  have hx : x.magnitude ≠ 0 := by
    intro hzero
    simp [Binary64.isPositional, hfinite, hzero] at h
  have hpower : ¬ (-4 ≤ x.shortest.power ∧ x.shortest.power ≤ 15) := by
    rw [Binary64.positional_power_iff hfinite hx, h]
    decide
  have hdigits := isDigit_toDigits (n := x.shortest.value)
  rw [toList_text_of_isFinite hfinite, if_neg hx]
  cases htext : Nat.toDigits 10 x.shortest.value with
  | nil => exact absurd htext Nat.toDigits_ne_nil
  | cons c more =>
    rw [htext] at hdigits
    obtain ⟨exponent, hwritten | ⟨d, hwritten⟩⟩ := exists_exponential hdigits hpower
    · exact ⟨exponent, .inl ⟨c, hdigits c (List.mem_cons_self ..), by rw [hwritten]⟩⟩
    · exact ⟨exponent, .inr ⟨d, by rw [hwritten]⟩⟩

end Text

end VersionedObjects.Grammar
