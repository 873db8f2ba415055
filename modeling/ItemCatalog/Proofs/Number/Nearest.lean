import Mathlib.Algebra.Order.Field.Basic
import Mathlib.Algebra.Order.Field.Rat
import Mathlib.Data.NNRat.Floor
import Mathlib.Data.Nat.Dist
import ItemCatalog.Proofs.Number.Digits
import ItemCatalog.Proofs.Number.Unsigned

/-!
# The number nearest to a fraction

Rounding gives the nearest of the magnitudes that a number can have, and it depends on the value of a
ratio only, so every fraction has one nearest number. Reading a decimal rounds its value in this
sense: the sizes at which reading stops early lie outside the finite numbers, and below half of the
least one.

Results:
1. `roundMagnitude_nearest`: no magnitude is nearer to a ratio than its rounding.
2. `ofRatio_eq_nearest`: ratios round to the number nearest to their value.
3. `toDouble_eq_nearest`: decimals are read as the number nearest to their value.
-/

namespace ItemCatalog

/-- The value of a decimal. -/
def Decimal.value (d : Decimal) : ℚ≥0 :=
  d.digits * 10 ^ d.exponent

namespace Double

/-- A magnitude that a number can have: it ends at the lowest bit that it can carry. -/
def Representable (magnitude : Nat) : Prop :=
  2 ^ lowestBit magnitude ∣ magnitude

/-- The number nearest to a fraction. -/
def nearest (negative : Bool) (q : ℚ≥0) : Double :=
  ofRatio negative q.num q.den

variable {num den : Nat}

/-! ## The nearest magnitude -/

theorem roundedQuotient_cases (num den : Nat) :
    (roundedQuotient num den = num / den ∧ 2 * (num % den) ≤ den) ∨
      (roundedQuotient num den = num / den + 1 ∧ den ≤ 2 * (num % den)) := by
  rw [roundedQuotient]
  split_ifs <;> omega

/-- No multiple of the denominator is nearer than the one that rounding gives. -/
theorem roundedQuotient_nearest (num : Nat) (hden : 0 < den) (k : Nat) :
    Nat.dist num (roundedQuotient num den * den) ≤ Nat.dist num (k * den) := by
  have hdivision := Nat.div_add_mod' num den
  have hrest := Nat.mod_lt num hden
  have hside : k * den ≤ num / den * den ∨ (num / den + 1) * den ≤ k * den := by
    rcases Nat.lt_or_ge (num / den) k with h | h
    · exact .inr (Nat.mul_le_mul_right den h)
    · exact .inl (Nat.mul_le_mul_right den h)
  unfold Nat.dist
  rcases roundedQuotient_cases num den with ⟨hq, htwice⟩ | ⟨hq, htwice⟩
  all_goals
    rw [hq]
    rw [Nat.succ_mul] at *
    omega

theorem lt_of_lowestBit_lt {m shift : Nat} (h : lowestBit m < shift) : m < 2 ^ (52 + shift) := by
  rw [lowestBit, precision] at h
  calc m
    _ < 2 ^ (m.log2 + 1) := Nat.lt_log2_self
    _ ≤ 2 ^ (52 + shift) := Nat.pow_le_pow_right (by decide) (by omega)

theorem le_of_lowestBit_pos {m : Nat} (h : 0 < lowestBit m) : 2 ^ (52 + lowestBit m) ≤ m := by
  have hzero : m ≠ 0 := by
    rintro rfl
    exact absurd h (by decide)
  have hlog : 52 + lowestBit m = m.log2 := by
    rw [lowestBit, precision] at *
    omega
  rw [hlog]
  exact Nat.log2_self_le hzero

theorem roundMagnitude_nearest (num : Nat) (hden : 0 < den) {m : Nat} (hm : Representable m) :
    Nat.dist num (roundMagnitude num den * den) ≤ Nat.dist num (m * den) := by
  rw [roundMagnitude]
  generalize hshift : lowestBit (num / den) = shift
  have hstep : 0 < den <<< shift := by
    rw [Nat.shiftLeft_eq]
    exact Nat.mul_pos hden (Nat.two_pow_pos shift)
  have hround : roundedQuotient num (den <<< shift) <<< shift * den =
      roundedQuotient num (den <<< shift) * (den <<< shift) := by
    rw [Nat.shiftLeft_eq, Nat.shiftLeft_eq, Nat.mul_assoc, Nat.mul_comm den]
  rw [hround]
  by_cases hsize : shift ≤ lowestBit m
  · -- The magnitude lies on the grid of the rounding.
    obtain ⟨k, hk⟩ := Nat.dvd_trans (Nat.pow_dvd_pow 2 hsize) hm
    have hgrid : m * den = k * (den <<< shift) := by
      rw [Nat.shiftLeft_eq, hk, Nat.mul_comm (2 ^ shift), Nat.mul_assoc, Nat.mul_comm den]
    rw [hgrid]
    exact roundedQuotient_nearest num hstep k
  · -- The magnitude is smaller than the least one with this grid, which is not larger than the ratio.
    have hsize := Nat.lt_of_not_le hsize
    have hgrid : 2 ^ 52 * (den <<< shift) = 2 ^ (52 + shift) * den := by
      rw [Nat.shiftLeft_eq, Nat.mul_comm den, ← Nat.mul_assoc, ← Nat.pow_add]
    have hlow : m * den ≤ 2 ^ (52 + shift) * den :=
      Nat.mul_le_mul_right den (lt_of_lowestBit_lt hsize).le
    have hhigh : 2 ^ (52 + shift) * den ≤ num := by
      calc 2 ^ (52 + shift) * den
        _ ≤ num / den * den :=
          Nat.mul_le_mul_right den (hshift ▸ le_of_lowestBit_pos (hshift ▸ Nat.zero_lt_of_lt hsize))
        _ ≤ num := Nat.div_mul_le_self num den
    have hnearest := roundedQuotient_nearest num hstep (2 ^ 52)
    rw [hgrid] at hnearest
    unfold Nat.dist at hnearest ⊢
    omega

/-- Rounding does not cross a magnitude. -/
theorem roundMagnitude_le_of_le (hden : 0 < den) {m : Nat} (hm : Representable m)
    (h : num ≤ m * den) : roundMagnitude num den ≤ m := by
  have hnearest := roundMagnitude_nearest num hden hm
  unfold Nat.dist at hnearest
  exact Nat.le_of_mul_le_mul_right (by omega) hden

theorem le_roundMagnitude_of_le (hden : 0 < den) {m : Nat} (hm : Representable m)
    (h : m * den ≤ num) : m ≤ roundMagnitude num den := by
  have hnearest := roundMagnitude_nearest num hden hm
  unfold Nat.dist at hnearest
  exact Nat.le_of_mul_le_mul_right (by omega) hden

/-- What is less than half a unit rounds to nothing. -/
theorem roundMagnitude_eq_zero (h : 2 * num < den) : roundMagnitude num den = 0 := by
  have hden : 0 < den := by omega
  have hnearest := roundMagnitude_nearest num hden (m := 0) (Nat.dvd_zero _)
  unfold Nat.dist at hnearest
  have hless : roundMagnitude num den * den < 1 * den := by omega
  exact Nat.lt_one_iff.mp (Nat.lt_of_mul_lt_mul_right hless)

theorem representable_mul_two_pow {m : Nat} (h : m ≤ 2 ^ precision) (shift : Nat) :
    Representable (m * 2 ^ shift) :=
  two_pow_lowestBit_dvd h shift

theorem representable_limit : Representable limit := by
  have hlimit : limit = 1 * 2 ^ 2098 := by decide +kernel
  rw [hlimit]
  exact representable_mul_two_pow (by decide) 2098

/-! ## Ratios of one value -/

theorem roundedQuotient_mul_right {k : Nat} (hk : 0 < k) :
    roundedQuotient (num * k) (den * k) = roundedQuotient num den := by
  have hrest : 2 * (num * k % (den * k)) = 2 * (num % den) * k := by
    rw [Nat.mul_mod_mul_right, Nat.mul_assoc]
  simp only [roundedQuotient, Nat.mul_div_mul_right num den hk, hrest, Nat.mul_lt_mul_right hk]

theorem roundMagnitude_mul_right {k : Nat} (hk : 0 < k) :
    roundMagnitude (num * k) (den * k) = roundMagnitude num den := by
  have hden (s : Nat) : (den * k) <<< s = den <<< s * k := by
    rw [Nat.shiftLeft_eq, Nat.shiftLeft_eq, Nat.mul_right_comm]
  rw [roundMagnitude, roundMagnitude, Nat.mul_div_mul_right num den hk, hden,
    roundedQuotient_mul_right hk]

/-- Two ratios of one value round to one number. -/
theorem ofRatio_eq_of_mul_eq (negative : Bool) {num' den' : Nat} (hden : 0 < den) (hden' : 0 < den')
    (h : num * den' = num' * den) : ofRatio negative num den = ofRatio negative num' den' := by
  have hround : roundMagnitude (num * one) den = roundMagnitude (num' * one) den' := by
    calc roundMagnitude (num * one) den
      _ = roundMagnitude (num * one * den') (den * den') := (roundMagnitude_mul_right hden').symm
      _ = roundMagnitude (num' * one * den) (den' * den) := by
        rw [Nat.mul_right_comm, h, Nat.mul_right_comm, Nat.mul_comm den]
      _ = roundMagnitude (num' * one) den' := roundMagnitude_mul_right hden
  rw [ofRatio, ofRatio, ofUnits, ofUnits, hround]

theorem ofRatio_eq_nearest (negative : Bool) (hden : 0 < den) :
    ofRatio negative num den = nearest negative (num / den) := by
  refine ofRatio_eq_of_mul_eq negative hden (NNRat.den_pos _) ?_
  have hden' : (den : ℚ≥0) ≠ 0 := Nat.cast_ne_zero.mpr hden.ne'
  have hvalue := NNRat.num_div_den ((num : ℚ≥0) / den)
  rw [div_eq_div_iff (Nat.cast_ne_zero.mpr (NNRat.den_ne_zero _)) hden'] at hvalue
  exact_mod_cast hvalue.symm

/-! ## Sizes of fractions -/

section Sizes

variable {negative : Bool} {q : ℚ≥0} {n : Nat}

theorem le_natCast_iff : q ≤ n ↔ q.num ≤ n * q.den := by
  rw [NNRat.le_def, NNRat.num_natCast, NNRat.den_natCast, Nat.mul_one]

theorem natCast_le_iff : n ≤ q ↔ n * q.den ≤ q.num := by
  rw [NNRat.le_def, NNRat.num_natCast, NNRat.den_natCast, Nat.mul_one]

theorem mul_natCast_lt_one_iff : q * n < 1 ↔ q.num * n < q.den := by
  have hden : (0 : ℚ≥0) < q.den := Nat.cast_pos.mpr q.den_pos
  nth_rewrite 1 [← NNRat.num_div_den q]
  rw [div_mul_eq_mul_div, div_lt_one hden]
  exact_mod_cast Iff.rfl

/-- Below half of the least positive number there is only zero. -/
theorem nearest_of_lt (h : q * (2 * one : Nat) < 1) : nearest negative q = .finite negative 0 := by
  have hnum : 2 * (q.num * one) < q.den := by
    rw [Nat.mul_left_comm]
    exact mul_natCast_lt_one_iff.mp h
  have hlimit : 0 < limit := by decide +kernel
  rw [nearest, ofRatio, ofUnits, roundMagnitude_eq_zero hnum, if_pos hlimit]

theorem nearest_of_ge (h : (2 ^ 1024 : Nat) ≤ q) : nearest negative q = .infinite negative := by
  have hunits : limit = 2 ^ 1024 * one := by decide +kernel
  have hnum : limit * q.den ≤ q.num * one := by
    rw [hunits, Nat.mul_right_comm]
    exact Nat.mul_le_mul_right one (natCast_le_iff.mp h)
  have hlimit := le_roundMagnitude_of_le q.den_pos representable_limit hnum
  rw [nearest, ofRatio, ofUnits, if_neg (Nat.not_lt.mpr hlimit)]

theorem nearest_of_le (hn : Representable (n * one)) (hlimit : n * one < limit) (h : q ≤ n) :
    ∃ magnitude ≤ n * one, nearest negative q = .finite negative magnitude := by
  have hnum : q.num * one ≤ n * one * q.den := by
    rw [Nat.mul_right_comm]
    exact Nat.mul_le_mul_right one (le_natCast_iff.mp h)
  have hround := roundMagnitude_le_of_le q.den_pos hn hnum
  refine ⟨_, hround, ?_⟩
  rw [nearest, ofRatio, ofUnits, if_pos (Nat.lt_of_le_of_lt hround hlimit)]

end Sizes

/-! ## Decimals -/

/-- How many places there are before the point of a decimal. -/
def size (d : Decimal) : Int :=
  d.exponent + (digitsOf d.digits).length

theorem ten_pos : (0 : ℚ≥0) < 10 := by norm_num

theorem value_lt (d : Decimal) : d.value < 10 ^ size d := by
  have hdigits : (d.digits : ℚ≥0) < 10 ^ (digitsOf d.digits).length := by
    exact_mod_cast lt_ten_pow_length_digitsOf d.digits
  rw [Decimal.value, size, zpow_add₀ ten_pos.ne', zpow_natCast, mul_comm]
  exact mul_lt_mul_of_pos_left hdigits (zpow_pos ten_pos _)

theorem le_value {d : Decimal} (h : d.digits ≠ 0) : 10 ^ (size d - 1) ≤ d.value := by
  have hdigits : (10 : ℚ≥0) ^ ((digitsOf d.digits).length - 1) ≤ d.digits := by
    exact_mod_cast ten_pow_le_of_length_digitsOf h
  have hlength : 0 < (digitsOf d.digits).length := List.length_pos_iff.mpr (digitsOf_ne_nil _)
  have hsize : size d - 1 = ((digitsOf d.digits).length - 1 : Nat) + d.exponent := by
    rw [size]
    omega
  rw [hsize, zpow_add₀ ten_pos.ne', zpow_natCast, Decimal.value]
  exact mul_le_mul_of_nonneg_right hdigits (zpow_pos ten_pos _).le

theorem toDouble_eq (negative : Bool) (d : Decimal) :
    d.toDouble negative =
      if d.digits = 0 then .finite negative 0
      else if 310 < size d then .infinite negative
      else if size d < -400 then .finite negative 0
      else if 0 ≤ d.exponent then ofRatio negative (d.digits * Nat.pow 10 d.exponent.toNat) 1
      else ofRatio negative d.digits (Nat.pow 10 (-d.exponent).toNat) := rfl

/-- Nothing is lost where reading a decimal stops early. -/
theorem toDouble_eq_nearest (negative : Bool) (d : Decimal) :
    d.toDouble negative = nearest negative d.value := by
  have hten : (1 : ℚ≥0) ≤ 10 := by norm_num
  rw [toDouble_eq]
  split_ifs with hzero hlarge hsmall hexponent
  · have hvalue : d.value = 0 := by rw [Decimal.value, hzero, Nat.cast_zero, zero_mul]
    refine (nearest_of_lt ?_).symm
    rw [hvalue, zero_mul]
    exact zero_lt_one
  · have hlimit : 2 ^ 1024 ≤ 10 ^ 310 := by decide +kernel
    have hsize : 310 ≤ size d - 1 := Int.le_sub_one_of_lt hlarge
    refine (nearest_of_ge ?_).symm
    calc ((2 ^ 1024 : Nat) : ℚ≥0)
      _ ≤ (10 ^ 310 : Nat) := Nat.cast_le.mpr hlimit
      _ = 10 ^ (310 : Int) := by rw [Nat.cast_pow]; rfl
      _ ≤ 10 ^ (size d - 1) := zpow_le_zpow_right₀ hten hsize
      _ ≤ d.value := le_value hzero
  · have hleast : 2 * one ≤ 10 ^ 400 := by decide +kernel
    have hsize : size d ≤ -400 := hsmall.le
    have hpos : (0 : ℚ≥0) < (10 ^ 400 : Nat) := by
      rw [Nat.cast_pow]
      exact pow_pos ten_pos 400
    refine (nearest_of_lt ?_).symm
    calc d.value * (2 * one : Nat)
      _ ≤ d.value * (10 ^ 400 : Nat) := mul_le_mul_of_nonneg_left (Nat.cast_le.mpr hleast) zero_le
      _ < 10 ^ size d * (10 ^ 400 : Nat) :=
        mul_lt_mul_of_pos_right (value_lt d) hpos
      _ ≤ 10 ^ (-400 : Int) * (10 ^ 400 : Nat) :=
        mul_le_mul_of_nonneg_right (zpow_le_zpow_right₀ hten hsize) zero_le
      _ = 1 := by
        rw [Nat.cast_pow, ← zpow_natCast]
        exact zpow_neg_mul_zpow_self 400 ten_pos.ne'
  · have hvalue : d.value = (d.digits * Nat.pow 10 d.exponent.toNat : Nat) / (1 : Nat) := by
      have hpow : d.exponent = d.exponent.toNat := (Int.toNat_of_nonneg hexponent).symm
      rw [Decimal.value, hpow, zpow_natCast, Nat.cast_one, div_one, Nat.cast_mul]
      exact congrArg _ (Nat.cast_pow 10 _).symm
    rw [hvalue, ofRatio_eq_nearest negative Nat.one_pos]
  · have hvalue : d.value = d.digits / (Nat.pow 10 (-d.exponent).toNat : Nat) := by
      have hpow : d.exponent = -((-d.exponent).toNat : Int) := by omega
      rw [Decimal.value, hpow, zpow_neg, zpow_natCast, neg_neg, Int.toNat_natCast, div_eq_mul_inv]
      exact congrArg _ (congrArg _ (Nat.cast_pow 10 _).symm)
    have hden : 0 < Nat.pow 10 (-d.exponent).toNat := Nat.pow_pos (by decide)
    rw [hvalue, ofRatio_eq_nearest negative hden]

end Double

end ItemCatalog
