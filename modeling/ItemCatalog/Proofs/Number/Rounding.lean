import Mathlib.Algebra.Ring.Nat
import Mathlib.Tactic.SplitIfs
import ItemCatalog.Number.Double

/-!
# What rounding gives

A rounded number is finite or infinite, never `nan`, and at most a unit above twice the exact one.

Results:
1. `fusedMultiplyAdd_ne_nan`: finite factors give a number.
2. `roundMagnitude_le`: how far rounding goes up.
3. `isFinite_ofNat`: counts are finite numbers, and so are the levels of items (`isFinite_ofNat_toNat`).
-/

namespace ItemCatalog.Double

/-! ## Numbers that are not `nan` -/

theorem ofUnits_ne_nan (negative : Bool) (num den : Nat) : ofUnits negative num den ≠ .nan := by
  rw [ofUnits]
  split <;> exact nofun

theorem ofInt_ne_nan (n : Int) : ofInt n ≠ .nan := by
  rw [ofInt, ofRatio]
  exact ofUnits_ne_nan _ _ _

theorem sumOfUnits_ne_nan (s : Bool) (m : Nat) (t : Bool) (n den : Nat) :
    sumOfUnits s m t n den ≠ .nan := by
  rw [sumOfUnits]
  split_ifs
  · exact ofUnits_ne_nan _ _ _
  · exact nofun
  · exact ofUnits_ne_nan _ _ _
  · exact ofUnits_ne_nan _ _ _

theorem fusedMultiplyAdd_ne_nan {x y z : Double} (hx : x.isFinite) (hy : y.isFinite)
    (hz : z ≠ .nan) : fusedMultiplyAdd x y z ≠ .nan := by
  match x, y, z with
  | .finite s m, .finite t n, .finite u p => exact sumOfUnits_ne_nan _ _ _ _ _
  | .finite _ _, .finite _ _, .infinite _ => exact nofun
  | .finite _ _, .finite _ _, .nan => exact absurd rfl hz

/-! ## Sizes -/

theorem roundedQuotient_le (num den : Nat) : roundedQuotient num den ≤ num / den + 1 := by
  rw [roundedQuotient]
  split_ifs <;> omega

/-- The last place of a number is at most its size. -/
theorem one_shiftLeft_lowestBit_le (magnitude : Nat) :
    1 <<< lowestBit magnitude ≤ magnitude + 1 := by
  rw [Nat.one_shiftLeft]
  by_cases hzero : magnitude = 0
  · subst hzero
    decide
  · calc 2 ^ lowestBit magnitude
      _ ≤ 2 ^ magnitude.log2 :=
        Nat.pow_le_pow_right (by decide) (by rw [lowestBit, precision]; omega)
      _ ≤ magnitude := Nat.log2_self_le hzero
      _ ≤ magnitude + 1 := Nat.le_succ _

/-- Rounding adds one unit in the last place at most. -/
theorem roundMagnitude_le (num den : Nat) : roundMagnitude num den ≤ 2 * (num / den) + 1 := by
  rw [roundMagnitude]
  have hunit := one_shiftLeft_lowestBit_le (num / den)
  generalize lowestBit (num / den) = shift at hunit ⊢
  rw [Nat.one_shiftLeft] at hunit
  rw [Nat.shiftLeft_eq, Nat.shiftLeft_eq]
  calc roundedQuotient num (den * 2 ^ shift) * 2 ^ shift
    _ ≤ (num / (den * 2 ^ shift) + 1) * 2 ^ shift := Nat.mul_le_mul_right _ (roundedQuotient_le _ _)
    _ = num / den / 2 ^ shift * 2 ^ shift + 2 ^ shift := by
      rw [Nat.add_mul, Nat.one_mul, Nat.div_div_eq_div_mul]
    _ ≤ num / den + (num / den + 1) := Nat.add_le_add (Nat.div_mul_le_self _ _) hunit
    _ = 2 * (num / den) + 1 := by omega

/-- Counts are far below the largest finite number. -/
theorem isFinite_ofNat {n : Nat} (h : n ≤ 2 ^ 64) : (ofNat n).isFinite := by
  have hlimit : 2 * (2 ^ 64 * one) + 1 < limit := by decide +kernel
  have hround := roundMagnitude_le (n * one) 1
  have hn : n * one ≤ 2 ^ 64 * one := Nat.mul_le_mul_right _ h
  rw [Nat.div_one] at hround
  have hfinite : roundMagnitude (n * one) 1 < limit := by omega
  rw [ofNat, ofRatio, ofUnits, if_pos hfinite]
  rfl

theorem isFinite_ofNat_toNat (level : UInt8) : (ofNat level.toNat).isFinite :=
  isFinite_ofNat (Nat.le_of_lt (Nat.lt_trans level.toNat_lt (by decide)))

end ItemCatalog.Double
