import ItemCatalog.Proofs.Number.Nearest
import ItemCatalog.Proofs.Number.Order

/-!
# Numbers greater than zero

Rounding takes no number of a unit or more to zero, so sums of positive numbers are positive, and so
are their products with counts.

Results:
1. `Positive.zero_below`: positive numbers are above zero.
2. `exists_ofNat_eq`: a count that is not too large is a finite number, of the size of one or more.
3. `Positive.add`, `Positive.ofNat_mul`, `Positive.fusedMultiplyAdd`: sums and multiples of positive
   numbers are positive.
-/

namespace ItemCatalog.Double

/-- Greater than zero. -/
inductive Positive : Double → Prop
  | finite {magnitude : Nat} : 0 < magnitude → Positive (.finite false magnitude)
  | infinite : Positive (.infinite false)

theorem one_pos : 0 < one := by decide +kernel

theorem limit_pos : 0 < limit := by decide +kernel

namespace Positive

variable {x y : Double}

theorem ne_nan (h : Positive x) : x ≠ .nan := by
  rintro rfl
  cases h

theorem place_pos (h : Positive x) : 0 < x.place := by
  cases h with
  | finite hpos => exact Int.natCast_pos.mpr hpos
  | infinite => exact Int.natCast_pos.mpr limit_pos

theorem zero_below (h : Positive x) : zero.below x := by
  have hzero : zero ≠ .nan := nofun
  exact (below_iff hzero h.ne_nan).mpr h.place_pos

/-- The larger of a positive number and zero is the positive one. -/
theorem larger_zero (h : Positive x) : x.larger .zero = x := by
  have hzero : zero ≠ .nan := nofun
  have hnot : ¬ x.below .zero := fun hbelow =>
    Int.lt_asymm h.place_pos ((below_iff h.ne_nan hzero).mp hbelow)
  rw [larger, if_neg hnot]
  · exact h.ne_nan
  · exact hzero

end Positive

/-! ## Rounding -/

theorem representable_unit : Representable 1 := by
  have hbit : lowestBit 1 = 0 := by decide
  rw [Representable, hbit]
  exact Nat.dvd_refl 1

theorem representable_one : Representable one := by
  have hone : one = 1 * 2 ^ 1074 := by decide +kernel
  rw [hone]
  exact representable_mul_two_pow (by decide) 1074

/-- A unit or more does not round to zero. -/
theorem positive_ofUnits {num den : Nat} (hden : 0 < den) (h : den ≤ num) :
    Positive (ofUnits false num den) := by
  have hunit := le_roundMagnitude_of_le hden representable_unit ((Nat.one_mul den).symm ▸ h)
  rw [ofUnits]
  split
  · exact .finite hunit
  · exact .infinite

/-- A count that is not zero has the size of one or more. -/
theorem ofNat_cases {n : Nat} (h : 0 < n) :
    (∃ magnitude, one ≤ magnitude ∧ ofNat n = .finite false magnitude) ∨
      ofNat n = .infinite false := by
  have hsize : one * 1 ≤ n * one := by
    rw [Nat.mul_one]
    exact Nat.le_mul_of_pos_left one h
  have hround := le_roundMagnitude_of_le Nat.one_pos representable_one hsize
  rw [ofNat, ofRatio, ofUnits]
  split
  · exact .inl ⟨_, hround, rfl⟩
  · exact .inr rfl

/-- A count that is not too large is a finite number. -/
theorem exists_ofNat_eq {n : Nat} (hpos : 0 < n) (h : n ≤ 2 ^ 64) :
    ∃ magnitude, one ≤ magnitude ∧ ofNat n = .finite false magnitude := by
  rcases ofNat_cases hpos with hfinite | hinfinite
  · exact hfinite
  · have hn := isFinite_ofNat h
    rw [hinfinite] at hn
    cases hn

/-! ## Sums and multiples -/

namespace Positive

variable {x y : Double}

theorem add (hx : Positive x) (hy : Positive y) : Positive (x + y) := by
  show Positive (x.add y)
  cases hx with
  | finite hx =>
    cases hy with
    | finite hy =>
      rw [Double.add, sumOfUnits, if_pos rfl]
      exact positive_ofUnits Nat.one_pos (by omega)
    | infinite => exact .infinite
  | infinite => cases hy <;> exact .infinite

theorem ofNat_mul {n : Nat} (hn : 0 < n) (hx : Positive x) : Positive (ofNat n * x) := by
  show Positive ((ofNat n).mul x)
  have hone := one_pos
  rcases ofNat_cases hn with ⟨magnitude, hsize, he⟩ | he <;> rw [he]
  · cases hx with
    | finite hx =>
      rw [Double.mul]
      exact positive_ofUnits hone (Nat.le_trans hsize (Nat.le_mul_of_pos_right _ hx))
    | infinite =>
      rw [Double.mul, if_neg (by omega)]
      exact .infinite
  · cases hx with
    | finite hx =>
      rw [Double.mul, if_neg (by omega)]
      exact .infinite
    | infinite => exact .infinite

/-- A product without a minus sign and a positive number behind it are together positive. -/
theorem fusedMultiplyAdd {m p : Nat} (hm : 0 < m) (hp : 0 < p) (hx : x.Unsigned) (hnan : x ≠ .nan) :
    Positive (Double.fusedMultiplyAdd (.finite false m) x (.finite false p)) := by
  cases hx with
  | @finite n =>
    show Positive (sumOfUnits false (m * n) false (p * one) one)
    rw [sumOfUnits, if_pos rfl]
    exact positive_ofUnits one_pos (Nat.le_add_left_of_le (Nat.le_mul_of_pos_left one hp))
  | infinite =>
    show Positive ((if m = 0 then Double.nan else .infinite false).add (.finite false p))
    rw [if_neg hm.ne']
    exact .infinite
  | nan => exact absurd rfl hnan

end Positive

/-- A quotient of counts is a number. -/
theorem ofNat_div_ofNat_ne_nan {m n : Nat} (hm : 0 < m) (hn : 0 < n) (hmsize : m ≤ 2 ^ 64)
    (hnsize : n ≤ 2 ^ 64) : ofNat m / ofNat n ≠ .nan := by
  obtain ⟨a, _, ha⟩ := exists_ofNat_eq hm hmsize
  obtain ⟨b, hb, he⟩ := exists_ofNat_eq hn hnsize
  have hb := Nat.lt_of_lt_of_le one_pos hb
  rw [ha, he]
  show Double.div _ _ ≠ .nan
  rw [Double.div, if_neg hb.ne']
  exact ofUnits_ne_nan _ _ _

end ItemCatalog.Double
