import Mathlib.Algebra.Ring.Nat
import ItemCatalog.Proofs.Number.Rounding

/-!
# Numbers without a minus sign

Positive zero adds nothing to a number, as long as the number carries no more digits than precision
allows and is not the negative zero. The numbers that are made without a minus sign stay without one
under sums, products and quotients.

Results:
1. `roundMagnitude_roundMagnitude`: rounding twice is rounding once.
2. `Unsigned.add`, `Unsigned.mul`, `Unsigned.div`, `Unsigned.fusedMultiplyAdd`, `Unsigned.larger`: what
   is computed from unsigned numbers is unsigned.
3. `Unsigned.zero_add`, `Unsigned.add_zero`: zero adds nothing.
-/

namespace ItemCatalog.Double

/-! ## Rounding twice -/

/-- A magnitude that ends at the lowest bit it can carry is its own rounding. -/
theorem roundMagnitude_eq_self {m : Nat} (h : 2 ^ lowestBit m ∣ m) : roundMagnitude m 1 = m := by
  have hrest : m % 2 ^ lowestBit m = 0 := Nat.mod_eq_zero_of_dvd h
  have hpos : 0 < 2 ^ lowestBit m := Nat.two_pow_pos _
  rw [roundMagnitude, Nat.div_one, Nat.one_shiftLeft, roundedQuotient, hrest, Nat.mul_zero,
    if_pos hpos, Nat.shiftLeft_eq]
  exact Nat.div_mul_cancel h

/-- A number of at most 53 digits, or the power of two above them, ends at the lowest bit that it can
carry, wherever its digits are shifted to. -/
theorem two_pow_lowestBit_dvd {q : Nat} (hq : q ≤ 2 ^ precision) (s : Nat) :
    2 ^ lowestBit (q * 2 ^ s) ∣ q * 2 ^ s := by
  rcases Nat.lt_or_eq_of_le hq with hlt | rfl
  · refine Nat.dvd_trans (Nat.pow_dvd_pow 2 ?_) (Nat.dvd_mul_left _ _)
    by_cases hzero : q * 2 ^ s = 0
    · rw [hzero]
      exact Nat.zero_le s
    · have hsize : q * 2 ^ s < 2 ^ (precision + s) := by
        rw [Nat.pow_add]
        exact Nat.mul_lt_mul_of_pos_right hlt (Nat.two_pow_pos s)
      have hlog := (Nat.log2_lt hzero).mpr hsize
      rw [lowestBit]
      omega
  · rw [← Nat.pow_add, lowestBit, Nat.log2_two_pow]
    exact Nat.pow_dvd_pow 2 (by rw [precision]; omega)

/-- A rounded quotient has at most 53 digits, or is the power of two above. -/
theorem roundedQuotient_le_two_pow (num den : Nat) :
    roundedQuotient num (den <<< lowestBit (num / den)) ≤ 2 ^ precision := by
  have hsize : num / den < 2 ^ precision * 2 ^ lowestBit (num / den) := by
    calc num / den
      _ < 2 ^ ((num / den).log2 + 1) := Nat.lt_log2_self
      _ ≤ 2 ^ (precision + lowestBit (num / den)) :=
        Nat.pow_le_pow_right (by decide) (by rw [lowestBit]; omega)
      _ = 2 ^ precision * 2 ^ lowestBit (num / den) := Nat.pow_add _ _ _
  have hquotient : num / (den <<< lowestBit (num / den)) < 2 ^ precision := by
    rw [Nat.shiftLeft_eq, ← Nat.div_div_eq_div_mul]
    exact Nat.div_lt_of_lt_mul (Nat.mul_comm _ _ ▸ hsize)
  have := roundedQuotient_le num (den <<< lowestBit (num / den))
  omega

theorem roundMagnitude_roundMagnitude (num den : Nat) :
    roundMagnitude (roundMagnitude num den) 1 = roundMagnitude num den := by
  refine roundMagnitude_eq_self ?_
  rw [roundMagnitude, Nat.shiftLeft_eq]
  exact two_pow_lowestBit_dvd (roundedQuotient_le_two_pow num den) _

/-! ## Unsigned numbers -/

/-- No minus sign, and no more digits than a number can carry. -/
inductive Unsigned : Double → Prop
  | finite {magnitude : Nat} : roundMagnitude magnitude 1 = magnitude → magnitude < limit →
      Unsigned (.finite false magnitude)
  | infinite : Unsigned (.infinite false)
  | nan : Unsigned .nan

theorem unsigned_ofUnits (num den : Nat) : Unsigned (ofUnits false num den) := by
  rw [ofUnits]
  split
  next h => exact .finite (roundMagnitude_roundMagnitude num den) h
  next => exact .infinite

theorem unsigned_zero : Unsigned zero := by
  have hlimit : 0 < limit := by decide +kernel
  exact .finite (roundMagnitude_eq_self (Nat.dvd_zero _)) hlimit

theorem unsigned_sumOfUnits (a b den : Nat) : Unsigned (sumOfUnits false a false b den) := by
  rw [sumOfUnits, if_pos rfl]
  exact unsigned_ofUnits _ _

theorem unsigned_ofNat (n : Nat) : Unsigned (ofNat n) := by
  rw [ofNat, ofRatio]
  exact unsigned_ofUnits _ _

namespace Unsigned

variable {x y z : Double}

theorem add (hx : Unsigned x) (hy : Unsigned y) : Unsigned (x + y) := by
  show Unsigned (x.add y)
  cases hx with
  | finite =>
    cases hy with
    | finite => exact unsigned_sumOfUnits _ _ _
    | infinite => exact .infinite
    | nan => exact .nan
  | infinite =>
    cases hy with
    | finite | infinite => exact .infinite
    | nan => exact .nan
  | nan => exact .nan

theorem mul (hx : Unsigned x) (hy : Unsigned y) : Unsigned (x * y) := by
  show Unsigned (x.mul y)
  cases hx with
  | finite =>
    cases hy with
    | finite =>
      rw [Double.mul]
      exact unsigned_ofUnits _ _
    | infinite =>
      rw [Double.mul]
      split
      · exact .nan
      · exact .infinite
    | nan => exact .nan
  | infinite =>
    cases hy with
    | finite =>
      rw [Double.mul]
      split
      · exact .nan
      · exact .infinite
    | infinite => exact .infinite
    | nan => exact .nan
  | nan => exact .nan

theorem div (hx : Unsigned x) (hy : Unsigned y) : Unsigned (x / y) := by
  show Unsigned (x.div y)
  cases hx with
  | finite =>
    cases hy with
    | finite =>
      rw [Double.div]
      split
      · split
        · exact .nan
        · exact .infinite
      · exact unsigned_ofUnits _ _
    | infinite => exact unsigned_zero
    | nan => exact .nan
  | infinite =>
    cases hy with
    | finite => exact .infinite
    | infinite | nan => exact .nan
  | nan => exact .nan

theorem fusedMultiplyAdd (hx : Unsigned x) (hy : Unsigned y) (hz : Unsigned z) :
    Unsigned (Double.fusedMultiplyAdd x y z) := by
  have hseparate := (hx.mul hy).add hz
  cases hx with
  | finite =>
    cases hy with
    | finite =>
      cases hz with
      | finite => exact unsigned_sumOfUnits _ _ _
      | infinite => exact .infinite
      | nan => exact hseparate
    | infinite | nan => exact hseparate
  | infinite | nan => exact hseparate

theorem larger (hx : Unsigned x) (hy : Unsigned y) : Unsigned (x.larger y) := by
  unfold Double.larger
  split
  next => exact hy
  next => exact hx
  next => split_ifs <;> assumption

/-- Adding zero rounds a number that is rounded. -/
theorem zero_add (hx : Unsigned x) : Double.zero + x = x := by
  show Double.zero.add x = x
  cases hx with
  | @finite m hrounded hlimit =>
    rw [zero, Double.add, sumOfUnits, if_pos rfl, Nat.zero_add, ofUnits, hrounded, if_pos hlimit]
  | infinite | nan => rfl

theorem add_zero (hx : Unsigned x) : x + Double.zero = x := by
  show x.add .zero = x
  cases hx with
  | @finite m hrounded hlimit =>
    rw [zero, Double.add, sumOfUnits, if_pos rfl, Nat.add_zero, ofUnits, hrounded, if_pos hlimit]
  | infinite | nan => rfl

end Unsigned

end ItemCatalog.Double
