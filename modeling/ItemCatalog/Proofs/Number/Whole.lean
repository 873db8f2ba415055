import Mathlib.Data.Int.NatAbs
import ItemCatalog.Proofs.Number.Positive

/-!
# Whole numbers of double precision

Sums and differences of whole numbers are exact up to `2⁵³`, the first number whose neighbours are more
than one apart.

Results:
1. `Holds.ofInt`: whole numbers of that size are made without rounding.
2. `Holds.neg`, `Holds.add`, `Holds.sub`: their arithmetic is that of the integers.
3. `Holds.isWhole`, `Holds.truncated_eq`: the number is read back.
-/

namespace ItemCatalog.Double

/-- The number is a whole one. Zero may have either sign. -/
inductive Holds : Double → Int → Prop
  | positive (k : Nat) : Holds (.finite false (k * one)) k
  | negative (k : Nat) : Holds (.finite true (k * one)) (-k)

/-! ## Rounding -/

theorem representable_mul_one {k : Nat} (h : k ≤ 2 ^ precision) : Representable (k * one) := by
  have hone : one = 2 ^ 1074 := by decide +kernel
  rw [hone]
  exact representable_mul_two_pow h 1074

theorem mul_one_lt_limit {k : Nat} (h : k ≤ 2 ^ precision) : k * one < limit := by
  have hlimit : 2 ^ precision * one < limit := by decide +kernel
  have hle : k * one ≤ 2 ^ precision * one := Nat.mul_le_mul_right one h
  exact Nat.lt_of_le_of_lt hle hlimit

/-- Whole numbers up to `2⁵³` are not rounded. -/
theorem ofUnits_mul_one (negative : Bool) {k : Nat} (h : k ≤ 2 ^ precision) :
    ofUnits negative (k * one) 1 = .finite negative (k * one) := by
  rw [ofUnits, roundMagnitude_eq_self (representable_mul_one h), if_pos (mul_one_lt_limit h)]

theorem sumOfUnits_comm (s : Bool) (a : Nat) (t : Bool) (b den : Nat) :
    sumOfUnits s a t b den = sumOfUnits t b s a den := by
  unfold sumOfUnits
  rcases Bool.eq_or_eq_not s t with rfl | rfl
  · rw [if_pos rfl, if_pos rfl, Nat.add_comm]
  · rw [if_neg (Bool.not_ne_self t), if_neg (Bool.self_ne_not t)]
    rcases Nat.lt_trichotomy a b with hlt | rfl | hlt
    · rw [if_neg hlt.ne, if_neg hlt.asymm, if_neg hlt.ne', if_pos hlt]
    · rw [if_pos rfl, if_pos rfl]
    · rw [if_neg hlt.ne', if_pos hlt, if_neg hlt.ne, if_neg hlt.asymm]

/-- The sum of numbers with different signs. -/
theorem holds_difference {j k : Nat} (h : ((j : Int) - k).natAbs ≤ 2 ^ precision) :
    Holds (sumOfUnits false (j * one) true (k * one) 1) (j - k) := by
  rw [sumOfUnits, if_neg Bool.false_ne_true]
  rcases Nat.lt_trichotomy j k with hlt | rfl | hlt
  · have hne : j * one ≠ k * one := Nat.ne_of_lt (Nat.mul_lt_mul_of_pos_right hlt one_pos)
    have hnot : ¬ k * one < j * one := Nat.not_lt.mpr (Nat.mul_le_mul_right one hlt.le)
    have hvalue : (j : Int) - k = -((k - j : Nat) : Int) := by omega
    rw [if_neg hne, if_neg hnot, ← Nat.sub_mul, ofUnits_mul_one true (by omega), hvalue]
    exact .negative (k - j)
  · have hzero : zero = .finite false (0 * one) := by rw [zero, Nat.zero_mul]
    rw [if_pos rfl, sub_self, hzero]
    exact .positive 0
  · have hless : k * one < j * one := Nat.mul_lt_mul_of_pos_right hlt one_pos
    have hvalue : (j : Int) - k = ((j - k : Nat) : Int) := by omega
    rw [if_neg hless.ne', if_pos hless, ← Nat.sub_mul, ofUnits_mul_one false (by omega), hvalue]
    exact .positive (j - k)

namespace Holds

variable {x y : Double} {m n : Int}

theorem zero : Holds .zero 0 := by
  have h := positive 0
  rwa [Nat.zero_mul] at h

/-! ## Arithmetic -/

theorem ofInt (h : n.natAbs ≤ 2 ^ precision) : Holds (Double.ofInt n) n := by
  rw [Double.ofInt, ofRatio, ofUnits_mul_one _ h]
  by_cases hneg : n < 0
  · have hn : n = -(n.natAbs : Int) := by omega
    rw [decide_eq_true hneg]
    nth_rewrite 2 [hn]
    exact negative n.natAbs
  · have hn : n = (n.natAbs : Int) := by omega
    rw [decide_eq_false hneg]
    nth_rewrite 2 [hn]
    exact positive n.natAbs

theorem neg (h : Holds x n) : Holds x.neg (-n) := by
  cases h with
  | positive k => exact negative k
  | negative k =>
    rw [neg_neg]
    exact positive k

theorem add (hx : Holds x m) (hy : Holds y n) (h : (m + n).natAbs ≤ 2 ^ precision) :
    Holds (x.add y) (m + n) := by
  cases hx with
  | positive j =>
    cases hy with
    | positive k =>
      rw [← Nat.cast_add] at h ⊢
      rw [Int.natAbs_natCast] at h
      rw [Double.add, sumOfUnits, if_pos rfl, ← Nat.add_mul, ofUnits_mul_one _ h]
      exact positive (j + k)
    | negative k => exact holds_difference h
  | negative j =>
    cases hy with
    | positive k =>
      rw [neg_add_eq_sub] at h ⊢
      rw [Double.add, sumOfUnits_comm]
      exact holds_difference h
    | negative k =>
      rw [← neg_add, ← Nat.cast_add] at h ⊢
      rw [Int.natAbs_neg, Int.natAbs_natCast] at h
      rw [Double.add, sumOfUnits, if_pos rfl, ← Nat.add_mul, ofUnits_mul_one _ h]
      exact negative (j + k)

theorem sub (hx : Holds x m) (hy : Holds y n) (h : (m - n).natAbs ≤ 2 ^ precision) :
    Holds (x.sub y) (m - n) :=
  hx.add hy.neg h

/-! ## Reading -/

theorem isWhole (h : Holds x n) : x.isWhole := by
  cases h with
  | positive k | negative k =>
    rw [Double.isWhole, Nat.mul_mod_left]
    exact decide_eq_true rfl

theorem truncated_eq (h : Holds x n) : x.truncated = n := by
  cases h with
  | positive k | negative k => simp [truncated, Nat.mul_div_cancel k one_pos]

end Holds

end ItemCatalog.Double
