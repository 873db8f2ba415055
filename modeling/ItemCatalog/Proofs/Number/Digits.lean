import Mathlib.Algebra.Ring.Nat
import Mathlib.Data.List.TakeDrop
import ItemCatalog.Number.Decimal

/-!
# Runs of digits

Results:
1. `span_append`: a run of characters ends where another one follows.
2. `digitsValue_append`, `digitsValue_digitsOf`: what runs of digits write.
3. `head?_digitsOf`: numbers are written without a needless zero in front.
4. `lt_ten_pow_length_digitsOf`, `ten_pow_le_of_length_digitsOf`: how many digits a number has.
-/

namespace ItemCatalog

/-- A run of characters ends where another one follows. -/
theorem span_append {α : Type} {p : α → Bool} {run rest : List α} (hrun : ∀ a ∈ run, p a)
    (hrest : ∀ a, rest.head? = some a → p a = false) : (run ++ rest).span p = (run, rest) := by
  have hnext : rest.takeWhile p = [] ∧ rest.dropWhile p = rest := by
    cases rest with
    | nil => exact ⟨rfl, rfl⟩
    | cons a rest => simp [hrest a rfl]
  rw [List.span_eq_takeWhile_dropWhile, List.takeWhile_append_of_pos hrun,
    List.dropWhile_append_of_pos hrun, hnext.1, hnext.2, List.append_nil]

/-! ## Reading digits -/

/-- The digits before a run of digits count for more by its length. -/
theorem digitsValue_append (whole fraction : List Char) :
    digitsValue (whole ++ fraction) =
      digitsValue whole * 10 ^ fraction.length + digitsValue fraction := by
  show Nat.ofDigitChars 10 (whole ++ fraction) 0 = _
  rw [Nat.ofDigitChars_append, Nat.ofDigitChars_eq_ofDigitChars_zero, Nat.mul_comm]
  rfl

/-! ## Writing digits -/

theorem isDigit_of_mem_digitsOf {n : Nat} {c : Char} (h : c ∈ digitsOf n) : c.isDigit :=
  Nat.isDigit_of_mem_toDigits (by decide) (by decide) h

theorem digitsOf_ne_nil (n : Nat) : digitsOf n ≠ [] :=
  Nat.toDigits_ne_nil

theorem digitsValue_digitsOf (n : Nat) : digitsValue (digitsOf n) = n :=
  Nat.ofDigitChars_toDigits (by decide) (by decide)

/-- Only zero starts with a zero. -/
theorem head?_digitsOf {n : Nat} (h : n ≠ 0) : (digitsOf n).head? ≠ some '0' := by
  induction n using Nat.strongRecOn with
  | ind n ih =>
    rw [digitsOf, Nat.toDigits_eq_if (by decide)]
    split
    next hsmall =>
      have hall : ∀ n < 10, n ≠ 0 → [n.digitChar].head? ≠ some '0' := by decide
      exact hall n hsmall h
    next hlarge =>
      have hfront := ih (n / 10) (by omega) (by omega)
      rw [digitsOf] at hfront
      cases hdigits : Nat.toDigits 10 (n / 10) with
      | nil => exact absurd hdigits Nat.toDigits_ne_nil
      | cons c rest =>
        rw [hdigits] at hfront
        exact hfront

theorem lt_ten_pow_length_digitsOf (n : Nat) : n < 10 ^ (digitsOf n).length := by
  refine (Nat.length_toDigits_le_iff (by decide) ?_).mp (Nat.le_refl _)
  exact List.length_pos_iff.mpr (digitsOf_ne_nil n)

theorem ten_pow_le_of_length_digitsOf {n : Nat} (h : n ≠ 0) :
    10 ^ ((digitsOf n).length - 1) ≤ n := by
  by_cases hone : (digitsOf n).length ≤ 1
  · rw [Nat.sub_eq_zero_of_le hone]
    exact Nat.one_le_iff_ne_zero.mpr h
  · refine Nat.le_of_not_lt fun hlt => ?_
    have hlength := (Nat.length_toDigits_le_iff (by decide) (by omega)).mpr hlt
    rw [← digitsOf] at hlength
    omega

end ItemCatalog
