import Mathlib.Algebra.Ring.Int.Defs
import Mathlib.Data.List.TakeWhile
import ItemCatalog.Json.Numeral
import ItemCatalog.Json.Writer
import ItemCatalog.Proofs.Number.Digits

/-!
# Numbers in JSON are read back

Each part of a number ends where no further character of it follows, so a number is the same in front
of any text that does not go on with it.

Results:
1. `splitNumeral_append`: what stands behind a number does not change it.
2. `splitNumeral_whole`, `value_whole`: whole numbers are read back.
-/

namespace ItemCatalog.Json

/-- A text that does not go on with a number. -/
def EndsNumeral (rest : List Char) : Prop :=
  ∀ c, rest.head? = some c → c.isDigit = false ∧ c ≠ '.' ∧ c ≠ 'e' ∧ c ≠ 'E'

theorem bind_eq_ok_iff {ε α β : Type} {x : Except ε α} {f : α → Except ε β} {b : β} :
    x >>= f = .ok b ↔ ∃ a, x = .ok a ∧ f a = .ok b := by
  cases x <;> simp [bind, Except.bind]

variable {cs tail rest : List Char}

theorem forall_head?_append {p : Char → Prop} (htail : ∀ c, tail.head? = some c → p c)
    (hrest : ∀ c, rest.head? = some c → p c) : ∀ c, (tail ++ rest).head? = some c → p c := by
  cases tail with
  | nil => exact hrest
  | cons d tail => exact htail

/-! ## What stands behind a number -/

theorem splitDigits_eq_ok_iff {digits : List Char} :
    splitDigits cs = .ok (digits, tail) ↔
      cs = digits ++ tail ∧ digits ≠ [] ∧ (∀ c ∈ digits, c.isDigit) ∧
        ∀ c, tail.head? = some c → c.isDigit = false := by
  constructor
  · intro h
    rw [splitDigits, List.span_eq_takeWhile_dropWhile] at h
    simp only at h
    split at h
    next => cases h
    next hne =>
      cases h
      refine ⟨List.takeWhile_append_dropWhile.symm, by simpa using hne, ?_, ?_⟩
      · exact fun c hc => List.mem_takeWhile_imp hc
      · intro c hc
        have hnot := List.head?_dropWhile_not Char.isDigit cs
        rw [hc] at hnot
        exact hnot
  · rintro ⟨rfl, hne, hdigits, htail⟩
    rw [splitDigits, span_append hdigits htail]
    simp [hne]

theorem splitDigits_append (hrest : EndsNumeral rest) {digits : List Char}
    (h : splitDigits cs = .ok (digits, tail)) :
    splitDigits (cs ++ rest) = .ok (digits, tail ++ rest) := by
  obtain ⟨rfl, hne, hdigits, htail⟩ := splitDigits_eq_ok_iff.mp h
  exact splitDigits_eq_ok_iff.mpr ⟨List.append_assoc _ _ _, hne, hdigits,
    forall_head?_append htail fun c hc => (hrest c hc).1⟩

theorem splitWhole_append (hrest : EndsNumeral rest) {digits : List Char}
    (h : splitWhole cs = .ok (digits, tail)) : splitWhole (cs ++ rest) = .ok (digits, tail ++ rest) := by
  obtain ⟨⟨found, after⟩, hdigits, h⟩ := bind_eq_ok_iff.mp h
  refine bind_eq_ok_iff.mpr ⟨_, splitDigits_append hrest hdigits, ?_⟩
  dsimp only at h ⊢
  split at h
  next => cases h
  next hzero =>
    cases h
    rw [if_neg hzero]
    rfl

/-- Without a point there is no fraction. -/
theorem splitFraction_eq_none (h : ∀ c, cs.head? = some c → c ≠ '.') :
    splitFraction cs = .ok (none, cs) := by
  unfold splitFraction
  split
  next => exact absurd rfl (h _ rfl)
  next => rfl

theorem splitFraction_append (hrest : EndsNumeral rest) {fraction : Option (List Char)}
    (h : splitFraction cs = .ok (fraction, tail)) :
    splitFraction (cs ++ rest) = .ok (fraction, tail ++ rest) := by
  unfold splitFraction at h
  split at h
  next after =>
    obtain ⟨⟨found, behind⟩, hdigits, h⟩ := bind_eq_ok_iff.mp h
    cases h
    exact bind_eq_ok_iff.mpr ⟨_, splitDigits_append hrest hdigits, rfl⟩
  next hpoint =>
    cases h
    refine splitFraction_eq_none (forall_head?_append ?_ fun c hc => (hrest c hc).2.1)
    rintro c hc rfl
    exact hpoint _ (List.head?_eq_some_iff.mp hc).choose_spec

/-- Without its mark there is no exponent. -/
theorem splitExponent_eq_none (h : ∀ c, cs.head? = some c → c ≠ 'e' ∧ c ≠ 'E') :
    splitExponent cs = .ok (none, cs) := by
  cases cs with
  | nil => rfl
  | cons c cs =>
    have hmark := h c rfl
    simp [splitExponent, hmark.1, hmark.2]

theorem splitSign_append (hne : cs ≠ []) (rest : List Char) :
    Decimal.splitSign (cs ++ rest) =
      ((Decimal.splitSign cs).1, (Decimal.splitSign cs).2 ++ rest) := by
  cases cs with
  | nil => exact absurd rfl hne
  | cons c cs =>
    by_cases hminus : c = '-'
    · subst hminus
      rfl
    · by_cases hplus : c = '+'
      · subst hplus
        rfl
      · simp [Decimal.splitSign, hminus, hplus]

theorem splitExponent_append (hrest : EndsNumeral rest) {exponent : Option (Bool × List Char)}
    (h : splitExponent cs = .ok (exponent, tail)) :
    splitExponent (cs ++ rest) = .ok (exponent, tail ++ rest) := by
  unfold splitExponent at h
  split at h
  next c after =>
    split at h
    next he =>
      obtain ⟨⟨found, behind⟩, hdigits, h⟩ := bind_eq_ok_iff.mp h
      cases h
      have hne : after ≠ [] := by
        rintro rfl
        cases hdigits
      rw [List.cons_append, splitExponent, if_pos he, splitSign_append hne]
      exact bind_eq_ok_iff.mpr ⟨_, splitDigits_append hrest hdigits, rfl⟩
    next he =>
      cases h
      rw [List.cons_append, splitExponent, if_neg he]
  next =>
    cases h
    exact splitExponent_eq_none fun c hc => (hrest c hc).2.2

/-- Splits a number behind its sign off a text. -/
def splitUnsigned (negative : Bool) (cs : List Char) : Except Fault (Numeral × List Char) := do
  let (whole, cs) ← splitWhole cs
  let (fraction, cs) ← splitFraction cs
  let (exponent, cs) ← splitExponent cs
  return (⟨negative, whole, fraction, exponent⟩, cs)

theorem splitNumeral_minus (cs : List Char) : splitNumeral ('-' :: cs) = splitUnsigned true cs := rfl

theorem splitNumeral_of_ne_minus {c : Char} (h : c ≠ '-') (cs : List Char) :
    splitNumeral (c :: cs) = splitUnsigned false (c :: cs) := by
  unfold splitNumeral
  split
  next heq =>
    split at heq
    next heq' => exact absurd (List.cons.inj heq').1 h
    next =>
      cases heq
      rfl

/-- The parts of a number are split off one after the other. -/
theorem splitUnsigned_eq_ok_iff {negative : Bool} {numeral : Numeral} :
    splitUnsigned negative cs = .ok (numeral, tail) ↔
      ∃ afterWhole afterFraction, splitWhole cs = .ok (numeral.whole, afterWhole) ∧
        splitFraction afterWhole = .ok (numeral.fraction, afterFraction) ∧
        splitExponent afterFraction = .ok (numeral.exponent, tail) ∧ numeral.negative = negative := by
  constructor
  · intro h
    obtain ⟨⟨whole, afterWhole⟩, hwhole, h⟩ := bind_eq_ok_iff.mp h
    obtain ⟨⟨fraction, afterFraction⟩, hfraction, h⟩ := bind_eq_ok_iff.mp h
    obtain ⟨⟨exponent, afterExponent⟩, hexponent, h⟩ := bind_eq_ok_iff.mp h
    cases h
    exact ⟨afterWhole, afterFraction, hwhole, hfraction, hexponent, rfl⟩
  · rintro ⟨afterWhole, afterFraction, hwhole, hfraction, hexponent, rfl⟩
    refine bind_eq_ok_iff.mpr ⟨_, hwhole, ?_⟩
    refine bind_eq_ok_iff.mpr ⟨_, hfraction, ?_⟩
    exact bind_eq_ok_iff.mpr ⟨_, hexponent, rfl⟩

theorem splitUnsigned_append (hrest : EndsNumeral rest) {negative : Bool} {numeral : Numeral}
    (h : splitUnsigned negative cs = .ok (numeral, tail)) :
    splitUnsigned negative (cs ++ rest) = .ok (numeral, tail ++ rest) := by
  obtain ⟨_, _, hwhole, hfraction, hexponent, hsign⟩ := splitUnsigned_eq_ok_iff.mp h
  exact splitUnsigned_eq_ok_iff.mpr ⟨_, _, splitWhole_append hrest hwhole,
    splitFraction_append hrest hfraction, splitExponent_append hrest hexponent, hsign⟩

/-- What stands behind a number does not change it. -/
theorem splitNumeral_append (hrest : EndsNumeral rest) {numeral : Numeral}
    (h : splitNumeral cs = .ok (numeral, tail)) :
    splitNumeral (cs ++ rest) = .ok (numeral, tail ++ rest) := by
  cases cs with
  | nil => cases h
  | cons c cs =>
    rw [List.cons_append]
    by_cases hminus : c = '-'
    · subst hminus
      rw [splitNumeral_minus] at h ⊢
      exact splitUnsigned_append hrest h
    · rw [splitNumeral_of_ne_minus hminus] at h ⊢
      exact splitUnsigned_append hrest h

/-! ## What is left behind a number -/

theorem length_of_splitDigits {digits : List Char} (h : splitDigits cs = .ok (digits, tail)) :
    tail.length < cs.length := by
  obtain ⟨rfl, hne, -, -⟩ := splitDigits_eq_ok_iff.mp h
  have hpos := List.length_pos_iff.mpr hne
  rw [List.length_append]
  omega

theorem length_of_splitWhole {digits : List Char} (h : splitWhole cs = .ok (digits, tail)) :
    tail.length < cs.length := by
  obtain ⟨⟨found, after⟩, hdigits, h⟩ := bind_eq_ok_iff.mp h
  dsimp only at h
  split at h
  next => cases h
  next =>
    cases h
    exact length_of_splitDigits hdigits

theorem length_of_splitFraction {fraction : Option (List Char)}
    (h : splitFraction cs = .ok (fraction, tail)) : tail.length ≤ cs.length := by
  unfold splitFraction at h
  split at h
  next after =>
    obtain ⟨⟨found, behind⟩, hdigits, h⟩ := bind_eq_ok_iff.mp h
    cases h
    exact Nat.le_succ_of_le (length_of_splitDigits hdigits).le
  next =>
    cases h
    exact Nat.le_refl _

theorem length_splitSign_le (cs : List Char) : (Decimal.splitSign cs).2.length ≤ cs.length := by
  unfold Decimal.splitSign
  split
  next => exact Nat.le_succ _
  next => exact Nat.le_succ _
  next => exact Nat.le_refl _

theorem length_of_splitExponent {exponent : Option (Bool × List Char)}
    (h : splitExponent cs = .ok (exponent, tail)) : tail.length ≤ cs.length := by
  unfold splitExponent at h
  split at h
  next c after =>
    split at h
    next he =>
      obtain ⟨⟨found, behind⟩, hdigits, h⟩ := bind_eq_ok_iff.mp h
      cases h
      have hsign := length_splitSign_le after
      have hbehind : tail.length < (Decimal.splitSign after).2.length := length_of_splitDigits hdigits
      rw [List.length_cons]
      omega
    next he =>
      cases h
      exact Nat.le_refl _
  next =>
    cases h
    exact Nat.le_refl _

theorem length_of_splitUnsigned {negative : Bool} {numeral : Numeral}
    (h : splitUnsigned negative cs = .ok (numeral, tail)) : tail.length < cs.length := by
  obtain ⟨afterWhole, afterFraction, hwhole, hfraction, hexponent, -⟩ :=
    splitUnsigned_eq_ok_iff.mp h
  calc tail.length
    _ ≤ afterFraction.length := length_of_splitExponent hexponent
    _ ≤ afterWhole.length := length_of_splitFraction hfraction
    _ < cs.length := length_of_splitWhole hwhole

theorem length_of_splitNumeral {numeral : Numeral} (h : splitNumeral cs = .ok (numeral, tail)) :
    tail.length < cs.length := by
  cases cs with
  | nil => cases h
  | cons c cs =>
    by_cases hminus : c = '-'
    · subst hminus
      rw [splitNumeral_minus] at h
      exact Nat.lt_succ_of_lt (length_of_splitUnsigned h)
    · rw [splitNumeral_of_ne_minus hminus] at h
      exact length_of_splitUnsigned h

/-! ## Whole numbers -/

theorem splitUnsigned_digitsOf (hrest : EndsNumeral rest) (negative : Bool) (n : Nat) :
    splitUnsigned negative (digitsOf n ++ rest) = .ok (⟨negative, digitsOf n, none, none⟩, rest) := by
  have hdigits : splitDigits (digitsOf n ++ rest) = .ok (digitsOf n, rest) :=
    splitDigits_eq_ok_iff.mpr ⟨rfl, digitsOf_ne_nil n, fun c => isDigit_of_mem_digitsOf,
      fun c hc => (hrest c hc).1⟩
  have hzero : ¬ ((digitsOf n).head? = some '0' && (digitsOf n).length ≠ 1) := by
    by_cases hn : n = 0
    · subst hn
      decide
    · simp [head?_digitsOf hn]
  have hwhole : splitWhole (digitsOf n ++ rest) = .ok (digitsOf n, rest) :=
    bind_eq_ok_iff.mpr ⟨_, hdigits, if_neg hzero⟩
  exact splitUnsigned_eq_ok_iff.mpr ⟨_, _, hwhole,
    splitFraction_eq_none fun c hc => (hrest c hc).2.1,
    splitExponent_eq_none fun c hc => (hrest c hc).2.2, rfl⟩

theorem splitNumeral_whole (hrest : EndsNumeral rest) (n : Int) :
    splitNumeral (Writer.whole n ++ rest) =
      .ok (⟨decide (n < 0), digitsOf n.natAbs, none, none⟩, rest) := by
  rw [Writer.whole]
  split
  next hminus =>
    rw [decide_eq_true hminus, List.cons_append, splitNumeral_minus]
    exact splitUnsigned_digitsOf hrest true n.natAbs
  next hplus =>
    rw [decide_eq_false hplus, ← splitUnsigned_digitsOf hrest]
    cases hdigits : digitsOf n.natAbs with
    | nil => exact absurd hdigits (digitsOf_ne_nil _)
    | cons c digits =>
      have hc : c.isDigit := isDigit_of_mem_digitsOf (hdigits ▸ List.mem_cons_self)
      refine splitNumeral_of_ne_minus ?_ _
      rintro rfl
      cases hc

theorem value_whole {n : Int} (hlow : -2 ^ 63 ≤ n) (hhigh : n < 2 ^ 64) :
    Numeral.value ⟨decide (n < 0), digitsOf n.natAbs, none, none⟩ = .ok (.whole n) := by
  have hlimit : ¬ wordLimit ≤ n.natAbs := by
    have hword : wordLimit = 2 ^ 64 := rfl
    omega
  rw [Numeral.value]
  simp only [digitsValue_digitsOf, Option.isSome_none, Bool.or_self, decide_eq_false hlimit,
    Bool.false_eq_true, if_false]
  by_cases hminus : n < 0
  · have hzero : n.natAbs ≠ 0 := by omega
    have hleast : ¬ Nat.pow 2 63 < n.natAbs := by
      have hpow : Nat.pow 2 63 = 2 ^ 63 := rfl
      omega
    have habs : -(n.natAbs : Int) = n := by omega
    simp only [decide_eq_true hminus, decide_eq_false hzero, decide_eq_false hleast, habs,
      Bool.not_true, Bool.or_self, Bool.false_eq_true, if_false]
  · have habs : (n.natAbs : Int) = n := by omega
    simp only [decide_eq_false hminus, habs, Bool.not_false, if_true]

end ItemCatalog.Json
