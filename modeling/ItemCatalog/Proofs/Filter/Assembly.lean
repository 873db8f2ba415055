import Mathlib.Algebra.Order.Field.Rat
import Mathlib.Tactic.Positivity
import ItemCatalog.Proofs.Filter.Score

/-!
# Filters that are put together

A filter may be put together by its plain constructors or by `Filter.all`, `Filter.any` and
`Filter.negate`, which leave out what makes no difference, at every level of the tree. Records pass
both ways or neither, and with the same score.

Results:
1. `evaluate_assemble`: the two ways of putting filters together agree, for all scores to which zero
   adds nothing.
2. `unscored_of_not_asksWords`: only words that are asked for make a score.
3. `evaluate_assemble_exact`: the two for exact scores, which are never negative.
-/

namespace ItemCatalog

/-- Exact scores. A word weighs its count, times one half and another half by its share of the name. -/
def Weighing.exact : Weighing ℚ where
  zero := 0
  add := (· + ·)
  larger := max
  occurrence count total := count * (1 / 2 * (count / total) + 1 / 2)

/-- Exact scores are not negative. -/
theorem Weighing.isLawful_exact : Weighing.exact.IsLawful (0 ≤ ·) where
  zero := le_refl 0
  add := add_nonneg
  larger hx _ := le_max_of_le_left hx
  occurrence count total := by
    show (0 : ℚ) ≤ count * (1 / 2 * (count / total) + 1 / 2)
    positivity
  zero_add {x} _ := zero_add x
  add_zero {x} _ := add_zero x

namespace Filter

/-! ## Definitions -/

mutual

/-- The filter with its inner nodes put together by the constructors that leave out what makes no
difference. -/
def assemble : Filter → Filter
  | and filters => all (assembleEach filters)
  | or filters => any (assembleEach filters)
  | not filter => negate (assemble filter)
  | leaf => leaf

/-- Each of the filters put together in this way. -/
def assembleEach : List Filter → List Filter
  | [] => []
  | filter :: rest => assemble filter :: assembleEach rest

end

mutual

/-- Whether words are asked for, other than in a negation. -/
def asksWords : Filter → Bool
  | words _ => true
  | and filters | or filters => anyAsksWords filters
  | _ => false

/-- Whether one of the filters asks for words. -/
def anyAsksWords : List Filter → Bool
  | [] => false
  | filter :: rest => asksWords filter || anyAsksWords rest

end

variable {α : Type} {w : Weighing α} {Valid : α → Prop} {r : Record}

/-! ## Putting filters together -/

mutual

/-- Both ways of putting a filter together let the same records pass with the same scores. -/
theorem evaluate_assemble (h : w.IsLawful Valid) :
    ∀ f : Filter, evaluate w r (assemble f) = evaluate w r f
  | .and filters => by
    rw [assemble, evaluate_all h, evaluate, evaluate, evaluateAll_assembleEach h filters]
  | .or filters => by
    rw [assemble, evaluate_any, evaluate, evaluate, evaluateAny_assembleEach h filters]
  | .not f => by rw [assemble, negate, evaluate, evaluate, evaluate_assemble h f]
  | .always | .equal _ _ | .compare _ _ _ | .oneOf _ _ | .words _ | .pattern _ _
  | .everyTagGroup _ => by rw [assemble] <;> exact nofun

theorem evaluateAll_assembleEach (h : w.IsLawful Valid) :
    ∀ (filters : List Filter) (score : α),
      evaluateAll w r score (assembleEach filters) = evaluateAll w r score filters
  | [], _ => by rw [assembleEach]
  | f :: filters, score => by
    rw [assembleEach, evaluateAll, evaluateAll, evaluate_assemble h f]
    cases evaluate w r f with
    | none => rfl
    | some x => exact evaluateAll_assembleEach h filters (w.add score x)

theorem evaluateAny_assembleEach (h : w.IsLawful Valid) :
    ∀ (filters : List Filter) (score : Option α),
      evaluateAny w r score (assembleEach filters) = evaluateAny w r score filters
  | [], _ => by rw [assembleEach]
  | f :: filters, score => by
    rw [assembleEach, evaluateAny, evaluateAny, evaluate_assemble h f]
    exact evaluateAny_assembleEach h filters _

end

/-! ## Filters without words -/

mutual

/-- Only words that are asked for make a score. -/
theorem unscored_of_not_asksWords (h : w.IsLawful Valid) (hlarger : w.larger w.zero w.zero = w.zero) :
    ∀ f : Filter, f.asksWords = false → f.Unscored w r
  | .and filters, hwords => by
    rw [asksWords] at hwords
    intro x hx
    rw [← evaluate_all h] at hx
    exact unscored_all h (unscored_of_not_anyAsksWords h hlarger filters hwords) x hx
  | .or filters, hwords => by
    rw [asksWords] at hwords
    intro x hx
    rw [evaluate] at hx
    exact eq_zero_of_evaluateAny hlarger (unscored_of_not_anyAsksWords h hlarger filters hwords)
      (fun _ hnone => by cases hnone) hx
  | .words _, hwords => by cases hwords
  | .always, _ => fun _ hx => (Option.some.inj hx).symm
  | .equal _ _, _ | .compare _ _ _, _ | .oneOf _ _, _ | .pattern _ _, _ | .everyTagGroup _, _
  | .not _, _ => unscored_of_eq_passIf rfl

theorem unscored_of_not_anyAsksWords (h : w.IsLawful Valid)
    (hlarger : w.larger w.zero w.zero = w.zero) :
    ∀ filters : List Filter, anyAsksWords filters = false → ∀ f ∈ filters, f.Unscored w r
  | [], _ => List.forall_mem_nil _
  | f :: filters, hwords => by
    rw [anyAsksWords, Bool.or_eq_false_iff] at hwords
    exact List.forall_mem_cons.mpr ⟨unscored_of_not_asksWords h hlarger f hwords.1,
      unscored_of_not_anyAsksWords h hlarger filters hwords.2⟩

end

/-! ## Exact scores -/

/-- Filters that are put together by the constructors that leave out what makes no difference let the
same records pass as those of the plain constructors, with the same exact score, and with the same
score in double precision. An exact score is never negative, and it is zero where no words are asked
for but in negations. -/
theorem evaluate_assemble_exact (f : Filter) (r : Record) :
    evaluate .exact r (assemble f) = evaluate .exact r f ∧
      evaluate .double r (assemble f) = evaluate .double r f ∧
      (∀ x, evaluate .exact r f = some x → 0 ≤ x) ∧
      (f.asksWords = false → ∀ x, evaluate .exact r f = some x → x = 0) := by
  have hexact := Weighing.isLawful_exact
  refine ⟨evaluate_assemble hexact f, evaluate_assemble Weighing.isLawful_double f,
    fun x hx => valid_evaluate hexact f hx, fun hwords x hx => ?_⟩
  exact unscored_of_not_asksWords hexact (max_self 0) f hwords x hx

example : assemble (and [always, or [words ["axe"]], and []]) = words ["axe"] := rfl

end Filter

end ItemCatalog
