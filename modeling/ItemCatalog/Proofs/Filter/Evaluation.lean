import Mathlib.Data.List.Basic
import ItemCatalog.Catalog

/-!
# Which records pass a filter

Whether a record passes does not depend on how scores are computed: conjunctions and alternatives of
filters are conjunctions and alternatives, and the constructors that leave filters out leave out only
what makes no difference.

Results:
1. `Filter.isSome_evaluate_all`, `Filter.isSome_evaluate_any`: the constructors mean what they say.
2. `Filter.isSome_wordScore_iff`: a name has all words that are asked for.
3. `Catalog.map_item_find`, `Catalog.evaluate_of_mem_find`: what a catalog finds, and with which
   scores.
-/

namespace ItemCatalog

namespace Filter

variable {α : Type} (w : Weighing α) (r : Record)

theorem isSome_passIf (condition : Bool) : (passIf w condition).isSome = condition := by
  cases condition <;> rfl

theorem isSome_best (x y : Option α) : (best w x y).isSome = (x.isSome || y.isSome) := by
  cases x <;> cases y <;> rfl

/-! ## Conjunctions and alternatives -/

theorem isSome_evaluateAll (score : α) (filters : List Filter) :
    (evaluateAll w r score filters).isSome ↔ ∀ f ∈ filters, (evaluate w r f).isSome := by
  induction filters generalizing score with
  | nil => simp [evaluateAll]
  | cons f filters ih =>
    rw [evaluateAll, List.forall_mem_cons]
    cases hf : evaluate w r f with
    | none => simp
    | some x => simpa using ih (w.add score x)

theorem isSome_evaluateAny (score : Option α) (filters : List Filter) :
    (evaluateAny w r score filters).isSome ↔
      score.isSome ∨ ∃ f ∈ filters, (evaluate w r f).isSome := by
  induction filters generalizing score with
  | nil => simp [evaluateAny]
  | cons f filters ih =>
    rw [evaluateAny, ih, isSome_best, Bool.or_eq_true]
    simp [or_assoc]

theorem isSome_evaluate_of_isAlways {f : Filter} (h : f.isAlways) : (evaluate w r f).isSome := by
  cases f with
  | always => rfl
  | _ => cases h

/-- A record passes all of the filters together when it passes each. -/
theorem isSome_evaluate_all (filters : List Filter) :
    (evaluate w r (all filters)).isSome ↔ ∀ f ∈ filters, (evaluate w r f).isSome := by
  have hkept : (∀ f ∈ filters.filter (!·.isAlways), (evaluate w r f).isSome) ↔
      ∀ f ∈ filters, (evaluate w r f).isSome := by
    constructor
    · intro h f hf
      by_cases ha : f.isAlways
      · exact isSome_evaluate_of_isAlways w r ha
      · exact h f (List.mem_filter.mpr ⟨hf, by simpa using ha⟩)
    · exact fun h f hf => h f (List.mem_filter.mp hf).1
  rw [← hkept]
  unfold all
  split
  next h => simp [h, evaluate]
  next f h => simp [h]
  next => rw [evaluate, isSome_evaluateAll]

/-- A record passes one of the filters. -/
theorem isSome_evaluate_any (filters : List Filter) :
    (evaluate w r (any filters)).isSome ↔ ∃ f ∈ filters, (evaluate w r f).isSome := by
  unfold any
  split
  next f => simp
  next => simp [evaluate, isSome_evaluateAny]

/-! ## Words and patterns -/

theorem isSome_weighWords (nameWords : List (List Char)) (score : α) (sought : List (List Char)) :
    (weighWords w nameWords score sought).isSome ↔ ∀ word ∈ sought, word ∈ nameWords := by
  induction sought generalizing score with
  | nil => simp [weighWords]
  | cons word sought ih =>
    rw [weighWords, List.forall_mem_cons]
    by_cases hcount : nameWords.count word = 0
    · have hmem : word ∉ nameWords := List.count_eq_zero.mp hcount
      simp [hcount, hmem]
    · have hmem : word ∈ nameWords := List.count_pos_iff.mp (Nat.pos_of_ne_zero hcount)
      simp [hcount, hmem, ih]

/-- A name with all words that are asked for has a score, when words are asked for. -/
theorem isSome_wordScore_iff (phrases : List String) (name : String) :
    (wordScore w phrases name).isSome ↔
      phraseWords phrases ≠ [] ∧
        ∀ word ∈ phraseWords phrases, word ∈ Text.spacedWords name.toList := by
  unfold wordScore
  split
  next h => simp [h]
  next h => rw [isSome_weighWords, and_iff_right h]

theorem isSome_evaluate_pattern (field : FieldName) (p : Pattern) :
    (evaluate w r (.pattern field p)).isSome = p.isMatch (r.fieldValue field).display := by
  rw [evaluate, isSome_passIf]

end Filter

namespace Catalog

variable (c : Catalog) (f : Filter)

/-- A catalog finds its records that pass, in their order. -/
theorem map_item_find :
    (c.find f).map (·.item) = c.records.filter fun r => (f.evaluate .double r).isSome := by
  rw [find, List.map_filterMap, ← List.filterMap_eq_filter]
  refine List.filterMap_congr fun r _ => ?_
  cases hscore : f.evaluate .double r <;> simp [Option.guard, hscore]

theorem exists_mem_find_iff {c : Catalog} {f : Filter} {r : Record} :
    (∃ s ∈ c.find f, s.item = r) ↔ r ∈ c.records ∧ (f.evaluate .double r).isSome := by
  rw [← List.mem_map, map_item_find, List.mem_filter]

/-- Each with the score that the filter gives it. -/
theorem evaluate_of_mem_find {c : Catalog} {f : Filter} {s : Scored Record} (h : s ∈ c.find f) :
    f.evaluate .double s.item = some s.score := by
  obtain ⟨r, _, he⟩ := List.mem_filterMap.mp h
  obtain ⟨score, hscore, rfl⟩ := Option.map_eq_some_iff.mp he
  exact hscore

end Catalog

end ItemCatalog
