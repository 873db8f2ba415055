import ItemCatalog.Proofs.Filter.Score
import ItemCatalog.Request.Item

/-!
# Which records satisfy hints

Results:
1. `Hints.isSome_evaluate_toFilter`: the filter of hints lets pass the records that satisfy them.
2. `Hints.unscored_toFilter`: it adds nothing to the score of a record.
-/

namespace ItemCatalog

/-- The conditions of hints on a record. -/
structure Hints.Admits (h : Hints) (r : Record) : Prop where
  category : ∀ c, h.category = some c → r.category = c
  itemType : h.types ≠ [] → r.itemType ∈ h.types
  level : ∀ bound, h.level = some bound →
    bound.op.holds ((Double.ofNat r.level.toNat).compare? bound.value)

instance (h : Hints) (r : Record) : Decidable (h.Admits r) :=
  decidable_of_iff
    ((∀ c ∈ h.category, r.category = c) ∧ (h.types ≠ [] → r.itemType ∈ h.types) ∧
      ∀ bound ∈ h.level, bound.op.holds ((Double.ofNat r.level.toNat).compare? bound.value))
    ⟨fun ⟨category, itemType, level⟩ => ⟨category, itemType, level⟩,
      fun admits => ⟨admits.category, admits.itemType, admits.level⟩⟩

/-- Every record satisfies no hints. -/
theorem Hints.admits_none (r : Record) : Hints.Admits {} r :=
  ⟨nofun, fun h => absurd rfl h, nofun⟩

theorem Value.compares_text_iff (s t : String) : (Value.text s).compares .eq (.text t) ↔ s = t := by
  simp [compares, order?, Comparison.holds]

theorem Category.name_injective : Function.Injective Category.name := by
  intro a b h
  cases a <;> cases b <;> first | rfl | exact absurd h (by decide)

namespace Hints

variable {α : Type} (w : Weighing α) (h : Hints) (r : Record)

theorem isSome_evaluate_categoryFilters :
    (∀ f ∈ h.categoryFilters, (f.evaluate w r).isSome) ↔
      ∀ c, h.category = some c → r.category = c := by
  unfold categoryFilters
  cases h.category with
  | none => simp
  | some c =>
    simp only [List.forall_mem_singleton, Option.some.injEq, forall_eq', Filter.evaluate,
      Filter.isSome_passIf, Record.fieldValue, Value.compares_text_iff]
    exact Category.name_injective.eq_iff

theorem isSome_evaluate_typeFilters :
    (∀ f ∈ h.typeFilters, (f.evaluate w r).isSome) ↔ (h.types ≠ [] → r.itemType ∈ h.types) := by
  unfold typeFilters
  split
  next he => simp [he]
  next type he =>
    simp [he, Filter.evaluate, Filter.isSome_passIf, Record.fieldValue, Value.compares_text_iff]
  next hne _ =>
    have hany : (h.types.map Value.text).any ((Value.text r.itemType).compares .eq ·) ↔
        r.itemType ∈ h.types := by
      simp [List.any_eq_true, Value.compares_text_iff]
    rw [List.forall_mem_singleton, Filter.evaluate, Filter.isSome_passIf, Record.fieldValue, hany]
    exact ⟨fun hm _ => hm, fun hm => hm hne⟩

theorem isSome_evaluate_levelFilters :
    (∀ f ∈ h.levelFilters, (f.evaluate w r).isSome) ↔
      ∀ bound, h.level = some bound →
        bound.op.holds ((Double.ofNat r.level.toNat).compare? bound.value) := by
  unfold levelFilters
  cases h.level with
  | none => simp
  | some bound =>
    simp [Filter.evaluate, Filter.isSome_passIf, Record.fieldValue, Value.compares, Value.order?]

/-- The filter of hints lets pass the records that satisfy them. -/
theorem isSome_evaluate_toFilter : (h.toFilter.evaluate w r).isSome ↔ h.Admits r := by
  rw [toFilter, Filter.isSome_evaluate_all, List.forall_mem_append, List.forall_mem_append,
    isSome_evaluate_categoryFilters, isSome_evaluate_typeFilters, isSome_evaluate_levelFilters]
  constructor
  · rintro ⟨⟨hcategory, htype⟩, hlevel⟩
    exact ⟨hcategory, htype, hlevel⟩
  · exact fun hadmits => ⟨⟨hadmits.category, hadmits.itemType⟩, hadmits.level⟩

/-- Each condition compares a field and no words. -/
theorem unscored_of_mem_filters {f : Filter}
    (hf : f ∈ h.categoryFilters ++ h.typeFilters ++ h.levelFilters) : f.Unscored w r := by
  rcases List.mem_append.mp hf with hf | hf
  · rcases List.mem_append.mp hf with hf | hf
    · unfold categoryFilters at hf
      split at hf
      · obtain rfl := List.mem_singleton.mp hf
        exact Filter.unscored_of_eq_passIf rfl
      · cases hf
    · unfold typeFilters at hf
      split at hf
      · cases hf
      all_goals
        obtain rfl := List.mem_singleton.mp hf
        exact Filter.unscored_of_eq_passIf rfl
  · unfold levelFilters at hf
    split at hf
    · obtain rfl := List.mem_singleton.mp hf
      exact Filter.unscored_of_eq_passIf rfl
    · cases hf

/-- Hints add nothing to a score. -/
theorem unscored_toFilter {Valid : α → Prop} (hw : w.IsLawful Valid) :
    h.toFilter.Unscored w r :=
  Filter.unscored_all hw fun _ hf => unscored_of_mem_filters w h r hf

/-- Hints in front of other filters decide whether a record passes, and nothing else. -/
theorem evaluate_all_toFilter_cons {Valid : α → Prop} (hw : w.IsLawful Valid)
    (filters : List Filter) :
    (Filter.all (h.toFilter :: filters)).evaluate w r =
      if h.Admits r then (Filter.all filters).evaluate w r else none := by
  rw [Filter.evaluate_all_cons_of_unscored hw (unscored_toFilter w h r hw)]
  simp only [isSome_evaluate_toFilter]

end Hints

end ItemCatalog
