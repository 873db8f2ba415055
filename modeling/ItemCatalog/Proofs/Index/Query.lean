import Mathlib.Data.List.Sort
import Mathlib.Data.String.Basic
import ItemCatalog.Index.Basic

/-!
# What a query finds

The index holds the names of a catalog with their terms, and a query finds those that meet its clauses.
Sorting and weighing neither add nor drop a name.

Results:
1. `mem_distinctSorted`, `pairwise_distinctSorted`: the index leaves out nothing but repetitions, and
   all of these.
2. `NameIndex.query?_eq_none_iff`: when a query fails.
3. `NameIndex.exists_mem_query?_iff`: what it finds otherwise.
-/

namespace ItemCatalog

open Index (Clause)

/-! ## Distinct names -/

theorem mem_eraseRepsBy_loop {α : Type} [BEq α] [LawfulBEq α] (x last : α) (xs kept : List α) :
    x ∈ List.eraseRepsBy.loop (· == ·) last xs kept ↔ x ∈ kept ∨ x = last ∨ x ∈ xs := by
  induction xs generalizing last kept with
  | nil => simp [List.eraseRepsBy.loop, or_comm]
  | cons y xs ih =>
    rw [List.eraseRepsBy.loop]
    split
    next hsame =>
      obtain rfl := eq_of_beq hsame
      rw [ih, List.mem_cons, or_self_left]
    next => rw [ih, List.mem_cons, List.mem_cons, or_assoc, or_left_comm]

theorem mem_distinctSorted {texts : List String} {x : String} :
    x ∈ distinctSorted texts ↔ x ∈ texts := by
  have hsorted : x ∈ (texts.mergeSort fun a b => decide (a ≤ b)) ↔ x ∈ texts := List.mem_mergeSort
  rw [distinctSorted, ← hsorted]
  cases texts.mergeSort fun a b => decide (a ≤ b) with
  | nil => exact Iff.rfl
  | cons y ys => simp [List.eraseReps, List.eraseRepsBy, mem_eraseRepsBy_loop]

/-- The walk drops a text that is the same as the last one, so what it has kept rises. -/
theorem pairwise_eraseRepsBy_loop {α : Type} [LinearOrder α] {last : α} {xs kept : List α}
    (hkept : (last :: kept).Pairwise (· > ·)) (hrest : (last :: xs).Pairwise (· ≤ ·)) :
    (List.eraseRepsBy.loop (· == ·) last xs kept).Pairwise (· < ·) := by
  induction xs generalizing last kept with
  | nil => exact List.pairwise_reverse.mpr hkept
  | cons y xs ih =>
    obtain ⟨hlast, hrest⟩ := List.pairwise_cons.mp hrest
    rw [List.eraseRepsBy.loop]
    split
    next hsame =>
      obtain rfl := eq_of_beq hsame
      exact ih hkept hrest
    next hother =>
      have hlt : last < y := lt_of_le_of_ne (hlast y List.mem_cons_self) (by simpa using hother)
      refine ih (List.pairwise_cons.mpr ⟨?_, hkept⟩) hrest
      intro x hx
      rcases List.mem_cons.mp hx with rfl | hx
      · exact hlt
      · exact ((List.pairwise_cons.mp hkept).1 x hx).trans hlt

theorem pairwise_distinctSorted (texts : List String) : (distinctSorted texts).Pairwise (· < ·) := by
  have hsorted : (texts.mergeSort fun a b => decide (a ≤ b)).Pairwise (· ≤ ·) :=
    List.pairwise_mergeSort' (· ≤ ·) texts
  rw [distinctSorted]
  cases hsort : texts.mergeSort fun a b => decide (a ≤ b) with
  | nil => exact .nil
  | cons y ys => exact pairwise_eraseRepsBy_loop (List.pairwise_singleton _ y) (hsort ▸ hsorted)

namespace NameIndex

theorem mem_entries_ofNames {names : List String} {entry : IndexedName} :
    entry ∈ (ofNames names).entries ↔
      entry.name ∈ names ∧ entry.terms = Index.terms entry.name := by
  rw [ofNames, List.mem_map]
  constructor
  · rintro ⟨name, hname, rfl⟩
    exact ⟨mem_distinctSorted.mp hname, rfl⟩
  · rintro ⟨hname, hterms⟩
    exact ⟨entry.name, mem_distinctSorted.mpr hname, by rw [← hterms]⟩

theorem isEmpty_entries_ofNames (names : List String) :
    (ofNames names).entries.isEmpty = names.isEmpty := by
  rw [Bool.eq_iff_iff, List.isEmpty_iff, List.isEmpty_iff, List.eq_nil_iff_forall_not_mem,
    List.eq_nil_iff_forall_not_mem]
  constructor
  · intro h name hname
    exact h ⟨name, Index.terms name⟩ (mem_entries_ofNames.mpr ⟨hname, rfl⟩)
  · intro h entry hentry
    exact h entry.name (mem_entries_ofNames.mp hentry).1

/-! ## Queries -/

theorem exists_mem_hits_iff {names : List String} {clauses : List Clause} {name : String} :
    (∃ s ∈ (ofNames names).hits clauses, s.item = name) ↔
      name ∈ names ∧ Clause.acceptsAll clauses (Index.terms name) := by
  simp only [hits, List.mem_mergeSort, List.mem_map, List.mem_filter]
  constructor
  · rintro ⟨s, ⟨entry, ⟨hentry, haccepts⟩, rfl⟩, rfl⟩
    obtain ⟨hname, hterms⟩ := mem_entries_ofNames.mp hentry
    exact ⟨hname, hterms ▸ haccepts⟩
  · rintro ⟨hname, haccepts⟩
    exact ⟨_, ⟨⟨name, Index.terms name⟩, ⟨mem_entries_ofNames.mpr ⟨hname, rfl⟩, haccepts⟩, rfl⟩, rfl⟩

/-- Prefixes are looked for where a clause allows edits and pins one. -/
theorem pinsTooMuch_iff {matchers : Matchers} {c : Clause} :
    pinsTooMuch matchers c ↔
      0 < c.distance ∧ c.pinnedPrefix ≠ "" ∧ matchers.takesPrefix c.pinnedPrefix = false := by
  rw [pinsTooMuch, Bool.and_eq_true, Bool.and_eq_true, decide_eq_true_iff, Bool.not_eq_true',
    Bool.not_eq_true', ← Bool.not_eq_true, String.isEmpty_iff, and_assoc, Clause.edits]
  exact and_congr_left fun _ => by omega

/-- A query fails when there are names to look for and a clause pins a prefix that the index cannot
look for. -/
theorem query?_eq_none_iff {names : List String} {query : String} {matchers : Matchers} :
    (ofNames names).query? query matchers = none ↔
      names ≠ [] ∧ ∃ c ∈ Clause.parse query, 0 < c.distance ∧ c.pinnedPrefix ≠ "" ∧
        matchers.takesPrefix c.pinnedPrefix = false := by
  simp only [← pinsTooMuch_iff]
  rw [query?, isEmpty_entries_ofNames]
  split
  next hempty =>
    simp only [reduceCtorEq, false_iff, not_and, not_exists]
    intro hnames c hc
    have hclauses : Clause.parse query = [] := by simpa [hnames] using hempty
    rw [hclauses] at hc
    cases hc
  next hsome =>
    have hnames : names ≠ [] := by
      rintro rfl
      simp at hsome
    simp [hnames]

/-- Otherwise it finds the names that meet it. -/
theorem exists_mem_query?_iff {names : List String} {query : String} {matchers : Matchers}
    {found : List (Scored String)} (h : (ofNames names).query? query matchers = some found)
    {name : String} :
    (∃ s ∈ found, s.item = name) ↔
      name ∈ names ∧ Clause.acceptsAll (Clause.parse query) (Index.terms name) := by
  rw [query?, isEmpty_entries_ofNames] at h
  split at h
  next hempty =>
    cases h
    rcases Bool.or_eq_true _ _ ▸ hempty with hclauses | hnames
    · rw [List.isEmpty_iff.mp hclauses]
      simp [Clause.acceptsAll]
    · rw [List.isEmpty_iff.mp hnames]
      simp
  next =>
    split at h
    · cases h
    · cases h
      exact exists_mem_hits_iff

end NameIndex

end ItemCatalog
