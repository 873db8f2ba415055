import Mathlib.Data.List.Basic
import ItemCatalog.Proofs.Request.Hints
import ItemCatalog.Retrieval

/-!
# Retrieval with hints

Hints are one more condition of the filter that a catalog is searched with. They have no part in the
faults of a search, in the order of its results or in their scores.

Results:
1. `Catalog.find_toFilter_cons`: what hints do to the search of a catalog.
2. `Retriever.resolve_hints`: retrieval with hints is retrieval without, less what they do not admit.
-/

namespace ItemCatalog

namespace Catalog

theorem filter_find (c : Catalog) (f : Filter) (p : Record → Bool) :
    (c.find f).filter (fun s => p s.item) =
      c.records.filterMap fun r =>
        if p r then (f.evaluate .double r).map fun score => ⟨r, score⟩ else none := by
  rw [find, List.filter_filterMap]
  refine List.filterMap_congr fun r _ => ?_
  cases f.evaluate .double r with
  | none => simp
  | some score => simp [Option.filter]

/-- Hints in front of other filters leave out the records that do not satisfy them. -/
theorem find_toFilter_cons (c : Catalog) (hints : Hints) (filters : List Filter) :
    c.find (.all (hints.toFilter :: filters)) =
      (c.find (.all (Hints.toFilter {} :: filters))).filter fun s => hints.Admits s.item := by
  rw [filter_find c _ fun r => hints.Admits r, find]
  refine List.filterMap_congr fun r _ => ?_
  have hlawful := Weighing.isLawful_double
  rw [Hints.evaluate_all_toFilter_cons _ _ _ hlawful, Hints.evaluate_all_toFilter_cons _ _ _ hlawful,
    if_pos (Hints.admits_none r)]
  by_cases hadmits : hints.Admits r
  · rw [if_pos hadmits, if_pos (decide_eq_true hadmits)]
  · rw [if_neg hadmits, if_neg (by simpa using hadmits)]
    rfl

end Catalog

namespace Retriever

/-- Hints are a filter on what is retrieved: retrieval with hints has the faults of retrieval without
them, and its candidates are those that satisfy the hints, in the same order and with the same
scores. -/
theorem resolve_hints (r : Retriever) (q : Name.Query) (hints : Hints) (fuzzy : Bool) :
    r.resolve q hints fuzzy =
      (r.resolve q {} fuzzy).map fun found => found.filter fun s => hints.Admits s.item := by
  unfold resolve
  split
  · rfl
  · cases fuzzy with
    | false =>
      simp only [Bool.false_eq_true, if_false]
      unfold resolveExact
      cases nameFilter r.matchers q with
      | error fault => rfl
      | ok name =>
        exact congrArg Except.ok (r.catalog.find_toFilter_cons hints (name :: numeralFilters q))
    | true =>
      simp only [if_true]
      unfold resolveFuzzy
      split
      · rfl
      · rfl
      next hits _ _ =>
        -- The weights are attached to what is left, so they may be attached before.
        simp only [Except.map, List.cons_append, List.nil_append]
        rw [r.catalog.find_toFilter_cons hints, List.filter_map]
        rfl

end Retriever

end ItemCatalog
