import Mathlib.Data.List.Sort
import Mathlib.Data.List.TakeWhile
import Mathlib.Order.Compare
import ItemCatalog.Proofs.FirstHighest
import ItemCatalog.StableSort

/-!
# Sorting by a key

Read from its end, the stable sort is an insertion sort. Where the order compares keys, one more item
goes behind all that have at least its key and in front of all others, so that the first item of any
kind has the highest key of its kind, and stood in front of all that have the same.

Results:
1. `perm_stableSort`: sorting neither adds nor drops an item.
2. `pairwise_stableSort`: the keys fall. `pairwise_mergeSort_key` is the same for the merge sort of the
   library, which lists the lowest first.
3. `stableSort_concat`: where one more item goes.
4. `isFirstHighest_of_find?_stableSort`: which item of a kind comes first.
-/

namespace ItemCatalog

/-- Among some items an order compares keys, the highest first. -/
def ComparesKeys {α κ : Type} [LinearOrder κ] (order : α → α → Ordering) (key : α → κ)
    (items : List α) : Prop :=
  ∀ x ∈ items, ∀ y ∈ items, order x y = compare (key y) (key x)

section

variable {α κ : Type} [LinearOrder κ] {order : α → α → Ordering} {key : α → κ} {items : List α}

theorem ComparesKeys.ne_lt_iff (h : ComparesKeys order key items) {x y : α} (hx : x ∈ items)
    (hy : y ∈ items) : order x y ≠ .lt ↔ key x ≤ key y := by
  rw [h x hx y hy, ne_eq, compare_lt_iff_lt, not_lt]

theorem ComparesKeys.mono {more : List α} (h : ComparesKeys order key more)
    (hsub : ∀ x ∈ items, x ∈ more) : ComparesKeys order key items :=
  fun x hx y hy => h x (hsub x hx) y (hsub y hy)

/-! ## Insertion sort -/

theorem insertBehind_eq_orderedInsert (order : α → α → Ordering) (x : α) (items : List α) :
    insertBehind order x items = items.orderedInsert (fun x y => order x y ≠ .lt) x := by
  induction items with
  | nil => rfl
  | cons y rest ih =>
    rw [insertBehind, List.orderedInsert_cons, ih]
    by_cases h : order x y = .lt
    · rw [if_pos h, if_neg (not_not_intro h)]
    · rw [if_neg h, if_pos h]

theorem reverse_stableSort (order : α → α → Ordering) (items : List α) :
    (stableSort order items).reverse =
      items.reverse.insertionSort (fun x y => order x y ≠ .lt) := by
  rw [stableSort, List.reverse_reverse, List.foldl_eq_foldr_reverse, List.insertionSort]
  congr 1
  funext x sorted
  exact insertBehind_eq_orderedInsert order x sorted

theorem perm_stableSort (order : α → α → Ordering) (items : List α) :
    (stableSort order items).Perm items := by
  rw [← List.reverse_perm', reverse_stableSort]
  exact (List.perm_insertionSort _ _).trans (List.reverse_perm _)

/-! ## Sorting by a key -/

theorem reverse_stableSort_of_comparesKeys (h : ComparesKeys order key items) :
    (stableSort order items).reverse =
      items.reverse.insertionSort (fun x y => key x ≤ key y) := by
  have hmap := List.map_insertionSort (fun x y => order x y ≠ .lt) (fun x y => key x ≤ key y) id
    items.reverse fun x hx y hy => h.ne_lt_iff (List.mem_reverse.mp hx) (List.mem_reverse.mp hy)
  rw [List.map_id, List.map_id] at hmap
  rw [reverse_stableSort, hmap]

theorem pairwise_insertionSort_key (items : List α) :
    (items.insertionSort fun x y => key x ≤ key y).Pairwise fun x y => key x ≤ key y := by
  have : IsTrans α fun x y => key x ≤ key y := ⟨fun _ _ _ => le_trans⟩
  have : Std.Total fun x y => key x ≤ key y := ⟨fun _ _ => le_total _ _⟩
  exact List.pairwise_insertionSort _ _

theorem pairwise_stableSort (h : ComparesKeys order key items) :
    (stableSort order items).Pairwise fun x y => key y ≤ key x := by
  rw [← List.pairwise_reverse, reverse_stableSort_of_comparesKeys h]
  exact pairwise_insertionSort_key _

/-- The merge sort of the library keeps to a key as well, where its order compares keys. -/
theorem pairwise_mergeSort_key {comesFirst : α → α → Bool}
    (h : ∀ x ∈ items, ∀ y ∈ items, comesFirst x y = decide (key x ≤ key y)) :
    (items.mergeSort comesFirst).Pairwise fun x y => key x ≤ key y := by
  have hmap := List.map_mergeSort (f := id) (s := fun x y => decide (key x ≤ key y)) h
  rw [List.map_id, List.map_id] at hmap
  have : IsTrans α fun x y => key x ≤ key y := ⟨fun _ _ _ => le_trans⟩
  have : Std.Total fun x y => key x ≤ key y := ⟨fun _ _ => le_total _ _⟩
  rw [hmap]
  exact List.pairwise_mergeSort' _ _

/-- What a bound does not pass over is above it, since the keys rise. -/
theorem le_of_mem_dropWhile {x y : α} (h : items.Pairwise fun x y => key x ≤ key y)
    (hy : y ∈ items.dropWhile fun y => ¬key x ≤ key y) : key x ≤ key y := by
  induction items with
  | nil => cases hy
  | cons z rest ih =>
    obtain ⟨hz, hrest⟩ := List.pairwise_cons.mp h
    by_cases hle : key x ≤ key z
    · rw [List.dropWhile_cons_of_neg (by simpa using hle)] at hy
      rcases List.mem_cons.mp hy with rfl | hy
      · exact hle
      · exact hle.trans (hz y hy)
    · rw [List.dropWhile_cons_of_pos (by simpa using hle)] at hy
      exact ih hrest hy

/-- One more item goes behind all that have at least its key and in front of all others. -/
theorem stableSort_concat {x : α} (h : ComparesKeys order key (items ++ [x])) :
    ∃ front rest, stableSort order items = front ++ rest ∧
      stableSort order (items ++ [x]) = front ++ x :: rest ∧
      (∀ y ∈ front, key x ≤ key y) ∧ ∀ y ∈ rest, key y < key x := by
  have hitems := reverse_stableSort_of_comparesKeys
    (h.mono fun y hy => List.mem_append_left [x] hy)
  have hconcat := reverse_stableSort_of_comparesKeys h
  rw [List.reverse_concat', List.insertionSort_cons_eq_take_drop, ← hitems] at hconcat
  generalize hsorted : (stableSort order items).reverse = sorted at hitems hconcat
  have hpairwise : sorted.Pairwise fun x y => key x ≤ key y :=
    hitems ▸ pairwise_insertionSort_key _
  refine ⟨(sorted.dropWhile fun y => ¬key x ≤ key y).reverse,
    (sorted.takeWhile fun y => ¬key x ≤ key y).reverse, ?_, ?_, ?_, ?_⟩
  · rw [← List.reverse_append, List.takeWhile_append_dropWhile, ← hsorted, List.reverse_reverse]
  · rw [← List.reverse_reverse (stableSort order (items ++ [x])), hconcat]
    simp
  · exact fun y hy => le_of_mem_dropWhile hpairwise (List.mem_reverse.mp hy)
  · intro y hy
    have hbelow := List.mem_takeWhile_imp (List.mem_reverse.mp hy)
    exact not_le.mp (of_decide_eq_true hbelow)

/-! ## The first of a kind -/

/-- What comes first of a kind in the sorted list was the first highest of the kind. -/
theorem isFirstHighest_of_find?_stableSort {kind : α → Bool} {x : α}
    (h : ComparesKeys order key items) (hfind : (stableSort order items).find? kind = some x) :
    IsFirstHighest key kind items x := by
  induction items using List.reverseRecOn with
  | nil => cases hfind
  | append_singleton items y ih =>
    obtain ⟨front, rest, hsort, hconcat, hfront, hrest⟩ := stableSort_concat h
    have ih := ih (h.mono fun z hz => List.mem_append_left [y] hz)
    rw [hsort, List.find?_append] at ih
    rw [hconcat, List.find?_append] at hfind
    cases hfirst : front.find? kind with
    | some z =>
      rw [hfirst, Option.some_or] at ih hfind
      cases hfind
      exact (ih rfl).concat fun _ => hfront x (List.mem_of_find?_eq_some hfirst)
    | none =>
      rw [hfirst, Option.none_or] at ih hfind
      cases hy : kind y with
      | false =>
        rw [List.find?_cons_of_neg (by simp [hy])] at hfind
        exact (ih hfind).concat fun hkind => absurd (hkind.symm.trans hy) nofun
      | true =>
        -- Those of the kind that have at least the key of `y` would be in front.
        rw [List.find?_cons_of_pos hy] at hfind
        cases hfind
        refine isFirstHighest_concat fun z hz hkind => ?_
        have hz := (perm_stableSort order items).mem_iff.mpr hz
        rw [hsort] at hz
        rcases List.mem_append.mp hz with hz | hz
        · exact absurd hkind (List.find?_eq_none.mp hfirst z hz)
        · exact hrest z hz

end

end ItemCatalog
