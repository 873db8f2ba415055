import Mathlib.Data.List.Induction
import Mathlib.Order.Lattice

/-!
# The first highest of a kind

Of the items of some kind there is one with the highest key that stands in front of all others with
that key. Listings keep it of the variants under one key, and ranking of those of one family.

Results:
1. `IsFirstHighest.le`, `IsFirstHighest.unique`: it is the highest, and there is one at most.
2. `exists_isFirstHighest`: there is one where there is anything of the kind.
3. `isFirstHighest_map_iff`, `isFirstHighest_iff_of_sorted`: it is found among the places of the items.
4. `isFirstHighest_iff_of_pairwise`: where all keys of the kind differ, it does not matter what stands in
   front.
-/

namespace ItemCatalog

/-- An item has the highest key of a kind, and stands in front of all others of the kind that have
it. -/
def IsFirstHighest {α κ : Type} [LinearOrder κ] (key : α → κ) (kind : α → Bool) (items : List α)
    (x : α) : Prop :=
  ∃ before after, items = before ++ x :: after ∧ (∀ y ∈ before, kind y → key y < key x) ∧
    ∀ y ∈ after, kind y → key y ≤ key x

section

variable {α κ : Type} [LinearOrder κ] {key : α → κ} {kind : α → Bool} {items : List α} {x y : α}

theorem IsFirstHighest.mem (h : IsFirstHighest key kind items x) : x ∈ items := by
  obtain ⟨before, after, rfl, _, _⟩ := h
  exact List.mem_append_right before List.mem_cons_self

theorem IsFirstHighest.le (h : IsFirstHighest key kind items x) (hy : y ∈ items) (hkind : kind y) :
    key y ≤ key x := by
  obtain ⟨before, after, rfl, hbefore, hafter⟩ := h
  rcases List.mem_append.mp hy with hy | hy
  · exact (hbefore y hy hkind).le
  · rcases List.mem_cons.mp hy with rfl | hy
    · exact le_rfl
    · exact hafter y hy hkind

/-- There is one at most: two would have one key, so that neither stands in front of the other. -/
theorem IsFirstHighest.unique (hx : IsFirstHighest key kind items x)
    (hy : IsFirstHighest key kind items y) (hkindx : kind x) (hkindy : kind y) : x = y := by
  have hle := hy.le hx.mem hkindx
  have hge := hx.le hy.mem hkindy
  obtain ⟨front, rest, rfl, hfront, _⟩ := hx
  obtain ⟨before, after, hsplit, hbefore, _⟩ := hy
  have hyfront : y ∉ front := fun hm => (hfront y hm hkindy).not_ge hle
  have hxbefore : x ∉ before := fun hm => (hbefore x hm hkindx).not_ge hge
  obtain ⟨between, rfl, heq⟩ | ⟨between, rfl, heq⟩ := List.append_eq_append_iff.mp hsplit
  all_goals cases between with
  | nil =>
    cases heq
    rfl
  | cons z between =>
    cases heq
    simp at hxbefore hyfront

/-- It stays so with one more item behind, unless that is of the kind and higher. -/
theorem IsFirstHighest.concat (h : IsFirstHighest key kind items x)
    (hy : kind y → key y ≤ key x) : IsFirstHighest key kind (items ++ [y]) x := by
  obtain ⟨before, after, rfl, hbefore, hafter⟩ := h
  refine ⟨before, after ++ [y], by rw [List.append_assoc, List.cons_append], hbefore, ?_⟩
  rw [List.forall_mem_append, List.forall_mem_singleton]
  exact ⟨hafter, hy⟩

theorem isFirstHighest_concat (h : ∀ x ∈ items, kind x → key x < key y) :
    IsFirstHighest key kind (items ++ [y]) y :=
  ⟨items, [], rfl, h, nofun⟩

theorem exists_isFirstHighest (key : α → κ) (h : ∃ x ∈ items, kind x) :
    ∃ x, kind x ∧ IsFirstHighest key kind items x := by
  induction items using List.reverseRecOn with
  | nil =>
    obtain ⟨x, hx, _⟩ := h
    cases hx
  | append_singleton items y ih =>
    by_cases hsome : ∃ x ∈ items, kind x
    · obtain ⟨x, hx, hfirst⟩ := ih hsome
      by_cases hy : kind y ∧ key x < key y
      · refine ⟨y, hy.1, isFirstHighest_concat fun z hz hkind => ?_⟩
        exact (hfirst.le hz hkind).trans_lt hy.2
      · exact ⟨x, hx, hfirst.concat fun hkind => not_lt.mp fun hlt => hy ⟨hkind, hlt⟩⟩
    · obtain ⟨x, hx, hkind⟩ := h
      rcases List.mem_append.mp hx with hx | hx
      · exact (hsome ⟨x, hx, hkind⟩).elim
      · obtain rfl := List.mem_singleton.mp hx
        exact ⟨x, hkind, isFirstHighest_concat fun z hz hkindz => (hsome ⟨z, hz, hkindz⟩).elim⟩

/-- What is not of the kind makes no difference behind the others. -/
theorem isFirstHighest_concat_iff (hy : ¬ kind y) (hx : kind x) :
    IsFirstHighest key kind (items ++ [y]) x ↔ IsFirstHighest key kind items x := by
  have hconcat : ∀ {z}, IsFirstHighest key kind items z → IsFirstHighest key kind (items ++ [y]) z :=
    fun h => h.concat fun hkind => absurd hkind hy
  refine ⟨fun h => ?_, hconcat⟩
  have hmem : x ∈ items := by
    rcases List.mem_append.mp h.mem with hm | hm
    · exact hm
    · exact absurd (List.mem_singleton.mp hm ▸ hx) hy
  obtain ⟨z, hz, hfirst⟩ := exists_isFirstHighest key ⟨x, hmem, hx⟩
  rwa [h.unique (hconcat hfirst) hx hz]

/-- Items are compared as what they stand for. -/
theorem isFirstHighest_map_iff {β : Type} (f : β → α) {places : List β} :
    IsFirstHighest key kind (places.map f) x ↔
      ∃ i, f i = x ∧ IsFirstHighest (fun i => key (f i)) (fun i => kind (f i)) places i := by
  constructor
  · rintro ⟨before, after, hsplit, hbefore, hafter⟩
    obtain ⟨front, back, rfl, rfl, hback⟩ := List.map_eq_append_iff.mp hsplit
    obtain ⟨i, rest, rfl, rfl, rfl⟩ := List.map_eq_cons_iff.mp hback
    exact ⟨i, rfl, front, rest, rfl, List.forall_mem_map.mp hbefore, List.forall_mem_map.mp hafter⟩
  · rintro ⟨i, rfl, front, rest, rfl, hfront, hrest⟩
    refine ⟨front.map f, rest.map f, by rw [List.map_append, List.map_cons], ?_, ?_⟩
    · exact List.forall_mem_map.mpr hfront
    · exact List.forall_mem_map.mpr hrest

/-- Where items come in increasing order, those in front are the lesser ones. -/
theorem isFirstHighest_iff_of_sorted [LinearOrder α] (hsorted : items.Pairwise (· < ·))
    (hx : x ∈ items) :
    IsFirstHighest key kind items x ↔
      ∀ y ∈ items, kind y → key y ≤ key x ∧ (y < x → key y < key x) := by
  constructor
  · rintro ⟨before, after, rfl, hbefore, hafter⟩ y hy hkind
    have hlater := (List.pairwise_cons.mp (List.pairwise_append.mp hsorted).2.1).1
    rcases List.mem_append.mp hy with hy | hy
    · exact ⟨(hbefore y hy hkind).le, fun _ => hbefore y hy hkind⟩
    · rcases List.mem_cons.mp hy with rfl | hy
      · exact ⟨le_rfl, fun hlt => absurd hlt (lt_irrefl y)⟩
      · exact ⟨hafter y hy hkind, fun hlt => absurd hlt (hlater y hy).not_gt⟩
  · intro h
    obtain ⟨before, after, rfl⟩ := List.append_of_mem hx
    have hfront := (List.pairwise_append.mp hsorted).2.2
    refine ⟨before, after, rfl, fun y hy hkind => ?_, fun y hy hkind => ?_⟩
    · exact (h y (List.mem_append_left _ hy) hkind).2 (hfront y hy x List.mem_cons_self)
    · exact (h y (List.mem_append_right _ (List.mem_cons_of_mem x hy)) hkind).1

/-- Where no two of the kind have one key, the first highest is the highest. -/
theorem isFirstHighest_iff_of_pairwise
    (hne : items.Pairwise fun y z => kind y → kind z → key y ≠ key z) (hkind : kind x) :
    IsFirstHighest key kind items x ↔ x ∈ items ∧ ∀ y ∈ items, kind y → key y ≤ key x := by
  refine ⟨fun h => ⟨h.mem, fun y hy => h.le hy⟩, fun ⟨hx, hle⟩ => ?_⟩
  obtain ⟨before, after, rfl⟩ := List.append_of_mem hx
  have hbefore := (List.pairwise_append.mp hne).2.2
  refine ⟨before, after, rfl, fun y hy hy' => ?_, fun y hy => ?_⟩
  · exact lt_of_le_of_ne (hle y (List.mem_append_left _ hy) hy')
      (hbefore y hy x List.mem_cons_self hy' hkind)
  · exact hle y (List.mem_append_right _ (List.mem_cons_of_mem x hy))

end

end ItemCatalog
