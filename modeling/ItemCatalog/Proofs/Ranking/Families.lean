import Mathlib.Data.List.Dedup
import ItemCatalog.Proofs.Ranking.Order

/-!
# What ranking returns

Sorted by availability, the first item of a family is its first highest, wherever the other families
stand. One such item is left of each family, and the best of these are shown in order.

Results:
1. `mem_firstOfFamilies_iff`: an item is kept when it is the first of its family.
2. `mem_best_iff`: the items kept are those that represent their families.
3. `isRanking_rank`: what is shown of them, in which order, and what is left out.
-/

namespace ItemCatalog

namespace RankedItem

/-! ## Definitions -/

/-- An item stands for its family: none of the family is above it in availability, and those with the
same availability stand behind it. -/
def Represents (items : List RankedItem) (x : RankedItem) : Prop :=
  IsFirstHighest availability (·.record.family = x.record.family) items x

/-- What a ranking of some items is. -/
structure IsRanking (items : List RankedItem) (limit : Nat) (ranked : List RankedItem) : Prop where
  length_eq : ranked.length = min limit (items.map (·.record.family)).dedup.length
  nodup_families : (ranked.map (·.record.family)).Nodup
  represents : ∀ x ∈ ranked, Represents items x
  sorted : ranked.Pairwise fun x y => y.standing ≤ x.standing
  /-- No family that the limit leaves out stands above one that is shown. -/
  left_out : ∀ y, Represents items y → y.record.family ∉ ranked.map (·.record.family) →
    ∀ x ∈ ranked, y.standing ≤ x.standing

/-! ## The first of each family -/

variable {items : List RankedItem} {seen : List String} {x : RankedItem}

theorem mem_firstOfFamilies_iff :
    x ∈ firstOfFamilies seen items ↔ x.record.family ∉ seen ∧
      items.find? (·.record.family = x.record.family) = some x := by
  induction items generalizing seen with
  | nil => simp [firstOfFamilies]
  | cons y rest ih =>
    rw [firstOfFamilies]
    by_cases hsame : y.record.family = x.record.family
    · rw [List.find?_cons_of_pos (by simpa using hsame), Option.some.injEq]
      split
      next hseen =>
        have hseen := List.contains_iff_mem.mp hseen
        rw [ih, ← hsame]
        exact iff_of_false (fun h => h.1 hseen) fun h => h.1 hseen
      next hseen =>
        have hseen := fun hmem => hseen (List.contains_iff_mem.mpr hmem)
        rw [List.mem_cons, ih, ← hsame]
        constructor
        · rintro (rfl | ⟨hnew, _⟩)
          · exact ⟨hseen, rfl⟩
          · exact absurd List.mem_cons_self hnew
        · exact fun h => .inl h.2.symm
    · rw [List.find?_cons_of_neg (by simpa using hsame)]
      split
      next => exact ih
      next =>
        have hne : x ≠ y := fun h => hsame (h ▸ rfl)
        rw [List.mem_cons, ih, List.mem_cons, or_iff_right hne, not_or]
        exact and_congr_left' (and_iff_right fun h => hsame h.symm)

theorem nodup_families_firstOfFamilies (seen : List String) (items : List RankedItem) :
    ((firstOfFamilies seen items).map (·.record.family)).Nodup := by
  induction items generalizing seen with
  | nil => exact List.nodup_nil
  | cons y rest ih =>
    rw [firstOfFamilies]
    split
    · exact ih seen
    · rw [List.map_cons, List.nodup_cons]
      refine ⟨fun hmem => ?_, ih _⟩
      obtain ⟨x, hx, hfamily⟩ := List.mem_map.mp hmem
      exact (mem_firstOfFamilies_iff.mp hx).1 (hfamily ▸ List.mem_cons_self)

theorem nodup_families_collapseFamilies (items : List RankedItem) :
    ((collapseFamilies items).map (·.record.family)).Nodup :=
  nodup_families_firstOfFamilies [] items

theorem mem_families_collapseFamilies_iff {family : String} :
    family ∈ (collapseFamilies items).map (·.record.family) ↔
      family ∈ items.map (·.record.family) := by
  rw [List.mem_map, List.mem_map]
  constructor
  · rintro ⟨x, hx, rfl⟩
    exact ⟨x, List.mem_of_find?_eq_some (mem_firstOfFamilies_iff.mp hx).2, rfl⟩
  · rintro ⟨y, hy, rfl⟩
    have hsome : (items.find? (·.record.family = y.record.family)).isSome :=
      List.find?_isSome.mpr ⟨y, hy, decide_eq_true rfl⟩
    obtain ⟨x, hx⟩ := Option.isSome_iff_exists.mp hsome
    have hfamily : x.record.family = y.record.family := by simpa using List.find?_some hx
    exact ⟨x, mem_firstOfFamilies_iff.mpr ⟨List.not_mem_nil, hfamily ▸ hx⟩, hfamily⟩

theorem length_collapseFamilies (items : List RankedItem) :
    (collapseFamilies items).length = (items.map (·.record.family)).dedup.length := by
  have hperm : ((collapseFamilies items).map (·.record.family)).Perm
      (items.map (·.record.family)).dedup := by
    refine (List.perm_ext_iff_of_nodup (nodup_families_collapseFamilies items)
      (List.nodup_dedup _)).mpr fun family => ?_
    rw [mem_families_collapseFamilies_iff, List.mem_dedup]
  rw [← hperm.length_eq, List.length_map]

/-! ## The best of each family -/

theorem Represents.unique {y : RankedItem} (hx : Represents items x) (hy : Represents items y)
    (hfamily : x.record.family = y.record.family) : x = y := by
  rw [Represents, hfamily] at hx
  exact IsFirstHighest.unique hx hy (decide_eq_true hfamily) (decide_eq_true rfl)

/-- What is left of each family. -/
def best (items : List RankedItem) : List RankedItem :=
  collapseFamilies (sortByAvailability items)

theorem mem_sortByAvailability : x ∈ sortByAvailability items ↔ x ∈ items :=
  (perm_stableSort _ _).mem_iff

theorem mem_best_iff (h : ∀ x ∈ items, x.combinedScore ≠ .nan) :
    x ∈ best items ↔ Represents items x := by
  have hrepresents : ∀ z ∈ best items, Represents items z := fun z hz =>
    isFirstHighest_of_find?_stableSort (comparesKeys_availabilityOrder h)
      (mem_firstOfFamilies_iff.mp hz).2
  refine ⟨hrepresents x, fun hx => ?_⟩
  -- The family has an item that is kept, and no other item stands for the family.
  have hfamily : x.record.family ∈ (best items).map (·.record.family) :=
    mem_families_collapseFamilies_iff.mpr
      (List.mem_map_of_mem (mem_sortByAvailability.mpr hx.mem))
  obtain ⟨z, hz, hsame⟩ := List.mem_map.mp hfamily
  exact (hrepresents z hz).unique hx hsame ▸ hz

theorem length_best (items : List RankedItem) :
    (best items).length = (items.map (·.record.family)).dedup.length := by
  rw [best, length_collapseFamilies]
  exact (((perm_stableSort _ _).map _).dedup).length_eq

theorem best_eq_nil_iff : best items = [] ↔ items = [] := by
  rw [← List.length_eq_zero_iff, length_best, List.length_eq_zero_iff, List.dedup_eq_nil,
    List.map_eq_nil_iff]

/-! ## What is shown -/

/-- The first items of a ranking are a ranking. -/
theorem isRanking_take (h : ∀ x ∈ items, x.combinedScore ≠ .nan) (limit : Nat) :
    IsRanking items limit ((sortForDisplay (best items)).take limit) := by
  have hperm : (sortForDisplay (best items)).Perm (best items) := perm_stableSort _ _
  have hmem : ∀ {x}, x ∈ sortForDisplay (best items) ↔ Represents items x := by
    intro x
    rw [hperm.mem_iff, mem_best_iff h]
  have hplaced : ∀ x ∈ best items, x.combinedScore ≠ .nan := fun x hx =>
    h x ((mem_best_iff h).mp hx).mem
  have hpairwise : (sortForDisplay (best items)).Pairwise fun x y => y.standing ≤ x.standing :=
    pairwise_stableSort (comparesKeys_displayOrder hplaced)
  have hnodup : ((sortForDisplay (best items)).map (·.record.family)).Nodup :=
    (hperm.map _).nodup_iff.mpr (nodup_families_collapseFamilies _)
  refine ⟨?_, ?_, ?_, ?_, ?_⟩
  · rw [List.length_take, hperm.length_eq, length_best]
  · exact hnodup.sublist ((List.take_sublist _ _).map _)
  · exact fun x hx => hmem.mp (List.mem_of_mem_take hx)
  · exact hpairwise.sublist (List.take_sublist _ _)
  · -- What stands for a family that is out comes behind all that are shown.
    intro y hy hout x hx
    have hy := hmem.mpr hy
    rw [← List.take_append_drop limit (sortForDisplay (best items))] at hy hpairwise
    rcases List.mem_append.mp hy with hy | hy
    · exact absurd (List.mem_map_of_mem hy) hout
    · exact (List.pairwise_append.mp hpairwise).2.2 x hx y hy

end RankedItem

open RankedItem

/-- Where all relevances are finite, ranking returns the best representatives of the families, in
order. -/
theorem isRanking_rank {candidates : List (Scored Record)} (q : Name.Query) (limit : Nat)
    (hfinite : ∀ c ∈ candidates, c.score.isFinite) :
    IsRanking (candidates.map (ofCandidate q)) limit (rank candidates q limit) := by
  refine isRanking_take ?_ limit
  rw [List.forall_mem_map]
  exact fun c hc => combinedScore_ofCandidate (hfinite c hc)

/-- Ranking leaves nothing only of nothing, or when nothing may be shown. -/
theorem rank_eq_nil_iff {candidates : List (Scored Record)} {q : Name.Query} {limit : Nat} :
    rank candidates q limit = [] ↔ limit = 0 ∨ candidates = [] := by
  have hperm := perm_stableSort displayOrder (best (candidates.map (ofCandidate q)))
  show (sortForDisplay (best (candidates.map (ofCandidate q)))).take limit = [] ↔ _
  rw [List.take_eq_nil_iff, sortForDisplay, ← List.length_eq_zero_iff, hperm.length_eq,
    List.length_eq_zero_iff, best_eq_nil_iff, List.map_eq_nil_iff]

/-- A candidate of a family with a level and a tag. -/
def variant (family : String) (level : UInt8) (tags : List String) : Scored Record where
  item :=
    { name := family
      title := family
      link := ""
      family
      category := .weapon
      itemType := "axe"
      level
      tagSet := [⟨tags⟩]
      bonuses := []
      resists := []
      damage := []
      elements := []
      specials := none
      skill := none
      images := []
      modifies := none
      colorCustom := none }
  score := 1

/-- Variants of three families, with those of one family apart. -/
def variants : List (Scored Record) :=
  [variant "blade" 10 [], variant "twin axes" 40 [], variant "axe" 20 ["rare"],
    variant "blade" 80 ["temp"], variant "blade" 30 ["se"], variant "blade" 30 []]

theorem isRanking_rank_variants :
    (∀ c ∈ variants, c.score.isFinite) ∧
      IsRanking (variants.map (ofCandidate ⟨"blade", ["blade"]⟩)) 2
        (rank variants ⟨"blade", ["blade"]⟩ 2) ∧
      rank variants ⟨"blade", ["blade"]⟩ 2 =
        [variant "blade" 30 ["se"], variant "twin axes" 40 []].map
          (ofCandidate ⟨"blade", ["blade"]⟩) := by
  have hfinite : ∀ c ∈ variants, c.score.isFinite := by decide +kernel
  exact ⟨hfinite, isRanking_rank _ 2 hfinite, by decide +kernel⟩

end ItemCatalog
