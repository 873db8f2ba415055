import Mathlib.Data.List.Nodup
import Mathlib.Data.List.Perm.Basic
import ItemCatalog.Proofs.Ranking.Families

/-!
# Candidates in another order

The order of the candidates matters for ranking only where two of them tie. Where no two of a family
have one availability, a family is represented by the same item in whatever order they come. The
representatives may still be found in another order, since families can tie in availability; where no
two items have one standing, sorting them for display puts that right.

Results:
1. `represents_iff_of_perm`: the same items stand for their families.
2. `perm_best`: they are found in some order.
3. `rank_eq_of_perm`: ranking gives the same list.
-/

namespace ItemCatalog

namespace RankedItem

/-- No two items tie where ranking compares them: items of one family in availability, and any two
items in standing. Combined scores that are equal as numbers tie, whatever the signs of zeros. -/
structure Untied (items : List RankedItem) : Prop where
  availability_ne : items.Pairwise fun x y =>
    x.record.family = y.record.family → x.availability ≠ y.availability
  standing_nodup : (items.map standing).Nodup

variable {items others : List RankedItem} {x : RankedItem}

theorem Untied.of_perm (h : Untied items) (hperm : items.Perm others) : Untied others where
  availability_ne := (hperm.pairwise_iff fun hne hfamily => (hne hfamily.symm).symm).mp h.availability_ne
  standing_nodup := (hperm.map standing).nodup_iff.mp h.standing_nodup

/-! ## Representatives -/

/-- Without ties the best of a family stands for it, wherever it comes. -/
theorem Untied.represents_iff (h : Untied items) :
    Represents items x ↔
      x ∈ items ∧ ∀ y ∈ items, y.record.family = x.record.family → y.availability ≤ x.availability := by
  have hne : items.Pairwise fun y z => decide (y.record.family = x.record.family) →
      decide (z.record.family = x.record.family) → y.availability ≠ z.availability := by
    refine h.availability_ne.imp fun hne hy hz => hne ?_
    exact (of_decide_eq_true hy).trans (of_decide_eq_true hz).symm
  rw [Represents, isFirstHighest_iff_of_pairwise hne (decide_eq_true rfl)]
  simp only [decide_eq_true_eq]

theorem represents_iff_of_perm (h : Untied items) (hperm : items.Perm others) :
    Represents items x ↔ Represents others x := by
  rw [h.represents_iff, (h.of_perm hperm).represents_iff]
  simp only [hperm.mem_iff]

/-- The same items are left of the families, in some order. -/
theorem perm_best (h : Untied items) (hplaced : ∀ x ∈ items, x.combinedScore ≠ .nan)
    (hperm : items.Perm others) : (best items).Perm (best others) := by
  have hplaced' : ∀ x ∈ others, x.combinedScore ≠ .nan := fun x hx =>
    hplaced x (hperm.mem_iff.mpr hx)
  refine (List.perm_ext_iff_of_nodup (nodup_families_collapseFamilies _).of_map
    (nodup_families_collapseFamilies _).of_map).mpr fun x => ?_
  rw [← best, ← best, mem_best_iff hplaced, mem_best_iff hplaced', represents_iff_of_perm h hperm]

/-! ## Display -/

/-- Items that no two have one standing of are displayed in one order only. -/
theorem sortForDisplay_eq_of_perm (hplaced : ∀ x ∈ items, x.combinedScore ≠ .nan)
    (hstanding : (items.map standing).Nodup) (hperm : items.Perm others) :
    sortForDisplay items = sortForDisplay others := by
  have hplaced' : ∀ x ∈ others, x.combinedScore ≠ .nan := fun x hx =>
    hplaced x (hperm.mem_iff.mpr hx)
  have hitems : (sortForDisplay items).Perm items := perm_stableSort _ _
  have hothers : (sortForDisplay others).Perm others := perm_stableSort _ _
  refine List.Perm.eq_of_pairwise (fun x y hx hy hxy hyx => ?_)
    (pairwise_stableSort (comparesKeys_displayOrder hplaced))
    (pairwise_stableSort (comparesKeys_displayOrder hplaced'))
    (hitems.trans (hperm.trans hothers.symm))
  have hx := hitems.mem_iff.mp hx
  have hy := hperm.mem_iff.mpr (hothers.mem_iff.mp hy)
  exact List.inj_on_of_nodup_map hstanding hx hy (le_antisymm hyx hxy)

end RankedItem

open RankedItem

/-- Where all relevances are finite and no two candidates tie, ranking does not depend on the order in
which they come. -/
theorem rank_eq_of_perm {candidates others : List (Scored Record)} (q : Name.Query) (limit : Nat)
    (hperm : candidates.Perm others) (hfinite : ∀ c ∈ candidates, c.score.isFinite)
    (huntied : Untied (candidates.map (ofCandidate q))) :
    rank candidates q limit = rank others q limit := by
  have hplaced : ∀ x ∈ candidates.map (ofCandidate q), x.combinedScore ≠ .nan :=
    List.forall_mem_map.mpr fun c hc => combinedScore_ofCandidate (hfinite c hc)
  have hbest := perm_best huntied hplaced (hperm.map (ofCandidate q))
  have hmem : ∀ x ∈ best (candidates.map (ofCandidate q)), x ∈ candidates.map (ofCandidate q) :=
    fun x hx => ((mem_best_iff hplaced).mp hx).mem
  have hstanding : ((best (candidates.map (ofCandidate q))).map standing).Nodup := by
    refine List.Nodup.map_on (fun x hx y hy => ?_) (nodup_families_collapseFamilies _).of_map
    exact List.inj_on_of_nodup_map huntied.standing_nodup (hmem x hx) (hmem y hy)
  have hdisplay := sortForDisplay_eq_of_perm (fun x hx => hplaced x (hmem x hx)) hstanding hbest
  exact congrArg (List.take limit) hdisplay

/-- Variants of three families. The blade and the twin axes of level 40 tie in availability. -/
def tiedFamilies : List (Scored Record) :=
  [variant "blade" 40 [], variant "twin axes" 40 [], variant "blade" 80 ["temp"],
    variant "axe" 20 ["rare"]]

theorem rank_eq_of_perm_tiedFamilies :
    (tiedFamilies.Perm tiedFamilies.reverse ∧ (∀ c ∈ tiedFamilies, c.score.isFinite) ∧
        Untied (tiedFamilies.map (ofCandidate ⟨"blade", ["blade"]⟩))) ∧
      rank tiedFamilies ⟨"blade", ["blade"]⟩ 2 = rank tiedFamilies.reverse ⟨"blade", ["blade"]⟩ 2 := by
  have hperm : tiedFamilies.Perm tiedFamilies.reverse := (List.reverse_perm _).symm
  have hfinite : ∀ c ∈ tiedFamilies, c.score.isFinite := by decide +kernel
  have huntied : Untied (tiedFamilies.map (ofCandidate ⟨"blade", ["blade"]⟩)) :=
    ⟨by decide +kernel, by decide +kernel⟩
  exact ⟨⟨hperm, hfinite, huntied⟩, rank_eq_of_perm _ 2 hperm hfinite huntied⟩

end ItemCatalog
