import Mathlib.Data.Prod.Lex
import ItemCatalog.Proofs.Number.Order
import ItemCatalog.Proofs.Number.Rounding
import ItemCatalog.Proofs.StableSort
import ItemCatalog.Ranking

/-!
# The orders of ranking

Both orders compare keys, as products of whole numbers that are compared one after the other. They do
so wherever combined scores are not `nan`, which a finite relevance guarantees.

Results:
1. `combinedScore_ofCandidate`: a finite relevance gives a combined score that has a place.
2. `comparesKeys_availabilityOrder`, `comparesKeys_displayOrder`: what the two orders compare.
-/

namespace ItemCatalog

namespace RankedItem

/-! ## Keys -/

/-- What variants of a family are compared by: priority, level and combined score. -/
def availability (x : RankedItem) : Int ×ₗ Nat ×ₗ Int :=
  toLex (x.priority, toLex (x.record.level.toNat, x.combinedScore.place))

/-- What families are compared by: exact match, priority, relevance, combined score and sum of
bonuses. -/
def standing (x : RankedItem) : Nat ×ₗ Int ×ₗ Nat ×ₗ Int ×ₗ Int :=
  toLex (x.exactMatch.toNat, toLex (x.priority, toLex (x.hasRelevance.toNat,
    toLex (x.combinedScore.place, x.bonusSum))))

theorem combinedScore_ofCandidate {q : Name.Query} {c : Scored Record} (h : c.score.isFinite) :
    (ofCandidate q c).combinedScore ≠ .nan := by
  dsimp only [ofCandidate]
  exact Double.fusedMultiplyAdd_ne_nan (Double.isFinite_ofNat_toNat _) h (Double.ofInt_ne_nan _)

variable {items : List RankedItem}

theorem comparesKeys_availabilityOrder (h : ∀ x ∈ items, x.combinedScore ≠ .nan) :
    ComparesKeys availabilityOrder availability items := by
  intro x hx y hy
  rw [availabilityOrder, Double.order_eq (h y hy) (h x hx)]
  rfl

theorem comparesKeys_displayOrder (h : ∀ x ∈ items, x.combinedScore ≠ .nan) :
    ComparesKeys displayOrder standing items := by
  intro x hx y hy
  rw [displayOrder, Double.order_eq (h y hy) (h x hx)]
  rfl

end RankedItem

end ItemCatalog
