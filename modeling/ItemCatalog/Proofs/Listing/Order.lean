import Mathlib.Data.Prod.Lex
import ItemCatalog.Listing
import ItemCatalog.Proofs.Number.Order
import ItemCatalog.Proofs.StableSort

/-!
# The order of a listing

A direction reads the line forwards or backwards. `Listing.standing` is what a scored record is sorted
by, as a pair of whole numbers that are compared one after the other, the lower the further in front.

Results:
1. `sorted_perm`: sorting neither adds nor drops a record.
2. `pairwise_sorted`: records with scores that count come out in order.
-/

namespace ItemCatalog

/-! ## Directions -/

/-- A whole number as a direction sees it: what comes first is lower. -/
def Direction.signed (d : Direction) (n : Int) : Int :=
  match d with
  | ascending => n
  | descending => -n

theorem Direction.signed_injective (d : Direction) : Function.Injective d.signed := by
  intro m n h
  cases d with
  | ascending => exact h
  | descending => exact Int.neg_inj.mp h

theorem Direction.apply_compare (d : Direction) (m n : Int) :
    d.apply (compare m n) = compare (d.signed m) (d.signed n) := by
  cases d with
  | ascending => rfl
  | descending =>
    show (compare m n).swap = compare (-m) (-n)
    rw [← Std.OrientedOrd.eq_swap, ← cmp_eq_compare, ← cmp_eq_compare]
    exact (StrictAnti.cmp_map_eq (fun _ _ => Int.neg_lt_neg) m n).symm

theorem Direction.apply_then (d : Direction) (o p : Ordering) :
    d.apply (o.then p) = (d.apply o).then (d.apply p) := by
  cases d with
  | ascending => rfl
  | descending => exact Ordering.swap_then o p

/-- One number stands before another in a direction. -/
def Direction.Precedes (d : Direction) (x y : Double) : Prop :=
  d.apply (x.order y) = .lt

instance (d : Direction) (x y : Double) : Decidable (d.Precedes x y) :=
  inferInstanceAs (Decidable (_ = _))

theorem Direction.precedes_iff {d : Direction} {x y : Double} (hx : x ≠ .nan) (hy : y ≠ .nan) :
    d.Precedes x y ↔ d.signed x.place < d.signed y.place := by
  rw [Precedes, Double.order_eq hx hy, apply_compare, compare_lt_iff_lt]

theorem Direction.Precedes.trans {d : Direction} {x y z : Double} (hxy : d.Precedes x y)
    (hx : x ≠ .nan) (hy : y ≠ .nan) (hz : z ≠ .nan) (hyz : d.Precedes y z) : d.Precedes x z := by
  rw [precedes_iff hx hy] at hxy
  rw [precedes_iff hy hz] at hyz
  exact (precedes_iff hx hz).mpr (hxy.trans hyz)

theorem Direction.Precedes.asymm {d : Direction} {x y : Double} (hxy : d.Precedes x y)
    (hx : x ≠ .nan) (hy : y ≠ .nan) : ¬ d.Precedes y x := by
  rw [precedes_iff hx hy] at hxy
  rw [precedes_iff hy hx]
  exact hxy.not_gt

namespace Listing

/-! ## Sorting -/

/-- What a record is sorted by: its score, then its level. -/
def standing (d : Direction) (s : Scored Record) : Int ×ₗ Int :=
  toLex (d.signed s.score.place, d.signed s.item.level.toNat)

theorem isLE_scoreOrder {d : Direction} {a b : Scored Record} (ha : a.score ≠ .nan)
    (hb : b.score ≠ .nan) :
    (d.apply (scoreOrder a b)).isLE = decide (standing d a ≤ standing d b) := by
  have hlevel : compare a.item.level.toNat b.item.level.toNat =
      compare (a.item.level.toNat : Int) b.item.level.toNat := by
    rw [← cmp_eq_compare, ← cmp_eq_compare, Int.natCast_strictMono.cmp_map_eq]
  have hcompare : d.apply (scoreOrder a b) = compare (standing d a) (standing d b) := by
    rw [scoreOrder, d.apply_then, Double.order_eq ha hb, hlevel, d.apply_compare, d.apply_compare]
    rfl
  rw [hcompare, Bool.eq_iff_iff, decide_eq_true_iff, Ordering.isLE_iff_ne_gt]
  exact compare_le_iff_le

theorem sorted_perm (d : Direction) (records : List (Scored Record)) :
    (sorted d records).Perm records :=
  List.mergeSort_perm _ _

/-- Scores that are `nan` aside, records come out in order. -/
theorem pairwise_sorted {d : Direction} {records : List (Scored Record)}
    (h : ∀ s ∈ records, s.score ≠ .nan) :
    (sorted d records).Pairwise fun a b => standing d a ≤ standing d b :=
  pairwise_mergeSort_key fun a ha b hb => isLE_scoreOrder (h a ha) (h b hb)

end Listing

end ItemCatalog
