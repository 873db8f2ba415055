import Mathlib.Order.Compare
import Mathlib.Algebra.Order.Ring.Int
import ItemCatalog.Number.Double

/-!
# The order of numbers

All numbers but `nan` have a place on the line, and there the order for sorting compares whole
numbers. Two finite numbers at one place are equal unless both are zeros.
-/

namespace ItemCatalog.Double

/-- The place of a number on the line, in units. There is none for `nan`, which is put at zero. -/
def place (x : Double) : Int :=
  x.position.getD 0

theorem place_finite (negative : Bool) (magnitude : Nat) :
    (finite negative magnitude).place = if negative then -(magnitude : Int) else magnitude := rfl

theorem position_eq {x : Double} (h : x ≠ .nan) : x.position = some x.place := by
  cases x with
  | finite negative magnitude => rfl
  | infinite negative => rfl
  | nan => exact absurd rfl h

theorem ne_nan_of_isFinite {x : Double} (h : x.isFinite) : x ≠ .nan := by
  rintro rfl
  cases h

theorem compare?_eq {x y : Double} (hx : x ≠ .nan) (hy : y ≠ .nan) :
    x.compare? y = some (compare x.place y.place) := by
  rw [compare?, position_eq hx, position_eq hy]

theorem order_eq {x y : Double} (hx : x ≠ .nan) (hy : y ≠ .nan) :
    x.order y = compare x.place y.place := by
  rw [order, compare?_eq hx hy]
  rfl

theorem same_iff {x y : Double} (hx : x ≠ .nan) (hy : y ≠ .nan) :
    x.same y ↔ x.place = y.place := by
  rw [same, compare?_eq hx hy, beq_iff_eq, Option.some.injEq, compare_eq_iff_eq]

theorem below_iff {x y : Double} (hx : x ≠ .nan) (hy : y ≠ .nan) :
    x.below y ↔ x.place < y.place := by
  rw [below, compare?_eq hx hy, beq_iff_eq, Option.some.injEq, compare_lt_iff_lt]

/-- The place of a number that is not zero tells its sign. -/
theorem eq_of_same {x y : Double} (hx : x.isFinite) (hy : y.isFinite) (hzero : x.same .zero = false)
    (h : x.same y) : x = y := by
  have hxn := ne_nan_of_isFinite hx
  have hyn := ne_nan_of_isFinite hy
  have hplace := (same_iff hxn hyn).mp h
  have hne : x.place ≠ 0 := fun h0 => by
    rw [(same_iff hxn (y := .zero) nofun).mpr h0] at hzero
    cases hzero
  cases x with
  | finite s m =>
    cases y with
    | finite t n =>
      cases s <;> cases t <;>
        simp only [place_finite, if_true, Bool.false_eq_true, if_false] at hplace hne
      case false.false | true.true =>
        congr 1
        omega
      case false.true | true.false => omega
    | infinite | nan => cases hy
  | infinite | nan => cases hx

end ItemCatalog.Double
