/-!
# Stable sorting

`stableSort` puts the items of a list in an order. They are taken one by one from the front, and each
is put right behind the last of those taken before that it does not precede. So items that compare
as equal keep their places among each other, and an item without a place in the order stays behind
what stood in front of it.
-/

namespace ItemCatalog

/-- Puts an item into a list that is read from its end: past the items that it precedes, and no
further. -/
def insertBehind (order : α → α → Ordering) (x : α) : List α → List α
  | [] => [x]
  | y :: rest => if order x y = .lt then y :: insertBehind order x rest else x :: y :: rest

/-- The items in order. -/
def stableSort (order : α → α → Ordering) (items : List α) : List α :=
  (items.foldl (fun sorted x => insertBehind order x sorted) []).reverse

end ItemCatalog
