import ItemCatalog.Index.Edit

/-!
# Few edits

`Edits k` lists the ways in which at most `k` edits turn one word into another, read from the front
of both words. `similar` decides it.

Results:
1. `withinEdits_iff`: the walk finds the edits whenever there are few enough of them.
2. `similar_iff`: to tell words of different lengths apart at once makes no difference.
-/

namespace ItemCatalog.Index

/-- At most `k` edits turn one word into the other. Each character is kept, or takes part in one
edit. -/
inductive Edits : Nat → List Char → List Char → Prop
  | done (k : Nat) : Edits k [] []
  | keep {k : Nat} {xs ys : List Char} (c : Char) : Edits k xs ys → Edits k (c :: xs) (c :: ys)
  | insert {k : Nat} {xs ys : List Char} (c : Char) : Edits k xs ys → Edits (k + 1) xs (c :: ys)
  | delete {k : Nat} {xs ys : List Char} (c : Char) : Edits k xs ys → Edits (k + 1) (c :: xs) ys
  | replace {k : Nat} {xs ys : List Char} (c d : Char) :
      Edits k xs ys → Edits (k + 1) (c :: xs) (d :: ys)
  | swap {k : Nat} {xs ys : List Char} (a b : Char) :
      Edits k xs ys → Edits (k + 1) (a :: b :: xs) (b :: a :: ys)

namespace Edits

variable {k : Nat} {xs ys : List Char}

theorem refl (k : Nat) (xs : List Char) : Edits k xs xs := by
  induction xs with
  | nil => exact .done k
  | cons c xs ih => exact .keep c ih

/-- Each edit changes the length by one at most. -/
theorem length_le (h : Edits k xs ys) : xs.length ≤ ys.length + k ∧ ys.length ≤ xs.length + k := by
  induction h with
  | done => exact ⟨Nat.zero_le _, Nat.zero_le _⟩
  | keep | insert | delete | replace | swap =>
    simp only [List.length_cons]
    omega

end Edits

/-! ## The walk -/

theorem swapped_iff {few : List Char → List Char → Bool} {xs ys : List Char} :
    swapped few xs ys ↔
      ∃ a b xs' ys', xs = a :: b :: xs' ∧ ys = b :: a :: ys' ∧ few xs' ys' := by
  constructor
  · intro h
    rw [swapped.eq_def] at h
    split at h
    next a b xs' c d ys' =>
      simp only [Bool.and_eq_true, decide_eq_true_eq] at h
      obtain ⟨⟨rfl, rfl⟩, hfew⟩ := h
      exact ⟨a, b, xs', ys', rfl, rfl, hfew⟩
    next => cases h
  · rintro ⟨a, b, xs', ys', rfl, rfl, hfew⟩
    simpa [swapped] using hfew

/-- One edit is made in front, or the first characters agree and it is made behind them. -/
theorem withOneMore_cons_iff {few : List Char → List Char → Bool} {x y : Char} {xs ys : List Char} :
    withOneMore few (x :: xs) (y :: ys) ↔
      few xs (y :: ys) ∨ (x = y ∧ withOneMore few xs ys) ∨ few xs ys ∨ few (x :: xs) ys ∨
        swapped few (x :: xs) (y :: ys) := by
  rw [withOneMore]
  simp only [Bool.or_eq_true, Bool.and_eq_true, decide_eq_true_eq, or_assoc]

theorem edits_of_withOneMore {few : List Char → List Char → Bool} {k : Nat}
    (hfew : ∀ xs ys, few xs ys → Edits k xs ys) {xs ys : List Char} (h : withOneMore few xs ys) :
    Edits (k + 1) xs ys := by
  -- The walk keeps characters until it makes its one edit, so the induction is on the word.
  induction xs generalizing ys with
  | nil =>
    rw [withOneMore] at h
    cases ys with
    | nil => exact .done _
    | cons y ys => exact .insert y (hfew _ _ h)
  | cons x xs ih =>
    cases ys with
    | nil =>
      rw [withOneMore, Bool.or_false] at h
      exact .delete x (hfew _ _ h)
    | cons y ys =>
      rcases withOneMore_cons_iff.mp h with hd | ⟨rfl, hk⟩ | hr | hi | hs
      · exact .delete x (hfew _ _ hd)
      · exact .keep x (ih hk)
      · exact .replace x y (hfew _ _ hr)
      · exact .insert y (hfew _ _ hi)
      · obtain ⟨a, b, xs', ys', hxs, hys, hrest⟩ := swapped_iff.mp hs
        rw [hxs, hys]
        exact .swap a b (hfew _ _ hrest)

theorem edits_of_withinEdits {k : Nat} {xs ys : List Char} (h : withinEdits k xs ys) :
    Edits k xs ys := by
  induction k generalizing xs ys with
  | zero =>
    obtain rfl := of_decide_eq_true h
    exact .refl 0 xs
  | succ k ih => exact edits_of_withOneMore (fun _ _ => ih) h

theorem withinEdits_of_edits {k : Nat} {xs ys : List Char} (h : Edits k xs ys) :
    withinEdits k xs ys := by
  -- The first edit in the derivation is the one that the walk for `k` makes.
  induction h with
  | done k =>
    induction k with
    | zero => rfl
    | succ k ih => exact ih
  | @keep k xs ys c _ ih =>
    cases k with
    | zero => exact decide_eq_true (congrArg _ (of_decide_eq_true ih))
    | succ k => exact withOneMore_cons_iff.mpr (.inr (.inl ⟨rfl, ih⟩))
  | @insert k xs ys c _ ih =>
    cases xs with
    | nil => exact ih
    | cons x xs => exact withOneMore_cons_iff.mpr (.inr (.inr (.inr (.inl ih))))
  | @delete k xs ys c _ ih =>
    cases ys with
    | nil => exact (Bool.or_false _).trans ih
    | cons y ys => exact withOneMore_cons_iff.mpr (.inl ih)
  | replace c d _ ih => exact withOneMore_cons_iff.mpr (.inr (.inr (.inl ih)))
  | swap a b _ ih =>
    exact withOneMore_cons_iff.mpr (.inr (.inr (.inr (.inr
      (swapped_iff.mpr ⟨a, b, _, _, rfl, rfl, ih⟩)))))

theorem withinEdits_iff {k : Nat} {xs ys : List Char} : withinEdits k xs ys ↔ Edits k xs ys :=
  ⟨edits_of_withinEdits, withinEdits_of_edits⟩

theorem similar_iff {k : Nat} {xs ys : List Char} : similar k xs ys ↔ Edits k xs ys := by
  simp only [similar, Bool.and_eq_true, decide_eq_true_eq, withinEdits_iff]
  exact ⟨fun h => h.2, fun h => ⟨h.length_le, h⟩⟩

instance (k : Nat) (xs ys : List Char) : Decidable (Edits k xs ys) :=
  decidable_of_iff _ similar_iff

end ItemCatalog.Index
