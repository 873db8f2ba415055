import Mathlib.Data.List.Infix
import ItemCatalog.Request.Level

/-!
# Where a level bound starts

The signs overlap: most of them start with a shorter one. Since longer signs are listed before their
beginnings, the first listed sign that a text starts with is the longest one.

Results:
1. `signAt?_eq_some_iff`: of the signs that a text starts with the longest counts.
2. `splitAtSign?_eq_none_iff`: a text without a sign is not split.
3. `splitAtSign?_eq_some_iff`: any other is split at its leftmost sign.
4. `firstSign_of_notMem`: a sign between texts without the characters of signs is the first one.
-/

namespace ItemCatalog.LevelBound

/-! ## Definitions -/

/-- The longest sign that a text starts with, and its comparison. -/
structure LongestAt (sign : String) (op : Comparison) (cs : List Char) : Prop where
  mem : (sign, op) ∈ signs
  starts : sign.toList <+: cs
  longest : ∀ s ∈ signs, s.1.toList <+: cs → s.1.length ≤ sign.length

/-- The leftmost place of a text where a sign starts, with the longest sign that starts there and what
stands before and behind it. -/
structure FirstSign (cs before : List Char) (sign : String) (op : Comparison)
    (behind : List Char) : Prop where
  split : cs = before ++ (sign.toList ++ behind)
  longest : LongestAt sign op (sign.toList ++ behind)
  leftmost : ∀ k < before.length, ∀ s ∈ signs, ¬ s.1.toList <+: cs.drop k

/-! ## The table of signs -/

/-- No sign is listed behind a shorter one. -/
theorem pairwise_length_signs : signs.Pairwise fun s t => t.1.length ≤ s.1.length := by decide

/-- Each sign is listed once. -/
theorem eq_of_mem_signs {s t : String × Comparison} (hs : s ∈ signs) (ht : t ∈ signs)
    (h : s.1 = t.1) : s = t := by
  have hall : ∀ s ∈ signs, ∀ t ∈ signs, s.1 = t.1 → s = t := by decide
  exact hall s hs t ht h

theorem toList_ne_nil_of_mem_signs {s : String × Comparison} (hs : s ∈ signs) :
    s.1.toList ≠ [] := by
  have hall : ∀ s ∈ signs, s.1.toList ≠ [] := by decide
  exact hall s hs

/-- The characters that signs consist of. -/
def signCharacters : List Char := ['=', '<', '>', '!', '/']

theorem mem_signCharacters {s : String × Comparison} (hs : s ∈ signs) :
    ∀ c ∈ s.1.toList, c ∈ signCharacters := by
  have hall : ∀ s ∈ signs, s.1.toList.all (· ∈ signCharacters) := by decide
  exact fun c hc => of_decide_eq_true (List.all_eq_true.mp (hall s hs) c hc)

/-! ## Signs at the start of a text -/

theorem signAt?_eq_none_iff {cs : List Char} :
    signAt? cs = none ↔ ∀ s ∈ signs, ¬ s.1.toList <+: cs := by
  simp [signAt?]

theorem LongestAt.unique {cs : List Char} {s t : String × Comparison} (hs : LongestAt s.1 s.2 cs)
    (ht : LongestAt t.1 t.2 cs) : s = t := by
  have hlength : s.1.toList.length = t.1.toList.length := by
    rw [String.length_toList, String.length_toList]
    exact Nat.le_antisymm (ht.longest s hs.mem hs.starts) (hs.longest t ht.mem ht.starts)
  have hbegins := List.prefix_of_prefix_length_le hs.starts ht.starts (Nat.le_of_eq hlength)
  exact eq_of_mem_signs hs.mem ht.mem (String.toList_inj.mp (hbegins.eq_of_length hlength))

/-- The first listed sign that a text starts with is the longest. -/
theorem longestAt_of_signAt? {cs : List Char} {s : String × Comparison} (h : signAt? cs = some s) :
    LongestAt s.1 s.2 cs := by
  obtain ⟨hstarts, earlier, later, hsigns, hnone⟩ := List.find?_eq_some_iff_append.mp h
  refine ⟨List.mem_of_find?_eq_some h, List.isPrefixOf_iff_prefix.mp hstarts, fun t ht htcs => ?_⟩
  rw [hsigns] at ht
  rcases List.mem_append.mp ht with hearlier | hlater
  · have hno : !t.1.toList.isPrefixOf cs := hnone t hearlier
    rw [List.isPrefixOf_iff_prefix.mpr htcs] at hno
    cases hno
  · rcases List.mem_cons.mp hlater with rfl | hlater
    · exact Nat.le_refl _
    · have hpairwise := hsigns ▸ pairwise_length_signs
      exact (List.pairwise_cons.mp (List.pairwise_append.mp hpairwise).2.1).1 t hlater

theorem signAt?_eq_some_iff {cs : List Char} {sign : String} {op : Comparison} :
    signAt? cs = some (sign, op) ↔ LongestAt sign op cs := by
  constructor
  · exact longestAt_of_signAt?
  · intro h
    cases hfound : signAt? cs with
    | none => exact absurd h.starts (signAt?_eq_none_iff.mp hfound _ h.mem)
    | some s => exact congrArg some ((longestAt_of_signAt? hfound).unique h)

/-! ## The first sign of a text -/

/-- A text is not split when no sign occurs in it. -/
theorem splitAtSign?_eq_none_iff {cs : List Char} :
    splitAtSign? cs = none ↔ ∀ s ∈ signs, ¬ s.1.toList <:+: cs := by
  induction cs with
  | nil =>
    refine ⟨fun _ s hs hinfix => ?_, fun _ => rfl⟩
    exact toList_ne_nil_of_mem_signs hs (List.infix_nil.mp hinfix)
  | cons c rest ih =>
    rw [splitAtSign?]
    cases hsign : signAt? (c :: rest) with
    | none =>
      simp only [Option.map_eq_none_iff, ih, List.infix_cons_iff, not_or]
      exact forall₂_congr fun s hs => (and_iff_right (signAt?_eq_none_iff.mp hsign s hs)).symm
    | some s =>
      have hlongest := longestAt_of_signAt? hsign
      simp only [reduceCtorEq, false_iff, not_forall, not_not]
      exact ⟨s, hlongest.mem, hlongest.starts.isInfix⟩

variable {c : Char} {rest before behind : List Char} {sign : String} {op : Comparison}

theorem firstSign_nil (h : LongestAt sign op (sign.toList ++ behind)) :
    FirstSign (sign.toList ++ behind) [] sign op behind where
  split := rfl
  longest := h
  leftmost _ hk := absurd hk (Nat.not_lt_zero _)

theorem FirstSign.isInfix {cs : List Char} (h : FirstSign cs before sign op behind) :
    sign.toList <:+: cs :=
  ⟨before, behind, by rw [List.append_assoc, ← h.split]⟩

/-- In front of a text that no sign starts with, a character is one more before the first sign. -/
theorem firstSign_cons_iff (h : ∀ s ∈ signs, ¬ s.1.toList <+: c :: rest) :
    FirstSign (c :: rest) (c :: before) sign op behind ↔ FirstSign rest before sign op behind := by
  constructor
  · rintro ⟨hsplit, hlongest, hleftmost⟩
    refine ⟨List.tail_eq_of_cons_eq hsplit, hlongest, fun k hk => ?_⟩
    exact hleftmost (k + 1) (Nat.succ_lt_succ hk)
  · rintro ⟨hsplit, hlongest, hleftmost⟩
    refine ⟨congrArg (c :: ·) hsplit, hlongest, fun k hk => ?_⟩
    cases k with
    | zero => exact h
    | succ k => exact hleftmost k (Nat.lt_of_succ_lt_succ hk)

/-- In front of a text without the characters of signs no longer sign starts than the one that stands
there. -/
theorem longestAt_append (hmem : (sign, op) ∈ signs) (hbehind : ∀ c ∈ behind, c ∉ signCharacters) :
    LongestAt sign op (sign.toList ++ behind) where
  mem := hmem
  starts := List.prefix_append _ _
  longest s hs hstarts := by
    rw [← String.length_toList, ← String.length_toList]
    rcases List.prefix_or_prefix_of_prefix hstarts (List.prefix_append _ _) with hle | ⟨more, hmore⟩
    · exact hle.length_le
    · rw [← hmore, List.prefix_append_right_inj] at hstarts
      -- What the longer sign has behind the shorter one would be characters of both kinds.
      cases more with
      | nil => rw [← hmore, List.append_nil]
      | cons c more =>
        have hc : c ∈ s.1.toList := by
          rw [← hmore]
          exact List.mem_append_right _ List.mem_cons_self
        exact absurd (mem_signCharacters hs c hc) (hbehind c (hstarts.subset List.mem_cons_self))

theorem firstSign_of_notMem (hmem : (sign, op) ∈ signs)
    (hbefore : ∀ c ∈ before, c ∉ signCharacters) (hbehind : ∀ c ∈ behind, c ∉ signCharacters) :
    FirstSign (before ++ (sign.toList ++ behind)) before sign op behind := by
  induction before with
  | nil => exact firstSign_nil (longestAt_append hmem hbehind)
  | cons b before ih =>
    refine (firstSign_cons_iff fun s hs hstarts => ?_).mpr (ih fun c hc => hbefore c (.tail b hc))
    -- The first character of a sign would be a character before it.
    cases hsign : s.1.toList with
    | nil => exact toList_ne_nil_of_mem_signs hs hsign
    | cons c rest =>
      rw [hsign] at hstarts
      obtain rfl : c = b := (List.cons_prefix_cons.mp hstarts).1
      exact hbefore c List.mem_cons_self (mem_signCharacters hs c (hsign ▸ List.mem_cons_self))

/-- A text is split at its first sign. -/
theorem splitAtSign?_eq_some_iff {cs : List Char} :
    splitAtSign? cs = some (before, op, behind) ↔ ∃ sign, FirstSign cs before sign op behind := by
  induction cs generalizing before with
  | nil =>
    refine ⟨nofun, fun ⟨sign, h⟩ => ?_⟩
    have hnil := (List.append_eq_nil_iff.mp h.split.symm).2
    exact absurd (List.append_eq_nil_iff.mp hnil).1 (toList_ne_nil_of_mem_signs h.longest.mem)
  | cons c rest ih =>
    rw [splitAtSign?]
    cases hsign : signAt? (c :: rest) with
    | none =>
      have hno := signAt?_eq_none_iff.mp hsign
      simp only [Option.map_eq_some_iff, Prod.exists, Prod.mk.injEq]
      constructor
      · rintro ⟨front, _, _, hrest, rfl, rfl, rfl⟩
        obtain ⟨sign, h⟩ := ih.mp hrest
        exact ⟨sign, (firstSign_cons_iff hno).mpr h⟩
      · rintro ⟨sign, h⟩
        cases before with
        | nil => exact absurd (h.split ▸ h.longest.starts) (hno _ h.longest.mem)
        | cons b front =>
          obtain rfl : c = b := (List.cons.inj h.split).1
          have hrest := ih.mpr ⟨sign, (firstSign_cons_iff hno).mp h⟩
          exact ⟨front, op, behind, hrest, rfl, rfl, rfl⟩
    | some s =>
      have hlongest := longestAt_of_signAt? hsign
      simp only [Option.some.injEq, Prod.mk.injEq]
      constructor
      · rintro ⟨rfl, rfl, rfl⟩
        obtain ⟨behind, hsplit⟩ := hlongest.starts
        refine ⟨s.1, ?_⟩
        rw [← hsplit, ← String.length_toList, List.drop_left]
        exact firstSign_nil (hsplit ▸ hlongest)
      · rintro ⟨sign, h⟩
        cases before with
        | nil =>
          obtain rfl : s = (sign, op) := hlongest.unique (h.split ▸ h.longest)
          refine ⟨rfl, rfl, ?_⟩
          rw [h.split, ← String.length_toList]
          exact List.drop_left
        | cons b front => exact absurd hlongest.starts (h.leftmost 0 (Nat.succ_pos _) s hlongest.mem)

end ItemCatalog.LevelBound
