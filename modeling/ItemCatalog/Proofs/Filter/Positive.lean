import ItemCatalog.Proofs.Filter.Score
import ItemCatalog.Proofs.Number.Positive
import ItemCatalog.Proofs.Text.Word

/-!
# Scores of words are positive

Every word that is asked for adds a weight greater than zero to the score of a name, so a name with
all of the words scores more than zero. Rounding does not get in the way as long as the words of the
name can be counted in double precision; the bound taken here is that of texts in memory.

Results:
1. `positive_occurrence`: the weight of a word is positive.
2. `positive_wordScore`: so is the score of a name for words that it has.
-/

namespace ItemCatalog.Filter

open Double

theorem exists_half_eq : ∃ m, 0 < m ∧ Double.ofRatio false 1 2 = .finite false m :=
  ⟨Nat.pow 2 1073, by decide +kernel, by decide +kernel⟩

/-- The weight of a word is positive. -/
theorem positive_occurrence {count total : Nat} (hcount : 0 < count) (hle : count ≤ total)
    (htotal : total ≤ 2 ^ 64) : Positive (Weighing.double.occurrence count total) := by
  obtain ⟨half, hpos, hhalf⟩ := exists_half_eq
  have hunsigned := (unsigned_ofNat count).div (unsigned_ofNat total)
  have hshare := ofNat_div_ofNat_ne_nan hcount (Nat.lt_of_lt_of_le hcount hle)
    (Nat.le_trans hle htotal) htotal
  have hsum := Positive.fusedMultiplyAdd hpos hpos hunsigned hshare
  rw [← hhalf] at hsum
  exact Positive.ofNat_mul hcount hsum

theorem positive_weighWords {nameWords sought : List (List Char)} {score x : Double}
    (hlength : nameWords.length ≤ 2 ^ 64) (hscore : Positive score)
    (hx : weighWords .double nameWords score sought = some x) : Positive x := by
  induction sought generalizing score with
  | nil => exact Option.some.inj hx ▸ hscore
  | cons word sought ih =>
    rw [weighWords] at hx
    split at hx
    · cases hx
    next hcount =>
      have hweight := positive_occurrence (Nat.pos_of_ne_zero hcount) List.count_le_length hlength
      exact ih (hscore.add hweight) hx

/-- The score of a name for words that it has is positive. -/
theorem positive_wordScore {phrases : List String} {name : String} (hname : name.length < 2 ^ 64)
    {x : Double} (hx : wordScore .double phrases name = some x) : Positive x := by
  have hlength : (Text.spacedWords name.toList).length ≤ 2 ^ 64 := by
    have hpieces := Text.length_piecesBy_le (· = ' ') name.toList
    have hwords : (Text.spacedWords name.toList).length ≤ (Text.pieces ' ' name.toList).length :=
      List.length_filter_le _ _
    rw [String.length_toList] at hpieces
    exact Nat.le_trans hwords (Nat.le_trans hpieces hname)
  unfold wordScore at hx
  split at hx
  · cases hx
  next hsought =>
    cases hphrases : phraseWords phrases with
    | nil => exact absurd hphrases hsought
    | cons word sought =>
      rw [hphrases, weighWords] at hx
      split at hx
      · cases hx
      next hcount =>
        -- The first weight is added to zero.
        have hweight := positive_occurrence (Nat.pos_of_ne_zero hcount) List.count_le_length hlength
        have hzero := Weighing.isLawful_double.zero_add (Weighing.isLawful_double.occurrence
          ((Text.spacedWords name.toList).count word) (Text.spacedWords name.toList).length)
        rw [hzero] at hx
        exact positive_weighWords hlength hweight hx

end ItemCatalog.Filter
