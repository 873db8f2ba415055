import ItemCatalog.Proofs.Pattern.Name

/-!
# Roman numerals

The pattern of numerals leaves out letters at will. The texts that it stands for are the standard
spellings of the numbers below forty, where the empty text counts as the spelling of zero.

Results:
1. `spells_replicate_optional_iff`: letters that may be missing stand for as many of them, or for fewer.
2. `isNumeral_iff`: the pattern matches the spellings of the numbers below forty, whatever their case.
3. `isMatch_standalone_iff_of_isRoman`: a numeral as a word of its own, in letters of any case.
-/

namespace ItemCatalog.Pattern

open Text

/-! ## Definitions -/

/-- The roman spellings of the numbers below ten. -/
def romanOnes : List String :=
  ["", "i", "ii", "iii", "iv", "v", "vi", "vii", "viii", "ix"]

/-- The roman spelling of a number below ten. -/
def romanDigit (n : Nat) : List Char :=
  (romanOnes.getD n "").toList

/-- The roman spelling of a number below forty. -/
def roman (n : Nat) : List Char :=
  List.replicate (n / 10) 'x' ++ romanDigit (n % 10)

/-- A word is the roman spelling of a number from one to thirty-nine. -/
def IsRoman (word : List Char) (n : Nat) : Prop :=
  1 ≤ n ∧ n ≤ 39 ∧ word = roman n

instance (word : List Char) (n : Nat) : Decidable (IsRoman word n) :=
  inferInstanceAs (Decidable (_ ∧ _))

/-! ## Letters that may be missing -/

theorem spells_replicate_optional_iff {count : Nat} {c : Char} {segment : List Char} :
    Spells (List.replicate count (.optional c)) segment ↔
      ∃ n ≤ count, segment.map foldChar = List.replicate n (foldChar c) := by
  constructor
  · intro h
    induction count generalizing segment with
    | zero =>
      cases h
      exact ⟨0, le_rfl, rfl⟩
    | succ count ih =>
      cases h with
      | skip hs =>
        obtain ⟨n, hn, he⟩ := ih hs
        exact ⟨n, Nat.le_succ_of_le hn, he⟩
      | optional hd hs =>
        obtain ⟨n, hn, he⟩ := ih hs
        refine ⟨n + 1, Nat.succ_le_succ hn, ?_⟩
        rw [List.map_cons, he, ← of_decide_eq_true hd, List.replicate_succ]
  · rintro ⟨n, hn, he⟩
    induction count generalizing segment n with
    | zero =>
      obtain rfl := Nat.le_zero.mp hn
      obtain rfl := List.map_eq_nil_iff.mp he
      exact .nil
    | succ count ih =>
      cases n with
      | zero => exact .skip (ih 0 (Nat.zero_le count) he)
      | succ n =>
        obtain ⟨d, rest, rfl, hd, hrest⟩ := List.map_eq_cons_iff.mp he
        exact .optional (decide_eq_true hd.symm) (ih n (Nat.le_of_succ_le_succ hn) hrest)

/-! ## The pattern of numerals -/

theorem spells_numeralTens_iff {segment : List Char} :
    Spells numeralTens segment ↔ ∃ n ≤ 3, segment.map foldChar = List.replicate n 'x' :=
  spells_replicate_optional_iff

/-- A five that may be missing, and up to three ones. -/
theorem spells_fives_iff {segment : List Char} :
    Spells (.optional 'v' :: List.replicate 3 (.optional 'i')) segment ↔
      ∃ five ≤ 1, ∃ ones ≤ 3, segment.map foldChar = romanDigit (5 * five + ones) := by
  have hdigit : ∀ five ≤ 1, ∀ ones ≤ 3, romanDigit (5 * five + ones) =
      List.replicate five 'v' ++ List.replicate ones 'i' := by decide
  have hsplit : (.optional 'v' :: List.replicate 3 (.optional 'i') : List Atom) =
      List.replicate 1 (.optional 'v') ++ List.replicate 3 (.optional 'i') := rfl
  rw [hsplit, spells_append_iff]
  simp only [spells_replicate_optional_iff]
  constructor
  · rintro ⟨left, right, rfl, ⟨five, hfive, hleft⟩, ones, hones, hright⟩
    refine ⟨five, hfive, ones, hones, ?_⟩
    rw [hdigit five hfive ones hones, List.map_append, hleft, hright]
    rfl
  · rintro ⟨five, hfive, ones, hones, he⟩
    rw [hdigit five hfive ones hones] at he
    obtain ⟨left, right, rfl, hleft, hright⟩ := List.map_eq_append_iff.mp he
    exact ⟨left, right, rfl, ⟨five, hfive, hleft⟩, ones, hones, hright⟩

theorem spells_numeralOnes_iff {segment : List Char} :
    (∃ ones ∈ numeralOnes, Spells ones segment) ↔
      ∃ n < 10, segment.map foldChar = romanDigit n := by
  have hnine : Spells [.letter 'i', .letter 'x'] segment ↔ segment.map foldChar = romanDigit 9 :=
    @spells_map_letter_iff ['i', 'x'] segment
  have hfour : Spells [.letter 'i', .letter 'v'] segment ↔ segment.map foldChar = romanDigit 4 :=
    @spells_map_letter_iff ['i', 'v'] segment
  simp only [numeralOnes, List.mem_cons, List.not_mem_nil, or_false, exists_eq_or_imp,
    exists_eq_left, hnine, hfour, spells_fives_iff]
  constructor
  · rintro (he | he | ⟨five, hfive, ones, hones, he⟩)
    · exact ⟨9, by decide, he⟩
    · exact ⟨4, by decide, he⟩
    · exact ⟨5 * five + ones, by omega, he⟩
  · rintro ⟨n, hn, he⟩
    by_cases hnine : n = 9
    · exact .inl (hnine ▸ he)
    by_cases hfour : n = 4
    · exact .inr (.inl (hfour ▸ he))
    -- Every other digit is at most three more than nothing or five.
    have hdigit : 5 * (n / 5) + n % 5 = n := by omega
    rw [← hdigit] at he
    exact .inr (.inr ⟨n / 5, by omega, n % 5, by omega, he⟩)

theorem roman_ten_mul_add {tens digit : Nat} (h : digit < 10) :
    roman (10 * tens + digit) = List.replicate tens 'x' ++ romanDigit digit := by
  have htens : (10 * tens + digit) / 10 = tens := by omega
  have hdigit : (10 * tens + digit) % 10 = digit := by omega
  rw [roman, htens, hdigit]

/-- The pattern of numerals matches the spellings of the numbers below forty, in letters of any case. -/
theorem isNumeral_iff (word : String) :
    isNumeral word ↔ ∃ n < 40, word.toList.map foldChar = roman n := by
  have hletters : ∀ ones ∈ numeralOnes, ∀ a ∈ numeralTens ++ ones, a.isLetter := by decide
  have hpattern : isNumeral word ↔
      ∃ ones ∈ numeralOnes, Spells (numeralTens ++ ones) word.toList := by
    rw [isNumeral, isMatch, numeralPattern, List.any_map, List.any_eq_true]
    exact exists_congr fun ones => and_congr_right fun hones =>
      occurs_whole_iff (hletters ones hones) word.toList
  rw [hpattern]
  simp only [spells_append_iff]
  constructor
  · rintro ⟨ones, hones, left, right, hword, hleft, hright⟩
    obtain ⟨tens, htens, hleft⟩ := spells_numeralTens_iff.mp hleft
    obtain ⟨digit, hdigit, hright⟩ := spells_numeralOnes_iff.mp ⟨ones, hones, hright⟩
    refine ⟨10 * tens + digit, by omega, ?_⟩
    rw [hword, List.map_append, hleft, hright, roman_ten_mul_add hdigit]
  · rintro ⟨n, hn, he⟩
    obtain ⟨left, right, hword, hleft, hright⟩ := List.map_eq_append_iff.mp he
    have htens := spells_numeralTens_iff.mpr ⟨n / 10, by omega, hleft⟩
    obtain ⟨ones, hones, hright⟩ := spells_numeralOnes_iff.mpr ⟨n % 10, by omega, hright⟩
    exact ⟨ones, hones, left, right, hword, htens, hright⟩

/-! ## Numerals as words of their own -/

/-- Numerals are made of three letters, each of which is the same as its capital only. -/
theorem letters_roman (n : Nat) : ∀ c ∈ roman n, c.isLower ∧ c ≠ 'k' ∧ c ≠ 's' := by
  have hdigits : ∀ digit < 10,
      (romanDigit digit).all fun c => c.isLower && (c ≠ 'k' && c ≠ 's') := by decide
  intro c hc
  rcases List.mem_append.mp hc with hc | hc
  · rw [List.eq_of_mem_replicate hc]
    decide
  · have hall := List.all_eq_true.mp (hdigits (n % 10) (Nat.mod_lt n (by decide))) c hc
    simpa only [Bool.and_eq_true, decide_eq_true_eq] using hall

/-- A numeral as a word of its own is a piece of the text in letters of any case, the first piece
excepted. -/
theorem isMatch_standalone_iff_of_isRoman {numeral : String} {n : Nat}
    (h : IsRoman numeral.toList n) (text : String) :
    (standalone numeral).isMatch text ↔
      ∃ piece ∈ (pieces ' ' text.toList).tail, piece.map Char.toLower = numeral.toList := by
  have hletters := letters_roman n
  rw [← h.2.2] at hletters
  have hspace : ' ' ∉ numeral.toList := fun hm => absurd (hletters ' ' hm).1 (by decide)
  have hself : numeral.toList.map foldChar = numeral.toList :=
    (List.map_congr_left fun c hc => foldChar_of_isLower (hletters c hc).1).trans (List.map_id _)
  rw [isMatch_standalone_iff_mem_tail hspace, hself]
  simp only [map_foldChar_eq_iff_map_toLower hletters]

end ItemCatalog.Pattern
