import Mathlib.Tactic.FinCases
import ItemCatalog.Proofs.Pattern.Name
import ItemCatalog.Proofs.Pattern.Notation

/-!
# What a spaced pattern means

A name matches the spaced pattern of a phrase when the letters of the phrase stand somewhere in it, at
the edge of a word: the first three side by side, each of the others behind one space or none.

Results:
1. `spells_gapped_iff`: letters that may have spaces in front of them are spelled by those letters with
   single spaces in between.
2. `sameLetter_iff_of_isMeta`: characters with a meaning in the notation are the same as nothing but
   themselves.
3. `spaced_matches_spelled`: the names that match.
-/

namespace ItemCatalog.Pattern

open Text

/-! ## Definitions -/

/-- Letters in sequence, up to case, with at most one space in front of each. -/
inductive Spread : List Char → List Char → Prop
  | nil : Spread [] []
  | close {c d : Char} {letters text : List Char} :
      sameLetter c d → Spread letters text → Spread (c :: letters) (d :: text)
  | apart {c d : Char} {letters text : List Char} :
      sameLetter c d → Spread letters text → Spread (c :: letters) (' ' :: d :: text)

/-- What stands between the two is at the edge of a word: at an end of the text or next to a space. -/
def IsWordEdge (before after : List Char) : Prop :=
  before = [] ∨ after = [] ∨ before.getLast? = some ' ' ∨ after.head? = some ' '

/-- A text that reads as the letters: the first three side by side, the others with at most one space
in front of each. -/
def IsSpelling (letters text : List Char) : Prop :=
  ∃ first others, text = first ++ others ∧
    first.map foldChar = (letters.take 3).map foldChar ∧ Spread (letters.drop 3) others

/-- A spelling of the letters stands somewhere in a text, at the edge of a word. -/
def SpelledIn (letters text : List Char) : Prop :=
  ∃ before segment after, text = before ++ (segment ++ after) ∧ IsSpelling letters segment ∧
    IsWordEdge before after

/-! ## Spellings -/

theorem spells_letter_iff {c : Char} {atoms : List Atom} {text : List Char} :
    Spells (.letter c :: atoms) text ↔
      ∃ d rest, text = d :: rest ∧ sameLetter c d ∧ Spells atoms rest := by
  constructor
  · intro h
    cases h with
    | letter hd hs => exact ⟨_, _, rfl, hd, hs⟩
  · rintro ⟨d, rest, rfl, hd, hs⟩
    exact .letter hd hs

/-- A space that may be missing is left out, or it is there. -/
theorem spells_optional_space_iff {atoms : List Atom} {text : List Char} :
    Spells (.optional ' ' :: atoms) text ↔
      Spells atoms text ∨ ∃ rest, text = ' ' :: rest ∧ Spells atoms rest := by
  constructor
  · intro h
    cases h with
    | skip hs => exact .inl hs
    | optional hd hs => exact .inr ⟨_, by rw [sameLetter_space_iff.mp hd], hs⟩
  · rintro (hs | ⟨rest, rfl, hs⟩)
    · exact .skip hs
    · exact .optional (sameLetter_space_iff.mpr rfl) hs

theorem spells_gapped_iff {letters text : List Char} :
    Spells (gapped letters) text ↔ Spread letters text := by
  constructor
  · intro h
    induction letters generalizing text with
    | nil =>
      cases h
      exact .nil
    | cons c letters ih =>
      rw [gapped_cons, spells_optional_space_iff] at h
      rcases h with hs | ⟨_, rfl, hs⟩
      · obtain ⟨d, rest, rfl, hd, hs⟩ := spells_letter_iff.mp hs
        exact .close hd (ih hs)
      · obtain ⟨d, rest, rfl, hd, hs⟩ := spells_letter_iff.mp hs
        exact .apart hd (ih hs)
  · intro h
    induction h with
    | nil => exact .nil
    | close hd _ ih => exact .skip (.letter hd ih)
    | apart hd _ ih => exact .optional (sameLetter_space_iff.mpr rfl) (.letter hd ih)

theorem spells_spacedLetters_iff {letters text : List Char} :
    Spells (spacedLetters letters) text ↔ IsSpelling letters text := by
  rw [spacedLetters_eq, spells_append_iff, IsSpelling]
  simp only [spells_map_letter_iff, spells_gapped_iff]

/-! ## Characters of the notation -/

theorem isUncased_of_isMeta {c : Char} (h : isMeta c) : IsUncased c := by
  have hmarks : "\\.+*?()|[]^$#&-~".toList =
      ['\\', '.', '+', '*', '?', '(', ')', '|', '[', ']', '^', '$', '#', '&', '-', '~'] :=
    String.toList_ofList
  simp only [isMeta, hmarks, Bool.or_eq_true, decide_eq_true_eq, List.contains_iff_mem] at h
  rcases h with (h | h) | h
  · fin_cases h <;> decide
  · rw [IsUncased, h]
    decide
  · rw [IsUncased, h]
    decide

/-- Characters with a meaning in the notation are the same as nothing but themselves. -/
theorem sameLetter_iff_of_isMeta {c d : Char} (h : isMeta c) : sameLetter c d ↔ d = c :=
  sameLetter_iff_eq (isUncased_of_isMeta h)

/-! ## The pattern of a phrase -/

theorem spaced?_eq_some_iff {phrase : String} {matchers : Matchers} {p : Pattern} :
    spaced? phrase matchers = some p ↔
      matchers.compiledSize (spacedPattern phrase) ≤ sizeLimit ∧ p = spacedPattern phrase := by
  rw [spaced?]
  split
  next hlarge =>
    simp only [reduceCtorEq, false_iff, not_and]
    omega
  next hsmall =>
    rw [Option.some.injEq, and_iff_right (Nat.le_of_not_lt hsmall), eq_comm]

/-- A phrase has its spaced pattern where that is not too large. A name matches it exactly when it
spells the letters of the phrase at the edge of a word, the first three of them without spaces.
Characters with a meaning in the notation of patterns match themselves only, and the notation of the
pattern stands for the pattern. -/
theorem spaced_matches_spelled (matchers : Matchers) (phrase : String) :
    (∀ p, spaced? phrase matchers = some p ↔
      matchers.compiledSize (spacedPattern phrase) ≤ sizeLimit ∧ p = spacedPattern phrase) ∧
    (∀ name : String, (spacedPattern phrase).isMatch name ↔
      SpelledIn (phraseLetters phrase) name.toList) ∧
    (∀ c ∈ phraseLetters phrase, isMeta c → ∀ d, sameLetter c d ↔ d = c) ∧
    read? (spacedPattern phrase).source = some (spacedPattern phrase) := by
  refine ⟨fun p => spaced?_eq_some_iff, fun name => ?_, fun c _ hc d => sameLetter_iff_of_isMeta hc,
    read?_source (List.cons_ne_nil _ _)⟩
  rw [spacedPattern, isMatch_atWordEdge_iff isLetter_of_mem_spacedLetters]
  simp only [spells_spacedLetters_iff]
  rfl

end ItemCatalog.Pattern
