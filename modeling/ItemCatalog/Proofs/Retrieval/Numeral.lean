import ItemCatalog.Proofs.Name.Settled
import ItemCatalog.Proofs.Pattern.Numeral
import ItemCatalog.Proofs.Retrieval.Exact

/-!
# The numeral of a query

A numeral counts where it is one of the last two words of a query with its short words written out. In
names it counts anywhere but in front.

Results:
1. `isNumeral_iff_exists_isRoman`: what counts as a numeral among the words of queries.
2. `numeral?_eq_none_iff`, `endsInNumeral_of_numeral?`: which word is taken.
3. `numeralFilters_builtin`: when there is a condition, and which names pass it.
-/

namespace ItemCatalog

open Name Pattern

/-! ## Definitions -/

/-- The last two words of a query, or as many as it has. -/
def Name.Query.lastWords (q : Query) : List String :=
  let words := q.words.filter (!·.isEmpty)
  words.drop (words.length - 2)

/-- One of the last words of a query is the spelling of a number, and none behind it is. -/
structure Name.Query.EndsInNumeral (q : Query) (numeral : String) (n : Nat) : Prop where
  isRoman : IsRoman numeral.toList n
  last : ∃ front back, q.lastWords = front ++ numeral :: back ∧
    ∀ word ∈ back, ∀ m, ¬ IsRoman word.toList m

/-- A filter looks for the spelling of a number in names. -/
structure Filter.LooksForNumeral (f : Filter) (numeral : String) (n : Nat) : Prop where
  /-- It is a piece of the name but the first, in letters of any case. -/
  passes_iff : ∀ r : Record, (f.evaluate .double r).isSome ↔
    ∃ piece ∈ (Text.pieces ' ' r.name.toList).tail, piece.map Char.toLower = numeral.toList
  /-- Names with nothing but other numerals do not pass. -/
  fails_of_ne : ∀ r : Record, (∀ piece ∈ Text.pieces ' ' r.name.toList, ∀ m,
    IsRoman (piece.map Char.toLower) m → m ≠ n) → f.evaluate .double r = none

/-! ## The words of a query -/

theorem isWord_of_mem_lastWords {raw word : String}
    (h : word ∈ (AliasTable.builtin.normalize raw).lastWords) : IsWord word.toList := by
  obtain ⟨hword, hne⟩ := List.mem_filter.mp (List.mem_of_mem_drop h)
  rw [Query.words_eq (AliasTable.tokens_ne_nil _ raw)] at hword
  obtain ⟨piece, hpiece, rfl⟩ := List.mem_map.mp hword
  rcases AliasTable.settled_builtin.expanded_eq_empty_or_isName raw with hempty | hname
  · -- The only word of an empty query is the empty one.
    rw [hempty] at hpiece
    obtain rfl : piece = [] := List.mem_singleton.mp hpiece
    exact absurd hne (by decide)
  · rw [String.toList_ofList]
    exact hname piece hpiece

/-- The words of a query are not empty, so zero is left out. -/
theorem isNumeral_iff_exists_isRoman {word : String} (h : IsWord word.toList) :
    isNumeral word ↔ ∃ n, IsRoman word.toList n := by
  rw [isNumeral_iff, map_foldChar_of_isWord h]
  constructor
  · rintro ⟨n, hn, he⟩
    have hpos : n ≠ 0 := by
      rintro rfl
      exact h.1 he
    exact ⟨n, Nat.one_le_iff_ne_zero.mpr hpos, Nat.le_of_lt_succ hn, he⟩
  · rintro ⟨n, _, hn, he⟩
    exact ⟨n, Nat.lt_succ_of_le hn, he⟩

/-! ## The numeral that is taken -/

theorem numeral?_eq (q : Query) : numeral? q = q.lastWords.reverse.find? isNumeral := by
  rw [numeral?, Query.lastWords, List.take_reverse]

theorem numeral?_eq_none_iff (raw : String) :
    numeral? (AliasTable.builtin.normalize raw) = none ↔
      ∀ word ∈ (AliasTable.builtin.normalize raw).lastWords, ∀ n, ¬ IsRoman word.toList n := by
  rw [numeral?_eq, List.find?_eq_none]
  simp only [List.mem_reverse]
  refine forall₂_congr fun word hword => ?_
  rw [isNumeral_iff_exists_isRoman (isWord_of_mem_lastWords hword), not_exists]

/-- The search goes through the words from the last one on. -/
theorem endsInNumeral_of_numeral? {raw numeral : String}
    (h : numeral? (AliasTable.builtin.normalize raw) = some numeral) :
    ∃ n, (AliasTable.builtin.normalize raw).EndsInNumeral numeral n := by
  rw [numeral?_eq, List.find?_eq_some_iff_append] at h
  obtain ⟨hnumeral, back, front, hsplit, hback⟩ := h
  have hwords : (AliasTable.builtin.normalize raw).lastWords =
      front.reverse ++ numeral :: back.reverse := by
    rw [← List.reverse_reverse (Query.lastWords _), hsplit]
    simp
  have hisWord : ∀ word ∈ front.reverse ++ numeral :: back.reverse, IsWord word.toList :=
    fun word hword => isWord_of_mem_lastWords (hwords ▸ hword)
  obtain ⟨n, hn⟩ := (isNumeral_iff_exists_isRoman (hisWord numeral (by simp))).mp hnumeral
  refine ⟨n, hn, front.reverse, back.reverse, hwords, fun word hword m hm => ?_⟩
  have hnot := hback word (List.mem_reverse.mp hword)
  rw [(isNumeral_iff_exists_isRoman (hisWord word (by simp [List.mem_reverse.mp hword]))).mpr
    ⟨m, hm⟩] at hnot
  cases hnot

/-! ## The condition on names -/

theorem looksForNumeral_standalone {numeral : String} {n : Nat} (h : IsRoman numeral.toList n) :
    (Filter.pattern .name (standalone numeral)).LooksForNumeral numeral n := by
  have hpasses : ∀ r : Record,
      ((Filter.pattern .name (standalone numeral)).evaluate .double r).isSome ↔
        ∃ piece ∈ (Text.pieces ' ' r.name.toList).tail, piece.map Char.toLower = numeral.toList := by
    intro r
    rw [Filter.isSome_evaluate_pattern]
    exact isMatch_standalone_iff_of_isRoman h r.name
  refine ⟨hpasses, fun r hother => Option.not_isSome_iff_eq_none.mp fun hsome => ?_⟩
  obtain ⟨piece, hpiece, he⟩ := (hpasses r).mp hsome
  exact hother piece (List.mem_of_mem_tail hpiece) n (he ▸ h) rfl

/-- There is no condition on numerals exactly when neither of the last two words of a query is the roman
spelling of a number from one to thirty-nine. Otherwise names have to hold the later one of those that
are, anywhere but in front. -/
theorem numeralFilters_builtin (raw : String) :
    (numeralFilters (AliasTable.builtin.normalize raw) = [] ↔
      ∀ word ∈ (AliasTable.builtin.normalize raw).lastWords, ∀ n, ¬ IsRoman word.toList n) ∧
    (numeralFilters (AliasTable.builtin.normalize raw) ≠ [] →
      ∃ f numeral n, numeralFilters (AliasTable.builtin.normalize raw) = [f] ∧
        (AliasTable.builtin.normalize raw).EndsInNumeral numeral n ∧ f.LooksForNumeral numeral n) := by
  rw [← numeral?_eq_none_iff]
  cases h : numeral? (AliasTable.builtin.normalize raw) with
  | none =>
    have hfilters : numeralFilters (AliasTable.builtin.normalize raw) = [] := by
      rw [numeralFilters, h]
    exact ⟨iff_of_true hfilters rfl, fun hne => absurd hfilters hne⟩
  | some numeral =>
    have hfilters : numeralFilters (AliasTable.builtin.normalize raw) =
        [.pattern .name (standalone numeral)] := by
      rw [numeralFilters, h]
    obtain ⟨n, hn⟩ := endsInNumeral_of_numeral? h
    refine ⟨iff_of_false (hfilters ▸ List.cons_ne_nil _ _) nofun, fun _ => ?_⟩
    exact ⟨_, numeral, n, hfilters, hn, looksForNumeral_standalone hn.isRoman⟩

/-- Of two numerals the later one is looked for, and not at the start of a name. -/
theorem numeralFilters_fs_ii_v :
    numeralFilters (AliasTable.builtin.normalize "Fs II v") ≠ [] ∧
      ∃ f, numeralFilters (AliasTable.builtin.normalize "Fs II v") = [f] ∧
        (f.evaluate .double (Retriever.plainRecord "axe V of awe")).isSome ∧
        ¬ (f.evaluate .double (Retriever.plainRecord "v axe ii vi")).isSome := by
  have hwords : (AliasTable.builtin.normalize "Fs II v").lastWords = ["ii", "v"] := by
    decide +kernel
  have hfive : IsRoman "v".toList 5 := by decide
  have hne : numeralFilters (AliasTable.builtin.normalize "Fs II v") ≠ [] := fun he =>
    (numeralFilters_builtin "Fs II v").1.mp he "v" (by simp [hwords]) 5 hfive
  obtain ⟨f, numeral, n, hf, ⟨_, front, back, hsplit, hback⟩, hlooks⟩ :=
    (numeralFilters_builtin "Fs II v").2 hne
  rw [hwords] at hsplit
  have hnumeral : numeral = "v" := by
    rcases front with _ | ⟨word, _ | ⟨word', front⟩⟩
    · obtain ⟨rfl, rfl⟩ := List.cons.inj hsplit
      exact (hback "v" List.mem_cons_self 5 hfive).elim
    · simp only [List.cons_append, List.nil_append, List.cons.injEq] at hsplit
      exact hsplit.2.1.symm
    · simp at hsplit
  subst hnumeral
  refine ⟨hne, f, hf, (hlooks.passes_iff _).mpr ?_, (hlooks.passes_iff _).not.mpr ?_⟩
  · decide
  · decide

end ItemCatalog
