import ItemCatalog.Proofs.Filter.Positive
import ItemCatalog.Proofs.Name.Sanitizing
import ItemCatalog.Proofs.Retrieval.Exact

/-!
# How relevant the candidates of exact retrieval are

Only the words of a query have a score; its spelling, its numeral and the hints are conditions and
nothing else. So the sign of a score tells the names that have all of the words from those that only
spell the phrase.

Results:
1. `Name.Query.Canonical.isSome_evaluate_iff_finds`: the records that are found.
2. `Name.Query.Canonical.score_of_evaluate`: the sign of their scores.
3. `Retriever.resolve_exact_relevance`: what exact retrieval returns, and when it fails.
-/

namespace ItemCatalog

open Name

/-! ## Definitions -/

/-- What a record satisfies that exact retrieval finds: the hints, the pattern of the numeral, and the
words of the query or the spaced pattern of a phrase of three characters or more. -/
structure Name.Query.Finds (q : Query) (hints : Hints) (r : Record) : Prop where
  hints : hints.Admits r
  numeral : ∀ numeral, Pattern.numeral? q = some numeral →
    (Pattern.standalone numeral).isMatch r.name
  name : q.WordsIn r.name ∨ 3 ≤ q.phrase.length ∧ (Pattern.spacedPattern q.phrase).isMatch r.name

instance (q : Query) (hints : Hints) (r : Record) : Decidable (q.Finds hints r) :=
  decidable_of_iff
    (hints.Admits r ∧
      (∀ numeral ∈ Pattern.numeral? q, (Pattern.standalone numeral).isMatch r.name) ∧
      (q.WordsIn r.name ∨ 3 ≤ q.phrase.length ∧ (Pattern.spacedPattern q.phrase).isMatch r.name))
    ⟨fun ⟨hints, numeral, name⟩ => ⟨hints, numeral, name⟩,
      fun finds => ⟨finds.hints, finds.numeral, finds.name⟩⟩

/-- The filter of exact retrieval, where the pattern of the phrase is not too large. -/
def Name.Query.exactFilter (q : Query) (hints : Hints) : Filter :=
  .all (hints.toFilter :: .any (.words q.tokens :: q.spellingFilters) :: numeralFilters q)

/-! ## Conditions without a score -/

theorem Name.Query.unscored_of_mem_spellingFilters {q : Query} {r : Record} {f : Filter}
    (hf : f ∈ q.spellingFilters) : f.Unscored .double r := by
  unfold spellingFilters at hf
  split at hf
  · cases hf
  · obtain rfl := List.mem_singleton.mp hf
    exact Filter.unscored_of_eq_passIf rfl

theorem unscored_of_mem_numeralFilters {q : Query} {r : Record} {f : Filter}
    (hf : f ∈ numeralFilters q) : f.Unscored .double r := by
  unfold numeralFilters at hf
  split at hf
  · obtain rfl := List.mem_singleton.mp hf
    exact Filter.unscored_of_eq_passIf rfl
  · cases hf

/-! ## The filter of exact retrieval -/

namespace Name.Query.Canonical

variable {q : Query} {hints : Hints} {r : Record}

theorem isSome_evaluate_iff_finds (h : q.Canonical) :
    ((q.exactFilter hints).evaluate .double r).isSome ↔ q.Finds hints r := by
  rw [exactFilter, Filter.isSome_evaluate_all, List.forall_mem_cons, List.forall_mem_cons,
    Hints.isSome_evaluate_toFilter, Filter.isSome_evaluate_any, List.exists_mem_cons_iff,
    h.isSome_evaluate_words, isSome_evaluate_spellingFilters, isSome_evaluate_numeralFilters_iff]
  constructor
  · rintro ⟨hadmits, hname, hnumeral⟩
    exact ⟨hadmits, hnumeral, hname⟩
  · exact fun finds => ⟨finds.hints, finds.name, finds.numeral⟩

/-- Names with the words of the query score more than zero, other names score zero. -/
theorem score_of_evaluate (h : q.Canonical) {score : Double}
    (hscore : (q.exactFilter hints).evaluate .double r = some score) :
    (q.WordsIn r.name → r.name.length < 2 ^ 64 → score.Positive) ∧
      (¬ q.WordsIn r.name → score = .zero) := by
  have hlawful := Weighing.isLawful_double
  have hwords := h.isSome_evaluate_words .double r
  rw [exactFilter, Hints.evaluate_all_toFilter_cons _ _ _ hlawful] at hscore
  split at hscore
  next =>
    have hname := Filter.evaluate_of_evaluate_all_cons hlawful
      (fun _ hf => unscored_of_mem_numeralFilters hf) hscore
    obtain ⟨hfound, hmissed⟩ := Filter.evaluate_any_of_unscored rfl
      (fun _ hf => unscored_of_mem_spellingFilters hf) hname
    constructor
    · intro hin hlength
      obtain ⟨y, hy⟩ := Option.isSome_iff_exists.mp (hwords.mpr hin)
      have hpositive : y.Positive := by
        rw [Filter.evaluate] at hy
        exact Filter.positive_wordScore hlength hy
      exact hfound y hy hpositive.larger_zero ▸ hpositive
    · intro hnot
      exact hmissed (Option.not_isSome_iff_eq_none.mp fun hsome => hnot (hwords.mp hsome))
  next => cases hscore

end Name.Query.Canonical

/-! ## Exact retrieval -/

namespace Retriever

theorem resolveExact_eq (r : Retriever) (q : Query) (hints : Hints) : r.resolveExact q hints =
    if q.TooLargeFor r.matchers then .error .patternTooLarge
    else .ok (r.catalog.find (q.exactFilter hints)) := by
  unfold resolveExact
  rw [nameFilter_eq]
  split <;> rfl

/-- Exact retrieval fails for phrases whose pattern compiles to more than it may. For others it returns
the records of the catalog that satisfy its conditions, each as often as the catalog has it and in the
order of the catalog. The score of a record is positive when its name has all words of the query, for
names as long as texts in memory may be, and it is zero when the name only spells the phrase. -/
theorem resolve_exact_relevance (r : Retriever) (hints : Hints) {raw : String} {q : Query}
    (hraw : AliasTable.builtin.normalize raw = q) (hq : q.isEmpty = false) :
    (q.TooLargeFor r.matchers → r.resolve q hints false = .error .patternTooLarge) ∧
    (¬ q.TooLargeFor r.matchers →
      ∃ found, r.resolve q hints false = .ok found ∧
        found.map (·.item) = r.catalog.records.filter (fun record => q.Finds hints record) ∧
        ∀ s ∈ found,
          (s.item.name.length < 2 ^ 64 → (Double.zero.below s.score ↔ q.WordsIn s.item.name)) ∧
          (¬ q.WordsIn s.item.name → s.score = .zero)) := by
  have hcanonical : q.Canonical := hraw ▸ AliasTable.canonical_normalize (hraw ▸ hq)
  rw [resolve, hq, if_neg Bool.false_ne_true, if_neg Bool.false_ne_true, resolveExact_eq]
  constructor
  · exact fun hlarge => if_pos hlarge
  · intro hfits
    refine ⟨_, if_neg hfits, ?_, fun s hs => ?_⟩
    · rw [Catalog.map_item_find]
      refine List.filter_congr fun record _ => ?_
      rw [Bool.eq_iff_iff, decide_eq_true_iff]
      exact hcanonical.isSome_evaluate_iff_finds
    · obtain ⟨hpositive, hzero⟩ := hcanonical.score_of_evaluate (Catalog.evaluate_of_mem_find hs)
      refine ⟨fun hlength => ⟨fun hbelow => ?_, fun hwords => ?_⟩, hzero⟩
      · by_contra hnot
        rw [hzero hnot] at hbelow
        cases hbelow
      · exact (hpositive hwords hlength).zero_below

/-- The short name `bod` is written out, and its letters are the first ones of another name. -/
theorem resolve_exact_bod :
    ∃ found, (ofCatalog ⟨["axe", "bodkin", "blade of destiny"].map plainRecord⟩).resolve
        ⟨"bod", ["blade of destiny"]⟩ {} false = .ok found ∧
      found.map (·.item) = ["bodkin", "blade of destiny"].map plainRecord ∧
      ∀ s ∈ found, Double.zero.below s.score ↔ s.item.name = "blade of destiny" := by
  have hraw : AliasTable.builtin.normalize "BoD" = ⟨"bod", ["blade of destiny"]⟩ := by
    decide +kernel
  obtain ⟨found, hfound, hitems, hscores⟩ := (resolve_exact_relevance
    (ofCatalog ⟨["axe", "bodkin", "blade of destiny"].map plainRecord⟩) {} hraw rfl).2
    (by decide +kernel)
  have hnames : found.map (·.item) = ["bodkin", "blade of destiny"].map plainRecord := by
    rw [hitems]
    decide +kernel
  have hwords : ∀ r ∈ ["bodkin", "blade of destiny"].map plainRecord, r.name.length < 2 ^ 64 ∧
      (Name.Query.WordsIn ⟨"bod", ["blade of destiny"]⟩ r.name ↔ r.name = "blade of destiny") := by
    decide +kernel
  refine ⟨found, hfound, hnames, fun s hs => ?_⟩
  obtain ⟨hlength, hiff⟩ := hwords s.item (hnames ▸ List.mem_map_of_mem hs)
  exact ((hscores s hs).1 hlength).trans hiff

/-- A phrase of a single word. -/
def longPhrase (length : Nat) : String :=
  String.ofList (List.replicate length 'a')

@[simp] theorem length_longPhrase (n : Nat) : (longPhrase n).length = n := by
  rw [longPhrase, String.length_ofList, List.length_replicate]

theorem isName_longPhrase {n : Nat} (hn : 0 < n) : IsName (longPhrase n) := by
  refine isName_ofList ⟨?_, fun c hc => ?_⟩
  · rw [ne_eq, List.replicate_eq_nil_iff]
    omega
  · rw [List.eq_of_mem_replicate hc]
    decide

/-- It is not short for anything when it is longer than all short names. -/
theorem phrase_normalize_longPhrase {n : Nat} (hn : 14 < n) :
    (AliasTable.builtin.normalize (longPhrase n)).phrase = longPhrase n := by
  have hlengths : ∀ name ∈ AliasTable.shortNames AliasTable.builtinPhrases, name.length ≤ 14 := by
    decide +kernel
  have hlong : longPhrase n ∉ AliasTable.shortNames AliasTable.builtinPhrases := by
    intro hmem
    have hle := hlengths _ hmem
    rw [length_longPhrase] at hle
    omega
  rw [AliasTable.normalize, sanitize_eq_self (isName_longPhrase (by omega))]
  exact AliasTable.meaning_eq_self hlong

theorem length_phraseLetters_longPhrase (n : Nat) :
    (Pattern.phraseLetters (longPhrase n)).length = n := by
  rw [Pattern.phraseLetters, longPhrase, String.toList_ofList,
    List.filter_replicate_of_pos (by decide), List.length_replicate]

theorem length_le_length_spacedLetters (letters : List Char) :
    letters.length ≤ (Pattern.spacedLetters letters).length := by
  simp only [Pattern.spacedLetters, List.length_append, List.length_map, List.length_take,
    List.length_flatMap, List.length_cons, List.length_nil, List.map_const', List.sum_replicate_nat,
    List.length_drop]
  omega

/-- Each of the four forms of a spaced pattern has an atom for every letter, and more. -/
theorem length_phraseLetters_le_compiledSize (phrase : String) :
    92 * (4 * (Pattern.phraseLetters phrase).length) ≤
      Matchers.standard.compiledSize (Pattern.spacedPattern phrase) := by
  have hatoms := length_le_length_spacedLetters (Pattern.phraseLetters phrase)
  simp only [Matchers.standard, Pattern.spacedPattern, Pattern.atWordEdge, List.flatten_cons,
    List.flatten_nil, List.length_cons, List.length_append, List.length_nil]
  omega

/-- Exact retrieval does not answer for every phrase. -/
theorem resolve_exact_long_phrase_fails :
    (AliasTable.builtin.normalize (longPhrase 20000)).isEmpty = false ∧
      (ofCatalog ⟨[plainRecord "axe"]⟩).resolve (AliasTable.builtin.normalize (longPhrase 20000)) {}
        false = .error .patternTooLarge := by
  have hphrase : (AliasTable.builtin.normalize (longPhrase 20000)).phrase = longPhrase 20000 :=
    phrase_normalize_longPhrase (by decide)
  have hempty : (AliasTable.builtin.normalize (longPhrase 20000)).isEmpty = false := by
    rw [Query.isEmpty, hphrase, String.isEmpty_eq_false_iff, ne_eq, ← String.length_eq_zero_iff,
      length_longPhrase]
    decide
  refine ⟨hempty, ?_⟩
  have hlarge : (AliasTable.builtin.normalize (longPhrase 20000)).TooLargeFor .standard := by
    have hsize := length_phraseLetters_le_compiledSize (longPhrase 20000)
    rw [length_phraseLetters_longPhrase] at hsize
    rw [Query.TooLargeFor, hphrase, length_longPhrase]
    exact ⟨by decide, Nat.lt_of_lt_of_le (by decide) hsize⟩
  rw [resolve, hempty, if_neg Bool.false_ne_true, if_neg Bool.false_ne_true, resolveExact_eq]
  exact if_pos hlarge

end Retriever

end ItemCatalog
