import ItemCatalog.Proofs.Name.Canonical
import ItemCatalog.Proofs.Pattern.Spaced
import ItemCatalog.Proofs.Request.Hints
import ItemCatalog.Retrieval

/-!
# What exact retrieval finds

A record is found when it passes three filters that are made independently: the hints, the words of
the query or its phrase with other spaces, and the roman numeral of the query.

Results:
1. `Retriever.nameFilter_eq`: the condition on names, and when there is none.
2. `Retriever.mem_resolveExact_iff`: the three conditions.
3. `isSome_evaluate_numeralFilters`: the condition on the numeral of canonical names.
4. `Retriever.resolve_finds_named_iff`: which records with the name searched for are found.
-/

namespace ItemCatalog

open Name

/-! ## Definitions -/

/-- Every word of the query is a word of the name. -/
def Name.Query.WordsIn (q : Query) (name : String) : Prop :=
  ∀ word ∈ q.words, word.toList ∈ Text.pieces ' ' name.toList

instance (q : Query) (name : String) : Decidable (q.WordsIn name) :=
  inferInstanceAs (Decidable (∀ word ∈ q.words, word.toList ∈ Text.pieces ' ' name.toList))

/-- The numeral of the query, if it has one, is a word of the name but the first. -/
def Name.Query.NumeralIn (q : Query) (name : String) : Prop :=
  ∀ numeral, Pattern.numeral? q = some numeral →
    numeral.toList ∈ (Text.pieces ' ' name.toList).tail

/-- The spelling of a phrase as an alternative to its words. Short phrases have none. -/
def Name.Query.spellingFilters (q : Query) : List Filter :=
  if q.phrase.length < 3 then [] else [.pattern .name (Pattern.spacedPattern q.phrase)]

/-- The query needs a spaced pattern, and that compiles to more than it may. -/
def Name.Query.TooLargeFor (q : Query) (matchers : Matchers) : Prop :=
  3 ≤ q.phrase.length ∧
    Pattern.sizeLimit < matchers.compiledSize (Pattern.spacedPattern q.phrase)

instance (q : Query) (matchers : Matchers) : Decidable (q.TooLargeFor matchers) :=
  inferInstanceAs (Decidable (_ ∧ _))

/-! ## The conditions on names -/

/-- The words of the query or its spelling, unless the pattern of the phrase is too large. -/
theorem Retriever.nameFilter_eq (matchers : Matchers) (q : Query) : nameFilter matchers q =
    if q.TooLargeFor matchers then .error .patternTooLarge
    else .ok (.any (.words q.tokens :: q.spellingFilters)) := by
  unfold nameFilter Name.Query.spellingFilters
  by_cases hshort : q.phrase.length < 3
  · have hfits : ¬ q.TooLargeFor matchers := fun hlarge => absurd hlarge.1 (Nat.not_le.mpr hshort)
    rw [if_pos hshort, if_pos hshort, if_neg hfits]
    rfl
  · rw [if_neg hshort, if_neg hshort, Pattern.spaced?]
    by_cases hsize : Pattern.sizeLimit < matchers.compiledSize (Pattern.spacedPattern q.phrase)
    · have hlarge : q.TooLargeFor matchers := ⟨Nat.le_of_not_lt hshort, hsize⟩
      rw [if_pos hsize, if_pos hlarge]
    · have hfits : ¬ q.TooLargeFor matchers := fun hlarge => hsize hlarge.2
      rw [if_neg hsize, if_neg hfits]

theorem Name.Query.isSome_evaluate_spellingFilters {α : Type} (w : Weighing α) (q : Query)
    (r : Record) :
    (∃ f ∈ q.spellingFilters, (f.evaluate w r).isSome) ↔
      3 ≤ q.phrase.length ∧ (Pattern.spacedPattern q.phrase).isMatch r.name := by
  unfold spellingFilters
  split
  next hshort =>
    simp only [List.not_mem_nil, false_and, exists_false, false_iff, not_and]
    omega
  next hlong =>
    simp only [List.mem_singleton, exists_eq_left]
    rw [Filter.isSome_evaluate_pattern, and_iff_right (Nat.le_of_not_lt hlong)]
    rfl

theorem isSome_evaluate_numeralFilters_iff {α : Type} (w : Weighing α) (q : Query) (r : Record) :
    (∀ f ∈ numeralFilters q, (f.evaluate w r).isSome) ↔
      ∀ numeral, Pattern.numeral? q = some numeral →
        (Pattern.standalone numeral).isMatch r.name := by
  unfold numeralFilters
  cases Pattern.numeral? q with
  | none => simp
  | some numeral =>
    simp only [List.forall_mem_singleton, Option.some.injEq, forall_eq']
    rw [Filter.isSome_evaluate_pattern]
    rfl

/-! ## Letters of canonical names -/

theorem foldChar_of_isKept {c : Char} (h : isKept c) : Text.foldChar c = c := by
  have hcode := toNat_of_isKept h
  exact Text.foldChar_eq_self (by omega) (by omega)

theorem map_foldChar_of_isWord {word : List Char} (h : IsWord word) :
    word.map Text.foldChar = word := by
  have hmap : word.map Text.foldChar = word.map id :=
    List.map_congr_left fun c hc => foldChar_of_isKept (h.2 c hc)
  rw [hmap, List.map_id]

namespace Name.Query.Canonical

variable {q : Query}

theorem isWord_of_mem_words (h : q.Canonical) {word : String} (hw : word ∈ q.words) :
    IsWord word.toList := by
  rw [h.words_eq] at hw
  obtain ⟨piece, hp, rfl⟩ := List.mem_map.mp hw
  rw [String.toList_ofList]
  exact h.isName_expanded piece hp

/-- The words that are asked for are the words of the query. -/
theorem phraseWords_tokens (h : q.Canonical) :
    Filter.phraseWords q.tokens = q.words.map String.toList := by
  have htokens : ∀ token ∈ q.tokens,
      Text.spacedWords token.toList = Text.pieces ' ' token.toList := fun token ht =>
    Text.spacedWords_of_forall_ne_nil fun word hw => (h.tokens token ht word hw).1
  have hwords : q.words.map String.toList = Text.pieces ' ' q.expanded.toList := by
    rw [h.words_eq, List.map_map]
    have hid : String.toList ∘ String.ofList = id := funext fun _ => String.toList_ofList
    rw [hid, List.map_id]
  rw [hwords, Query.pieces_expanded h.tokens_ne_nil, Filter.phraseWords, List.flatMap_def,
    List.flatMap_def, List.map_congr_left htokens]

theorem words_ne_nil (h : q.Canonical) : q.words ≠ [] := by
  rw [h.words_eq]
  simpa using Text.pieces_ne_nil ' ' q.expanded.toList

/-! ## The three filters -/

theorem isSome_evaluate_words {α : Type} (w : Weighing α) (h : q.Canonical) (r : Record) :
    ((Filter.words q.tokens).evaluate w r).isSome ↔ q.WordsIn r.name := by
  rw [Filter.evaluate, Filter.isSome_wordScore_iff, h.phraseWords_tokens]
  have hne : q.words.map String.toList ≠ [] := by simpa using h.words_ne_nil
  rw [and_iff_right hne, List.forall_mem_map, WordsIn]
  refine forall₂_congr fun word hw => ?_
  rw [Text.mem_spacedWords, and_iff_left (h.isWord_of_mem_words hw).1]

/-- The words of the query are found, or its phrase is with other spaces. -/
theorem isSome_evaluate_nameFilter {α : Type} (w : Weighing α) (h : q.Canonical) (r : Record)
    {matchers : Matchers} {f : Filter} (hf : Retriever.nameFilter matchers q = .ok f) :
    (f.evaluate w r).isSome ↔ q.WordsIn r.name ∨ 3 ≤ q.phrase.length ∧
      (Pattern.spacedPattern q.phrase).isMatch r.name := by
  rw [Retriever.nameFilter_eq] at hf
  split at hf
  · cases hf
  · cases hf
    rw [Filter.isSome_evaluate_any, List.exists_mem_cons_iff, h.isSome_evaluate_words,
      Query.isSome_evaluate_spellingFilters]

theorem mem_words_of_numeral {numeral : String} (h : Pattern.numeral? q = some numeral) :
    numeral ∈ q.words := by
  have hlast := List.mem_of_mem_take (List.mem_of_find?_eq_some h)
  exact (List.mem_filter.mp (List.mem_reverse.mp hlast)).1

/-- Canonical names have no capital letters, so the numeral has to be there as it is. -/
theorem isSome_evaluate_numeralFilters {α : Type} (w : Weighing α) (h : q.Canonical) {r : Record}
    (hname : IsName r.name) :
    (∀ f ∈ numeralFilters q, (f.evaluate w r).isSome) ↔ q.NumeralIn r.name := by
  rw [isSome_evaluate_numeralFilters_iff, NumeralIn]
  refine forall₂_congr fun numeral hnumeral => ?_
  have hword := h.isWord_of_mem_words (mem_words_of_numeral hnumeral)
  rw [Pattern.isMatch_standalone_iff_mem_tail (space_notMem_of_isWord hword),
    map_foldChar_of_isWord hword]
  constructor
  · rintro ⟨piece, hp, he⟩
    rw [map_foldChar_of_isWord (hname piece (List.mem_of_mem_tail hp))] at he
    exact he ▸ hp
  · exact fun hm => ⟨numeral.toList, hm, map_foldChar_of_isWord hword⟩

end Name.Query.Canonical

/-! ## Records with the name searched for -/

namespace Retriever

/-- Exact retrieval finds the records that pass its filters. -/
theorem mem_resolveExact_iff {r : Retriever} {q : Query} {hints : Hints}
    {found : List (Scored Record)} (h : r.resolveExact q hints = .ok found) :
    ∃ f, nameFilter r.matchers q = .ok f ∧ ∀ record, (∃ s ∈ found, s.item = record) ↔
      record ∈ r.catalog.records ∧ hints.Admits record ∧ (f.evaluate .double record).isSome ∧
        ∀ g ∈ numeralFilters q, (g.evaluate .double record).isSome := by
  unfold resolveExact at h
  cases hf : nameFilter r.matchers q with
  | error e =>
    rw [hf] at h
    cases h
  | ok f =>
    rw [hf] at h
    cases h
    refine ⟨f, rfl, fun record => ?_⟩
    rw [Catalog.exists_mem_find_iff, Filter.isSome_evaluate_all, List.forall_mem_append,
      List.forall_mem_cons, List.forall_mem_singleton, Hints.isSome_evaluate_toFilter, and_assoc]

/-- A name that is the written-out phrase has all words of the query. -/
theorem wordsIn_expanded {q : Query} (h : q.Canonical) : q.WordsIn q.expanded := by
  intro word hw
  rw [h.words_eq] at hw
  obtain ⟨piece, hp, rfl⟩ := List.mem_map.mp hw
  rwa [String.toList_ofList]

/-- Exact retrieval finds a record with the name searched for unless the numeral of the query is only
the first word of the name, or the name holds short words and the phrase has fewer than three
characters or a space among the first three. -/
theorem resolve_finds_named_iff {r : Retriever} {hints : Hints} {raw : String} {q : Query}
    {found : List (Scored Record)} {record : Record}
    (hraw : AliasTable.builtin.normalize raw = q) (hq : q.isEmpty = false)
    (hfound : r.resolve q hints false = .ok found) (hrecord : record ∈ r.catalog.records)
    (hhints : hints.Admits record) (hname : q.matchesExactly record.name) :
    ((∃ s ∈ found, s.item = record) ↔
      q.NumeralIn record.name ∧
        (q.WordsIn record.name ∨ 3 ≤ q.phrase.length ∧ ' ' ∉ q.phrase.toList.take 3)) ∧
    (record.name = q.expanded → q.WordsIn record.name) := by
  have hcanonical : q.Canonical := hraw ▸ AliasTable.canonical_normalize (hraw ▸ hq)
  have hcases : record.name = q.phrase ∨ record.name = q.expanded := by
    simpa [Query.matchesExactly] using hname
  have hisName : IsName record.name := by
    rcases hcases with e | e <;> rw [e]
    · exact hcanonical.phrase
    · exact hcanonical.isName_expanded
  have hexpanded : record.name = q.expanded → q.WordsIn record.name := by
    intro e
    rw [e]
    exact wordsIn_expanded hcanonical
  refine ⟨?_, hexpanded⟩
  rw [resolve, hq, if_neg Bool.false_ne_true, if_neg Bool.false_ne_true] at hfound
  obtain ⟨f, hf, hmem⟩ := mem_resolveExact_iff hfound
  rw [hmem, and_iff_right hrecord, and_iff_right hhints,
    hcanonical.isSome_evaluate_nameFilter .double record hf,
    hcanonical.isSome_evaluate_numeralFilters .double hisName, and_comm]
  refine and_congr_right fun _ => ?_
  -- The pattern is needed only where the name is the phrase, and there it is its own.
  rcases hcases with e | e
  · refine or_congr_right (and_congr_right fun hlong => ?_)
    rw [← String.length_toList] at hlong
    rw [e]
    exact Pattern.isMatch_spaced_self_iff (fun word hw => (hcanonical.phrase word hw).1) hlong
  · have hwords := hexpanded e
    exact ⟨fun _ => .inl hwords, fun _ => .inl hwords⟩

/-- A record with a name and nothing to narrow a search by. -/
def plainRecord (name : String) : Record where
  name
  title := name
  link := ""
  family := name
  category := .weapon
  itemType := "scythe"
  level := 1
  tagSet := []
  bonuses := []
  resists := []
  damage := []
  elements := []
  specials := none
  skill := none
  images := []
  modifies := none
  colorCustom := none

theorem admits_plainRecord (name : String) : Hints.Admits {} (plainRecord name) :=
  Hints.admits_none _

theorem resolve_finds_frost_scythe_ii :
    ∃ found, (ofCatalog ⟨[plainRecord "frost scythe ii"]⟩).resolve
        ⟨"frost scythe ii", ["frost", "scythe", "ii"]⟩ {} false = .ok found ∧
      ∃ s ∈ found, s.item = plainRecord "frost scythe ii" := by
  have hraw : AliasTable.builtin.normalize "Frost-Scythe (II)" =
      ⟨"frost scythe ii", ["frost", "scythe", "ii"]⟩ := by decide +kernel
  have hnumeral : Pattern.numeral? ⟨"frost scythe ii", ["frost", "scythe", "ii"]⟩ = some "ii" := by
    decide +kernel
  refine ⟨_, rfl, (@resolve_finds_named_iff (ofCatalog ⟨[plainRecord "frost scythe ii"]⟩) {} _ _ _ _
    hraw rfl rfl List.mem_cons_self (admits_plainRecord _) (by decide)).1.mpr
    ⟨fun numeral h => ?_, .inr (by decide)⟩⟩
  rw [hnumeral] at h
  obtain rfl := Option.some.inj h
  decide

/-- The short name `fs` is written out before its record is looked for, and it is too short for a
pattern. -/
theorem resolve_misses_short_name :
    ¬ ∀ (r : Retriever) (hints : Hints) (raw : String) (found : List (Scored Record))
        (record : Record), (AliasTable.builtin.normalize raw).isEmpty = false →
      r.resolve (AliasTable.builtin.normalize raw) hints false = .ok found →
      record ∈ r.catalog.records → hints.Admits record →
      (AliasTable.builtin.normalize raw).matchesExactly record.name →
      ∃ s ∈ found, s.item = record := by
  intro h
  have hraw : AliasTable.builtin.normalize "fs" = ⟨"fs", ["frostscythe"]⟩ := by decide +kernel
  have hfs := h (ofCatalog ⟨[plainRecord "fs"]⟩) {} "fs" [] (plainRecord "fs")
  rw [hraw] at hfs
  obtain ⟨s, hs, _⟩ := hfs rfl rfl List.mem_cons_self (admits_plainRecord _) (by decide)
  cases hs

end Retriever

end ItemCatalog
