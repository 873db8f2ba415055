import ItemCatalog.Proofs.Index.Query
import ItemCatalog.Proofs.Retrieval.Exact
import ItemCatalog.Proofs.Retrieval.Expansion

/-!
# What fuzzy retrieval finds

Fuzzy retrieval asks the index for the clauses of all words of a query. A name with all of the words
has the terms of each, so that it meets the clauses that are required, and some clause if none is.

Results:
1. `parse_expandQuery`: the clauses of a query are those of its words.
2. `acceptsAll_expandQuery`: names with all words meet them.
3. `Retriever.resolve_recalls_words`: records with such names are found.
-/

namespace ItemCatalog

open Index (Clause)
open Name

/-! ## The clauses of a query -/

theorem parse_expandQuery (q : Query) :
    Clause.parse (expandQuery q) =
      (q.words.filter (!·.isEmpty)).flatMap fun word => Clause.parse (expandWord word) := by
  rw [expandQuery, Clause.parse_intercalate, List.flatMap_map]

/-- Each clause is made for a word. -/
theorem exists_word_of_mem_parse {q : Query} {c : Clause} (h : c ∈ Clause.parse (expandQuery q)) :
    ∃ word ∈ q.words, c ∈ Clause.parse (expandWord word) ∧
      ∀ d ∈ Clause.parse (expandWord word), d ∈ Clause.parse (expandQuery q) := by
  rw [parse_expandQuery] at h ⊢
  obtain ⟨word, hword, hc⟩ := List.mem_flatMap.mp h
  exact ⟨word, (List.mem_filter.mp hword).1, hc, fun d hd => List.mem_flatMap.mpr ⟨word, hword, hd⟩⟩

/-- The terms of the words of a name are terms of the name. -/
theorem accepts_of_wordsIn {q : Query} {name : String} (h : q.WordsIn name) {word : String}
    (hword : word ∈ q.words) {c : Clause} (hterm : c.term ∈ Index.terms word) :
    c.accepts (Index.terms name) := by
  refine Clause.accepts_of_mem (Index.mem_terms_of_mem_pieces (h word hword) ?_)
  rwa [String.ofList_toList]

/-- A name with all words of a query meets its clauses, if it has any. -/
theorem acceptsAll_expandQuery {q : Query} (hq : q.Canonical) {name : String} (hwords : q.WordsIn name)
    (hclauses : Clause.parse (expandQuery q) ≠ []) :
    Clause.acceptsAll (Clause.parse (expandQuery q)) (Index.terms name) := by
  rw [Clause.acceptsAll]
  split
  next =>
    rw [List.all_eq_true]
    intro c hc
    obtain ⟨hc, hrequired⟩ := List.mem_filter.mp hc
    obtain ⟨word, hword, hc, _⟩ := exists_word_of_mem_parse hc
    have hcovers := coversWord_expandWord (hq.isWord_of_mem_words hword)
    exact accepts_of_wordsIn hwords hword (hcovers.required c hc hrequired)
  next =>
    rw [List.any_eq_true]
    obtain ⟨c, hc⟩ := List.exists_mem_of_ne_nil _ hclauses
    obtain ⟨word, hword, hc, hsub⟩ := exists_word_of_mem_parse hc
    have hcovers := coversWord_expandWord (hq.isWord_of_mem_words hword)
    obtain ⟨d, hd, hterm⟩ := hcovers.some_term (List.ne_nil_of_mem hc)
    exact ⟨d, hsub d hd, accepts_of_wordsIn hwords hword hterm⟩

/-- The clauses of a query pin one character at most, which the index can always look for. -/
theorem takesPrefix_expandQuery {q : Query} (hq : q.Canonical) (matchers : Matchers) {c : Clause}
    (hc : c ∈ Clause.parse (expandQuery q)) (hpinned : c.pinnedPrefix ≠ "") :
    matchers.takesPrefix c.pinnedPrefix := by
  obtain ⟨word, hword, hc, _⟩ := exists_word_of_mem_parse hc
  have hcovers := coversWord_expandWord (hq.isWord_of_mem_words hword)
  obtain ⟨first, hfirst, hone⟩ := (hcovers.pinned c hc).resolve_left hpinned
  exact hone ▸ matchers.takesPrefix_singleton first hfirst

/-- An empty query has no clauses. -/
theorem isEmpty_eq_false_of_clauses {raw : String}
    (h : Clause.parse (expandQuery (AliasTable.builtin.normalize raw)) ≠ []) :
    (AliasTable.builtin.normalize raw).isEmpty = false := by
  refine Bool.eq_false_iff.mpr fun hempty => h ?_
  have hphrase : AliasTable.meaning AliasTable.builtin.phrases (sanitize raw) = "" := by
    simpa [Query.isEmpty, AliasTable.normalize, AliasTable.resolve] using hempty
  rw [AliasTable.normalize, AliasTable.resolve, hphrase]
  decide +kernel

/-! ## Records with all words -/

namespace Retriever

theorem isSome_evaluate_oneOf_name {α : Type} (w : Weighing α) (r : Record) (names : List String) :
    ((Filter.oneOf .name (names.map .text)).evaluate w r).isSome ↔ r.name ∈ names := by
  rw [Filter.evaluate, Filter.isSome_passIf, List.any_map, List.any_eq_true]
  constructor
  · rintro ⟨name, hname, hsame⟩
    exact (Value.compares_text_iff _ _).mp hsame ▸ hname
  · exact fun hname => ⟨r.name, hname, (Value.compares_text_iff _ _).mpr rfl⟩

/-- Fuzzy retrieval finds the records whose names are hits, if they pass the filters. -/
theorem mem_resolveFuzzy {r : Retriever} {q : Query} {hints : Hints} {hits : List (Scored String)}
    (hhits : r.index.query? (expandQuery q) r.matchers = some hits) {record : Record}
    (hname : ∃ s ∈ hits, s.item = record.name) (hrecord : record ∈ r.catalog.records)
    (hhints : hints.Admits record)
    (hnumeral : ∀ f ∈ numeralFilters q, (f.evaluate .double record).isSome) :
    ∃ found, r.resolveFuzzy q hints = .ok found ∧ ∃ s ∈ found, s.item = record := by
  have hnames : record.name ∈ hits.map (·.item) := List.mem_map.mpr hname
  unfold resolveFuzzy
  rw [hhits]
  cases hits with
  | nil => cases hnames
  | cons hit more =>
    have hfound := (Catalog.exists_mem_find_iff (c := r.catalog) (r := record)
      (f := .all ([hints.toFilter, .oneOf .name ((hit :: more).map fun hit => .text hit.item)] ++
        numeralFilters q))).mpr ⟨hrecord, ?_⟩
    · obtain ⟨s, hs, hitem⟩ := hfound
      exact ⟨_, rfl, _, List.mem_map_of_mem hs, hitem⟩
    · rw [Filter.isSome_evaluate_all, List.forall_mem_append, List.forall_mem_cons,
        List.forall_mem_singleton, Hints.isSome_evaluate_toFilter]
      refine ⟨⟨hhints, ?_⟩, hnumeral⟩
      have honeOf := (isSome_evaluate_oneOf_name .double record _).mpr hnames
      rwa [List.map_map] at honeOf

/-- Fuzzy retrieval finds each record whose name has all words of the query, if it satisfies the hints
and passes the filter for the numeral of the query. It does not fail, whichever prefixes of more than one
character the index takes. -/
theorem resolve_recalls_words {catalog : Catalog} {matchers : Matchers} {hints : Hints}
    {raw : String} {record : Record}
    (hclauses : Clause.parse (expandQuery (AliasTable.builtin.normalize raw)) ≠ [])
    (hrecord : record ∈ catalog.records) (hhints : hints.Admits record)
    (hwords : (AliasTable.builtin.normalize raw).WordsIn record.name)
    (hnumeral : ∀ f ∈ numeralFilters (AliasTable.builtin.normalize raw),
      (f.evaluate .double record).isSome) :
    ∃ found, (ofCatalog catalog matchers).resolve (AliasTable.builtin.normalize raw) hints true =
        .ok found ∧
      ∃ s ∈ found, s.item = record := by
  have hsome := isEmpty_eq_false_of_clauses hclauses
  have hcanonical := AliasTable.canonical_normalize hsome
  have hname : record.name ∈ catalog.names :=
    mem_distinctSorted.mpr (List.mem_map_of_mem hrecord)
  rw [resolve, hsome, if_neg Bool.false_ne_true, if_pos rfl]
  cases hquery : (ofCatalog catalog matchers).index.query?
      (expandQuery (AliasTable.builtin.normalize raw)) matchers with
  | none =>
    obtain ⟨_, c, hc, _, hpinned, hrefused⟩ := NameIndex.query?_eq_none_iff.mp hquery
    rw [takesPrefix_expandQuery hcanonical matchers hc hpinned] at hrefused
    cases hrefused
  | some hits =>
    have hhit := (NameIndex.exists_mem_query?_iff hquery).mpr
      ⟨hname, acceptsAll_expandQuery hcanonical hwords hclauses⟩
    exact mem_resolveFuzzy hquery hhit hrecord hhints hnumeral

theorem resolve_recalls_ultimate_frost_scythe :
    (Clause.parse (expandQuery (AliasTable.builtin.normalize "Frost Scythe (II)")) ≠ [] ∧
        Hints.Admits {} (plainRecord "ultimate frost scythe ii") ∧
        (AliasTable.builtin.normalize "Frost Scythe (II)").WordsIn "ultimate frost scythe ii" ∧
        ∀ f ∈ numeralFilters (AliasTable.builtin.normalize "Frost Scythe (II)"),
          (f.evaluate .double (plainRecord "ultimate frost scythe ii")).isSome) ∧
      ∃ found, (ofCatalog ⟨[plainRecord "ultimate frost scythe ii"]⟩).resolve
          (AliasTable.builtin.normalize "Frost Scythe (II)") {} true = .ok found ∧
        ∃ s ∈ found, s.item = plainRecord "ultimate frost scythe ii" := by
  have hraw : AliasTable.builtin.normalize "Frost Scythe (II)" =
      ⟨"frost scythe ii", ["frost", "scythe", "ii"]⟩ := by decide +kernel
  have hclauses : Clause.parse (expandQuery (AliasTable.builtin.normalize "Frost Scythe (II)")) ≠ [] := by
    rw [hraw]
    decide +kernel
  have hwords :
      (AliasTable.builtin.normalize "Frost Scythe (II)").WordsIn "ultimate frost scythe ii" := by
    rw [hraw]
    unfold Query.WordsIn
    decide +kernel
  have hnumeral : ∀ f ∈ numeralFilters (AliasTable.builtin.normalize "Frost Scythe (II)"),
      (f.evaluate .double (plainRecord "ultimate frost scythe ii")).isSome := by
    rw [hraw]
    decide +kernel
  exact ⟨⟨hclauses, admits_plainRecord _, hwords, hnumeral⟩,
    resolve_recalls_words hclauses List.mem_cons_self (admits_plainRecord _) hwords hnumeral⟩

end Retriever

end ItemCatalog
