import ItemCatalog.Proofs.Index.Clause
import ItemCatalog.Proofs.Index.Edit
import ItemCatalog.Proofs.Index.Query

/-!
# Queries with a pinned prefix

A clause that allows edits and pins a prefix asks a name for a similar term and for a term that starts
with the prefix. Nothing makes the two one and the same, which only shows in names of several terms.

Results:
1. `Index.Clause.accepts_pinned_iff`: which names meet such a clause.
2. `Index.Clause.accepts_pinned_singleton_iff`: of the names with one term, those whose term is
   similar and starts with the prefix.
3. `NameIndex.query_pinned_iff`: what a query with only such a clause finds, and when it fails.
4. `NameIndex.query_pinned_finds_glade_bow`: a name with one term for each half of the clause.
-/

namespace ItemCatalog

open Index (Clause Edits)

namespace Index.Clause

/-- A term of a name is within the edits of a clause. -/
def Resembles (c : Clause) (term : String) : Prop :=
  Edits (min c.distance 2) c.term.toList term.toList

instance (c : Clause) (term : String) : Decidable (c.Resembles term) :=
  inferInstanceAs (Decidable (Edits _ _ _))

/-- A term of a name starts with the pinned characters of a clause. -/
def Begins (c : Clause) (term : String) : Prop :=
  c.pinnedPrefix.toList <+: term.toList

instance (c : Clause) (term : String) : Decidable (c.Begins term) :=
  inferInstanceAs (Decidable (_ <+: _))

theorem edits_ne_zero {c : Clause} (h : 0 < c.distance) : c.edits ≠ 0 := by
  rw [edits]
  omega

/-- The term itself is within any number of edits. -/
theorem hits_iff {c : Clause} (hdistance : 0 < c.distance) {terms : List String} :
    (c.hitsExactly terms || c.hitsNearly terms) ↔ ∃ term ∈ terms, c.Resembles term := by
  have hedits : decide (c.edits ≠ 0) = true := decide_eq_true (edits_ne_zero hdistance)
  rw [hitsExactly, hitsNearly, hedits, Bool.true_and, Bool.or_eq_true, List.contains_iff_mem,
    List.any_eq_true]
  constructor
  · rintro (hterm | ⟨term, hterm, hsimilar⟩)
    · exact ⟨c.term, hterm, Edits.refl _ _⟩
    · exact ⟨term, hterm, similar_iff.mp hsimilar⟩
  · rintro ⟨term, hterm, hedit⟩
    exact .inr ⟨term, hterm, similar_iff.mpr hedit⟩

theorem keepsPrefix_iff {c : Clause} (hdistance : 0 < c.distance) {terms : List String} :
    c.keepsPrefix terms ↔ ∃ term ∈ terms, c.Begins term := by
  rw [keepsPrefix, decide_eq_false (edits_ne_zero hdistance), Bool.false_or, List.any_eq_true]
  simp only [List.isPrefixOf_iff_prefix, Begins]

/-- A name meets a clause with some term for the edits and some term for the prefix. -/
theorem accepts_pinned_iff {c : Clause} (hpinned : c.pinnedPrefix ≠ "") (hdistance : 0 < c.distance)
    {terms : List String} :
    c.accepts terms ↔ (∃ term ∈ terms, c.Resembles term) ∧ ∃ term ∈ terms, c.Begins term := by
  have hpins : c.pinnedPrefix.isEmpty = false := by
    rwa [Bool.eq_false_iff, ne_eq, String.isEmpty_iff]
  rw [accepts, hpins, Bool.false_or, Bool.and_eq_true, hits_iff hdistance,
    keepsPrefix_iff hdistance]

/-- In a name with one term, that is the term that has to be similar and to start with the prefix. -/
theorem accepts_pinned_singleton_iff {c : Clause} (hpinned : c.pinnedPrefix ≠ "")
    (hdistance : 0 < c.distance) {term : String} :
    c.accepts [term] ↔ c.Resembles term ∧ c.Begins term := by
  simp only [accepts_pinned_iff hpinned hdistance, List.mem_singleton, exists_eq_left]

theorem acceptsAll_singleton (c : Clause) (terms : List String) :
    acceptsAll [c] terms = c.accepts terms := by
  rw [acceptsAll]
  cases hrequired : c.required <;> simp [hrequired]

end Index.Clause

namespace NameIndex

/-- A query with one clause that allows edits and pins a prefix fails when there are names and the
index cannot look for the prefix. Otherwise it finds the names that have a similar term and a term that
starts with the prefix. -/
theorem query_pinned_iff {names : List String} {query : String} {matchers : Matchers} {c : Clause}
    (hquery : Clause.parse query = [c]) (hpinned : c.pinnedPrefix ≠ "")
    (hdistance : 0 < c.distance) :
    ((ofNames names).query? query matchers = none ↔
        names ≠ [] ∧ matchers.takesPrefix c.pinnedPrefix = false) ∧
      ∀ found, (ofNames names).query? query matchers = some found →
        ∀ name, (∃ s ∈ found, s.item = name) ↔ name ∈ names ∧
          (∃ term ∈ Index.terms name, c.Resembles term) ∧
            ∃ term ∈ Index.terms name, c.Begins term := by
  constructor
  · rw [query?_eq_none_iff, hquery]
    simp only [List.mem_singleton, exists_eq_left, and_iff_right hdistance, and_iff_right hpinned]
  · intro found hfound name
    rw [exists_mem_query?_iff hfound, hquery, Clause.acceptsAll_singleton,
      Clause.accepts_pinned_iff hpinned hdistance]

/-- The clause of the query `b^lade~1`. -/
def pinnedBlade : Clause where
  term := "blade"
  required := false
  distance := 1
  pinned := 1

theorem parse_pinnedBlade : Clause.parse "b^lade~1" = [pinnedBlade] := by decide +kernel

theorem query_pinned_blade :
    (Clause.parse "b^lade~1" = [pinnedBlade] ∧ pinnedBlade.pinnedPrefix ≠ "" ∧
        0 < pinnedBlade.distance) ∧
      ∃ found, (ofNames ["twin blades", "glade", "glade bow"]).query? "b^lade~1" = some found ∧
        ∀ name, (∃ s ∈ found, s.item = name) ↔ name = "twin blades" ∨ name = "glade bow" := by
  have hpinned : pinnedBlade.pinnedPrefix ≠ "" := by decide +kernel
  have hdistance : 0 < pinnedBlade.distance := by decide
  obtain ⟨hfails, hfinds⟩ := @query_pinned_iff ["twin blades", "glade", "glade bow"] _ .standard _
    parse_pinnedBlade hpinned hdistance
  refine ⟨⟨parse_pinnedBlade, hpinned, hdistance⟩, ?_⟩
  cases hquery : (ofNames ["twin blades", "glade", "glade bow"]).query? "b^lade~1" with
  | none => exact absurd (hfails.mp hquery).2 (by decide)
  | some found =>
    refine ⟨found, rfl, fun name => (hfinds found hquery name).trans ⟨?_, ?_⟩⟩
    · rintro ⟨hname, hterms⟩
      simp only [List.mem_cons, List.not_mem_nil, or_false] at hname
      rcases hname with rfl | rfl | rfl
      · exact .inl rfl
      · revert hterms
        decide +kernel
      · exact .inr rfl
    · rintro (rfl | rfl) <;> decide +kernel

/-- The query `b^lade~1` finds a name though none of its terms both starts with the prefix and is
similar: `glade` is one edit away, and `bow` starts with `b`. -/
theorem query_pinned_finds_glade_bow :
    Clause.parse "b^lade~1" = [pinnedBlade] ∧
      (∃ found, (ofNames ["glade bow"]).query? "b^lade~1" = some found ∧
        ∃ s ∈ found, s.item = "glade bow") ∧
      ¬∃ term ∈ Index.terms "glade bow", pinnedBlade.Begins term ∧ pinnedBlade.Resembles term := by
  refine ⟨parse_pinnedBlade, ?_, by decide +kernel⟩
  cases hquery : (ofNames ["glade bow"]).query? "b^lade~1" with
  | none =>
    obtain ⟨_, c, hc, _, _, hrefused⟩ := query?_eq_none_iff.mp hquery
    rw [parse_pinnedBlade, List.mem_singleton] at hc
    subst hc
    revert hrefused
    decide +kernel
  | some found =>
    refine ⟨found, rfl, (exists_mem_query?_iff hquery).mpr ⟨List.mem_singleton_self _, ?_⟩⟩
    rw [parse_pinnedBlade]
    decide +kernel

end NameIndex

end ItemCatalog
