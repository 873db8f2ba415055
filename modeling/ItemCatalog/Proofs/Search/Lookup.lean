import ItemCatalog.Proofs.Ranking.Families
import ItemCatalog.Proofs.Retrieval.Exact
import ItemCatalog.Search

/-!
# What a lookup returns

A lookup ranks what exact retrieval finds, and asks the name index only where this leaves nothing to
show. The choice is made on the ranked list, not on the candidates, so it is the choice that the
candidates call for only where at least one item may be shown.

Results:
1. `ItemSearch.ofRanked_eq_some_iff`: what a lookup says of a ranked list.
2. `ItemSearch.lookup_eq_or`: the two ways of retrieval, one after the other.
3. `ItemSearch.lookup_of_resolve`: when a lookup returns an item, by which way, and what it shows.
4. `ItemSearch.lookup_misses_with_no_room`: where no item may be shown, nothing is found.
-/

namespace ItemCatalog

/-- The items that a lookup shows, the best first. -/
def Lookup.shown (l : Lookup) : List Record :=
  l.item :: l.similar

namespace ItemSearch

open Retriever (plainRecord)

variable {s : ItemSearch} {name : String} {hints : Hints} {l : Lookup}

/-! ## One way of retrieval -/

theorem ofRanked_eq_none_iff {fuzzy : Bool} {ranked : List RankedItem} :
    ofRanked fuzzy ranked = none ↔ ranked = [] := by
  cases ranked <;> simp [ofRanked]

theorem ofRanked_eq_some_iff {fuzzy : Bool} {ranked : List RankedItem} :
    ofRanked fuzzy ranked = some l ↔ l.fuzzy = fuzzy ∧ l.shown = ranked.map (·.record) := by
  obtain ⟨item, similar, byIndex⟩ := l
  cases ranked with
  | nil => simp [ofRanked, Lookup.shown]
  | cons best rest =>
    simp only [ofRanked, Lookup.shown, Option.some.injEq, Lookup.mk.injEq, List.map_cons,
      List.cons.injEq]
    constructor
    · rintro ⟨rfl, rfl, rfl⟩
      exact ⟨rfl, rfl, rfl⟩
    · rintro ⟨rfl, rfl, rfl⟩
      exact ⟨rfl, rfl, rfl⟩

theorem ofRanked_rank_eq_none_iff {fuzzy : Bool} {candidates : List (Scored Record)}
    {q : Name.Query} {limit : Nat} :
    ofRanked fuzzy (rank candidates q limit) = none ↔ limit = 0 ∨ candidates = [] := by
  rw [ofRanked_eq_none_iff, rank_eq_nil_iff]

theorem lookupBy_of_resolve {q : Name.Query} {fuzzy : Bool} {candidates : List (Scored Record)}
    (h : s.retriever.resolve q hints fuzzy = .ok candidates) :
    s.lookupBy q hints fuzzy = .ok (ofRanked fuzzy (rank candidates q s.limit)) := by
  rw [lookupBy, h]
  rfl

/-! ## Both ways -/

variable {named near : List (Scored Record)}

/-- What the name index finds is shown where nothing else is. -/
theorem lookup_eq_or
    (hnamed : s.retriever.resolve (s.aliases.normalize name) hints false = .ok named)
    (hnear : s.retriever.resolve (s.aliases.normalize name) hints true = .ok near) :
    s.lookup name hints =
      .ok ((ofRanked false (rank named (s.aliases.normalize name) s.limit)).or
        (ofRanked true (rank near (s.aliases.normalize name) s.limit))) := by
  rw [lookup, lookupBy_of_resolve hnamed, lookupBy_of_resolve hnear]
  cases ofRanked false (rank named (s.aliases.normalize name) s.limit) <;> rfl

/-- A lookup fails to find an item only where neither way has a candidate, or where no item may be
shown. What it returns is the ranked list of what exact retrieval finds, if it finds anything, or of
what the name index finds. -/
theorem lookup_of_resolve
    (hnamed : s.retriever.resolve (s.aliases.normalize name) hints false = .ok named)
    (hnear : s.retriever.resolve (s.aliases.normalize name) hints true = .ok near) :
    ∃ result, s.lookup name hints = .ok result ∧
      (result = none ↔ s.limit = 0 ∨ named = [] ∧ near = []) ∧
      ∀ l, result = some l → (l.fuzzy = true ↔ named = []) ∧
        l.shown = (rank (if l.fuzzy then near else named) (s.aliases.normalize name) s.limit).map
          (·.record) := by
  refine ⟨_, lookup_eq_or hnamed hnear, ?_, fun l hl => ?_⟩
  · rw [Option.or_eq_none_iff, ofRanked_rank_eq_none_iff, ofRanked_rank_eq_none_iff, or_and_left]
  · -- Something is shown, so there is room, and what exact retrieval finds is not cut to nothing.
    have hsome {fuzzy : Bool} {candidates : List (Scored Record)}
        (h : ofRanked fuzzy (rank candidates (s.aliases.normalize name) s.limit) = some l) :
        ¬ (s.limit = 0 ∨ candidates = []) := fun hnone => by
      rw [ofRanked_rank_eq_none_iff.mpr hnone] at h
      cases h
    rcases Option.or_eq_some_iff.mp hl with hl | ⟨hnone, hl⟩
    · obtain ⟨hfuzzy, hshown⟩ := ofRanked_eq_some_iff.mp hl
      rw [hfuzzy]
      exact ⟨iff_of_false Bool.false_ne_true fun h => hsome hl (.inr h), hshown⟩
    · obtain ⟨hfuzzy, hshown⟩ := ofRanked_eq_some_iff.mp hl
      have hempty := (ofRanked_rank_eq_none_iff.mp hnone).resolve_left fun h => hsome hl (.inl h)
      rw [hfuzzy]
      exact ⟨iff_of_true rfl hempty, hshown⟩

/-- The search of a catalog of one scythe. -/
def scytheSearch (limit : Nat) : ItemSearch :=
  ofCatalog ⟨[plainRecord "scythe"]⟩ limit

theorem exists_candidates {result : Except SearchFault (List (Scored Record))} {items : List Record}
    (h : result.toOption.map (·.map (·.item)) = some items) :
    ∃ candidates, result = .ok candidates ∧ candidates.map (·.item) = items := by
  cases result with
  | error fault => cases h
  | ok candidates => exact ⟨candidates, rfl, Option.some.inj h⟩

/-- A misspelled name is found by the index alone. -/
theorem lookup_of_resolve_misspelled :
    ∃ near, near.map (·.item) = [plainRecord "scythe"] ∧
      (scytheSearch 4).retriever.resolve ⟨"scyhte", ["scyhte"]⟩ {} false = .ok [] ∧
      (scytheSearch 4).retriever.resolve ⟨"scyhte", ["scyhte"]⟩ {} true = .ok near ∧
      ∃ l, (scytheSearch 4).lookup "Scyhte" {} = .ok (some l) ∧ l.fuzzy = true ∧
        l.shown = (rank near ⟨"scyhte", ["scyhte"]⟩ 4).map (·.record) := by
  have hname : (scytheSearch 4).aliases.normalize "Scyhte" = ⟨"scyhte", ["scyhte"]⟩ := by
    decide +kernel
  have hnamed : (scytheSearch 4).retriever.resolve ⟨"scyhte", ["scyhte"]⟩ {} false = .ok [] := by
    decide +kernel
  have hitems : ((scytheSearch 4).retriever.resolve ⟨"scyhte", ["scyhte"]⟩ {} true).toOption.map
      (·.map (·.item)) = some [plainRecord "scythe"] := by decide +kernel
  obtain ⟨near, hnear, hscythe⟩ := exists_candidates hitems
  obtain ⟨result, hlookup, hnone, hsome⟩ :=
    @lookup_of_resolve (scytheSearch 4) "Scyhte" {} [] near (hname ▸ hnamed) (hname ▸ hnear)
  rw [hname] at hsome
  cases result with
  | none =>
    rcases hnone.mp rfl with h | ⟨_, rfl⟩
    · cases h
    · cases hscythe
  | some l =>
    obtain ⟨hfuzzy, hshown⟩ := hsome l rfl
    rw [hfuzzy.mpr rfl] at hshown
    exact ⟨near, hscythe, hnamed, hnear, l, hlookup, hfuzzy.mpr rfl, hshown⟩

/-- Where no item may be shown a lookup finds nothing, though both ways of retrieval have found the
name. -/
theorem lookup_misses_with_no_room :
    ¬ ∀ (catalog : Catalog) (limit : Nat) (name : String) (hints : Hints)
        (named near : List (Scored Record)),
      (ofCatalog catalog limit).retriever.resolve
        ((ofCatalog catalog limit).aliases.normalize name) hints false = .ok named →
      (ofCatalog catalog limit).retriever.resolve
        ((ofCatalog catalog limit).aliases.normalize name) hints true = .ok near →
      ((ofCatalog catalog limit).lookup name hints = .ok none ↔ named = [] ∧ near = []) := by
  intro h
  have hname : (scytheSearch 0).aliases.normalize "scythe" = ⟨"scythe", ["scythe"]⟩ := by
    decide +kernel
  have hitems (fuzzy : Bool) : ((scytheSearch 0).retriever.resolve ⟨"scythe", ["scythe"]⟩ {}
      fuzzy).toOption.map (·.map (·.item)) = some [plainRecord "scythe"] := by
    cases fuzzy <;> decide +kernel
  obtain ⟨named, hnamed, hscythe⟩ := exists_candidates (hitems false)
  obtain ⟨near, hnear, _⟩ := exists_candidates (hitems true)
  have hlookup : (scytheSearch 0).lookup "scythe" {} = .ok none := by decide +kernel
  have hempty := ((h ⟨[plainRecord "scythe"]⟩ 0 "scythe" {} named near (hname ▸ hnamed)
    (hname ▸ hnear)).mp hlookup).1
  rw [hempty] at hscythe
  cases hscythe

end ItemSearch

end ItemCatalog
