import Mathlib.Data.Prod.Lex
import ItemCatalog.Proofs.Index.Pinned
import ItemCatalog.Proofs.Index.Term
import ItemCatalog.Proofs.Number.Order
import ItemCatalog.Proofs.StableSort

/-!
# What a query answers

`Index.Clause.Matches` says which names meet a clause and `Index.Clause.Selects` which names a query is
about. An answer lists these names and no other, each once, by score and names of one score in
alphabetical order.

Results:
1. `Index.Clause.accepts_iff_matches`, `Index.Clause.acceptsAll_iff_selects`: the index decides both.
2. `NameIndex.pairwise_hits`: the order of the hits.
3. `NameIndex.query_answers`: a query fails only where a clause that allows edits pins a prefix that the
   index cannot look for, and answers otherwise.
4. `NameIndex.query_pinned_long_fails`: a query that fails though a name is to be found.
-/

namespace ItemCatalog

open Index (Clause)

namespace Index.Clause

variable {c : Clause} {clauses : List Clause} {terms : List String}

/-! ## Clauses -/

/-- A name with these terms meets a clause: it has the term itself, or a similar one where edits are
allowed, and then one that starts with the pinned characters as well. -/
def Matches (c : Clause) (terms : List String) : Prop :=
  c.term ∈ terms ∨
    0 < c.distance ∧ (∃ term ∈ terms, c.Resembles term) ∧
      (c.pinnedPrefix ≠ "" → ∃ term ∈ terms, c.Begins term)

/-- A name with these terms meets all required clauses, or any clause where none is required. Without
clauses there is nothing to look for. -/
def Selects (clauses : List Clause) (terms : List String) : Prop :=
  clauses ≠ [] ∧ (∀ c ∈ clauses, c.required → c.Matches terms) ∧
    ((∀ c ∈ clauses, ¬c.required) → ∃ c ∈ clauses, c.Matches terms)

instance (c : Clause) (terms : List String) : Decidable (c.Matches terms) :=
  inferInstanceAs (Decidable (_ ∨ _))

instance (clauses : List Clause) (terms : List String) : Decidable (Selects clauses terms) :=
  inferInstanceAs (Decidable (_ ∧ _))

theorem accepts_iff_matches : c.accepts terms ↔ c.Matches terms := by
  constructor
  · intro haccepts
    rcases Nat.eq_zero_or_pos c.distance with hexact | hdistance
    · have hedits : c.edits = 0 := by rw [edits, hexact, Nat.zero_min]
      refine .inl ?_
      simpa [accepts, hitsExactly, hitsNearly, keepsPrefix, hedits] using haccepts
    · rw [accepts, Bool.and_eq_true, hits_iff hdistance, Bool.or_eq_true, String.isEmpty_iff,
        keepsPrefix_iff hdistance] at haccepts
      exact .inr ⟨hdistance, haccepts.1, haccepts.2.resolve_left⟩
  · rintro (hterm | ⟨hdistance, hnear, hbegins⟩)
    · exact accepts_of_mem hterm
    · rw [accepts, Bool.and_eq_true, hits_iff hdistance, Bool.or_eq_true, String.isEmpty_iff,
        keepsPrefix_iff hdistance]
      exact ⟨hnear, or_iff_not_imp_left.mpr hbegins⟩

theorem acceptsAll_iff_selects : acceptsAll clauses terms ↔ Selects clauses terms := by
  rw [acceptsAll]
  split
  next hrequired =>
    obtain ⟨c, hc, hreq⟩ := List.any_eq_true.mp hrequired
    simp only [List.all_eq_true, List.mem_filter, and_imp, accepts_iff_matches]
    constructor
    · intro h
      exact ⟨List.ne_nil_of_mem hc, h, fun hnone => absurd hreq (hnone c hc)⟩
    · rintro ⟨-, h, -⟩
      exact h
  next hnone =>
    have hoptional : ∀ c ∈ clauses, ¬c.required := by simpa using hnone
    rw [List.any_eq_true]
    simp only [accepts_iff_matches]
    constructor
    · rintro ⟨c, hc, h⟩
      exact ⟨List.ne_nil_of_mem hc, fun c hc hreq => absurd hreq (hoptional c hc), fun _ => ⟨c, hc, h⟩⟩
    · rintro ⟨-, -, h⟩
      exact h hoptional

/-- A required clause has to be met, whichever optional one is. -/
example : ¬Selects (parse "+blad~1 scyth~1") (Index.terms "ice scythe") := by decide +kernel

end Index.Clause

namespace NameIndex

/-! ## The order of the hits -/

/-- What a hit is listed by: its score, the highest first, then its name. -/
def standing (s : Scored String) : Int ×ₗ String :=
  toLex (-s.score.place, s.item)

theorem listedBefore_eq {a b : Scored String} (ha : a.score ≠ .nan) (hb : b.score ≠ .nan) :
    listedBefore a b = decide (standing a ≤ standing b) := by
  rw [listedBefore, Double.order_eq hb ha, Bool.eq_iff_iff, decide_eq_true_iff, standing, standing,
    Prod.Lex.toLex_le_toLex, neg_lt_neg_iff, neg_inj]
  rcases lt_trichotomy b.score.place a.score.place with hlt | heq | hgt
  · simp [compare_lt_iff_lt.mpr hlt, hlt]
  · simp [heq]
  · simp [compare_gt_iff_gt.mpr hgt, hgt.not_gt, hgt.ne]

/-- Scores that are `nan` aside, hits come out in order. -/
theorem pairwise_hits {index : NameIndex} {clauses : List Clause}
    (h : ∀ s ∈ index.hits clauses, s.score ≠ .nan) :
    (index.hits clauses).Pairwise fun a b => standing a ≤ standing b := by
  rw [hits] at h ⊢
  simp only [List.mem_mergeSort] at h
  exact pairwise_mergeSort_key fun a ha b hb => listedBefore_eq (h a ha) (h b hb)

/-- Of two different names, the one that is listed first has the higher score, or the same score and
comes first in the alphabet. -/
theorem before_of_standing_le {a b : Scored String} (ha : a.score ≠ .nan) (hb : b.score ≠ .nan)
    (hne : a.item ≠ b.item) (h : standing a ≤ standing b) :
    b.score.below a.score ∨ a.score.same b.score ∧ a.item < b.item := by
  rw [standing, standing, Prod.Lex.toLex_le_toLex, neg_lt_neg_iff, neg_inj] at h
  rw [Double.below_iff hb ha, Double.same_iff ha hb]
  exact h.imp_right fun ⟨hsame, hle⟩ => ⟨hsame, lt_of_le_of_ne hle hne⟩

/-! ## Answers -/

theorem nodup_items_hits (names : List String) (clauses : List Clause) :
    (((ofNames names).hits clauses).map (·.item)).Nodup := by
  have hnames : ((ofNames names).entries.map (·.name)).Nodup := by
    rw [ofNames, List.map_map, Function.comp_def, List.map_id']
    exact (pairwise_distinctSorted names).imp ne_of_lt
  rw [hits, ((List.mergeSort_perm _ _).map _).nodup_iff, List.map_map]
  exact hnames.sublist (List.filter_sublist.map _)

/-- What a query with some clauses finds among some names: each name that the clauses select, once, by
score and then by name. The order is that of scores that are numbers. -/
structure Answer (names : List String) (clauses : List Clause) (found : List (Scored String)) :
    Prop where
  nodup : (found.map (·.item)).Nodup
  mem_iff : ∀ name, name ∈ found.map (·.item) ↔
    name ∈ names ∧ Clause.Selects clauses (Index.terms name)
  pairwise : (∀ s ∈ found, s.score ≠ .nan) → found.Pairwise fun a b =>
    b.score.below a.score ∨ a.score.same b.score ∧ a.item < b.item

/-- A query either has nothing to look for or in, or lists the hits of its clauses. -/
theorem eq_nil_or_eq_hits {index : NameIndex} {query : String} {matchers : Matchers}
    {found : List (Scored String)} (h : index.query? query matchers = some found) :
    found = [] ∨ found = index.hits (Clause.parse query) := by
  rw [query?] at h
  split at h
  next => exact .inl (Option.some.inj h).symm
  next =>
    split at h
    next => cases h
    next => exact .inr (Option.some.inj h).symm

theorem answer_of_query? {names : List String} {query : String} {matchers : Matchers}
    {found : List (Scored String)} (h : (ofNames names).query? query matchers = some found) :
    Answer names (Clause.parse query) found := by
  have hmem : ∀ name, name ∈ found.map (·.item) ↔
      name ∈ names ∧ Clause.Selects (Clause.parse query) (Index.terms name) := by
    intro name
    rw [List.mem_map, exists_mem_query?_iff h, Clause.acceptsAll_iff_selects]
  rcases eq_nil_or_eq_hits h with rfl | rfl
  · exact ⟨.nil, hmem, fun _ => .nil⟩
  · have hnodup := nodup_items_hits names (Clause.parse query)
    refine ⟨hnodup, hmem, fun hscores => ?_⟩
    have hordered := (pairwise_hits hscores).and (List.pairwise_map.mp hnodup)
    refine hordered.imp_of_mem fun {a b} ha hb hab => ?_
    exact before_of_standing_le (hscores a ha) (hscores b hb) hab.2 hab.1

/-- A query fails when there are names to look for and a clause that allows edits pins a prefix that
the index cannot look for. Otherwise it answers. -/
theorem query_answers (matchers : Matchers) (names : List String) (query : String) :
    ((ofNames names).query? query matchers = none ↔
        names ≠ [] ∧ ∃ c ∈ Clause.parse query, 0 < c.distance ∧ c.pinnedPrefix ≠ "" ∧
          matchers.takesPrefix c.pinnedPrefix = false) ∧
      ∀ found, (ofNames names).query? query matchers = some found →
        Answer names (Clause.parse query) found := by
  constructor
  · exact query?_eq_none_iff
  · intro found hfound
    exact answer_of_query? hfound

/-- Some names in alphabetical order. -/
def bladesAndScythes : List String :=
  ["blade scythe", "ice scythe", "scythe", "wand"]

/-- What the misspelled query `scyth~1 blad~1` finds among them: one name has a similar term for both
clauses, two have one for the first. -/
def foundMisspelled : List (Scored String) :=
  [⟨"blade scythe", .ofSingle 1⟩, ⟨"ice scythe", .ofSingle 0.5⟩, ⟨"scythe", .ofSingle 0.5⟩]

theorem query?_misspelled :
    (ofNames bladesAndScythes).query? "scyth~1 blad~1" = some foundMisspelled := by
  have hnames : distinctSorted bladesAndScythes = bladesAndScythes := by
    rw [distinctSorted, List.mergeSort_of_pairwise (by decide)]
    decide
  rw [query?, ofNames, hnames, if_neg (by decide +kernel), if_neg (by decide +kernel), hits,
    List.mergeSort_of_pairwise (by decide +kernel)]
  decide +kernel

theorem query_answers_misspelled :
    (ofNames bladesAndScythes).query? "scyth~1 blad~1" = some foundMisspelled ∧
      (∀ s ∈ foundMisspelled, s.score ≠ .nan) ∧
      Answer bladesAndScythes (Clause.parse "scyth~1 blad~1") foundMisspelled ∧
      foundMisspelled.Pairwise fun a b =>
        b.score.below a.score ∨ a.score.same b.score ∧ a.item < b.item := by
  have hscores : ∀ s ∈ foundMisspelled, s.score ≠ .nan := by decide +kernel
  have hanswer := (query_answers .standard bladesAndScythes "scyth~1 blad~1").2 _ query?_misspelled
  exact ⟨query?_misspelled, hscores, hanswer, hanswer.pairwise hscores⟩

/-! ## A query that fails -/

/-- A word that is the letter `a` over and over. -/
def longWord (length : Nat) : List Char :=
  List.replicate length 'a'

@[simp] theorem length_longWord (n : Nat) : (longWord n).length = n :=
  List.length_replicate

theorem eq_of_mem_longWord {n : Nat} {c : Char} (h : c ∈ longWord n) : c = 'a' :=
  List.eq_of_mem_replicate h

/-- Words of more than seven letters are never too common. -/
theorem terms_longWord {n : Nat} (h : 7 < n) :
    Index.terms (String.ofList (longWord n)) = [String.ofList (longWord n)] := by
  have hlength : (String.ofList (longWord n)).length = n := by
    rw [String.length_ofList, length_longWord]
  have hcommon : ∀ word ∈ Index.stopWords, word.length ≤ 7 := by decide +kernel
  refine Index.terms_eq_singleton ?_ ?_ ?_ ?_ ?_
  · rw [longWord, ne_eq, List.replicate_eq_nil_iff]
    omega
  · intro c hc
    rw [eq_of_mem_longWord hc]
    decide
  · intro c hc
    rw [eq_of_mem_longWord hc]
    decide
  · intro hstop
    have := hcommon _ hstop
    omega
  · intro hlast
    cases eq_of_mem_longWord (List.mem_of_getLast? hlast)

/-- Words of more than 990 letters are too much for the index to look for. -/
theorem takesPrefix_longWord {n : Nat} (h : 990 < n) :
    Matchers.standard.takesPrefix (String.ofList (longWord n)) = false := by
  have hsize : (String.ofList (longWord n)).utf8ByteSize = n := by
    rw [String.utf8ByteSize, String.toByteArray_ofList, List.utf8Encode, List.size_toByteArray,
      List.length_flatMap, longWord, List.map_replicate, List.sum_replicate_nat]
    exact Nat.mul_one n
  rw [Matchers.standard, decide_eq_false_iff_not, hsize]
  exact Nat.not_le.mpr h

/-- A clause that pins a long word and allows an edit. -/
def pinnedLong (length : Nat) : String :=
  String.ofList (longWord length ++ ['^', '~', '1'])

theorem parse_pinnedLong {n : Nat} (h : 7 < n) :
    Clause.parse (pinnedLong n) = [⟨String.ofList (longWord n), false, 1, n⟩] := by
  have hsign : Clause.splitRequired (longWord n ++ ['^', '~', '1']) =
      (false, longWord n ++ ['^', '~', '1']) := by
    obtain ⟨m, rfl⟩ : ∃ m, n = m + 1 := ⟨n - 1, by omega⟩
    rfl
  have hedits : Clause.splitLast '~' (longWord n ++ ['^', '~', '1']) =
      (longWord n ++ '^' :: [], some ['1']) := by
    rw [List.append_cons]
    exact Clause.splitLast_append _ (by decide)
  have hhead : '^' ∉ longWord n := fun hc => by cases eq_of_mem_longWord hc
  have hdistance : Clause.readDistance ['1'] = 1 := by decide +kernel
  have hsigns : ∀ c ∈ ['^', '~', '1'], Text.isBlank c = false := by
    intro c hc
    simp only [List.mem_cons, List.not_mem_nil, or_false] at hc
    rcases hc with rfl | rfl | rfl <;> rfl
  have hword : Clause.parse (pinnedLong n) = Clause.ofWord (longWord n ++ ['^', '~', '1']) := by
    refine (Clause.parse_eq_ofWord ?_ ?_).trans (congrArg _ String.toList_ofList)
    · simp [pinnedLong]
    · intro c hc
      rw [pinnedLong, String.toList_ofList, List.mem_append] at hc
      rcases hc with hc | hc
      · rw [eq_of_mem_longWord hc]
        decide
      · exact hsigns c hc
  rw [hword, Clause.ofWord_pinned hsign hedits hhead, List.append_nil, terms_longWord h,
    Option.elim_some, hdistance, Clause.ofTerms, String.length_ofList, length_longWord, Nat.min_self,
    List.map_nil]

/-- A query fails over one of its clauses though another one asks for a name that is there. -/
theorem query_pinned_long_fails :
    (ofNames ["blade"]).query? (" ".intercalate ["blade", pinnedLong 5000]) = none ∧
      Clause.Selects (Clause.parse (" ".intercalate ["blade", pinnedLong 5000]))
        (Index.terms "blade") := by
  have hblade : Clause.parse "blade" = [⟨"blade", false, 0, 0⟩] := by decide +kernel
  have hparse : Clause.parse (" ".intercalate ["blade", pinnedLong 5000]) =
      [⟨"blade", false, 0, 0⟩, ⟨String.ofList (longWord 5000), false, 1, 5000⟩] := by
    rw [Clause.parse_intercalate, List.flatMap_cons, List.flatMap_singleton, hblade,
      parse_pinnedLong (by omega), List.singleton_append]
  have hterms : Index.terms "blade" = ["blade"] := by decide +kernel
  have hpins : Clause.pinnedPrefix ⟨String.ofList (longWord 5000), false, 1, 5000⟩ =
      String.ofList (longWord 5000) := by
    rw [Clause.pinnedPrefix, String.toList_ofList, List.take_of_length_le (length_longWord _).le]
  have hrefused := @takesPrefix_longWord 5000 (by omega)
  have hsome : String.ofList (longWord 5000) ≠ "" := by
    rw [ne_eq, ← String.length_eq_zero_iff, String.length_ofList, length_longWord]
    omega
  have hmatches : Clause.Matches ⟨"blade", false, 0, 0⟩ ["blade"] := .inl (List.mem_singleton_self _)
  rw [query?_eq_none_iff, hparse, hterms]
  constructor
  · refine ⟨List.cons_ne_nil _ _, _, List.mem_cons_of_mem _ (List.mem_singleton_self _), ?_⟩
    rw [hpins]
    exact ⟨Nat.one_pos, hsome, hrefused⟩
  · refine ⟨List.cons_ne_nil _ _, ?_, fun _ => ⟨_, List.mem_cons_self, hmatches⟩⟩
    -- Neither of the clauses is required.
    simp

end NameIndex

end ItemCatalog
