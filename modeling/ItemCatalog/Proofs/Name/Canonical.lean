import ItemCatalog.Name.Alias
import ItemCatalog.Proofs.Text.Letter
import ItemCatalog.Proofs.Text.Word

/-!
# Canonical names

A canonical name is made of words over the kept characters, with single spaces between them. Sanitized
texts have this form unless nothing is left of them, and so has everything that short names stand for.

Results:
1. `sanitize_eq_empty_or_isName`: sanitized texts are canonical.
2. `AliasTable.canonical_normalize`: so are the phrase and the tokens of a query, unless it is empty.
3. `Query.words_eq`: the words of a query are those of its written-out phrase.
-/

namespace ItemCatalog.Name

/-! ## Definitions -/

/-- One or more of the kept characters. -/
def IsWord (word : List Char) : Prop :=
  word ≠ [] ∧ ∀ c ∈ word, isKept c

instance (word : List Char) : Decidable (IsWord word) :=
  decidable_of_iff (!word.isEmpty && word.all isKept) (by simp [IsWord])

/-- One or more words with single spaces between them. -/
def IsName (text : String) : Prop :=
  ∀ word ∈ Text.pieces ' ' text.toList, IsWord word

instance (text : String) : Decidable (IsName text) :=
  decidable_of_iff ((Text.pieces ' ' text.toList).all (IsWord ·)) (by simp [IsName])

/-- What normalizing guarantees of a query. -/
structure Query.Canonical (q : Query) : Prop where
  phrase : IsName q.phrase
  tokens : ∀ token ∈ q.tokens, IsName token
  tokens_ne_nil : q.tokens ≠ []

/-! ## Kept characters -/

/-- Small letters, digits, `+`, `?` and `|`. -/
theorem toNat_of_isKept {c : Char} (h : isKept c) :
    (97 ≤ c.toNat ∧ c.toNat ≤ 122) ∨ (48 ≤ c.toNat ∧ c.toNat ≤ 57) ∨
      c.toNat = 43 ∨ c.toNat = 63 ∨ c.toNat = 124 := by
  simp only [isKept, Bool.or_eq_true, decide_eq_true_eq, Text.isLower_iff, Text.isDigit_iff] at h
  rcases h with (((h | h) | rfl) | rfl) | rfl
  · exact .inl h
  · exact .inr (.inl h)
  all_goals decide

theorem ne_space_of_isKept {c : Char} (h : isKept c) : c ≠ ' ' := by
  rintro rfl
  exact absurd h (by decide)

theorem space_notMem_of_isWord {word : List Char} (h : IsWord word) : ' ' ∉ word :=
  fun hm => ne_space_of_isKept (h.2 ' ' hm) rfl

/-! ## Sanitized texts -/

theorem isWord_of_mem_extendFirst {c : Char} {parts : List (List Char)} (hc : isKept c)
    (h : ∀ part ∈ parts, IsWord part) : ∀ part ∈ Text.extendFirst c parts, IsWord part := by
  cases parts with
  | nil =>
    intro part hp
    rw [List.mem_singleton.mp hp]
    exact ⟨List.cons_ne_nil c [], by simpa using hc⟩
  | cons first rest =>
    intro part hp
    rcases List.mem_cons.mp hp with rfl | hp
    · refine ⟨List.cons_ne_nil c first, fun d hd => ?_⟩
      rcases List.mem_cons.mp hd with rfl | hd
      · exact hc
      · exact (h first List.mem_cons_self).2 d hd
    · exact h part (List.mem_cons_of_mem first hp)

theorem pieces_singleton_of_isKept {c : Char} (h : isKept c) : Text.pieces ' ' [c] = [[c]] := by
  refine Text.pieces_of_notMem fun hm => ne_space_of_isKept h ?_
  exact (List.mem_singleton.mp hm).symm

/-- Behind a kept character separators are held back until another one follows. -/
theorem isWord_of_mem_pieces_spaceOut {c : Char} (hc : isKept c) (gap : Bool) (cs : List Char) :
    ∀ word ∈ Text.pieces ' ' (c :: spaceOut true gap cs), IsWord word := by
  have hsingle : ∀ {d : Char}, isKept d → IsWord [d] := fun hd =>
    ⟨List.cons_ne_nil _ [], by simpa using hd⟩
  induction cs generalizing c gap with
  | nil =>
    intro word hw
    rw [spaceOut, pieces_singleton_of_isKept hc] at hw
    rw [List.mem_singleton.mp hw]
    exact hsingle hc
  | cons d cs ih =>
    rw [spaceOut]
    by_cases hd : isKept d
    · rw [if_pos hd]
      cases gap with
      | false =>
        rw [Bool.false_and, if_neg Bool.false_ne_true,
          Text.pieces_cons_of_ne (ne_space_of_isKept hc)]
        exact isWord_of_mem_extendFirst hc (ih hd false)
      | true =>
        -- The space that is written now ends the word of `c`.
        have hsplit := Text.pieces_append_cons ' ' [c] (d :: spaceOut true false cs)
        rw [pieces_singleton_of_isKept hc] at hsplit
        rw [Bool.true_and, if_pos rfl]
        intro word hw
        rw [← List.singleton_append, hsplit] at hw
        rcases List.mem_append.mp hw with hw | hw
        · rw [List.mem_singleton.mp hw]
          exact hsingle hc
        · exact ih hd false word hw
    · rw [if_neg hd]
      exact ih hc true

/-- In front of the first kept character nothing is written. -/
theorem spaceOut_false_cases (gap : Bool) (cs : List Char) :
    spaceOut false gap cs = [] ∨
      ∃ c rest, isKept c ∧ spaceOut false gap cs = c :: spaceOut true false rest := by
  induction cs generalizing gap with
  | nil => exact .inl rfl
  | cons c cs ih =>
    rw [spaceOut]
    by_cases hc : isKept c
    · rw [if_pos hc, Bool.and_false, if_neg Bool.false_ne_true]
      exact .inr ⟨c, cs, hc, rfl⟩
    · rw [if_neg hc]
      exact ih true

/-- Sanitized texts are canonical. -/
theorem sanitize_eq_empty_or_isName (text : String) :
    sanitize text = "" ∨ IsName (sanitize text) := by
  rcases spaceOut_false_cases false (plainCharacters text.toList) with h | ⟨c, rest, hc, h⟩
  · refine .inl ?_
    rw [sanitize, sanitizeChars, h, String.ofList_nil]
  · refine .inr ?_
    rw [IsName, sanitize, sanitizeChars, String.toList_ofList, h]
    exact isWord_of_mem_pieces_spaceOut hc false rest

/-! ## Short names -/

/-- The short names of entries. -/
def AliasTable.shortNames (entries : List (String × String)) : List String :=
  entries.map Prod.fst

/-- A short name stands for something in the table, any other for itself. -/
theorem AliasTable.meaning_cases (entries : List (String × String)) (name : String) :
    (name ∉ shortNames entries ∧ meaning entries name = name) ∨
      ∃ entry ∈ entries, entry.1 = name ∧ meaning entries name = entry.2 := by
  unfold meaning
  cases h : entries.reverse.lookup name with
  | none =>
    refine .inl ⟨fun hshort => ?_, rfl⟩
    obtain ⟨entry, hentry, rfl⟩ := List.mem_map.mp hshort
    have hne := List.lookup_eq_none_iff.mp h entry (List.mem_reverse.mpr hentry)
    exact absurd rfl (bne_iff_ne.mp hne)
  | some value =>
    obtain ⟨before, after, hsplit, _⟩ := List.lookup_eq_some_iff.mp h
    have hmem : (name, value) ∈ entries.reverse := hsplit ▸ by simp
    exact .inr ⟨(name, value), List.mem_reverse.mp hmem, rfl, rfl⟩

theorem AliasTable.meaning_eq_self {entries : List (String × String)} {name : String}
    (h : name ∉ shortNames entries) : meaning entries name = name := by
  rcases meaning_cases entries name with ⟨_, hself⟩ | ⟨entry, hentry, rfl, _⟩
  · exact hself
  · exact absurd (List.mem_map_of_mem hentry) h

theorem isName_of_mem_builtinPhrases :
    ∀ entry ∈ AliasTable.builtinPhrases, IsName entry.2 := by decide +kernel

theorem isName_of_mem_builtinWords :
    ∀ entry ∈ AliasTable.builtinWords, IsName entry.2 := by decide +kernel

theorem isName_ofList {word : List Char} (h : IsWord word) : IsName (String.ofList word) := by
  intro piece hp
  rw [String.toList_ofList, Text.pieces_of_notMem (space_notMem_of_isWord h)] at hp
  rwa [List.mem_singleton.mp hp]

theorem isName_meaning {entries : List (String × String)}
    (hentries : ∀ entry ∈ entries, IsName entry.2) {name : String} (h : IsName name) :
    IsName (AliasTable.meaning entries name) := by
  rcases AliasTable.meaning_cases entries name with ⟨_, e⟩ | ⟨entry, hm, _, e⟩ <;> rw [e]
  · exact h
  · exact hentries entry hm

theorem Query.Canonical.of_phrase {entries : List (String × String)}
    (hentries : ∀ entry ∈ entries, IsName entry.2) {phrase : String} (h : IsName phrase) :
    Query.Canonical ⟨phrase, (Text.pieces ' ' phrase.toList).map fun word =>
      AliasTable.meaning entries (String.ofList word)⟩ where
  phrase := h
  tokens token ht := by
    obtain ⟨word, hw, rfl⟩ := List.mem_map.mp ht
    exact isName_meaning hentries (isName_ofList (h word hw))
  tokens_ne_nil := by simpa using Text.pieces_ne_nil ' ' phrase.toList

/-- The query of a text is canonical unless it is empty. -/
theorem AliasTable.canonical_normalize {raw : String}
    (h : (builtin.normalize raw).isEmpty = false) : (builtin.normalize raw).Canonical := by
  refine Query.Canonical.of_phrase isName_of_mem_builtinWords ?_
  rcases sanitize_eq_empty_or_isName raw with he | hn
  · -- No short name is empty, so an empty text gives an empty query.
    have hempty : meaning builtinPhrases "" = "" := by decide
    rw [normalize, he, resolve, Query.isEmpty] at h
    simp only [builtin, hempty] at h
    exact absurd h (by decide)
  · exact isName_meaning isName_of_mem_builtinPhrases hn

/-! ## The words of a query -/

theorem Query.pieces_expanded {q : Query} (h : q.tokens ≠ []) :
    Text.pieces ' ' q.expanded.toList =
      q.tokens.flatMap fun token => Text.pieces ' ' token.toList := by
  have hne : q.tokens.map String.toList ≠ [] := by simpa using h
  rw [expanded, Text.join, String.toList_intercalate]
  exact (Text.pieces_intercalate_eq_flatMap hne).trans (List.flatMap_map _ _ _)

/-- The words of a query are those of its phrase with short words written out. -/
theorem Query.words_eq {q : Query} (h : q.tokens ≠ []) :
    q.words = (Text.pieces ' ' q.expanded.toList).map String.ofList := by
  rw [pieces_expanded h, List.map_flatMap]
  rfl

namespace Query.Canonical

variable {q : Query}

/-- The phrase with its short words written out is canonical, too. -/
theorem isName_expanded (h : q.Canonical) : IsName q.expanded := by
  intro word hw
  rw [pieces_expanded h.tokens_ne_nil] at hw
  obtain ⟨token, ht, hw⟩ := List.mem_flatMap.mp hw
  exact h.tokens token ht word hw

theorem words_eq (h : q.Canonical) :
    q.words = (Text.pieces ' ' q.expanded.toList).map String.ofList :=
  Query.words_eq h.tokens_ne_nil

end Query.Canonical

end ItemCatalog.Name
