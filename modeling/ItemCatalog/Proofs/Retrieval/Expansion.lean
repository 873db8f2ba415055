import ItemCatalog.Proofs.Index.Clause
import ItemCatalog.Proofs.Index.Term
import ItemCatalog.Proofs.Name.Canonical
import ItemCatalog.Proofs.Text.Letter
import ItemCatalog.Retrieval

/-!
# The clauses for a word

A word of a query is written as a clause, and that is read again. Canonical words have neither of the
signs that pin characters and allow edits, and a plus sign in front of a word is no part of a term. So
the clauses for a word have its terms, and those for a synonym have the term of the word among others.

Results:
1. `ofWord_fuzzyClause`: what the clause written for a word means.
2. `coversWord_expandWord`: the clauses for a word, or for its synonyms, as far as recall needs them.
3. `parse_expandWord`: the clauses for a word without synonyms, in full;
   `parse_expandWord_signed`: short words may be taken for signed clauses.
-/

namespace ItemCatalog

open Index (Clause)
open Name

/-! ## Definitions -/

/-- The edits allowed in a word of some length. -/
def editsFor (length : Nat) : Nat :=
  if length ≤ 2 then 0 else if length ≤ 5 then 1 else 2

/-- A clause pins nothing, or a single letter or digit. -/
def PinsOneAtMost (c : Clause) : Prop :=
  c.pinnedPrefix = "" ∨ ∃ first : Char, first.isAlphanum ∧ c.pinnedPrefix = String.singleton first

/-- Clauses that names with a word meet: those that are required ask for a term of the word, and of
others some does. None pins more than one character. -/
structure CoversWord (word : String) (clauses : List Clause) : Prop where
  required : ∀ c ∈ clauses, c.required → c.term ∈ Index.terms word
  some_term : clauses ≠ [] → ∃ c ∈ clauses, c.term ∈ Index.terms word
  pinned : ∀ c ∈ clauses, PinsOneAtMost c

/-- One clause for each term of a word, in order: the longer the word, the more edits are allowed, and
from six letters on the first clause pins a letter. -/
def clausesOf (word : String) (required : Bool) : List Clause :=
  (Index.terms word).mapIdx fun i term =>
    { term, required, distance := editsFor word.length
      pinned := if i = 0 ∧ 6 ≤ word.length then 1 else 0 }

/-! ## Characters of canonical words -/

theorem notMem_of_isWord {word : List Char} (h : IsWord word) {c : Char} (hc : isKept c = false) :
    c ∉ word := by
  intro hmem
  rw [h.2 c hmem] at hc
  cases hc

theorem isBlank_of_isKept {c : Char} (h : isKept c) : Text.isBlank c = false := by
  have hcode : 33 ≤ c.toNat ∧ c.toNat ≤ 126 := by
    have := toNat_of_isKept h
    omega
  unfold Text.isBlank
  grind

/-- The terms of a canonical word are made of its letters and digits, which are small already. -/
theorem isAlphanum_of_mem_terms {word : String} (h : IsWord word.toList) {term : String}
    (hterm : term ∈ Index.terms word) : ∀ c ∈ term.toList, c.isAlphanum := by
  obtain ⟨lowered, hlowered, rfl⟩ := List.mem_map.mp hterm
  obtain ⟨run, hrun, rfl⟩ := List.mem_map.mp (List.mem_filter.mp hlowered).1
  have hmem : ∀ c ∈ run, c ∈ word.toList ∧ Text.isAlphanumeric c := fun c hc => by
    simpa using Text.of_mem_piecesBy (List.mem_filter.mp hrun).1 hc
  have hsmall : Text.lower run = run := Text.lower_eq_self fun c hc => by
    have hcode := toNat_of_isKept (h.2 c (hmem c hc).1)
    exact Text.lowerForms_eq_self (by omega) (by omega)
  intro c hc
  rw [String.toList_ofList, hsmall] at hc
  obtain ⟨hword, hletter⟩ := hmem c (Index.mem_of_mem_withoutPlural hc)
  have hcode := toNat_of_isKept (h.2 c hword)
  rwa [Text.isAlphanumeric, if_pos (by omega)] at hletter

theorem pinsOneAtMost_of_le {c : Clause} (hpinned : c.pinned ≤ 1)
    (hterm : ∀ d ∈ c.term.toList, d.isAlphanum) : PinsOneAtMost c := by
  rw [PinsOneAtMost, Clause.pinnedPrefix]
  rcases Nat.le_one_iff_eq_zero_or_eq_one.mp hpinned with hnone | hone
  · rw [hnone]
    exact .inl rfl
  · rw [hone]
    cases hletters : c.term.toList with
    | nil => exact .inl rfl
    | cons first rest =>
      exact .inr ⟨first, hterm first (hletters ▸ List.mem_cons_self), rfl⟩

/-! ## Clauses as they are written and read -/

/-- The characters of a word behind a plus sign in front. -/
def behindSign (word : List Char) : List Char :=
  (Clause.splitRequired word).2

theorem behindSign_cases (word : List Char) : word = behindSign word ∨ word = '+' :: behindSign word := by
  unfold behindSign Clause.splitRequired
  split
  · exact .inr rfl
  · exact .inl rfl

theorem splitRequired_append {word : List Char} (hne : word ≠ []) (suffix : List Char) :
    Clause.splitRequired (word ++ suffix) =
      (decide (word.head? = some '+'), behindSign word ++ suffix) := by
  cases word with
  | nil => exact absurd rfl hne
  | cons c rest =>
    by_cases hc : c = '+'
    · subst hc
      rfl
    · rw [behindSign]
      simp [Clause.splitRequired, hc]

/-- A plus sign belongs to no term. -/
theorem terms_behindSign (word : List Char) :
    Index.terms (String.ofList (behindSign word)) = Index.terms (String.ofList word) := by
  rcases behindSign_cases word with h | h
  · rw [← h]
  · rw [h, Index.terms_ofList_cons (by decide), ← h]

section Written

variable {word : List Char} (h : IsWord word) {edits : Option (List Char)}
  (hedits : ∀ digits, edits = some digits → '~' ∉ digits)

include h hedits

theorem ofWord_signed :
    Clause.ofWord (word ++ edits.elim [] ('~' :: ·)) =
      Clause.ofTerms (word.head? = some '+') (edits.elim 0 Clause.readDistance) 0
        (Index.terms (String.ofList word)) := by
  have hmem : ∀ c ∈ behindSign word, c ∈ word := by
    intro c hc
    rcases behindSign_cases word with e | e
    · rwa [e]
    · exact e ▸ List.mem_cons_of_mem '+' hc
  have htilde : '~' ∉ behindSign word := fun hm => notMem_of_isWord h (by decide) (hmem _ hm)
  have hcaret : '^' ∉ behindSign word := fun hm => notMem_of_isWord h (by decide) (hmem _ hm)
  rw [Clause.ofWord_unpinned (splitRequired_append h.1 _) (Clause.splitLast_suffix htilde hedits) hcaret,
    terms_behindSign]

theorem ofWord_required :
    Clause.ofWord ('+' :: (word ++ edits.elim [] ('~' :: ·))) =
      Clause.ofTerms true (edits.elim 0 Clause.readDistance) 0 (Index.terms (String.ofList word)) :=
  Clause.ofWord_unpinned rfl (Clause.splitLast_suffix (notMem_of_isWord h (by decide)) hedits)
    (notMem_of_isWord h (by decide))

end Written

theorem ofWord_pinned_first {first : Char} {rest : List Char} (h : IsWord (first :: rest))
    {edits : Option (List Char)} (hedits : ∀ digits, edits = some digits → '~' ∉ digits) :
    Clause.ofWord ('+' :: (first :: '^' :: rest ++ edits.elim [] ('~' :: ·))) =
      Clause.ofTerms true (edits.elim 0 Clause.readDistance) 1
        (Index.terms (String.ofList (first :: rest))) := by
  have htilde : '~' ∉ first :: '^' :: rest := by
    simpa using notMem_of_isWord h (c := '~') (by decide)
  have hcaret : '^' ∉ [first] := by
    intro hm
    rw [List.mem_singleton] at hm
    exact notMem_of_isWord h (c := '^') (by decide) (hm ▸ List.mem_cons_self)
  have hsplit : Clause.splitLast '~' (first :: '^' :: rest ++ edits.elim [] ('~' :: ·)) =
      ([first] ++ '^' :: rest, edits) := Clause.splitLast_suffix htilde hedits
  exact @Clause.ofWord_pinned _ _ true edits [first] rest rfl hsplit hcaret

theorem readDistance_one : Clause.readDistance ['1'] = 1 := by decide +kernel

theorem readDistance_two : Clause.readDistance ['2'] = 2 := by decide +kernel

/-- A clause as it is written for a word. -/
theorem toList_fuzzyClause {word : String} {first : Char} {rest : List Char}
    (h : word.toList = first :: rest) :
    (fuzzyClause word).toList =
      if word.length ≤ 2 then word.toList
      else if word.length = 3 then word.toList ++ ['~', '1']
      else if word.length ≤ 5 then '+' :: (word.toList ++ ['~', '1'])
      else '+' :: (first :: '^' :: rest ++ ['~', '2']) := by
  rw [fuzzyClause, h]
  dsimp only
  split_ifs
  · exact h
  · rw [String.toList_append, h]
    rfl
  · rw [String.toList_append, String.toList_append, h]
    rfl
  · simp only [String.toList_append, String.toList_singleton, String.toList_ofList]
    rfl

/-- The clause for a word asks for its terms. It is required from four letters on, or when the word
starts with a plus sign. -/
theorem ofWord_fuzzyClause {word : String} (h : IsWord word.toList) :
    Clause.ofWord (fuzzyClause word).toList =
      Clause.ofTerms (4 ≤ word.length || word.toList.head? = some '+') (editsFor word.length)
        (if word.length ≤ 5 then 0 else 1) (Index.terms word) := by
  obtain ⟨first, rest, hcons⟩ := List.exists_cons_of_ne_nil h.1
  have hterms : Index.terms (String.ofList word.toList) = Index.terms word := by
    rw [String.ofList_toList]
  have hone : ∀ digits, some ['1'] = some digits → '~' ∉ digits := by
    rintro _ ⟨⟩
    decide
  have htwo : ∀ digits, some ['2'] = some digits → '~' ∉ digits := by
    rintro _ ⟨⟩
    decide
  rw [toList_fuzzyClause hcons, editsFor]
  -- One case for each way of writing the clause.
  obtain hlen | hlen | hlen | hlen : word.length ≤ 2 ∨ word.length = 3 ∨
      4 ≤ word.length ∧ word.length ≤ 5 ∨ 6 ≤ word.length := by omega
  · have hread := @ofWord_signed _ h none nofun
    simp only [Option.elim_none, List.append_nil, hterms] at hread
    rw [if_pos hlen, if_pos hlen, if_pos (by omega), decide_eq_false (by omega), Bool.false_or, hread]
  · have hread := ofWord_signed h hone
    simp only [Option.elim_some, readDistance_one, hterms] at hread
    rw [if_neg (by omega), if_pos hlen, if_neg (by omega), if_pos (by omega), if_pos (by omega),
      decide_eq_false (by omega), Bool.false_or, hread]
  · have hread := ofWord_required h hone
    simp only [Option.elim_some, readDistance_one, hterms] at hread
    rw [if_neg (by omega), if_neg (by omega), if_pos hlen.2, if_neg (by omega), if_pos hlen.2,
      if_pos hlen.2, decide_eq_true hlen.1, Bool.true_or, hread]
  · have hread := ofWord_pinned_first (hcons ▸ h) htwo
    simp only [Option.elim_some, readDistance_two, ← hcons, hterms] at hread
    rw [if_neg (by omega), if_neg (by omega), if_neg (by omega), if_neg (by omega), if_neg (by omega),
      if_neg (by omega), decide_eq_true (by omega), Bool.true_or, hread]

theorem isBlank_of_mem_fuzzyClause {word : String} (h : IsWord word.toList) {c : Char}
    (hc : c ∈ (fuzzyClause word).toList) : Text.isBlank c = false := by
  obtain ⟨first, rest, hcons⟩ := List.exists_cons_of_ne_nil h.1
  have hword : ∀ d ∈ word.toList, Text.isBlank d = false := fun d hd => isBlank_of_isKept (h.2 d hd)
  have hsigns : ∀ d ∈ ['+', '^', '~', '1', '2'], Text.isBlank d = false := by
    intro d hd
    simp only [List.mem_cons, List.not_mem_nil, or_false] at hd
    rcases hd with rfl | rfl | rfl | rfl | rfl <;> rfl
  have hmem : c ∈ word.toList ∨ c ∈ ['+', '^', '~', '1', '2'] := by
    rw [toList_fuzzyClause hcons, hcons] at hc
    rw [hcons]
    split_ifs at hc <;> grind
  exact hmem.elim (hword c) (hsigns c)

theorem fuzzyClause_ne_nil {word : String} (h : IsWord word.toList) :
    (fuzzyClause word).toList ≠ [] := by
  obtain ⟨first, rest, hcons⟩ := List.exists_cons_of_ne_nil h.1
  rw [toList_fuzzyClause hcons, hcons]
  split_ifs <;> exact List.cons_ne_nil _ _

theorem parse_fuzzyClause {word : String} (h : IsWord word.toList) :
    Clause.parse (fuzzyClause word) =
      Clause.ofTerms (4 ≤ word.length || word.toList.head? = some '+') (editsFor word.length)
        (if word.length ≤ 5 then 0 else 1) (Index.terms word) := by
  rw [Clause.parse_eq_ofWord (fuzzyClause_ne_nil h) fun c hc => isBlank_of_mem_fuzzyClause h hc,
    ofWord_fuzzyClause h]

/-! ## Synonyms -/

theorem parse_weaponSynonyms :
    ∀ entry ∈ weaponSynonyms,
      (∀ c ∈ Clause.parse entry.2, c.required = false ∧ c.pinned = 0) ∧
        ∃ c ∈ Clause.parse entry.2, c.term ∈ Index.terms entry.1 := by
  decide +kernel

/-- A word is written as a clause of its own, or as those of its synonyms. -/
theorem expandWord_cases (word : String) :
    expandWord word = fuzzyClause word ∨ (word, expandWord word) ∈ weaponSynonyms := by
  unfold expandWord
  cases h : weaponSynonyms.lookup word with
  | none => exact .inl rfl
  | some text =>
    obtain ⟨before, after, hsplit, _⟩ := List.lookup_eq_some_iff.mp h
    exact .inr (hsplit ▸ by simp)

/-- The clauses that are made for a word. -/
theorem coversWord_expandWord {word : String} (h : IsWord word.toList) :
    CoversWord word (Clause.parse (expandWord word)) := by
  rcases expandWord_cases word with hown | hsynonyms
  · rw [hown, parse_fuzzyClause h]
    refine ⟨fun c hc _ => (Clause.of_mem_ofTerms hc).1, fun hne => ?_, fun c hc => ?_⟩
    · obtain ⟨c, hc⟩ := List.exists_mem_of_ne_nil _ hne
      exact ⟨c, hc, (Clause.of_mem_ofTerms hc).1⟩
    · obtain ⟨hterm, -, -, hpinned⟩ := Clause.of_mem_ofTerms hc
      refine pinsOneAtMost_of_le ?_ (isAlphanum_of_mem_terms h hterm)
      split at hpinned <;> omega
  · obtain ⟨hoptional, hterm⟩ := parse_weaponSynonyms _ hsynonyms
    refine ⟨fun c hc hrequired => ?_, fun _ => hterm, fun c hc => ?_⟩
    · rw [(hoptional c hc).1] at hrequired
      cases hrequired
    · rw [PinsOneAtMost, Clause.pinnedPrefix, (hoptional c hc).2]
      exact .inl rfl

/-! ## Words without synonyms -/

theorem expandWord_eq_fuzzyClause {word : String} (h : word ∉ weaponSynonyms.map (·.1)) :
    expandWord word = fuzzyClause word := by
  rcases expandWord_cases word with hown | hsynonyms
  · exact hown
  · exact absurd (List.mem_map.mpr ⟨_, hsynonyms, rfl⟩) h

/-- A word that has no synonyms is looked for by its terms. The clauses are required when it has four
letters or more, and shorter words are when they start with a plus sign, which is read as the sign of
a required clause. -/
theorem parse_expandWord {word : String} (hword : IsWord word.toList)
    (hsynonyms : word ∉ weaponSynonyms.map (·.1)) :
    Clause.parse (expandWord word) =
      clausesOf word (4 ≤ word.length || word.toList.head? = some '+') := by
  rw [expandWord_eq_fuzzyClause hsynonyms, parse_fuzzyClause hword, Clause.ofTerms_eq_mapIdx,
    clausesOf]
  refine List.mapIdx_eq_mapIdx_iff.mpr fun i hi => ?_
  have hlength := Index.length_pos_of_mem_terms (List.getElem_mem hi)
  congr 1
  split_ifs <;> omega

theorem parse_expandWord_frost_blades :
    (IsWord "frost+blades".toList ∧ "frost+blades" ∉ weaponSynonyms.map (·.1)) ∧
      Clause.parse (expandWord "frost+blades") =
        [⟨"frost", true, 2, 1⟩, ⟨"blade", true, 2, 0⟩] := by
  have hword : IsWord "frost+blades".toList := by decide +kernel
  have hsynonyms : "frost+blades" ∉ weaponSynonyms.map (·.1) := by decide +kernel
  refine ⟨⟨hword, hsynonyms⟩, (parse_expandWord hword hsynonyms).trans ?_⟩
  decide +kernel

/-- The length of a word does not decide alone: the plus sign of `+1` is taken for that of a required
clause. -/
theorem parse_expandWord_signed :
    ¬ ∀ word : String, IsWord word.toList → word ∉ weaponSynonyms.map (·.1) →
      Clause.parse (expandWord word) = clausesOf word (4 ≤ word.length) := by
  intro h
  have hword : IsWord "+1".toList := by decide +kernel
  have hsynonyms : "+1" ∉ weaponSynonyms.map (·.1) := by decide +kernel
  exact absurd (h "+1" hword hsynonyms) (by decide +kernel)

end ItemCatalog
