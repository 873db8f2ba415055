import ItemCatalog.Proofs.Name.Canonical

/-!
# Sanitizing leaves canonical names as they are

Sanitizing gives nothing or a canonical name. A canonical name has no case, no accents and nothing
that vanishes, and the spaces between its words are those that are written for gaps, so sanitizing it
changes nothing.

Results:
1. `plainCharacters_eq_self`: the characters of canonical names have no other plain form.
2. `spaceOut_of_isName`: canonical names are spaced out already.
3. `sanitize_fixes_exactly_names`: the texts that sanitizing leaves as they are.
-/

namespace ItemCatalog.Name

/-! ## Characters of canonical names -/

theorem toNat_of_isDropped {c : Char} (h : isDropped c) :
    c.toNat = 34 ∨ (39 ≤ c.toNat ∧ c.toNat ≤ 41) ∨ c.toNat = 96 ∨ 128 ≤ c.toNat := by
  simp only [isDropped, Bool.or_eq_true, decide_eq_true_eq] at h
  rcases h with (((((((rfl | rfl) | rfl) | rfl) | h) | h) | h) | h) | h
  iterate 4 decide
  all_goals omega

theorem vanishes_of_isKept {c : Char} (h : isKept c) : vanishes c = false := by
  have hcode := toNat_of_isKept h
  have hmark : Text.isAccentMark c = false := by
    unfold Text.isAccentMark
    grind
  have hdropped : isDropped c = false := by
    rw [← Bool.not_eq_true]
    intro hd
    have hcode' := toNat_of_isDropped hd
    omega
  rw [vanishes, hmark, hdropped, Bool.or_false]

/-- Kept characters and spaces have no other plain form. -/
theorem plainCharacters_eq_self {cs : List Char} (h : ∀ c ∈ cs, isKept c ∨ c = ' ') :
    plainCharacters cs = cs := by
  have hcode : ∀ c ∈ cs, c.toNat < 128 ∧ ¬ (65 ≤ c.toNat ∧ c.toNat ≤ 90) := by
    intro c hc
    rcases h c hc with hkept | rfl
    · have := toNat_of_isKept hkept
      omega
    · decide
  have hlower : Text.lower cs = cs :=
    Text.lower_eq_self fun c hc => Text.lowerForms_eq_self (hcode c hc).1 (hcode c hc).2
  have hplain : cs.map Text.unaccented = cs := by
    have hself : ∀ c ∈ cs, Text.unaccented c = c := fun c hc => if_pos (hcode c hc).1
    rw [List.map_congr_left hself, List.map_id']
  rw [plainCharacters, hlower, hplain, List.filter_eq_self]
  intro c hc
  rcases h c hc with hkept | rfl
  · rw [vanishes_of_isKept hkept]
    rfl
  · decide

theorem isKept_or_space_of_isName {text : String} (h : IsName text) :
    ∀ c ∈ text.toList, isKept c ∨ c = ' ' := by
  intro c hc
  by_cases hspace : c = ' '
  · exact .inr hspace
  · obtain ⟨word, hw, hm⟩ := Text.exists_mem_pieces hc hspace
    exact .inl ((h word hw).2 c hm)

/-! ## Spacing out words -/

/-- A kept character is written, behind a space if one is due. -/
theorem spaceOut_cons {c : Char} (hc : isKept c) (started gap : Bool) (rest : List Char) :
    spaceOut started gap (c :: rest) =
      (if gap && started then [' '] else []) ++ c :: spaceOut true false rest := by
  rw [spaceOut, if_pos hc]
  split <;> rfl

theorem spaceOut_append {word : List Char} (h : ∀ c ∈ word, isKept c) (rest : List Char) :
    spaceOut true false (word ++ rest) = word ++ spaceOut true false rest := by
  induction word with
  | nil => rfl
  | cons c word ih =>
    obtain ⟨hc, hword⟩ := List.forall_mem_cons.mp h
    rw [List.cons_append, spaceOut_cons hc, ih hword]
    rfl

/-- Words behind a kept character are spaced out already, with a space in front of each: the space is
held back and then written for the word behind it. -/
theorem spaceOut_flatMap {words : List (List Char)} (h : ∀ word ∈ words, IsWord word) :
    spaceOut true false (words.flatMap (' ' :: ·)) = words.flatMap (' ' :: ·) := by
  induction words with
  | nil => rfl
  | cons word words ih =>
    obtain ⟨⟨hne, hkept⟩, hwords⟩ := List.forall_mem_cons.mp h
    cases word with
    | nil => exact absurd rfl hne
    | cons c word =>
      obtain ⟨hc, hword⟩ := List.forall_mem_cons.mp hkept
      rw [List.flatMap_cons, List.cons_append, spaceOut, if_neg (by decide), List.cons_append,
        spaceOut_cons hc, spaceOut_append hword, ih hwords]
      rfl

/-- A canonical name is spaced out already. -/
theorem spaceOut_of_isName {text : String} (h : IsName text) :
    spaceOut false false text.toList = text.toList := by
  unfold IsName at h
  rw [← Text.intercalate_pieces ' ' text.toList]
  cases hpieces : Text.pieces ' ' text.toList with
  | nil => rfl
  | cons word words =>
    rw [hpieces] at h
    obtain ⟨⟨hne, hkept⟩, hwords⟩ := List.forall_mem_cons.mp h
    rw [Text.intercalate_cons]
    cases word with
    | nil => exact absurd rfl hne
    | cons c word =>
      obtain ⟨hc, hword⟩ := List.forall_mem_cons.mp hkept
      rw [List.cons_append, spaceOut_cons hc, spaceOut_append hword, spaceOut_flatMap hwords]
      rfl

/-! ## Sanitizing -/

/-- Sanitizing leaves canonical names as they are. -/
theorem sanitize_eq_self {text : String} (h : IsName text) : sanitize text = text := by
  rw [sanitize, sanitizeChars, plainCharacters_eq_self (isKept_or_space_of_isName h),
    spaceOut_of_isName h, String.ofList_toList]

/-- Every text is sanitized to nothing or to words over small letters, digits, `+`, `?` and `|` with
single spaces between them and none at the ends. Texts of this form, and no others, are left as they
are, so sanitizing a second time changes nothing. -/
theorem sanitize_fixes_exactly_names (text : String) :
    (sanitize text = "" ∨ IsName (sanitize text)) ∧
      (sanitize text = text ↔ text = "" ∨ IsName text) ∧
      sanitize (sanitize text) = sanitize text := by
  have hfixed : ∀ {text : String}, text = "" ∨ IsName text → sanitize text = text := by
    rintro text (rfl | hname)
    · rfl
    · exact sanitize_eq_self hname
  have hform := sanitize_eq_empty_or_isName text
  exact ⟨hform, ⟨fun h => h ▸ hform, hfixed⟩, hfixed hform⟩

end ItemCatalog.Name
