import ItemCatalog.Index.Term
import ItemCatalog.Proofs.Text.Letter
import ItemCatalog.Proofs.Text.Word

/-!
# The terms of a name and of its words

A space is no letter, so that the analysis of a name goes word by word.

Results:
1. `terms_eq_flatMap`: the terms of a name are those of its pieces between spaces, in order.
2. `terms_ofList_cons`: a character that is neither letter nor number in front makes no difference.
3. `terms_eq_singleton`: which words are their own terms.
4. `length_pos_of_mem_terms`: every term has a character.
5. `isAlphanumeric_of_mem_terms_self`: a text that is a term of its own has letters and numbers only.
-/

namespace ItemCatalog.Text

theorem lowerForms_ne_nil (c : Char) : lowerForms c ≠ [] := by
  unfold lowerForms
  split <;> exact List.cons_ne_nil _ _

theorem lower_ne_nil {cs : List Char} (h : cs ≠ []) : lower cs ≠ [] := by
  cases cs with
  | nil => exact absurd rfl h
  | cons c cs =>
    intro hnil
    exact lowerForms_ne_nil c (List.append_eq_nil_iff.mp hnil).1

end ItemCatalog.Text

namespace ItemCatalog.Index

theorem runs_intercalate (parts : List (List Char)) :
    runs ([' '].intercalate parts) = parts.flatMap runs :=
  Text.filter_piecesBy_intercalate (by decide) parts

/-- The terms of a name are those of its pieces between spaces. -/
theorem terms_eq_flatMap (name : String) :
    terms name = (Text.pieces ' ' name.toList).flatMap fun piece => terms (String.ofList piece) := by
  have hruns : runs name.toList = (Text.pieces ' ' name.toList).flatMap runs := by
    rw [← runs_intercalate, Text.intercalate_pieces]
  simp only [terms, hruns, String.toList_ofList, List.map_flatMap, List.filter_flatMap]

theorem mem_terms_of_mem_pieces {name : String} {piece : List Char}
    (hp : piece ∈ Text.pieces ' ' name.toList) {term : String}
    (ht : term ∈ terms (String.ofList piece)) : term ∈ terms name := by
  rw [terms_eq_flatMap]
  exact List.mem_flatMap.mpr ⟨piece, hp, ht⟩

theorem runs_cons {c : Char} (h : Text.isAlphanumeric c = false) (cs : List Char) :
    runs (c :: cs) = runs cs := by
  rw [runs, Text.piecesBy_cons_separator (by rw [h]; rfl), List.filter_cons_of_neg (by simp)]
  rfl

theorem terms_ofList_cons {c : Char} (h : Text.isAlphanumeric c = false) (cs : List Char) :
    terms (String.ofList (c :: cs)) = terms (String.ofList cs) := by
  simp only [terms, String.toList_ofList, runs_cons h]

/-- A word in small letters that tells names apart and has no `s` at its end is its own term. -/
theorem terms_eq_singleton {word : List Char} (hne : word ≠ [])
    (hletters : ∀ c ∈ word, Text.isAlphanumeric c) (hsmall : ∀ c ∈ word, Text.lowerForms c = [c])
    (htelling : String.ofList word ∉ stopWords) (hlast : word.getLast? ≠ some 's') :
    terms (String.ofList word) = [String.ofList word] := by
  have hruns : runs word = [word] := by
    rw [runs, Text.piecesBy_of_forall_not (by simpa using hletters)]
    exact List.filter_eq_self.mpr (by simpa using hne)
  rw [terms, String.toList_ofList, hruns, List.map_singleton, Text.lower_eq_self hsmall,
    List.filter_cons_of_pos (by simpa using htelling), List.filter_nil, List.map_singleton,
    withoutPlural, if_neg (by simp [hlast])]

theorem withoutPlural_ne_nil {word : List Char} (h : word ≠ []) : withoutPlural word ≠ [] := by
  unfold withoutPlural
  split
  next hlong =>
    have hlength : 2 < word.length := by simp_all
    intro hnil
    have := congrArg List.length hnil
    rw [List.length_dropLast, List.length_nil] at this
    omega
  next => exact h

/-- Every term has a character. -/
theorem length_pos_of_mem_terms {text term : String} (h : term ∈ terms text) : 0 < term.length := by
  obtain ⟨word, hword, rfl⟩ := List.mem_map.mp h
  obtain ⟨run, hrun, rfl⟩ := List.mem_map.mp (List.mem_filter.mp hword).1
  have hne : run ≠ [] := by
    intro hnil
    rw [hnil] at hrun
    exact absurd (List.mem_filter.mp hrun).2 (by decide)
  rw [String.length_ofList]
  exact List.length_pos_iff.mpr (withoutPlural_ne_nil (Text.lower_ne_nil hne))

theorem length_withoutPlural_le (word : List Char) : (withoutPlural word).length ≤ word.length := by
  unfold withoutPlural
  split
  · rw [List.length_dropLast]
    exact Nat.sub_le _ _
  · exact Nat.le_refl _

theorem mem_of_mem_withoutPlural {word : List Char} {c : Char} (h : c ∈ withoutPlural word) :
    c ∈ word := by
  unfold withoutPlural at h
  split at h
  · exact List.dropLast_subset word h
  · exact h

/-- A text that is among its own terms has no characters but letters and numbers. A term is never longer
than the run that it comes from, unless the run has a dotted capital `I`, and such a letter does not
come back. So the run is the whole text. -/
theorem isAlphanumeric_of_mem_terms_self {text : String} (h : text ∈ terms text) :
    ∀ c ∈ text.toList, Text.isAlphanumeric c := by
  obtain ⟨word, hword, htext⟩ := List.mem_map.mp h
  obtain ⟨run, hrun, rfl⟩ := List.mem_map.mp (List.mem_filter.mp hword).1
  have hrun := (List.mem_filter.mp hrun).1
  have htext : withoutPlural (Text.lower run) = text.toList := by
    rw [← htext, String.toList_ofList]
  have hundotted : ∀ c ∈ run, c.toNat ≠ 0x130 := fun c hc => by
    have hc : c ∈ withoutPlural (Text.lower run) := htext ▸ (Text.of_mem_piecesBy hrun hc).1
    exact Text.toNat_ne_of_mem_lower (mem_of_mem_withoutPlural hc)
  have hlength : text.toList.length ≤ run.length := by
    calc text.toList.length
      _ = (withoutPlural (Text.lower run)).length := by rw [htext]
      _ ≤ (Text.lower run).length := length_withoutPlural_le _
      _ = run.length := Text.length_lower hundotted
  rcases Text.eq_or_length_lt_of_mem_piecesBy hrun with rfl | hshort
  · intro c hc
    simpa using (Text.of_mem_piecesBy hrun hc).2
  · omega

end ItemCatalog.Index
