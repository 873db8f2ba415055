import ItemCatalog.Proofs.Pattern.Matching
import ItemCatalog.Proofs.Text.Word

/-!
# What the patterns of search phrases match

Results:
1. `isMatch_standalone_iff_mem_tail`: a word of its own is a piece of the name, the first excepted.
2. `Spells.filter_eq`: a spaced pattern stands for its letters, spaces aside.
3. `isMatch_spaced_self_iff`: a phrase matches its own pattern when no space is among its first three
   characters.
-/

namespace ItemCatalog.Pattern

open Text

/-! ## Definitions -/

/-- Letters with spaces that may stand in front of each. -/
def gapped (letters : List Char) : List Atom :=
  letters.flatMap fun c => [.optional ' ', .letter c]

theorem gapped_cons (c : Char) (letters : List Char) :
    gapped (c :: letters) = .optional ' ' :: .letter c :: gapped letters := rfl

theorem spacedLetters_eq (letters : List Char) :
    spacedLetters letters = (letters.take 3).map .letter ++ gapped (letters.drop 3) := rfl

theorem isLetter_of_mem_gapped {letters : List Char} {a : Atom} (h : a ∈ gapped letters) :
    a.isLetter := by
  obtain ⟨c, _, ha⟩ := List.mem_flatMap.mp h
  rcases List.mem_cons.mp ha with rfl | ha
  · rfl
  · rw [List.mem_singleton.mp ha]
    rfl

theorem isLetter_of_mem_spacedLetters {letters : List Char} :
    ∀ a ∈ spacedLetters letters, a.isLetter := by
  intro a ha
  rw [spacedLetters_eq] at ha
  rcases List.mem_append.mp ha with ha | ha
  · obtain ⟨c, _, rfl⟩ := List.mem_map.mp ha
    rfl
  · exact isLetter_of_mem_gapped ha

/-! ## Spellings -/

theorem spells_map_letter_iff {letters segment : List Char} :
    Spells (letters.map .letter) segment ↔ segment.map foldChar = letters.map foldChar := by
  constructor
  · intro h
    induction letters generalizing segment with
    | nil =>
      cases h
      rfl
    | cons c letters ih =>
      cases h with
      | letter hd hs =>
        rw [List.map_cons, List.map_cons, ih hs, of_decide_eq_true hd]
  · intro h
    induction letters generalizing segment with
    | nil =>
      obtain rfl : segment = [] := by simpa using h
      exact .nil
    | cons c letters ih =>
      cases segment with
      | nil => cases h
      | cons d segment =>
        obtain ⟨hd, hs⟩ := List.cons.inj h
        exact .letter (decide_eq_true hd.symm) (ih hs)

theorem spells_append_iff {front back : List Atom} {segment : List Char} :
    Spells (front ++ back) segment ↔
      ∃ left right, segment = left ++ right ∧ Spells front left ∧ Spells back right := by
  constructor
  · intro h
    induction front generalizing segment with
    | nil => exact ⟨[], segment, rfl, .nil, h⟩
    | cons atom front ih =>
      cases h with
      | letter hd hs =>
        obtain ⟨left, right, rfl, hl, hr⟩ := ih hs
        exact ⟨_, right, rfl, .letter hd hl, hr⟩
      | skip hs =>
        obtain ⟨left, right, rfl, hl, hr⟩ := ih hs
        exact ⟨left, right, rfl, .skip hl, hr⟩
      | optional hd hs =>
        obtain ⟨left, right, rfl, hl, hr⟩ := ih hs
        exact ⟨_, right, rfl, .optional hd hl, hr⟩
  · rintro ⟨left, right, rfl, hl, hr⟩
    induction hl with
    | nil => exact hr
    | letter hd _ ih => exact .letter hd ih
    | skip _ ih => exact .skip ih
    | optional hd _ ih => exact .optional hd ih

theorem ne_space_of_sameLetter {c d : Char} (h : sameLetter c d) (hc : c ≠ ' ') : d ≠ ' ' := by
  rintro rfl
  have hfold : foldChar c = foldChar ' ' := of_decide_eq_true h
  exact hc (foldChar_eq_space_iff.mp hfold)

/-- Letters are spelled by letters. -/
theorem Spells.filter_eq_of_map_letter {letters segment : List Char}
    (h : Spells (letters.map .letter) segment) (hne : ' ' ∉ letters) :
    segment.filter (· ≠ ' ') = segment := by
  induction letters generalizing segment with
  | nil =>
    cases h
    rfl
  | cons c letters ih =>
    rw [List.mem_cons, not_or] at hne
    cases h with
    | letter hd hs =>
      rw [List.filter_cons_of_pos (by simpa using ne_space_of_sameLetter hd (Ne.symm hne.1)),
        ih hs hne.2]

theorem Spells.map_filter_gapped {letters segment : List Char} (h : Spells (gapped letters) segment)
    (hne : ' ' ∉ letters) :
    (segment.filter (· ≠ ' ')).map foldChar = letters.map foldChar := by
  induction letters generalizing segment with
  | nil =>
    cases h
    rfl
  | cons c letters ih =>
    rw [List.mem_cons, not_or] at hne
    rw [gapped_cons] at h
    have hletter : ∀ {ds : List Char}, Spells (.letter c :: gapped letters) ds →
        (ds.filter (· ≠ ' ')).map foldChar = (c :: letters).map foldChar := by
      intro ds hs
      cases hs with
      | letter hd hs =>
        rw [List.filter_cons_of_pos (by simpa using ne_space_of_sameLetter hd (Ne.symm hne.1)),
          List.map_cons, List.map_cons, ih hs hne.2, of_decide_eq_true hd]
    cases h with
    | skip hs => exact hletter hs
    | optional hd hs =>
      rw [sameLetter_space_iff.mp hd, List.filter_cons_of_neg (by decide)]
      exact hletter hs

/-- A spaced pattern stands for its letters, spaces aside. -/
theorem Spells.filter_eq {letters segment : List Char} (h : Spells (spacedLetters letters) segment)
    (hne : ' ' ∉ letters) :
    (segment.filter (· ≠ ' ')).map foldChar = letters.map foldChar := by
  rw [spacedLetters_eq, spells_append_iff] at h
  obtain ⟨left, right, rfl, hl, hr⟩ := h
  have hleft := hl.filter_eq_of_map_letter fun hm => hne (List.mem_of_mem_take hm)
  rw [List.filter_append, List.map_append, hleft, spells_map_letter_iff.mp hl,
    hr.map_filter_gapped fun hm => hne (List.mem_of_mem_drop hm), ← List.map_append,
    List.take_append_drop]

theorem space_notMem_of_map_foldChar {cs ds : List Char} (h : cs.map foldChar = ds.map foldChar)
    (hd : ' ' ∉ ds) : ' ' ∉ cs := by
  intro hc
  have hfold : ' ' ∈ ds.map foldChar := h ▸ List.mem_map_of_mem (f := foldChar) hc
  obtain ⟨d, hm, he⟩ := List.mem_map.mp hfold
  exact hd (foldChar_eq_space_iff.mp he ▸ hm)

/-! ## A word of its own -/

/-- A word of its own is a piece of the text, the first excepted. -/
theorem isMatch_standalone_iff_mem_tail {word : String} (hw : ' ' ∉ word.toList) (text : String) :
    (standalone word).isMatch text ↔
      ∃ piece ∈ (pieces ' ' text.toList).tail, piece.map foldChar = word.toList.map foldChar := by
  rw [isMatch_standalone_iff]
  constructor
  · rintro ⟨before, segment, after, htext, hs, hafter⟩
    have hfold := spells_map_letter_iff.mp hs
    exact ⟨segment, mem_tail_pieces_iff.mpr
      ⟨space_notMem_of_map_foldChar hfold hw, before, after, htext, hafter⟩, hfold⟩
  · rintro ⟨piece, hp, hfold⟩
    obtain ⟨_, before, after, htext, hafter⟩ := mem_tail_pieces_iff.mp hp
    exact ⟨before, piece, after, htext, spells_map_letter_iff.mpr hfold, hafter⟩

/-! ## A phrase and its own pattern -/

/-- A text is spelled by its letters when its spaces stand alone and not at its end. -/
theorem spells_gapped_self {cs : List Char} (h : ∀ piece ∈ (pieces ' ' cs).tail, piece ≠ []) :
    Spells (gapped (cs.filter (· ≠ ' '))) cs := by
  induction cs with
  | nil => exact .nil
  | cons c cs ih =>
    have ih := ih fun piece hp => h piece (mem_tail_pieces_append [c] hp)
    by_cases hc : c = ' '
    · subst hc
      rw [pieces_cons_separator, List.tail_cons] at h
      rw [List.filter_cons_of_neg (by decide)]
      cases cs with
      | nil => exact absurd rfl (h [] (by simp))
      | cons d cs =>
        -- Behind the space stands a letter, and the space may stand in front of it.
        have hd : d ≠ ' ' := by
          rintro rfl
          exact h [] (by rw [pieces_cons_separator]; exact List.mem_cons_self) rfl
        rw [List.filter_cons_of_pos (by simpa using hd), gapped_cons] at ih ⊢
        cases ih with
        | skip hs => exact .optional (sameLetter_space_iff.mpr rfl) hs
        | optional hspace _ => exact absurd (sameLetter_space_iff.mp hspace) hd
    · rw [List.filter_cons_of_pos (by simpa using hc), gapped_cons]
      exact .skip (.letter (decide_eq_true rfl) ih)

section Self

variable {phrase : List Char} (hwords : ∀ word ∈ pieces ' ' phrase, word ≠ [])

include hwords

theorem eq_nil_of_forall_space_left {before rest : List Char} (h : phrase = before ++ rest)
    (hspaces : before.filter (· ≠ ' ') = []) : before = [] := by
  cases before with
  | nil => rfl
  | cons c before =>
    have hc : c = ' ' := by simpa using List.filter_eq_nil_iff.mp hspaces c List.mem_cons_self
    rw [h, hc, List.cons_append, pieces_cons_separator] at hwords
    exact absurd rfl (hwords [] List.mem_cons_self)

theorem eq_nil_of_forall_space_right {rest after : List Char} (h : phrase = rest ++ after)
    (hspaces : after.filter (· ≠ ' ') = []) : after = [] := by
  rcases List.eq_nil_or_concat after with rfl | ⟨front, c, rfl⟩
  · rfl
  · have hc : c = ' ' := by simpa using List.filter_eq_nil_iff.mp hspaces c (by simp)
    rw [h, hc, List.concat_eq_append, ← List.append_assoc, pieces_append_cons] at hwords
    exact absurd rfl (hwords [] (by simp))

/-- A phrase is spelled by its letters when its first three characters are letters. -/
theorem spells_spacedLetters_self (hlen : 3 ≤ phrase.length) (h : ' ' ∉ phrase.take 3) :
    Spells (spacedLetters (phrase.filter (· ≠ ' '))) phrase := by
  have hhead : (phrase.take 3).filter (· ≠ ' ') = phrase.take 3 := by
    rw [List.filter_eq_self]
    intro c hc
    simpa using fun e : c = ' ' => h (e ▸ hc)
  have hletters : phrase.filter (· ≠ ' ') =
      phrase.take 3 ++ (phrase.drop 3).filter (· ≠ ' ') := by
    rw [← hhead, ← List.filter_append, List.take_append_drop]
  have htake : (phrase.take 3).length = 3 := by
    rw [List.length_take]
    omega
  have htail : Spells (gapped ((phrase.drop 3).filter (· ≠ ' '))) (phrase.drop 3) := by
    refine spells_gapped_self fun piece hp => hwords piece (List.mem_of_mem_tail ?_)
    rw [← List.take_append_drop 3 phrase]
    exact mem_tail_pieces_append (phrase.take 3) hp
  rw [hletters, spacedLetters_eq, List.take_left' htake, List.drop_left' htake, spells_append_iff]
  exact ⟨phrase.take 3, phrase.drop 3, (List.take_append_drop 3 phrase).symm,
    spells_map_letter_iff.mpr rfl, htail⟩

/-- All letters of a phrase are spelled by nothing less than the phrase, and the first three of them
without spaces. -/
theorem space_notMem_take_of_spells {before segment after : List Char}
    (h : phrase = before ++ (segment ++ after))
    (hs : Spells (spacedLetters (phrase.filter (· ≠ ' '))) segment) : ' ' ∉ phrase.take 3 := by
  have hne : ' ' ∉ phrase.filter (· ≠ ' ') := fun hm => by simp at hm
  have hcount := congrArg List.length (hs.filter_eq hne)
  have hsplit : phrase.filter (· ≠ ' ') =
      before.filter (· ≠ ' ') ++ (segment.filter (· ≠ ' ') ++ after.filter (· ≠ ' ')) := by
    rw [h, List.filter_append, List.filter_append]
  rw [List.length_map, List.length_map, hsplit, List.length_append, List.length_append] at hcount
  -- The segment has all the letters, so nothing but spaces could stand around it.
  have hbefore := eq_nil_of_forall_space_left hwords h (List.length_eq_zero_iff.mp (by omega))
  have hafter := eq_nil_of_forall_space_right hwords ((List.append_assoc _ _ _).symm ▸ h)
    (List.length_eq_zero_iff.mp (by omega))
  rw [hbefore, hafter, List.nil_append, List.append_nil] at h
  subst h
  rw [spacedLetters_eq, spells_append_iff] at hs
  obtain ⟨left, right, hphrase, hl, hr⟩ := hs
  have hfold := spells_map_letter_iff.mp hl
  have hleft := space_notMem_of_map_foldChar hfold fun hm => hne (List.mem_of_mem_take hm)
  -- With fewer than three letters the pattern has no place for a space at all.
  by_cases hthree : 3 ≤ (phrase.filter (· ≠ ' ')).length
  · have hlen : left.length = 3 := by
      have := congrArg List.length hfold
      rw [List.length_map, List.length_map, List.length_take] at this
      omega
    rw [hphrase, List.take_left' hlen]
    exact hleft
  · rw [List.drop_eq_nil_of_le (by omega)] at hr
    cases hr
    rw [hphrase, List.append_nil]
    exact fun hm => hleft (List.mem_of_mem_take hm)

end Self

/-- A phrase matches its own pattern when no space is among its first three characters. -/
theorem isMatch_spaced_self_iff {phrase : String}
    (hwords : ∀ word ∈ pieces ' ' phrase.toList, word ≠ []) (hlen : 3 ≤ phrase.toList.length) :
    (atWordEdge (spacedLetters (phrase.toList.filter (· ≠ ' ')))).isMatch phrase ↔
      ' ' ∉ phrase.toList.take 3 := by
  rw [isMatch_atWordEdge_iff isLetter_of_mem_spacedLetters]
  constructor
  · rintro ⟨before, segment, after, htext, hs, _⟩
    exact space_notMem_take_of_spells hwords htext hs
  · intro h
    exact ⟨[], phrase.toList, [], by simp, spells_spacedLetters_self hwords hlen h, .inl rfl⟩

end ItemCatalog.Pattern
