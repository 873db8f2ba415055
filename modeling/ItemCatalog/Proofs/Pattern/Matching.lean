import ItemCatalog.Pattern.Name
import ItemCatalog.Proofs.Text.Folding

/-!
# What patterns match

`Spells` is the set of texts that a sequence of letters stands for, with those that may be missing. A
sequence fits the beginning of a text when the text begins with one of them.

Results:
1. `fits_append_iff`: a sequence fits when the text begins with one of its spellings.
2. `occurs_iff`: it occurs when it fits behind some beginning of the text.
3. `isMatch_atWordEdge_iff`: matching at the edge of a word.
-/

namespace ItemCatalog.Pattern

open Text

/-! ## Definitions -/

/-- The texts that a sequence of letters stands for, up to case. -/
inductive Spells : List Atom → List Char → Prop
  | nil : Spells [] []
  | letter {c d : Char} {atoms : List Atom} {ds : List Char} :
      sameLetter c d → Spells atoms ds → Spells (.letter c :: atoms) (d :: ds)
  | skip {c : Char} {atoms : List Atom} {ds : List Char} :
      Spells atoms ds → Spells (.optional c :: atoms) ds
  | optional {c d : Char} {atoms : List Atom} {ds : List Char} :
      sameLetter c d → Spells atoms ds → Spells (.optional c :: atoms) (d :: ds)

/-- Whether an atom is a letter, one that may be missing included. -/
def Atom.isLetter : Atom → Bool
  | letter _ | optional _ => true
  | start | finish => false

/-! ## Fitting the beginning of a text -/

@[simp] theorem fits_nil (atStart : Bool) (text : List Char) : fits atStart [] text = true := by
  rw [fits]

@[simp] theorem fits_finish (atStart : Bool) (text : List Char) :
    fits atStart [.finish] text = text.isEmpty := by
  rw [fits, fits_nil, Bool.and_true]

/-- Without a mark for the start it makes no difference what stands before the text. -/
theorem fits_of_start_notMem {atoms : List Atom} (h : .start ∉ atoms) (atStart : Bool)
    (text : List Char) : fits atStart atoms text = fits false atoms text := by
  induction atoms generalizing text with
  | nil => rw [fits_nil, fits_nil]
  | cons atom atoms ih =>
    have hrest : .start ∉ atoms := fun hm => h (List.mem_cons_of_mem _ hm)
    cases atom with
    | letter c => cases text <;> simp only [fits]
    | optional c =>
      cases text with
      | nil => simp only [fits, ih hrest]
      | cons d rest => simp only [fits, ih hrest (d :: rest)]
    | start => exact absurd List.mem_cons_self h
    | finish => simp only [fits, ih hrest text]

theorem fits_letter_iff (c : Char) (atoms : List Atom) (atStart : Bool) (text : List Char) :
    fits atStart (.letter c :: atoms) text ↔
      ∃ d rest, text = d :: rest ∧ sameLetter c d ∧ fits false atoms rest := by
  cases text with
  | nil => simp [fits]
  | cons d rest =>
    rw [fits, Bool.and_eq_true]
    constructor
    · rintro ⟨hd, h⟩
      exact ⟨d, rest, rfl, hd, h⟩
    · rintro ⟨_, _, htext, hd, h⟩
      obtain ⟨rfl, rfl⟩ := List.cons.inj htext
      exact ⟨hd, h⟩

/-- A letter that may be missing is left out, or it is there. -/
theorem fits_optional_iff (c : Char) (atoms : List Atom) (atStart : Bool) (text : List Char) :
    fits atStart (.optional c :: atoms) text ↔
      fits atStart atoms text ∨ fits atStart (.letter c :: atoms) text := by
  cases text with
  | nil => simp [fits]
  | cons d rest => rw [fits, fits, Bool.or_eq_true]

/-- A sequence of letters fits when the text begins with one of its spellings and the rest goes on
with what follows. -/
theorem fits_append_iff {atoms more : List Atom} (hletters : ∀ a ∈ atoms, a.isLetter)
    (hmore : .start ∉ more) (atStart : Bool) (text : List Char) :
    fits atStart (atoms ++ more) text ↔
      ∃ segment rest, text = segment ++ rest ∧ Spells atoms segment ∧ fits false more rest := by
  induction atoms generalizing atStart text with
  | nil =>
    rw [List.nil_append, fits_of_start_notMem hmore]
    constructor
    · exact fun h => ⟨[], text, rfl, .nil, h⟩
    · rintro ⟨segment, rest, rfl, hs, h⟩
      cases hs
      exact h
  | cons atom atoms ih =>
    have ih := ih fun a ha => hletters a (List.mem_cons_of_mem _ ha)
    rw [List.cons_append]
    cases atom with
    | letter c =>
      rw [fits_letter_iff]
      constructor
      · rintro ⟨d, rest, rfl, hd, h⟩
        obtain ⟨segment, after, rfl, hs, hafter⟩ := (ih _ _).mp h
        exact ⟨d :: segment, after, rfl, .letter hd hs, hafter⟩
      · rintro ⟨_, rest, rfl, hs, h⟩
        cases hs with
        | letter hd hs => exact ⟨_, _, rfl, hd, (ih _ _).mpr ⟨_, rest, rfl, hs, h⟩⟩
    | optional c =>
      rw [fits_optional_iff, fits_letter_iff]
      constructor
      · rintro (h | ⟨d, rest, rfl, hd, h⟩)
        · obtain ⟨segment, after, rfl, hs, hafter⟩ := (ih _ _).mp h
          exact ⟨segment, after, rfl, .skip hs, hafter⟩
        · obtain ⟨segment, after, rfl, hs, hafter⟩ := (ih _ _).mp h
          exact ⟨d :: segment, after, rfl, .optional hd hs, hafter⟩
      · rintro ⟨segment, rest, rfl, hs, h⟩
        cases hs with
        | skip hs => exact .inl ((ih _ _).mpr ⟨segment, rest, rfl, hs, h⟩)
        | optional hd hs => exact .inr ⟨_, _, rfl, hd, (ih _ _).mpr ⟨_, rest, rfl, hs, h⟩⟩
    | start | finish => exact absurd (hletters _ List.mem_cons_self) (by decide)

/-! ## Occurring in a text -/

/-- A sequence occurs when it fits behind some beginning of the text. -/
theorem occurs_iff (atoms : List Atom) (atStart : Bool) (text : List Char) :
    occurs atoms atStart text ↔
      ∃ before rest, text = before ++ rest ∧ fits (atStart && before.isEmpty) atoms rest := by
  induction text generalizing atStart with
  | nil =>
    rw [occurs]
    constructor
    · exact fun h => ⟨[], [], rfl, by simpa using h⟩
    · rintro ⟨before, rest, htext, h⟩
      obtain ⟨rfl, rfl⟩ := List.append_eq_nil_iff.mp htext.symm
      simpa using h
  | cons c text ih =>
    rw [occurs, Bool.or_eq_true, ih]
    constructor
    · rintro (h | ⟨before, rest, rfl, h⟩)
      · exact ⟨[], c :: text, rfl, by simpa using h⟩
      · exact ⟨c :: before, rest, rfl, by simpa using h⟩
    · rintro ⟨before, rest, htext, h⟩
      cases before with
      | nil =>
        obtain rfl : c :: text = rest := htext
        exact .inl (by simpa using h)
      | cons b before =>
        obtain ⟨rfl, rfl⟩ := List.cons.inj htext
        exact .inr ⟨before, rest, rfl, by simpa using h⟩

/-- A sequence of letters occurs where one of its spellings stands in front of what follows. -/
theorem occurs_append_iff {atoms more : List Atom} (hletters : ∀ a ∈ atoms, a.isLetter)
    (hmore : .start ∉ more) (atStart : Bool) (text : List Char) :
    occurs (atoms ++ more) atStart text ↔
      ∃ before segment after, text = before ++ (segment ++ after) ∧ Spells atoms segment ∧
        fits false more after := by
  rw [occurs_iff]
  constructor
  · rintro ⟨before, rest, rfl, h⟩
    obtain ⟨segment, after, rfl, hs, hafter⟩ := (fits_append_iff hletters hmore _ _).mp h
    exact ⟨before, segment, after, rfl, hs, hafter⟩
  · rintro ⟨before, segment, after, rfl, hs, hafter⟩
    exact ⟨before, segment ++ after, rfl,
      (fits_append_iff hletters hmore _ _).mpr ⟨segment, after, rfl, hs, hafter⟩⟩

/-- Behind the mark for the start nothing but the whole text is tried. -/
theorem occurs_start (atoms : List Atom) (text : List Char) :
    occurs (.start :: atoms) true text ↔ fits true atoms text := by
  rw [occurs_iff]
  constructor
  · rintro ⟨before, rest, rfl, h⟩
    rw [fits, Bool.and_eq_true] at h
    obtain rfl : before = [] := by simpa using h.1
    exact h.2
  · intro h
    refine ⟨[], text, rfl, ?_⟩
    rw [fits, Bool.and_eq_true]
    exact ⟨rfl, h⟩

/-- At the start of a text stands one of the spellings. -/
theorem occurs_start_iff {atoms : List Atom} (hletters : ∀ a ∈ atoms, a.isLetter)
    (text : List Char) :
    occurs (.start :: atoms) true text ↔
      ∃ segment after, text = segment ++ after ∧ Spells atoms segment := by
  have hfits := fits_append_iff hletters List.not_mem_nil true text
  rw [occurs_start]
  simpa using hfits

/-- Between the marks for the start and the end stands one of the spellings. -/
theorem occurs_whole_iff {atoms : List Atom} (hletters : ∀ a ∈ atoms, a.isLetter)
    (text : List Char) :
    occurs (.start :: (atoms ++ [.finish])) true text ↔ Spells atoms text := by
  have hfinish : Atom.start ∉ [Atom.finish] := by decide
  rw [occurs_start, fits_append_iff hletters hfinish]
  constructor
  · rintro ⟨segment, rest, rfl, hs, hrest⟩
    rw [fits_finish, List.isEmpty_iff] at hrest
    rwa [hrest, List.append_nil]
  · exact fun hs => ⟨text, [], (List.append_nil text).symm, hs, by rw [fits_finish]; rfl⟩

theorem fits_space_iff (text : List Char) : fits false [.letter ' '] text ↔ text.head? = some ' ' := by
  cases text with
  | nil => simp [fits]
  | cons d rest => rw [fits, fits_nil, Bool.and_true, sameLetter_space_iff, List.head?_cons,
      Option.some.injEq]

theorem spells_space_iff {atoms : List Atom} {text : List Char} :
    Spells (.letter ' ' :: atoms) text ↔ ∃ rest, text = ' ' :: rest ∧ Spells atoms rest := by
  constructor
  · intro h
    cases h with
    | @letter _ d _ ds hd hs => exact ⟨ds, by rw [sameLetter_space_iff.mp hd], hs⟩
  · rintro ⟨rest, rfl, hs⟩
    exact .letter (sameLetter_space_iff.mpr rfl) hs

/-! ## Matching at the edge of a word -/

/-- Something at the edge of a word is a spelling at an end of the text or next to a space. -/
theorem isMatch_atWordEdge_iff {atoms : List Atom} (hletters : ∀ a ∈ atoms, a.isLetter)
    (text : String) :
    (atWordEdge atoms).isMatch text ↔
      ∃ before segment after, text.toList = before ++ (segment ++ after) ∧ Spells atoms segment ∧
        (before = [] ∨ after = [] ∨ before.getLast? = some ' ' ∨ after.head? = some ' ') := by
  have hbehind : ∀ a ∈ Atom.letter ' ' :: atoms, a.isLetter := by
    intro a ha
    rcases List.mem_cons.mp ha with rfl | ha
    · rfl
    · exact hletters a ha
  have hspace := occurs_append_iff hbehind List.not_mem_nil true text.toList
  rw [List.append_nil] at hspace
  have hfinish : Atom.start ∉ [Atom.finish] := by decide
  have hletter : Atom.start ∉ [Atom.letter ' '] := by decide
  simp only [isMatch, atWordEdge, List.any_cons, List.any_nil, Bool.or_false, Bool.or_eq_true,
    occurs_start_iff hletters, occurs_append_iff hletters hfinish, hspace,
    occurs_append_iff hletters hletter, fits_finish, fits_space_iff, spells_space_iff, fits_nil]
  constructor
  · rintro (⟨segment, after, htext, hs⟩ | ⟨before, segment, after, htext, hs, hafter⟩ |
      ⟨before, _, after, htext, ⟨segment, rfl, hs⟩, _⟩ |
      ⟨before, segment, after, htext, hs, hafter⟩)
    · exact ⟨[], segment, after, htext, hs, .inl rfl⟩
    · exact ⟨before, segment, after, htext, hs, .inr (.inl (List.isEmpty_iff.mp hafter))⟩
    · refine ⟨before ++ [' '], segment, after, ?_, hs, .inr (.inr (.inl ?_))⟩
      · rw [htext, List.append_assoc]
        rfl
      · exact List.getLast?_concat
    · exact ⟨before, segment, after, htext, hs, .inr (.inr (.inr hafter))⟩
  · rintro ⟨before, segment, after, htext, hs, rfl | rfl | hbefore | hafter⟩
    · exact .inl ⟨segment, after, htext, hs⟩
    · exact .inr (.inl ⟨before, segment, [], htext, hs, rfl⟩)
    · obtain ⟨front, rfl⟩ := List.getLast?_eq_some_iff.mp hbefore
      refine .inr (.inr (.inl ⟨front, ' ' :: segment, after, ?_, ⟨segment, rfl, hs⟩, trivial⟩))
      rw [htext, List.append_assoc]
      rfl
    · exact .inr (.inr (.inr ⟨before, segment, after, htext, hs, hafter⟩))

/-- A word of its own stands behind a space, and in front of another or at the end of the text. -/
theorem isMatch_standalone_iff (word text : String) :
    (standalone word).isMatch text ↔
      ∃ before segment after, text.toList = before ++ ' ' :: (segment ++ after) ∧
        Spells (word.toList.map .letter) segment ∧ (after = [] ∨ after.head? = some ' ') := by
  have hletters : ∀ a ∈ Atom.letter ' ' :: word.toList.map .letter, a.isLetter := by
    intro a ha
    rcases List.mem_cons.mp ha with rfl | ha
    · rfl
    · obtain ⟨c, _, rfl⟩ := List.mem_map.mp ha
      rfl
  have hfinish : Atom.start ∉ [Atom.finish] := by decide
  have hletter : Atom.start ∉ [Atom.letter ' '] := by decide
  simp only [isMatch, standalone, List.any_cons, List.any_nil, Bool.or_false, Bool.or_eq_true,
    occurs_append_iff hletters hfinish, occurs_append_iff hletters hletter, fits_finish,
    fits_space_iff, spells_space_iff]
  constructor
  · rintro (⟨before, _, after, htext, ⟨segment, rfl, hs⟩, hafter⟩ |
      ⟨before, _, after, htext, ⟨segment, rfl, hs⟩, hafter⟩)
    · exact ⟨before, segment, after, htext, hs, .inr hafter⟩
    · exact ⟨before, segment, after, htext, hs, .inl (List.isEmpty_iff.mp hafter)⟩
  · rintro ⟨before, segment, after, htext, hs, rfl | hafter⟩
    · exact .inr ⟨before, ' ' :: segment, [], htext, ⟨segment, rfl, hs⟩, rfl⟩
    · exact .inl ⟨before, ' ' :: segment, after, htext, ⟨segment, rfl, hs⟩, hafter⟩

end ItemCatalog.Pattern
