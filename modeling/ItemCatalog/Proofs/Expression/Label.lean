import Mathlib.Data.Set.Function
import ItemCatalog.Expression.Label
import ItemCatalog.Proofs.Expression.Scanning

/-!
# Labels of stats

A stat is shown by its caption. In small letters a caption is a name again: the name itself for a
bonus, and the name with ` res` behind it for a resistance.

Results:
1. `capitalize_toLower`: capitals are all that `Caption.capitalize` adds to a name.
2. `shownName_cases`, `isOperandName_shownName`: which name a caption spells.
3. `shownName_injOn`: captions tell names apart.
-/

namespace ItemCatalog.Expression

open Token

/-- A text in small letters. -/
def inSmallLetters (text : String) : String :=
  String.ofList (text.toList.map Char.toLower)

/-- The name that the label of a stat spells. -/
def shownName (name : String) : String :=
  inSmallLetters (operandLabel name)

@[simp] theorem toList_inSmallLetters (text : String) :
    (inSmallLetters text).toList = text.toList.map Char.toLower :=
  String.toList_ofList

/-! ## Captions of names -/

theorem startsName_iff {c : Char} : startsName c ↔ c.isLower ∨ c = '?' := by
  simp [startsName]

theorem toLower_of_startsName {c : Char} (h : startsName c) : c.toLower = c := by
  rcases startsName_iff.mp h with h | rfl
  · exact Text.forall_isLower (p := fun c => c.toLower = c) (by decide) h
  · decide

theorem toLower_toUpper_of_startsName {c : Char} (h : startsName c) : c.toUpper.toLower = c := by
  rcases startsName_iff.mp h with h | rfl
  · exact Text.forall_isLower (p := fun c => c.toUpper.toLower = c) (by decide) h
  · decide

theorem upperForms_of_startsName {c : Char} (h : startsName c) :
    Text.upperForms c = [c.toUpper] := by
  have hc : c.toNat < 128 := by
    rcases startsName_iff.mp h with h | rfl
    · have := (Text.isLower_iff c).mp h
      omega
    · decide
  rw [Text.upperForms, if_pos hc]

theorem solid_of_isOperandName {name : String} (h : IsOperandName name) :
    Text.Solid name.toList where
  ne_nil := h.toList_ne_nil
  head c hc := isBlank_of_startsName (h.startsName_head hc)
  last c hc := isBlank_of_startsName (h.startsName_last hc)
where
  /-- Names start with a character that is not blank. -/
  isBlank_of_startsName {c : Char} (h : startsName c) : Text.isBlank c = false := by
    rcases startsName_iff.mp h with h | rfl
    · exact Text.forall_isLower (p := fun c => Text.isBlank c = false) (by decide) h
    · decide

theorem capitalizeWord_toLower {word : List Char} (h : ∀ c ∈ word, startsName c) :
    (Caption.capitalizeWord word).map Char.toLower = word := by
  cases word with
  | nil => rfl
  | cons c rest =>
    have hrest : rest.map Char.toLower = rest.map id :=
      List.map_congr_left fun d hd => toLower_of_startsName (h d (List.mem_cons_of_mem _ hd))
    have hc := h c List.mem_cons_self
    rw [Caption.capitalizeWord, upperForms_of_startsName hc, List.singleton_append, List.map_cons,
      toLower_toUpper_of_startsName hc, hrest, List.map_id]

/-- Capitals are all that a caption adds to a name. -/
theorem capitalize_toLower {name : String} (h : IsOperandName name) :
    inSmallLetters (Caption.capitalize name) = name := by
  rw [← String.toList_inj, toList_inSmallLetters, Caption.capitalize]
  split
  · rw [String.toList_ofList, List.map_map]
    have hcs : name.toList.map (Char.toLower ∘ Char.toUpper) = name.toList.map id := by
      refine List.map_congr_left fun c hc => ?_
      by_cases hs : c = ' '
      · subst hs
        decide
      · exact toLower_toUpper_of_startsName (h.startsName_of_mem hc hs)
    rw [hcs, List.map_id]
  · have htrim := Text.trim_eq_self (solid_of_isOperandName h)
    rw [htrim, if_neg (by simpa using h.toList_ne_nil), String.toList_ofList, Text.map_intercalate,
      List.map_map]
    have hwords : (Text.pieces ' ' name.toList).map
        (List.map Char.toLower ∘ Caption.capitalizeWord) =
        (Text.pieces ' ' name.toList).map id :=
      List.map_congr_left fun word hw => capitalizeWord_toLower (h word hw).2
    rw [hwords, List.map_id]
    exact Text.intercalate_pieces ' ' name.toList

/-! ## The names that labels spell -/

theorem isOperandName_append_res {name : String} (h : IsOperandName name) :
    IsOperandName (name ++ " res") := by
  have hlist : (name ++ " res").toList = name.toList ++ ' ' :: ['r', 'e', 's'] := by
    rw [String.toList_append]
    rfl
  have hres : ' ' ∉ ['r', 'e', 's'] := by decide
  intro word hw
  rw [hlist, Text.pieces_append_cons, Text.pieces_of_notMem hres] at hw
  rcases List.mem_append.mp hw with hw | hw
  · exact h word hw
  · obtain rfl := List.mem_singleton.mp hw
    exact ⟨List.cons_ne_nil _ _, List.all_eq_true.mp rfl⟩

theorem isOperandName_avg_damage : IsOperandName "avg damage" := by decide

/-- The mean damage and the resistances are shown by other names, the bonuses by their own. -/
theorem shownName_cases {name : String} (h : IsOperandName name) :
    (name = "damage" ∧ shownName name = "avg damage") ∨
      (isBonus name ∧ shownName name = name) ∨ shownName name = name ++ " res" := by
  by_cases hd : name = "damage"
  · refine .inl ⟨hd, ?_⟩
    rw [shownName, operandLabel, if_pos hd]
    exact capitalize_toLower isOperandName_avg_damage
  · by_cases hr : isResist name
    · refine .inr (.inr ?_)
      rw [shownName, operandLabel, if_neg hd, if_pos hr]
      exact capitalize_toLower (isOperandName_append_res h)
    · refine .inr (.inl ⟨by simpa [isResist, hd] using hr, ?_⟩)
      rw [shownName, operandLabel, if_neg hd, if_neg hr]
      exact capitalize_toLower h

theorem isOperandName_shownName {name : String} (h : IsOperandName name) :
    IsOperandName (shownName name) := by
  rcases shownName_cases h with ⟨_, e⟩ | ⟨_, e⟩ | e <;> rw [e]
  · exact isOperandName_avg_damage
  · exact h
  · exact isOperandName_append_res h

/-! ## Labels tell names apart -/

/-- Neither a bonus nor the mean damage is shown like a resistance. -/
theorem append_res_ne {name shown : String} (h : shown = "avg damage" ∨ isBonus shown) :
    name ++ " res" ≠ shown := by
  have hall : ∀ b ∈ "avg damage" :: bonusNames, ¬ " res".toList <:+ b.toList := by decide
  have hmem : shown ∈ "avg damage" :: bonusNames := by
    rcases h with rfl | h
    · exact List.mem_cons_self
    · exact List.mem_cons_of_mem _ (by simpa [isBonus] using h)
  rintro rfl
  refine hall _ hmem ?_
  rw [String.toList_append]
  exact List.suffix_append _ _

theorem avg_damage_ne {name : String} (h : isBonus name) : "avg damage" ≠ name := by
  rintro rfl
  exact absurd h (by decide)

/-- Labels tell names apart. -/
theorem shownName_injOn : Set.InjOn shownName {name | IsOperandName name} := by
  intro a ha b hb h
  rcases shownName_cases ha with ⟨hda, ea⟩ | ⟨hba, ea⟩ | ea <;>
    rcases shownName_cases hb with ⟨hdb, eb⟩ | ⟨hbb, eb⟩ | eb <;> rw [ea, eb] at h
  · rw [hda, hdb]
  · exact absurd h (avg_damage_ne hbb)
  · exact absurd h.symm (append_res_ne (.inl rfl))
  · exact absurd h.symm (avg_damage_ne hba)
  · exact h
  · exact absurd h.symm (append_res_ne (.inr hba))
  · exact absurd h (append_res_ne (.inl rfl))
  · exact absurd h (append_res_ne (.inr hbb))
  · exact (String.append_left_inj " res").mp h

end ItemCatalog.Expression
