import ItemCatalog.Proofs.Number.Written
import ItemCatalog.Proofs.Request.Parsing

/-!
# Requests composed of their parts

A name, a sign and the text of a level, with any blanks between them, make the request with these
parts: none of the characters of names, numbers and blanks is one of a sign, so the sign that was
written is the first one of the text.

Results:
1. `isLevel_toDouble`: rounding leaves levels in their range.
2. `ofCommand_of_mem`: each command is listed once.
3. `parse_composed`: the request that is made from its parts.
-/

namespace ItemCatalog

namespace LevelBound

/-! ## Levels -/

theorem representable_maxLevel : Double.Representable (90 * Double.one) := by
  have hone : Double.one = 2 ^ 1074 := by decide +kernel
  rw [hone]
  exact Double.representable_mul_two_pow (by decide) 1074

theorem isLevel_finite {negative : Bool} {magnitude : Nat} (h : magnitude ≤ 90 * Double.one)
    (hnegative : negative → magnitude = 0) : IsLevel (.finite negative magnitude) where
  isFinite := rfl
  nonneg := by
    rw [Double.place_finite]
    split
    next hminus =>
      rw [hnegative hminus]
      exact Int.le_refl 0
    next => exact Int.natCast_nonneg _
  le_maxLevel := by
    have hmax : ((90 * Double.one : Nat) : Int) = maxLevel.toNat * Double.one := Int.natCast_mul _ _
    rw [Double.place_finite, ← hmax]
    split <;> omega

/-- Rounding leaves levels in their range. -/
theorem isLevel_toDouble {number : DecimalText} (hlow : 0 ≤ number.value)
    (hhigh : number.value ≤ 90) : IsLevel number.toDouble := by
  have hlimit : 90 * Double.one < Double.limit := by decide +kernel
  rw [DecimalText.value] at hlow hhigh
  rw [DecimalText.toDouble]
  cases hminus : isMinus number.sign with
  | true =>
    have hzero : number.magnitude = 0 := by
      rw [hminus, if_pos rfl] at hlow
      have hcast : (number.magnitude : ℚ) ≤ 0 := neg_nonneg.mp hlow
      exact le_antisymm (by exact_mod_cast hcast) zero_le
    rw [hzero, Double.nearest_of_lt (by rw [zero_mul]; exact zero_lt_one)]
    exact isLevel_finite (Nat.zero_le _) fun _ => rfl
  | false =>
    have hle : number.magnitude ≤ (90 : Nat) := by
      rw [hminus, if_neg Bool.false_ne_true] at hhigh
      exact_mod_cast hhigh
    obtain ⟨magnitude, hmagnitude, hnearest⟩ :=
      Double.nearest_of_le representable_maxLevel hlimit hle
    rw [hnearest]
    exact isLevel_finite hmagnitude fun h => absurd h Bool.false_ne_true

/-! ## Characters -/

/-- What none of the characters of signs is keeps a character apart from them. -/
theorem notMem_signCharacters {p : Char → Bool} (hsigns : signCharacters.all (!p ·)) {c : Char}
    (h : p c) : c ∉ signCharacters := by
  intro hc
  have hnot := List.all_eq_true.mp hsigns c hc
  rw [h] at hnot
  cases hnot

theorem notMem_signCharacters_of_isBlank {c : Char} (h : Text.isBlank c) : c ∉ signCharacters :=
  notMem_signCharacters (by decide) h

theorem notMem_signCharacters_of_isNameCharacter {c : Char} (h : ItemRequest.isNameCharacter c) :
    c ∉ signCharacters :=
  notMem_signCharacters (by decide) h

theorem notMem_signCharacters_of_mem_chars {number : DecimalText} {c : Char}
    (h : c ∈ number.chars) : c ∉ signCharacters := by
  rcases number.mem_chars h with hdigit | hmark
  · exact notMem_signCharacters (by decide) hdigit
  · exact notMem_signCharacters (p := (· ∈ numberMarks)) (by decide) (decide_eq_true hmark)

end LevelBound

/-! ## Commands -/

/-- Every listed command is found under its name. -/
theorem Hints.lookup_of_mem {name : String} {hints : Hints} (h : (name, hints) ∈ Hints.commands) :
    Hints.commands.lookup name = some hints := by
  have hall : ∀ entry ∈ Hints.commands, Hints.commands.lookup entry.1 = some entry.2 := by
    decide +kernel
  exact hall _ h

theorem Hints.ofCommand_of_mem {command : String} {hints : Hints}
    (h : (String.ofList (Text.lowerInContext command.toList), hints) ∈ Hints.commands) :
    Hints.ofCommand command = .ok hints := by
  rw [Hints.ofCommand]
  simp only [Hints.lookup_of_mem h]

namespace ItemRequest

open LevelBound (signs Bounded)

/-! ## Requests -/

variable {command name sign : String} {hints : Hints} {op : Comparison} {number : DecimalText}
  {blanks₁ blanks₂ blanks₃ blanks₄ : List Char}

theorem bounded_composed (hname : ∀ c ∈ name.toList, isNameCharacter c) (hsign : (sign, op) ∈ signs)
    (hlow : 0 ≤ number.value) (hhigh : number.value ≤ 90)
    (h₁ : ∀ c ∈ blanks₁, Text.isBlank c) (h₂ : ∀ c ∈ blanks₂, Text.isBlank c)
    (h₃ : ∀ c ∈ blanks₃, Text.isBlank c) (h₄ : ∀ c ∈ blanks₄, Text.isBlank c) :
    Bounded (blanks₁ ++ name.toList ++ blanks₂ ++ (sign.toList ++ (blanks₃ ++ number.chars ++ blanks₄)))
      (blanks₁ ++ name.toList ++ blanks₂) (blanks₃ ++ number.chars ++ blanks₄)
      ⟨op, number.toDouble⟩ where
  first := by
    refine ⟨sign, LevelBound.firstSign_of_notMem hsign ?_ ?_⟩
    · intro c hc
      simp only [List.mem_append] at hc
      rcases hc with (hc | hc) | hc
      · exact LevelBound.notMem_signCharacters_of_isBlank (h₁ c hc)
      · exact LevelBound.notMem_signCharacters_of_isNameCharacter (hname c hc)
      · exact LevelBound.notMem_signCharacters_of_isBlank (h₂ c hc)
    · intro c hc
      simp only [List.mem_append] at hc
      rcases hc with (hc | hc) | hc
      · exact LevelBound.notMem_signCharacters_of_isBlank (h₃ c hc)
      · exact LevelBound.notMem_signCharacters_of_mem_chars hc
      · exact LevelBound.notMem_signCharacters_of_isBlank (h₄ c hc)
  reads := by
    rw [Text.trim_append_blanks h₄, Text.trim_blanks_append h₃, Text.trim_eq_self number.solid_chars,
      number.read?_chars]
  isLevel := by
    dsimp only
    exact LevelBound.isLevel_toDouble hlow hhigh

/-- A name, a sign and the text of a level make the request with the trimmed name and this bound,
whatever blanks stand around them. -/
theorem parse_composed
    (hcommand : (String.ofList (Text.lowerInContext command.toList), hints) ∈ Hints.commands)
    (hname : ∀ c ∈ name.toList, c.isAlphanum ∨ c ∈ nameMarks) (hsign : (sign, op) ∈ signs)
    (hlow : 0 ≤ number.value) (hhigh : number.value ≤ 90)
    (h₁ : ∀ c ∈ blanks₁, Text.isBlank c) (h₂ : ∀ c ∈ blanks₂, Text.isBlank c)
    (h₃ : ∀ c ∈ blanks₃, Text.isBlank c) (h₄ : ∀ c ∈ blanks₄, Text.isBlank c) :
    parse command (String.ofList
        (blanks₁ ++ name.toList ++ blanks₂ ++ (sign.toList ++ (blanks₃ ++ number.chars ++ blanks₄)))) =
      .ok { name := String.ofList (Text.trim name.toList)
            hints := { hints with level := some ⟨op, number.toDouble⟩ } } := by
  have hname : ∀ c ∈ name.toList, isNameCharacter c := fun c hc => isNameCharacter_iff.mpr (hname c hc)
  have hbounded := bounded_composed hname hsign hlow hhigh h₁ h₂ h₃ h₄
  refine parse_eq_ok_iff.mpr ⟨hints, Text.trim name.toList, _, Hints.ofCommand_of_mem hcommand,
    ?_, ?_, fun c hc => hname c (Text.mem_of_mem_trim hc), rfl⟩
  · -- The sign is not blank.
    rw [String.toList_ofList, Ne, Text.trim_eq_nil_iff]
    intro hblank
    obtain ⟨c, hc⟩ := List.exists_mem_of_ne_nil _ (LevelBound.toList_ne_nil_of_mem_signs hsign)
    refine LevelBound.notMem_signCharacters_of_isBlank (hblank c ?_)
      (LevelBound.mem_signCharacters hsign c hc)
    exact List.mem_append_right _ (List.mem_append_left _ hc)
  · rw [String.toList_ofList, LevelBound.split_eq_ok_some_iff]
    refine ⟨_, _, hbounded, ?_⟩
    rw [Text.trim_append_blanks h₂, Text.trim_blanks_append h₁]

/-- `+1.5e1`, which is 15. -/
def fifteen : DecimalText where
  sign := some false
  whole := ['1']
  fraction := some ['5']
  exponent := some ⟨'e', none, ['1'], .inl rfl, List.forall_mem_singleton.mpr rfl, by decide⟩
  isDigit_whole := List.forall_mem_singleton.mpr rfl
  isDigit_fraction := List.forall_mem_singleton.mpr rfl
  ne_nil := by decide

theorem value_fifteen : fifteen.value = 15 := by
  have hone : digitsValue ['1'] = 1 := by decide
  have hfive : digitsValue ['5'] = 5 := by decide
  norm_num [fifteen, DecimalText.value, DecimalText.magnitude, DecimalText.power, Decimal.value,
    ExponentText.value, isMinus, hone, hfive]

/-- The axes whose names are like a given one and that are of another level. -/
def axeNotFifteen : ItemRequest where
  name := "Blade of Awe"
  hints := { category := some .weapon, types := ["sword", "mace", "axe"],
             level := some ⟨.ne, fifteen.toDouble⟩ }

theorem parse_composed_axe :
    (0 ≤ fifteen.value ∧ fifteen.value ≤ 90) ∧
      parse "AXE" " Blade of Awe=/= +1.5e1 " = .ok axeNotFifteen := by
  have hcommand : (String.ofList (Text.lowerInContext "AXE".toList),
      { category := some .weapon, types := ["sword", "mace", "axe"] }) ∈ Hints.commands := by
    decide +kernel
  have hcharacters : "Blade of Awe".toList.all isNameCharacter := by decide
  have hname : ∀ c ∈ "Blade of Awe".toList, c.isAlphanum ∨ c ∈ nameMarks :=
    fun c hc => isNameCharacter_iff.mp (List.all_eq_true.mp hcharacters c hc)
  have hsign : ("=/=", Comparison.ne) ∈ signs := by decide
  have hlow : 0 ≤ fifteen.value := by norm_num [value_fifteen]
  have hhigh : fifteen.value ≤ 90 := by norm_num [value_fifteen]
  have hblank : ∀ c ∈ [' '], Text.isBlank c := List.forall_mem_singleton.mpr rfl
  have hnone : ∀ c ∈ [], Text.isBlank c := List.forall_mem_nil _
  have htext : " Blade of Awe=/= +1.5e1 " = String.ofList ([' '] ++ "Blade of Awe".toList ++ [] ++
      ("=/=".toList ++ ([' '] ++ fifteen.chars ++ [' ']))) := by decide +kernel
  have hparse := parse_composed hcommand hname hsign hlow hhigh hblank hnone hblank hblank
  have hrequest : String.ofList (Text.trim "Blade of Awe".toList) = "Blade of Awe" := by
    decide +kernel
  rw [← htext, hrequest] at hparse
  exact ⟨⟨hlow, hhigh⟩, hparse⟩

end ItemRequest

end ItemCatalog
