import ItemCatalog.Proofs.Text.Word
import ItemCatalog.Text.Alphanumeric
import ItemCatalog.Text.LowerCase

/-!
# Laws of letters

Results:
1. `toNat_toLower`: in ASCII small letters stand 32 places behind the capital ones.
2. `forall_isLower`: what holds of the 26 small letters of ASCII holds of every small letter there.
3. `isBlank_toLower`: blanks have no case.
4. `lower_eq_self`: texts of characters that are their own small forms are left as they are, and in
   ASCII all but the capital letters are such characters (`lowerForms_eq_self`).
5. `length_lower`: only a dotted capital `I` has two small forms, and it is none
   (`toNat_ne_of_mem_lower`).
6. `isAlphanumeric_eq_false_of_isBlank`: no blank is a letter or a number.
-/

namespace ItemCatalog.Text

theorem toNat_toLower (c : Char) :
    c.toLower.toNat = if 65 ≤ c.toNat ∧ c.toNat ≤ 90 then c.toNat + 32 else c.toNat := by
  have hc : (c.val ≥ 'A'.val ∧ c.val ≤ 'Z'.val) ↔ 65 ≤ c.toNat ∧ c.toNat ≤ 90 := by
    simp only [ge_iff_le, UInt32.le_iff_toNat_le]
    exact Iff.rfl
  by_cases h : c.val ≥ 'A'.val ∧ c.val ≤ 'Z'.val
  · have hval : c.toLower.val = c.val + 32 := congrArg Char.val (dif_pos h)
    have hle : c.val.toNat ≤ 90 := (hc.mp h).2
    rw [if_pos (hc.mp h)]
    show c.toLower.val.toNat = c.val.toNat + 32
    rw [hval, UInt32.toNat_add, Nat.mod_eq_of_lt]
    · rfl
    · exact Nat.lt_of_le_of_lt (Nat.add_le_add_right hle 32) (by decide)
  · have hself : c.toLower = c := dif_neg h
    rw [if_neg fun hn => h (hc.mpr hn), hself]

theorem isLower_iff (c : Char) : c.isLower ↔ 97 ≤ c.toNat ∧ c.toNat ≤ 122 := by
  have hdef : c.isLower = (decide (c.val ≥ 'a'.val) && decide (c.val ≤ 'z'.val)) := rfl
  simp only [hdef, Bool.and_eq_true, decide_eq_true_eq, ge_iff_le, UInt32.le_iff_toNat_le]
  exact Iff.rfl

theorem isDigit_iff (c : Char) : c.isDigit ↔ 48 ≤ c.toNat ∧ c.toNat ≤ 57 := by
  have hdef : c.isDigit = (decide (c.val ≥ '0'.val) && decide (c.val ≤ '9'.val)) := rfl
  simp only [hdef, Bool.and_eq_true, decide_eq_true_eq, ge_iff_le, UInt32.le_iff_toNat_le]
  exact Iff.rfl

theorem eq_toNat_of_ofNat_eq {n : Nat} {c : Char} (hc : 0 < c.toNat) (h : Char.ofNat n = c) :
    n = c.toNat := by
  by_cases hn : n.isValidChar
  · have hcode : Char.ofNat n = Char.ofNatAux n hn := dif_pos hn
    rw [hcode] at h
    exact congrArg Char.toNat h
  · have hzero : Char.ofNat n = Char.ofNat 0 := dif_neg hn
    rw [hzero] at h
    exact absurd (congrArg Char.toNat h) (Nat.ne_of_lt hc)

/-- What holds of the 26 small letters holds of every small letter. -/
theorem forall_isLower {p : Char → Prop} (h : ∀ n < 26, p (Char.ofNat (97 + n))) {c : Char}
    (hc : c.isLower) : p c := by
  obtain ⟨hlo, hhi⟩ := (isLower_iff c).mp hc
  have hp := h (c.toNat - 97) (by omega)
  rwa [Nat.add_sub_cancel' hlo, Char.ofNat_toNat] at hp

theorem isBlank_toLower (c : Char) : isBlank c.toLower = isBlank c := by
  have h := toNat_toLower c
  split at h
  next hc =>
    have hb : isBlank c = false := by
      simp only [isBlank]
      grind
    have hl : isBlank c.toLower = false := by
      simp only [isBlank]
      grind
    rw [hb, hl]
  next => rw [Char.toNat_inj.mp h]

theorem lowerForms_eq_self {c : Char} (hascii : c.toNat < 128)
    (hcapital : ¬ (65 ≤ c.toNat ∧ c.toNat ≤ 90)) : lowerForms c = [c] := by
  have hlower := toNat_toLower c
  rw [if_neg hcapital] at hlower
  have hdotted : c.toNat ≠ 0x130 := Nat.ne_of_lt (Nat.lt_trans hascii (by decide))
  rw [lowerForms, if_neg hdotted, lowerChar, if_pos hascii, Char.toNat_inj.mp hlower]

theorem lower_eq_self {cs : List Char} (h : ∀ c ∈ cs, lowerForms c = [c]) : lower cs = cs :=
  flatMap_eq_self h

/-! ## How many small forms there are -/

theorem lowerRuns_image_ne :
    ∀ run ∈ lowerRuns, run.holds (0x130 - run.offset).toNat = false := by
  decide +kernel

/-- The dotted capital `I` is no small form. -/
theorem toNat_ne_of_mem_lowerForms {c d : Char} (h : d ∈ lowerForms c) : d.toNat ≠ 0x130 := by
  rw [lowerForms] at h
  split at h
  next =>
    simp only [List.mem_cons, List.not_mem_nil, or_false] at h
    rcases h with rfl | rfl <;> decide
  next hother =>
    obtain rfl := List.mem_singleton.mp h
    rw [lowerChar]
    split
    next hascii =>
      have hlower := toNat_toLower c
      split at hlower <;> omega
    next =>
      unfold CaseRun.image
      split
      next run hfind =>
        intro hdotted
        have hdotted : Char.ofNat (c.toNat + run.offset).toNat = Char.ofNat 0x130 :=
          Char.toNat_inj.mp hdotted
        have hcode : (c.toNat + run.offset).toNat = 0x130 :=
          eq_toNat_of_ofNat_eq (by decide) hdotted
        have hplace : c.toNat = (0x130 - run.offset).toNat := by omega
        have hholds := List.find?_some hfind
        rw [hplace, lowerRuns_image_ne run (List.mem_of_find?_eq_some hfind)] at hholds
        cases hholds
      next => exact hother

theorem toNat_ne_of_mem_lower {cs : List Char} {d : Char} (h : d ∈ lower cs) : d.toNat ≠ 0x130 := by
  obtain ⟨c, _, hd⟩ := List.mem_flatMap.mp h
  exact toNat_ne_of_mem_lowerForms hd

/-- Every other character has one small form. -/
theorem length_lower {cs : List Char} (h : ∀ c ∈ cs, c.toNat ≠ 0x130) :
    (lower cs).length = cs.length := by
  induction cs with
  | nil => rfl
  | cons c cs ih =>
    obtain ⟨hc, hcs⟩ := List.forall_mem_cons.mp h
    have hone : lowerForms c = [lowerChar c] := if_neg hc
    rw [lower, List.flatMap_cons, hone, ← lower, List.length_append, ih hcs, List.length_singleton,
      List.length_cons, Nat.add_comm]

/-! ## Blanks -/

/-- Stretches of codes without blank characters, the long ones first. -/
def solidStretches : List (Nat × Nat) :=
  [(0x3001, 0x10FFFF), (0xA1, 0x167F), (0x2060, 0x2FFF), (0x1681, 0x1FFF), (0x200B, 0x2027),
    (0x2030, 0x205E)]

theorem isBlank_eq_false_of_mem_solidStretches {c : Char} {stretch : Nat × Nat}
    (h : stretch ∈ solidStretches) (hfirst : stretch.1 ≤ c.toNat) (hlast : c.toNat ≤ stretch.2) :
    isBlank c = false := by
  simp only [solidStretches, List.mem_cons, List.not_mem_nil, or_false] at h
  simp only [isBlank, Bool.or_eq_false_iff, Bool.and_eq_false_iff, decide_eq_false_iff_not]
  rcases h with rfl | rfl | rfl | rfl | rfl | rfl <;> dsimp only at hfirst hlast <;> omega

/-- Each range of letters lies in such a stretch. -/
theorem exists_solidStretch : ∀ range ∈ alphanumericRanges, ∃ stretch ∈ solidStretches,
    stretch.1 ≤ range.1 ∧ range.2 ≤ stretch.2 := by
  decide +kernel

theorem isAlphanumeric_eq_false_of_isBlank {c : Char} (h : isBlank c) : isAlphanumeric c = false := by
  rw [isAlphanumeric]
  split
  next hascii =>
    have hsmall : ∀ n < 128, isBlank (Char.ofNat n) → (Char.ofNat n).isAlphanum = false := by
      decide +kernel
    have hc := hsmall c.toNat hascii
    rw [Char.ofNat_toNat] at hc
    exact hc h
  next =>
    refine List.any_eq_false.mpr fun range hrange hc => ?_
    obtain ⟨hfirst, hlast⟩ := Bool.and_eq_true_iff.mp hc
    obtain ⟨stretch, hstretch, hleft, hright⟩ := exists_solidStretch range hrange
    have hsolid := isBlank_eq_false_of_mem_solidStretches hstretch
      (Nat.le_trans hleft (of_decide_eq_true hfirst)) (Nat.le_trans (of_decide_eq_true hlast) hright)
    rw [h] at hsolid
    cases hsolid

end ItemCatalog.Text
