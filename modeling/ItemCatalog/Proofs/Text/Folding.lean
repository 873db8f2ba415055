import ItemCatalog.Proofs.Text.Letter
import ItemCatalog.Text.CaseFolding

/-!
# Laws of comparing without case

Results:
1. `foldChar_eq_self`: characters of ASCII stand for themselves, capital letters excepted.
2. `sameLetter_iff_eq`: a character of ASCII that is no letter is the same as nothing but itself, as is
   a space (`sameLetter_space_iff`).
3. `foldChar_eq_iff_toLower`: a small letter of ASCII other than `k` and `s` is the same as its capital
   and as nothing else.
-/

namespace ItemCatalog.Text

/-- Characters of ASCII that are no capital letters stand for themselves. -/
theorem foldChar_eq_self {c : Char} (hc : c.toNat < 128) (h : ¬ (65 ≤ c.toNat ∧ c.toNat ≤ 90)) :
    foldChar c = c := by
  have hlower := toNat_toLower c
  rw [if_neg h] at hlower
  rw [foldChar, if_pos hc]
  exact Char.toNat_inj.mp hlower

/-! ## Characters without case -/

/-- A character of ASCII that is no letter. -/
def IsUncased (c : Char) : Prop :=
  0 < c.toNat ∧ c.toNat < 128 ∧ ¬ (65 ≤ c.toNat ∧ c.toNat ≤ 90) ∧ ¬ (97 ≤ c.toNat ∧ c.toNat ≤ 122)

instance (c : Char) : Decidable (IsUncased c) :=
  inferInstanceAs (Decidable (_ ∧ _))

/-- In ASCII only `k` and `s` stand for letters of the table: the sign of the kelvin and the long `s`. -/
theorem foldRuns_image_cases :
    ∀ run ∈ foldRuns, 128 ≤ (run.first : Int) + run.offset ∨ run.first = run.last ∧
      ((run.first : Int) + run.offset = 107 ∨ (run.first : Int) + run.offset = 115) := by
  decide +kernel

theorem eq_of_image_foldRuns_eq {c d : Char} (hpos : 0 < c.toNat) (hascii : c.toNat < 128)
    (hk : c.toNat ≠ 107) (hs : c.toNat ≠ 115) (h : CaseRun.image foldRuns d = c) : d = c := by
  unfold CaseRun.image at h
  split at h
  next run hfind =>
    have hcode := eq_toNat_of_ofNat_eq hpos h
    have hholds := List.find?_some hfind
    simp only [CaseRun.holds, Bool.and_eq_true, decide_eq_true_eq] at hholds
    have himage := foldRuns_image_cases run (List.mem_of_find?_eq_some hfind)
    omega
  next => exact h

/-- A character of ASCII that is no letter stands for itself and for nothing else. -/
theorem foldChar_eq_iff {c d : Char} (hc : IsUncased c) : foldChar d = c ↔ d = c := by
  constructor
  · intro h
    unfold foldChar at h
    split at h
    · have hlower := toNat_toLower d
      rw [h] at hlower
      obtain ⟨_, _, _, hsmall⟩ := hc
      split at hlower
      · omega
      · exact (Char.toNat_inj.mp hlower).symm
    · obtain ⟨hpos, hascii, _, hsmall⟩ := hc
      exact eq_of_image_foldRuns_eq hpos hascii (by omega) (by omega) h
  · rintro rfl
    exact foldChar_eq_self hc.2.1 hc.2.2.1

theorem sameLetter_iff_eq {c d : Char} (hc : IsUncased c) : sameLetter c d ↔ d = c := by
  rw [sameLetter, (foldChar_eq_iff hc).mpr rfl, decide_eq_true_iff, eq_comm, foldChar_eq_iff hc]

theorem foldChar_of_isLower {c : Char} (h : c.isLower) : foldChar c = c := by
  have hcode := (isLower_iff c).mp h
  exact foldChar_eq_self (by omega) (by omega)

/-- The small letters of ASCII but `k` and `s` stand for themselves and for their capitals only. -/
theorem foldChar_eq_iff_toLower {c d : Char} (hc : c.isLower) (hk : c ≠ 'k') (hs : c ≠ 's') :
    foldChar d = c ↔ d.toLower = c := by
  have hsmall := (isLower_iff c).mp hc
  unfold foldChar
  split
  next => exact Iff.rfl
  next hascii =>
    have hlower := toNat_toLower d
    rw [if_neg (by omega)] at hlower
    have hne : d ≠ c := by
      rintro rfl
      omega
    rw [Char.toNat_inj.mp hlower]
    refine ⟨fun h => ?_, fun h => absurd h hne⟩
    have hk' : c.toNat ≠ 107 := fun e => hk (Char.toNat_inj.mp e)
    have hs' : c.toNat ≠ 115 := fun e => hs (Char.toNat_inj.mp e)
    exact eq_of_image_foldRuns_eq (by omega) (by omega) hk' hs' h

/-- A word over such letters is written in letters of any case. -/
theorem map_foldChar_eq_iff_map_toLower {word letters : List Char}
    (h : ∀ c ∈ letters, c.isLower ∧ c ≠ 'k' ∧ c ≠ 's') :
    word.map foldChar = letters ↔ word.map Char.toLower = letters := by
  induction letters generalizing word with
  | nil => rw [List.map_eq_nil_iff, List.map_eq_nil_iff]
  | cons c letters ih =>
    obtain ⟨hlower, hk, hs⟩ := h c List.mem_cons_self
    have hrest : ∀ d ∈ letters, d.isLower ∧ d ≠ 'k' ∧ d ≠ 's' := fun d hd =>
      h d (List.mem_cons_of_mem c hd)
    cases word with
    | nil => exact Iff.rfl
    | cons d word =>
      rw [List.map_cons, List.map_cons, List.cons.injEq, List.cons.injEq,
        foldChar_eq_iff_toLower hlower hk hs, ih hrest]

theorem foldChar_eq_space_iff {c : Char} : foldChar c = ' ' ↔ c = ' ' :=
  foldChar_eq_iff (by decide)

/-- A space is the same as nothing but a space. -/
theorem sameLetter_space_iff {c : Char} : sameLetter ' ' c ↔ c = ' ' :=
  sameLetter_iff_eq (by decide)

end ItemCatalog.Text
