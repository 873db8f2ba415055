import Mathlib.Tactic.SplitIfs
import ItemCatalog.Json.Quoted

/-!
# Texts in quotation marks are read back

A character is written as itself, as a short escape or by its code, and each of these forms is passed
over as a whole when the closing mark is looked for.

Results:
1. `escape_escaped`: the forms in which characters are written.
2. `splitQuoted_flatMap_escaped`: the closing mark behind a written text is found.
3. `textToken_escaped`: a written text is read back.
-/

namespace ItemCatalog.Json

/-- The forms in which a character may stand between quotation marks. -/
inductive Escape (c : Char) : List Char → Prop
  | plain : c ≠ '"' → c ≠ '\\' → 32 ≤ c.toNat → Escape c [c]
  | short {e : Char} : e ≠ 'u' → shortEscape? e = some c → Escape c ['\\', e]
  | coded : c.toNat < 32 →
      Escape c ['\\', 'u', '0', '0', hexDigit (c.toNat / 16), hexDigit (c.toNat % 16)]

theorem escape_escaped (c : Char) : Escape c (escaped c) := by
  have hcode (n : Nat) (h : c.toNat = n) : some (Char.ofNat n) = some c := by
    rw [← h, Char.ofNat_toNat]
  rw [escaped]
  split_ifs with hquote hbackslash h8 h9 h10 h12 h13 hsmall
  · exact .short (by decide) (by rw [hquote]; rfl)
  · exact .short (by decide) (by rw [hbackslash]; rfl)
  · exact .short (by decide) (hcode 8 h8)
  · exact .short (by decide) (hcode 9 h9)
  · exact .short (by decide) (hcode 10 h10)
  · exact .short (by decide) (hcode 12 h12)
  · exact .short (by decide) (hcode 13 h13)
  · exact .coded hsmall
  · exact .plain hquote hbackslash (Nat.le_of_not_lt hsmall)

/-! ## The closing mark -/

theorem length_splitQuoted (cs : List Char) :
    (splitQuoted cs).1.length + (splitQuoted cs).2.length = cs.length := by
  fun_induction splitQuoted cs with
  | case1 => rfl
  | case2 rest => simp
  | case3 c rest body tail hsplit ih =>
    rw [hsplit] at ih
    simp only [List.length_cons] at ih ⊢
    omega
  | case4 c rest _ _ body tail hsplit ih =>
    rw [hsplit] at ih
    simp only [List.length_cons] at ih ⊢
    omega

variable {c : Char} {written : List Char}

theorem hexDigit_ne {n : Nat} (h : n < 16) : hexDigit n ≠ '"' ∧ hexDigit n ≠ '\\' := by
  have hall : ∀ n < 16, hexDigit n ≠ '"' ∧ hexDigit n ≠ '\\' := by decide
  exact hall n h

/-- No form of a character holds the closing mark. -/
theorem Escape.splitQuoted_append (h : Escape c written) (rest : List Char) :
    splitQuoted (written ++ rest) = (written ++ (splitQuoted rest).1, (splitQuoted rest).2) := by
  cases h with
  | plain _ hbackslash => simp [splitQuoted, hbackslash]
  | short => simp [splitQuoted]
  | coded hsmall =>
    have hhigh := hexDigit_ne (n := c.toNat / 16) (by omega)
    have hlow := hexDigit_ne (n := c.toNat % 16) (by omega)
    simp [splitQuoted, hhigh, hlow]

theorem splitQuoted_flatMap_escaped (cs rest : List Char) :
    splitQuoted (cs.flatMap escaped ++ '"' :: rest) = (cs.flatMap escaped, '"' :: rest) := by
  induction cs with
  | nil => rfl
  | cons c cs ih =>
    rw [List.flatMap_cons, List.append_assoc, (escape_escaped c).splitQuoted_append, ih]

/-! ## Reading -/

theorem hexValue?_hexDigit {n : Nat} (h : n < 16) : hexValue? (hexDigit n) = some n := by
  have hall : ∀ n < 16, hexValue? (hexDigit n) = some n := by decide
  exact hall n h

theorem fourDigits_escape (ahead : Nat) (h : c.toNat < 32) (rest : List Char) :
    fourDigits ahead ('0' :: '0' :: hexDigit (c.toNat / 16) :: hexDigit (c.toNat % 16) :: rest) =
      .ok (c.toNat, rest) := by
  have hzero : hexValue? '0' = some 0 := by decide
  have hhigh := hexValue?_hexDigit (n := c.toNat / 16) (by omega)
  have hlow := hexValue?_hexDigit (n := c.toNat % 16) (by omega)
  have hcode : ((0 * 16 + 0) * 16 + c.toNat / 16) * 16 + c.toNat % 16 = c.toNat := by omega
  simp only [fourDigits, hzero, hhigh, hlow, hcode]

theorem codedCharacter_escape (ahead : Nat) (h : c.toNat < 32) (rest : List Char) :
    codedCharacter ahead ('0' :: '0' :: hexDigit (c.toNat / 16) :: hexDigit (c.toNat % 16) :: rest) =
      .ok (c, rest) := by
  have hlow : isLowHalf c.toNat = false := by
    rw [isLowHalf, decide_eq_false (by omega), Bool.false_and]
  have hhigh : isHighHalf c.toNat = false := by
    rw [isHighHalf, decide_eq_false (by omega), Bool.false_and]
  rw [codedCharacter, fourDigits_escape ahead h]
  simp [bind, Except.bind, pure, Except.pure, hlow, hhigh]

/-- Every form of a character is read as the character. -/
theorem Escape.unescapeWith_append (h : Escape c written) (ahead fuel : Nat) (rest : List Char) :
    unescapeWith ahead (fuel + 1) (written ++ rest) =
      (do return c :: (← unescapeWith ahead fuel rest)) := by
  cases h with
  | plain _ _ hlarge =>
    have hprintable : ¬ c.toNat < 32 := Nat.not_lt.mpr hlarge
    simp [unescapeWith, hprintable]
  | short _ he => simp [unescapeWith, he]
  | coded hsmall =>
    simp only [List.cons_append, List.nil_append, unescapeWith, codedCharacter_escape ahead hsmall]
    rfl

theorem unescapeWith_flatMap_escaped {ahead : Nat} (h : ahead ≠ 0) {cs : List Char} {fuel : Nat}
    (hfuel : cs.length ≤ fuel) : unescapeWith ahead fuel (cs.flatMap escaped) = .ok cs := by
  induction cs generalizing fuel with
  | nil =>
    rw [List.flatMap_nil, unescapeWith, if_neg h]
  | cons c cs ih =>
    cases fuel with
    | zero => cases hfuel
    | succ fuel =>
      rw [List.flatMap_cons, (escape_escaped c).unescapeWith_append, ih (Nat.le_of_succ_le_succ hfuel)]
      rfl

theorem Escape.length_pos (h : Escape c written) : 0 < written.length := by
  cases h <;> exact Nat.succ_pos _

theorem length_le_flatMap_escaped (cs : List Char) : cs.length ≤ (cs.flatMap escaped).length := by
  induction cs with
  | nil => exact Nat.le_refl 0
  | cons c cs ih =>
    have hpos := (escape_escaped c).length_pos
    rw [List.flatMap_cons, List.length_append, List.length_cons]
    omega

theorem bytesAhead_cons_ne_zero (c : Char) (rest : List Char) : bytesAhead (c :: rest) ≠ 0 := by
  have hpos := c.utf8Size_pos
  rw [bytesAhead, List.take_succ_cons, List.map_cons, List.foldr_cons]
  omega

theorem textToken_escaped (cs rest : List Char) :
    textToken (cs.flatMap escaped) ('"' :: rest) = .text (.ok cs) := by
  have hread := unescapeWith_flatMap_escaped (bytesAhead_cons_ne_zero '"' rest)
    (length_le_flatMap_escaped cs)
  rw [textToken, unescape, hread]

end ItemCatalog.Json
