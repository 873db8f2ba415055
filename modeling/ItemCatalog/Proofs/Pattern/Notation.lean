import Mathlib.Data.List.Basic
import ItemCatalog.Pattern.Basic
import ItemCatalog.Proofs.Text.Word

/-!
# Reading the notation of patterns

`read?` reads the notation of regular expressions, as far as patterns use it: choices between groups
`(?:…)`, the marks `^`, `$` and `?`, and a backslash in front of a character that has a meaning of its
own. What `Pattern.source` writes is read as the pattern it was written for, so a character never
takes on a meaning that it has in the notation, whatever stands around it.

Results:
1. `signs_literal_append`: what `literal` writes is read as the character itself.
2. `readAtoms_signs`: the atoms of a group are read one by one.
3. `read?_source`: patterns are read back.
-/

namespace ItemCatalog.Pattern

/-! ## Definitions -/

/-- A sign of the notation. -/
inductive Sign
  /-- A character that stands for itself. -/
  | literal (c : Char)
  | opening
  | closing
  | choice
  | question
  | start
  | finish
  /-- A character with a meaning that patterns do not use. -/
  | other
  deriving DecidableEq, Repr

/-- What a character means by itself. -/
def Sign.ofChar (c : Char) : Sign :=
  if c = '(' then opening
  else if c = ')' then closing
  else if c = '|' then choice
  else if c = '?' then question
  else if c = '^' then start
  else if c = '$' then finish
  else if isMeta c then other
  else literal c

/-- The signs of a text. A backslash takes its meaning from the character behind it. -/
def signs : List Char → List Sign
  | [] => []
  | [c] => [Sign.ofChar c]
  | c :: d :: rest =>
    if c = '\\' && isMeta d then .literal d :: signs rest
    else Sign.ofChar c :: signs (d :: rest)

/-- Reads atoms up to the end of their group. -/
def readAtoms : List Sign → Option (List Atom)
  | [.closing] => some []
  | .literal c :: .question :: rest => (readAtoms rest).map (.optional c :: ·)
  | .literal c :: rest => (readAtoms rest).map (.letter c :: ·)
  | .start :: rest => (readAtoms rest).map (.start :: ·)
  | .finish :: rest => (readAtoms rest).map (.finish :: ·)
  | _ => none

/-- Reads a group. -/
def readGroup : List Sign → Option (List Atom)
  | .opening :: .question :: .literal ':' :: rest => readAtoms rest
  | _ => none

/-- The pattern that a text stands for, each choice in a group of its own. -/
def read? (text : String) : Option Pattern :=
  (((signs text.toList).splitOn .choice).mapM readGroup).map .mk

/-- The signs of an atom. -/
def Atom.signs : Atom → List Sign
  | letter c => [.literal c]
  | optional c => [.literal c, .question]
  | start => [.start]
  | finish => [.finish]

/-- The signs of a group. -/
def groupSigns (atoms : List Atom) : List Sign :=
  .opening :: .question :: .literal ':' :: (atoms.flatMap Atom.signs ++ [.closing])

/-- A group in the notation of patterns. -/
def groupSource (atoms : List Atom) : List Char :=
  '(' :: '?' :: ':' :: (atoms.flatMap Atom.source ++ [')'])

/-! ## Signs -/

theorem signs_cons {c : Char} (hc : c ≠ '\\') (rest : List Char) :
    signs (c :: rest) = Sign.ofChar c :: signs rest := by
  cases rest with
  | nil => rfl
  | cons d rest => rw [signs, decide_eq_false hc, Bool.false_and, if_neg Bool.false_ne_true]

theorem ofChar_eq_literal {c : Char} (hc : isMeta c = false) : Sign.ofChar c = .literal c := by
  have hne : ∀ d, isMeta d → c ≠ d := by
    rintro d hd rfl
    rw [hc] at hd
    cases hd
  rw [Sign.ofChar, if_neg (hne _ (by decide)), if_neg (hne _ (by decide)), if_neg (hne _ (by decide)),
    if_neg (hne _ (by decide)), if_neg (hne _ (by decide)), if_neg (hne _ (by decide)), hc,
    if_neg Bool.false_ne_true]

/-- A character that stands for itself is read as itself. -/
theorem signs_literal_append (c : Char) (rest : List Char) :
    signs (literal c ++ rest) = .literal c :: signs rest := by
  unfold literal
  split
  next hc =>
    rw [List.cons_append, List.singleton_append, signs, hc, decide_eq_true rfl, Bool.and_self,
      if_pos rfl]
  next hc =>
    have hmeta : isMeta c = false := Bool.eq_false_iff.mpr hc
    have hbackslash : c ≠ '\\' := by
      rintro rfl
      exact hc (by decide)
    rw [List.singleton_append, signs_cons hbackslash, ofChar_eq_literal hmeta]

theorem signs_source_append (atom : Atom) (rest : List Char) :
    signs (atom.source ++ rest) = atom.signs ++ signs rest := by
  cases atom with
  | letter c => exact signs_literal_append c rest
  | optional c =>
    rw [Atom.source, List.append_assoc, signs_literal_append, List.singleton_append,
      signs_cons (by decide)]
    rfl
  | start => exact signs_cons (by decide) rest
  | finish => exact signs_cons (by decide) rest

theorem signs_flatMap_source_append (atoms : List Atom) (rest : List Char) :
    signs (atoms.flatMap Atom.source ++ rest) = atoms.flatMap Atom.signs ++ signs rest := by
  induction atoms with
  | nil => rfl
  | cons atom atoms ih =>
    rw [List.flatMap_cons, List.flatMap_cons, List.append_assoc, List.append_assoc,
      signs_source_append, ih]

theorem signs_groupSource_append (atoms : List Atom) (rest : List Char) :
    signs (groupSource atoms ++ rest) = groupSigns atoms ++ signs rest := by
  have hopening : Sign.ofChar '(' = .opening := rfl
  have hquestion : Sign.ofChar '?' = .question := rfl
  have hcolon : Sign.ofChar ':' = .literal ':' := by decide
  have hclosing : Sign.ofChar ')' = .closing := rfl
  simp only [groupSource, groupSigns, List.cons_append, List.append_assoc, List.nil_append]
  rw [signs_cons (by decide), signs_cons (by decide), signs_cons (by decide),
    signs_flatMap_source_append, signs_cons (by decide), hopening, hquestion, hcolon, hclosing]

/-- A choice is marked in front of each group but the first. -/
theorem signs_flatMap_groups (groups : List (List Atom)) :
    signs (groups.flatMap fun atoms => '|' :: groupSource atoms) =
      groups.flatMap fun atoms => .choice :: groupSigns atoms := by
  induction groups with
  | nil => rfl
  | cons atoms groups ih =>
    rw [List.flatMap_cons, List.flatMap_cons, List.cons_append, signs_cons (by decide),
      signs_groupSource_append, ih]
    rfl

theorem choice_notMem_groupSigns (atoms : List Atom) : .choice ∉ groupSigns atoms := by
  have hatoms : ∀ atom ∈ atoms, Sign.choice ∉ atom.signs := by
    intro atom _
    cases atom <;> simp [Atom.signs]
  simpa [groupSigns] using hatoms

/-! ## Reading -/

theorem readAtoms_literal_cons (c : Char) {rest : List Sign} (h : rest.head? ≠ some .question) :
    readAtoms (.literal c :: rest) = (readAtoms rest).map (.letter c :: ·) := by
  cases rest with
  | nil => rfl
  | cons sign rest =>
    cases sign with
    | question => exact absurd rfl h
    | _ => rfl

/-- No atom and no end of a group begins with a question mark. -/
theorem head?_signs_ne_question (atoms : List Atom) :
    (atoms.flatMap Atom.signs ++ [Sign.closing]).head? ≠ some .question := by
  cases atoms with
  | nil => exact nofun
  | cons atom atoms => cases atom <;> exact nofun

theorem readAtoms_signs (atoms : List Atom) :
    readAtoms (atoms.flatMap Atom.signs ++ [.closing]) = some atoms := by
  induction atoms with
  | nil => rfl
  | cons atom atoms ih =>
    rw [List.flatMap_cons, List.append_assoc]
    cases atom with
    | letter c =>
      rw [Atom.signs, List.singleton_append, readAtoms_literal_cons c (head?_signs_ne_question atoms),
        ih]
      rfl
    | optional c | start | finish =>
      simp only [Atom.signs, List.cons_append, List.nil_append, readAtoms, ih, Option.map_some]

theorem toList_source (p : Pattern) :
    p.source.toList = ['|'].intercalate (p.alternatives.map groupSource) := by
  rw [source, String.toList_intercalate, List.map_map]
  congr 1
  refine List.map_congr_left fun atoms _ => ?_
  simp [groupSource]

/-- What is written for a pattern is read as the pattern. -/
theorem read?_source {p : Pattern} (h : p.alternatives ≠ []) : read? p.source = some p := by
  obtain ⟨alternatives⟩ := p
  cases alternatives with
  | nil => exact absurd rfl h
  | cons atoms groups =>
    have hsigns : signs (source ⟨atoms :: groups⟩).toList =
        [.choice].intercalate ((atoms :: groups).map groupSigns) := by
      rw [toList_source, List.map_cons, Text.intercalate_cons, signs_groupSource_append,
        List.flatMap_map, signs_flatMap_groups, List.map_cons, Text.intercalate_cons,
        List.flatMap_map]
    have hread : readGroup ∘ groupSigns = fun atoms => pure (id atoms) :=
      funext readAtoms_signs
    rw [read?, hsigns, List.splitOn_intercalate, List.mapM_map, hread, List.mapM_pure, List.map_id]
    · rfl
    · intro group hgroup
      obtain ⟨atoms, _, rfl⟩ := List.mem_map.mp hgroup
      exact choice_notMem_groupSigns atoms
    · exact List.cons_ne_nil _ _

end ItemCatalog.Pattern
