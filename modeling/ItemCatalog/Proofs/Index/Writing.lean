import ItemCatalog.Proofs.Index.Clause
import ItemCatalog.Proofs.Index.Term
import ItemCatalog.Proofs.Number.Digits

/-!
# Writing clauses down

A clause of an analyzed term comes back when it is written down and read again: the term has no
characters but letters and numbers, so that the signs of a written clause are those put there.

Results:
1. `Text.words_eq_of_spaced`: the words of a text that is made of words and blanks.
2. `ofWord_write`: a written clause means the clause; it is one word (`isBlank_eq_false_of_mem_write`).
3. `parse_reads_written`: a query made of written clauses means these clauses, and whatever a query is
   made of, its clauses have terms with as many characters as they pin.
-/

namespace ItemCatalog.Text

/-- The text has these words, in this order, with one blank or more between them and any number of
blanks around them. -/
inductive Spaced : List (List Char) → List Char → Prop
  | nil : Spaced [] []
  | blank {c : Char} {parts : List (List Char)} {text : List Char} (hc : isBlank c)
      (htext : Spaced parts text) : Spaced parts (c :: text)
  | word (part : List Char) {parts : List (List Char)} {text : List Char} (htext : Spaced parts text)
      (hnext : ∀ c, text.head? = some c → isBlank c) : Spaced (part :: parts) (part ++ text)

theorem words_eq_of_spaced {parts : List (List Char)} {text : List Char} (h : Spaced parts text)
    (hne : ∀ part ∈ parts, part ≠ []) (hsolid : ∀ part ∈ parts, ∀ c ∈ part, isBlank c = false) :
    words text = parts := by
  induction h with
  | nil => rfl
  | blank hc _ ih => rw [words_cons_blank hc, ih hne hsolid]
  | word part htext hnext ih =>
    obtain ⟨hpart, hparts⟩ := List.forall_mem_cons.mp hne
    obtain ⟨hsolidPart, hsolidParts⟩ := List.forall_mem_cons.mp hsolid
    have hword := words_of_forall_not_blank hpart hsolidPart
    have hlater := ih hparts hsolidParts
    rename_i text
    cases text with
    | nil => rw [List.append_nil, hword, ← hlater]; rfl
    | cons c text =>
      have hc : isBlank c := hnext c rfl
      rw [words_cons_blank hc] at hlater
      rw [words_append_cons hc, hword, hlater]
      rfl

end ItemCatalog.Text

namespace ItemCatalog.Index.Clause

/-! ## Reading what was written -/

theorem readDistance_digitsOf {n : Nat} (h : n < UInt64.size) : readDistance (digitsOf n) = n := by
  have hdigits : ∀ c ∈ digitsOf n, c.isDigit := fun c hc => isDigit_of_mem_digitsOf hc
  have hplus : ∀ rest, digitsOf n ≠ '+' :: rest := by
    intro rest heq
    have hsign : ('+' : Char).isDigit := hdigits '+' (heq ▸ List.mem_cons_self)
    exact absurd hsign (by decide)
  have hne : (digitsOf n).isEmpty = false := List.isEmpty_eq_false_iff.mpr (digitsOf_ne_nil n)
  have hall : (digitsOf n).all Char.isDigit := List.all_eq_true.mpr hdigits
  have hsize : ¬ UInt64.size ≤ n := Nat.not_le.mpr h
  rw [readDistance]
  · simp [hne, hall, hsize, digitsValue_digitsOf]
  · exact hplus

theorem splitRequired_written (required : Bool) {rest : List Char} (h : rest.head? ≠ some '+') :
    splitRequired ((if required then ['+'] else []) ++ rest) = (required, rest) := by
  cases required with
  | true => rfl
  | false =>
    rw [if_neg Bool.false_ne_true, List.nil_append]
    unfold splitRequired
    split
    next => exact absurd rfl h
    next => rfl

/-- A clause that can be asked for by itself: its term is what the analysis makes of it, and the numbers
are in range. -/
structure Writable (c : Clause) : Prop where
  analyzed : terms c.term = [c.term]
  pinned_le : c.pinned ≤ c.term.length
  distance_lt : c.distance < UInt64.size

/-- The term of a written clause, with the sign behind the pinned characters. -/
def writtenTerm (c : Clause) : List Char :=
  if c.pinned = 0 then c.term.toList else c.term.toList.take c.pinned ++ '^' :: c.term.toList.drop c.pinned

/-- The digits of a written clause. -/
def writtenEdits (c : Clause) : Option (List Char) :=
  if c.distance = 0 then none else some (digitsOf c.distance)

theorem write_eq (c : Clause) :
    c.write =
      (if c.required then ['+'] else []) ++ (c.writtenTerm ++ c.writtenEdits.elim [] ('~' :: ·)) := by
  have hedits : (if c.distance = 0 then [] else '~' :: digitsOf c.distance) =
      c.writtenEdits.elim [] ('~' :: ·) := by
    rw [writtenEdits]
    split <;> rfl
  rw [write, hedits, writtenTerm, List.append_assoc]

/-- The characters of the term as it is written are those of the term and the sign. -/
theorem mem_writtenTerm {c : Clause} {d : Char} (h : d ∈ c.writtenTerm) :
    d ∈ c.term.toList ∨ d = '^' := by
  rw [writtenTerm] at h
  split at h
  next => exact .inl h
  next =>
    rcases List.mem_append.mp h with h | h
    · exact .inl (List.mem_of_mem_take h)
    · rcases List.mem_cons.mp h with rfl | h
      · exact .inr rfl
      · exact .inl (List.mem_of_mem_drop h)

theorem isDigit_of_mem_writtenEdits {c : Clause} {digits : List Char} (h : c.writtenEdits = some digits)
    {d : Char} (hd : d ∈ digits) : d.isDigit := by
  rw [writtenEdits] at h
  split at h
  next => cases h
  next =>
    obtain rfl := Option.some.inj h
    exact isDigit_of_mem_digitsOf hd

section Written

variable {c : Clause} (h : c.Writable)
include h

theorem Writable.isAlphanumeric {d : Char} (hd : d ∈ c.term.toList) : Text.isAlphanumeric d := by
  refine isAlphanumeric_of_mem_terms_self ?_ d hd
  rw [h.analyzed]
  exact List.mem_singleton_self _

theorem Writable.notMem {d : Char} (hd : Text.isAlphanumeric d = false) : d ∉ c.term.toList := by
  intro hmem
  rw [h.isAlphanumeric hmem] at hd
  cases hd

theorem Writable.term_ne_nil : c.term.toList ≠ [] := by
  have hpos : 0 < c.term.length :=
    length_pos_of_mem_terms (h.analyzed ▸ List.mem_singleton_self c.term)
  rw [← String.length_toList] at hpos
  exact List.length_pos_iff.mp hpos

theorem Writable.writtenTerm_ne_nil : c.writtenTerm ≠ [] := by
  rw [writtenTerm]
  split
  · exact h.term_ne_nil
  · exact fun hnil => List.cons_ne_nil _ _ (List.append_eq_nil_iff.mp hnil).2

theorem Writable.notMem_writtenTerm {d : Char} (hd : Text.isAlphanumeric d = false) (hsign : d ≠ '^') :
    d ∉ c.writtenTerm := by
  intro hmem
  rcases mem_writtenTerm hmem with hmem | rfl
  · exact h.notMem hd hmem
  · exact hsign rfl

theorem Writable.readDistance_writtenEdits : c.writtenEdits.elim 0 readDistance = c.distance := by
  rw [writtenEdits]
  split
  next hzero => exact hzero.symm
  next => exact readDistance_digitsOf h.distance_lt

theorem Writable.ofTerms_term : ofTerms c.required c.distance c.pinned [c.term] = [c] := by
  rw [ofTerms, Nat.min_eq_left h.pinned_le]
  rfl

/-- A written clause means the clause. -/
theorem ofWord_write : ofWord c.write = [c] := by
  have hhead : (c.writtenTerm ++ c.writtenEdits.elim [] ('~' :: ·)).head? ≠ some '+' := by
    intro hplus
    rw [List.head?_append_of_ne_nil _ h.writtenTerm_ne_nil] at hplus
    exact h.notMem_writtenTerm (by decide) (by decide) (List.mem_of_head? hplus)
  have hsign := splitRequired_written c.required hhead
  rw [← write_eq] at hsign
  have hdigits : ∀ digits, c.writtenEdits = some digits → '~' ∉ digits := fun digits hd hmem =>
    absurd (isDigit_of_mem_writtenEdits hd hmem) (by decide)
  have hedits := splitLast_suffix (h.notMem_writtenTerm (by decide) (by decide)) hdigits
  by_cases hpinned : c.pinned = 0
  · rw [writtenTerm, if_pos hpinned] at hedits hsign
    rw [ofWord_unpinned hsign hedits (h.notMem (by decide)), h.readDistance_writtenEdits,
      String.ofList_toList, h.analyzed, ← hpinned]
    exact h.ofTerms_term
  · have hprefix : '^' ∉ c.term.toList.take c.pinned := fun hmem =>
      h.notMem (by decide) (List.mem_of_mem_take hmem)
    have hlength : (c.term.toList.take c.pinned).length = c.pinned :=
      List.length_take_of_le (by rw [String.length_toList]; exact h.pinned_le)
    rw [writtenTerm, if_neg hpinned] at hedits hsign
    rw [ofWord_pinned hsign hedits hprefix, h.readDistance_writtenEdits, hlength,
      List.take_append_drop, String.ofList_toList, h.analyzed]
    exact h.ofTerms_term

theorem write_ne_nil : c.write ≠ [] := by
  rw [write_eq]
  intro hnil
  exact h.writtenTerm_ne_nil (List.append_eq_nil_iff.mp (List.append_eq_nil_iff.mp hnil).2).1

theorem isBlank_eq_false_of_mem_write {d : Char} (hd : d ∈ c.write) : Text.isBlank d = false := by
  rw [write_eq, List.mem_append, List.mem_append] at hd
  rcases hd with hd | hd | hd
  · split at hd
    · rw [List.mem_singleton.mp hd]
      decide
    · cases hd
  · rcases mem_writtenTerm hd with hd | rfl
    · refine Bool.eq_false_iff.mpr fun hblank => ?_
      exact h.notMem (Text.isAlphanumeric_eq_false_of_isBlank hblank) hd
    · decide
  · cases hedits : c.writtenEdits with
    | none =>
      rw [hedits] at hd
      cases hd
    | some digits =>
      rw [hedits] at hd
      rcases List.mem_cons.mp hd with rfl | hd
      · decide
      · have hcode := (Text.isDigit_iff d).mp (isDigit_of_mem_writtenEdits hedits hd)
        simp only [Text.isBlank]
        grind

end Written

/-! ## The clauses of any query -/

theorem pinned_le_of_mem_ofTerms {required : Bool} {distance pinned : Nat} {terms : List String}
    {c : Clause} (h : c ∈ ofTerms required distance pinned terms) : c.pinned ≤ c.term.length := by
  cases terms with
  | nil => cases h
  | cons term more =>
    rcases List.mem_cons.mp h with rfl | h
    · exact Nat.min_le_right _ _
    · obtain ⟨other, _, rfl⟩ := List.mem_map.mp h
      exact Nat.zero_le _

/-- The term of a clause has a character, and as many as are pinned. -/
theorem of_mem_ofWord {cs : List Char} {c : Clause} (h : c ∈ ofWord cs) :
    0 < c.term.length ∧ c.pinned ≤ c.term.length := by
  rw [ofWord] at h
  exact ⟨length_pos_of_mem_terms (of_mem_ofTerms h).1, pinned_le_of_mem_ofTerms h⟩

/-- A query made of written clauses means these clauses. Whatever a query is made of, the term of each of
its clauses has a character and as many as are pinned, so that the pinned text is made of the first of
them. -/
theorem parse_reads_written :
    (∀ (clauses : List Clause) (query : String), (∀ c ∈ clauses, c.Writable) →
      Text.Spaced (clauses.map write) query.toList → parse query = clauses) ∧
    ∀ (query : String), ∀ c ∈ parse query, c.term ≠ "" ∧ c.pinned ≤ c.term.length ∧
      c.pinnedPrefix.length = c.pinned ∧ c.pinnedPrefix.toList <+: c.term.toList := by
  refine ⟨fun clauses query hclauses hspaced => ?_, fun query c hc => ?_⟩
  · have hwords : Text.words query.toList = clauses.map write := by
      refine Text.words_eq_of_spaced hspaced ?_ ?_
      · exact List.forall_mem_map.mpr fun c hc => write_ne_nil (hclauses c hc)
      · exact List.forall_mem_map.mpr fun c hc d hd =>
          isBlank_eq_false_of_mem_write (hclauses c hc) hd
    rw [parse, hwords, List.flatMap_map]
    exact Text.flatMap_eq_self fun c hc => ofWord_write (hclauses c hc)
  · obtain ⟨cs, _, hword⟩ := List.mem_flatMap.mp hc
    obtain ⟨hpos, hpinned⟩ := of_mem_ofWord hword
    refine ⟨?_, hpinned, ?_, ?_⟩
    · intro hempty
      rw [hempty] at hpos
      exact absurd hpos (by decide)
    · rw [← String.length_toList, toList_pinnedPrefix, List.length_take, String.length_toList,
        Nat.min_eq_left hpinned]
    · rw [toList_pinnedPrefix]
      exact List.take_prefix _ _

/-- A required clause with a pinned letter and two edits, and a plain one. -/
def requiredAndPlain : List Clause :=
  [⟨"dragonlord", true, 2, 1⟩, ⟨"blade", false, 0, 0⟩]

theorem parse_reads_written_requiredAndPlain :
    (∀ c ∈ requiredAndPlain, c.Writable) ∧
      Text.Spaced (requiredAndPlain.map write) "+d^ragonlord~2 \t blade".toList ∧
      parse "+d^ragonlord~2 \t blade" = requiredAndPlain := by
  have hdragonlord : terms "dragonlord" = ["dragonlord"] := by decide +kernel
  have hblade : terms "blade" = ["blade"] := by decide +kernel
  have hwritable : ∀ c ∈ requiredAndPlain, c.Writable := by
    intro c hc
    simp only [requiredAndPlain, List.mem_cons, List.not_mem_nil, or_false] at hc
    rcases hc with rfl | rfl
    · exact ⟨hdragonlord, by decide, by decide⟩
    · exact ⟨hblade, by decide, by decide⟩
  have hspaced : Text.Spaced (requiredAndPlain.map write) "+d^ragonlord~2 \t blade".toList := by
    have htext : "+d^ragonlord~2 \t blade".toList =
        write ⟨"dragonlord", true, 2, 1⟩ ++
          ' ' :: '\t' :: ' ' :: (write ⟨"blade", false, 0, 0⟩ ++ []) := by
      decide +kernel
    rw [htext]
    refine .word _ (.blank (by decide) (.blank (by decide) (.blank (by decide) (.word _ .nil ?_)))) ?_
    · simp
    · simp [Text.isBlank]
  exact ⟨hwritable, hspaced, parse_reads_written.1 _ _ hwritable hspaced⟩

end ItemCatalog.Index.Clause
