import Mathlib.Data.List.TakeWhile
import ItemCatalog.Text.Word

/-!
# Laws of pieces and of trimming

Results:
1. `piecesBy_append_cons`: a separator splits the pieces of a text into those before and those behind
   it, so that `pieces` and joining undo each other (`intercalate_pieces`, `pieces_intercalate`).
2. `spacedWords_append_cons`, `spacedWords_append_spaces`: words are split at spaces as well, and those
   at the end do not count.
3. `words_intercalate`: the words of joined texts are those of each.
4. `mem_tail_pieces_iff`: where the pieces of a text stand.
5. `trim_eq_self`: a text without blanks at its ends is left as it is.
6. `trim_eq_nil_or_solid`, `trim_append_blanks`: trimming takes all blanks off both ends.
-/

namespace ItemCatalog.Text

/-! ## Pieces -/

theorem extendFirst_ne_nil (c : Char) (parts : List (List Char)) : extendFirst c parts ≠ [] := by
  cases parts <;> simp [extendFirst]

theorem extendFirst_append (c : Char) {parts : List (List Char)} (h : parts ≠ [])
    (others : List (List Char)) :
    extendFirst c (parts ++ others) = extendFirst c parts ++ others := by
  cases parts with
  | nil => exact absurd rfl h
  | cons piece rest => rfl

@[simp] theorem piecesBy_nil (isSeparator : Char → Bool) : piecesBy isSeparator [] = [[]] := rfl

theorem piecesBy_cons (isSeparator : Char → Bool) (c : Char) (cs : List Char) :
    piecesBy isSeparator (c :: cs) =
      if isSeparator c then [] :: piecesBy isSeparator cs
      else extendFirst c (piecesBy isSeparator cs) := rfl

theorem piecesBy_ne_nil (isSeparator : Char → Bool) (cs : List Char) :
    piecesBy isSeparator cs ≠ [] := by
  cases cs with
  | nil => simp
  | cons c cs =>
    rw [piecesBy_cons]
    split
    · simp
    · exact extendFirst_ne_nil c _

@[simp] theorem pieces_nil (separator : Char) : pieces separator [] = [[]] := rfl

theorem pieces_ne_nil (separator : Char) (cs : List Char) : pieces separator cs ≠ [] :=
  piecesBy_ne_nil _ cs

theorem pieces_cons_separator (separator : Char) (cs : List Char) :
    pieces separator (separator :: cs) = [] :: pieces separator cs := by
  rw [pieces, piecesBy_cons, if_pos (by simp)]
  rfl

theorem pieces_cons_of_ne {separator c : Char} (h : c ≠ separator) (cs : List Char) :
    pieces separator (c :: cs) = extendFirst c (pieces separator cs) := by
  rw [pieces, piecesBy_cons, if_neg (by simpa using h)]
  rfl

theorem piecesBy_cons_separator {isSeparator : Char → Bool} {c : Char} (h : isSeparator c)
    (cs : List Char) : piecesBy isSeparator (c :: cs) = [] :: piecesBy isSeparator cs := by
  rw [piecesBy_cons, if_pos h]

/-- A separator splits the pieces into those before and those behind it. -/
theorem piecesBy_append_cons {isSeparator : Char → Bool} {c : Char} (h : isSeparator c)
    (before behind : List Char) :
    piecesBy isSeparator (before ++ c :: behind) =
      piecesBy isSeparator before ++ piecesBy isSeparator behind := by
  induction before with
  | nil => exact piecesBy_cons_separator h behind
  | cons b before ih =>
    rw [List.cons_append, piecesBy_cons, piecesBy_cons, ih]
    split
    · rfl
    · exact extendFirst_append b (piecesBy_ne_nil isSeparator before) _

theorem pieces_append_cons (separator : Char) (before behind : List Char) :
    pieces separator (before ++ separator :: behind) =
      pieces separator before ++ pieces separator behind :=
  piecesBy_append_cons (decide_eq_true rfl) before behind

theorem piecesBy_of_forall_not {isSeparator : Char → Bool} {cs : List Char}
    (h : ∀ c ∈ cs, isSeparator c = false) : piecesBy isSeparator cs = [cs] := by
  induction cs with
  | nil => rfl
  | cons c cs ih =>
    obtain ⟨hc, hcs⟩ := List.forall_mem_cons.mp h
    rw [piecesBy_cons, if_neg (Bool.eq_false_iff.mp hc), ih hcs]
    rfl

theorem pieces_of_notMem {separator : Char} {cs : List Char} (h : separator ∉ cs) :
    pieces separator cs = [cs] :=
  piecesBy_of_forall_not fun _ hc => decide_eq_false fun e => h (e ▸ hc)

/-- A text has at most one piece more than it has characters. -/
theorem length_piecesBy_le (isSeparator : Char → Bool) (cs : List Char) :
    (piecesBy isSeparator cs).length ≤ cs.length + 1 := by
  induction cs with
  | nil => exact Nat.le_refl 1
  | cons c cs ih =>
    rw [piecesBy_cons, List.length_cons]
    split
    · rw [List.length_cons]
      omega
    · cases hparts : piecesBy isSeparator cs with
      | nil => exact absurd hparts (piecesBy_ne_nil isSeparator cs)
      | cons first rest =>
        rw [hparts] at ih
        exact Nat.le_succ_of_le ih

/-- The characters of a piece are characters of the text and no separators. -/
theorem of_mem_piecesBy {isSeparator : Char → Bool} {c : Char} {cs piece : List Char}
    (hp : piece ∈ piecesBy isSeparator cs) (hc : c ∈ piece) : c ∈ cs ∧ isSeparator c = false := by
  induction cs generalizing piece with
  | nil =>
    rw [piecesBy_nil, List.mem_singleton] at hp
    rw [hp] at hc
    cases hc
  | cons d cs ih =>
    have hlater : ∀ {piece}, piece ∈ piecesBy isSeparator cs → c ∈ piece →
        c ∈ d :: cs ∧ isSeparator c = false := fun hp hc =>
      ⟨List.mem_cons_of_mem _ (ih hp hc).1, (ih hp hc).2⟩
    rw [piecesBy_cons] at hp
    split at hp
    next =>
      rcases List.mem_cons.mp hp with rfl | hp
      · cases hc
      · exact hlater hp hc
    next hd =>
      cases hparts : piecesBy isSeparator cs with
      | nil => exact absurd hparts (piecesBy_ne_nil isSeparator cs)
      | cons first rest =>
        rw [hparts, extendFirst] at hp
        rcases List.mem_cons.mp hp with rfl | hp
        · rcases List.mem_cons.mp hc with rfl | hc
          · exact ⟨List.mem_cons_self, Bool.eq_false_iff.mpr hd⟩
          · exact hlater (hparts ▸ List.mem_cons_self) hc
        · exact hlater (hparts ▸ List.mem_cons_of_mem _ hp) hc

theorem of_mem_pieces {separator c : Char} {cs piece : List Char}
    (hp : piece ∈ pieces separator cs) (hc : c ∈ piece) : c ∈ cs ∧ c ≠ separator := by
  obtain ⟨hmem, hne⟩ := of_mem_piecesBy hp hc
  exact ⟨hmem, of_decide_eq_false hne⟩

/-- A piece is the whole text, or it is shorter. -/
theorem eq_or_length_lt_of_mem_piecesBy {isSeparator : Char → Bool} {cs piece : List Char}
    (hp : piece ∈ piecesBy isSeparator cs) : piece = cs ∨ piece.length < cs.length := by
  induction cs generalizing piece with
  | nil => exact .inl (List.mem_singleton.mp hp)
  | cons c cs ih =>
    have hlater : ∀ {piece}, piece ∈ piecesBy isSeparator cs → piece.length < cs.length + 1 := by
      intro piece hp
      rcases ih hp with rfl | hlt <;> omega
    rw [piecesBy_cons] at hp
    split at hp
    next =>
      rcases List.mem_cons.mp hp with rfl | hp
      · exact .inr (Nat.succ_pos _)
      · exact .inr (hlater hp)
    next =>
      cases hparts : piecesBy isSeparator cs with
      | nil => exact absurd hparts (piecesBy_ne_nil isSeparator cs)
      | cons first rest =>
        rw [hparts, extendFirst] at hp
        rcases List.mem_cons.mp hp with rfl | hp
        · rcases ih (hparts ▸ List.mem_cons_self) with rfl | hlt
          · exact .inl rfl
          · exact .inr (Nat.succ_lt_succ hlt)
        · exact .inr (hlater (hparts ▸ List.mem_cons_of_mem _ hp))

theorem separator_notMem_of_mem_pieces {separator : Char} {cs piece : List Char}
    (h : piece ∈ pieces separator cs) : separator ∉ piece :=
  fun hc => (of_mem_pieces h hc).2 rfl

/-- Every character but the separators stands in a piece. -/
theorem exists_mem_pieces {separator c : Char} {cs : List Char} (h : c ∈ cs) (hc : c ≠ separator) :
    ∃ piece ∈ pieces separator cs, c ∈ piece := by
  obtain ⟨before, behind, rfl⟩ := List.append_of_mem h
  induction before with
  | nil =>
    rw [List.nil_append, pieces_cons_of_ne hc]
    cases pieces separator behind with
    | nil => exact ⟨[c], by simp [extendFirst]⟩
    | cons first rest => exact ⟨c :: first, by simp [extendFirst]⟩
  | cons b before ih =>
    obtain ⟨piece, hp, hm⟩ := ih (by simp)
    by_cases hb : b = separator
    · rw [hb, List.cons_append, pieces_cons_separator]
      exact ⟨piece, List.mem_cons_of_mem _ hp, hm⟩
    · rw [List.cons_append, pieces_cons_of_ne hb]
      cases hparts : pieces separator (before ++ c :: behind) with
      | nil => exact absurd hparts (pieces_ne_nil separator _)
      | cons first rest =>
        rw [hparts] at hp
        rw [extendFirst]
        rcases List.mem_cons.mp hp with rfl | hp
        · exact ⟨b :: piece, by simp, List.mem_cons_of_mem _ hm⟩
        · exact ⟨piece, List.mem_cons_of_mem _ hp, hm⟩

/-- A separator stands in front of each part but the first. -/
theorem intercalate_cons {α : Type} (separator : α) (part : List α) (others : List (List α)) :
    [separator].intercalate (part :: others) = part ++ others.flatMap (separator :: ·) := by
  induction others generalizing part with
  | nil => simp
  | cons other others ih =>
    rw [List.intercalate_cons_cons, ih, List.flatMap_cons, List.append_assoc]
    rfl

theorem intercalate_extendFirst (separator c : Char) (parts : List (List Char)) :
    [separator].intercalate (extendFirst c parts) = c :: [separator].intercalate parts := by
  cases parts with
  | nil => simp [extendFirst]
  | cons part parts => rw [extendFirst, intercalate_cons, intercalate_cons, List.cons_append]

/-- Joining the pieces of a text gives the text back. -/
theorem intercalate_pieces (separator : Char) (cs : List Char) :
    [separator].intercalate (pieces separator cs) = cs := by
  induction cs with
  | nil => rfl
  | cons c cs ih =>
    by_cases hc : c = separator
    · rw [hc, pieces_cons_separator, List.intercalate_cons_of_ne_nil (pieces_ne_nil separator cs), ih]
      rfl
    · rw [pieces_cons_of_ne hc, intercalate_extendFirst, ih]

/-- The pieces of joined texts are the pieces of each of them. -/
theorem piecesBy_intercalate {isSeparator : Char → Bool} {separator : Char}
    (h : isSeparator separator) {parts : List (List Char)} (hne : parts ≠ []) :
    piecesBy isSeparator ([separator].intercalate parts) =
      parts.flatMap (piecesBy isSeparator) := by
  induction parts with
  | nil => exact absurd rfl hne
  | cons part parts ih =>
    cases parts with
    | nil => simp
    | cons next rest =>
      rw [List.intercalate_cons_cons, List.append_assoc, List.singleton_append,
        piecesBy_append_cons h, ih (List.cons_ne_nil _ _)]
      rfl

theorem pieces_intercalate_eq_flatMap {separator : Char} {parts : List (List Char)}
    (hne : parts ≠ []) :
    pieces separator ([separator].intercalate parts) = parts.flatMap (pieces separator) :=
  piecesBy_intercalate (decide_eq_true rfl) hne

/-- Joining adds no pieces but empty ones. -/
theorem filter_piecesBy_intercalate {isSeparator : Char → Bool} {separator : Char}
    (h : isSeparator separator) (parts : List (List Char)) :
    (piecesBy isSeparator ([separator].intercalate parts)).filter (!·.isEmpty) =
      parts.flatMap fun part => (piecesBy isSeparator part).filter (!·.isEmpty) := by
  cases parts with
  | nil => rfl
  | cons part parts => rw [piecesBy_intercalate h (List.cons_ne_nil part parts), List.filter_flatMap]

theorem flatMap_eq_self {α : Type} {f : α → List α} {parts : List α} (h : ∀ a ∈ parts, f a = [a]) :
    parts.flatMap f = parts := by
  rw [List.flatMap_def, List.map_congr_left h, ← List.flatMap_def, List.flatMap_singleton']

/-- The pieces of joined texts are the texts, when none of them holds a separator. -/
theorem pieces_intercalate {separator : Char} {parts : List (List Char)} (hne : parts ≠ [])
    (h : ∀ part ∈ parts, separator ∉ part) :
    pieces separator ([separator].intercalate parts) = parts := by
  rw [pieces_intercalate_eq_flatMap hne]
  exact flatMap_eq_self fun part hp => pieces_of_notMem (h part hp)

theorem map_intercalate (f : Char → Char) (separator : Char) (parts : List (List Char)) :
    ([separator].intercalate parts).map f = [f separator].intercalate (parts.map (List.map f)) := by
  induction parts with
  | nil => rfl
  | cons part parts ih =>
    cases parts with
    | nil => simp
    | cons second parts =>
      rw [List.intercalate_cons_cons, List.map_append, List.map_append, ih]
      simp [List.intercalate_cons_cons]

theorem intercalate_append {separator : Char} {left right : List (List Char)} (hl : left ≠ [])
    (hr : right ≠ []) :
    [separator].intercalate (left ++ right) =
      [separator].intercalate left ++ separator :: [separator].intercalate right := by
  induction left with
  | nil => exact absurd rfl hl
  | cons part left ih =>
    cases left with
    | nil =>
      rw [List.singleton_append, List.intercalate_cons_of_ne_nil hr, List.intercalate_singleton,
        List.append_assoc, List.singleton_append]
    | cons next left =>
      have hne : next :: left ++ right ≠ [] := List.cons_ne_nil _ _
      rw [List.cons_append, List.intercalate_cons_of_ne_nil hne, ih (List.cons_ne_nil _ _),
        List.intercalate_cons_cons, List.append_assoc, List.append_assoc, List.append_assoc]

/-- The pieces but the first stand behind a separator, and in front of another or at the end. -/
theorem mem_tail_pieces_iff {separator : Char} {cs piece : List Char} :
    piece ∈ (pieces separator cs).tail ↔ separator ∉ piece ∧
      ∃ before after, cs = before ++ separator :: (piece ++ after) ∧
        (after = [] ∨ after.head? = some separator) := by
  constructor
  · intro h
    refine ⟨separator_notMem_of_mem_pieces (List.mem_of_mem_tail h), ?_⟩
    cases hp : pieces separator cs with
    | nil => exact absurd hp (pieces_ne_nil separator cs)
    | cons first rest =>
      rw [hp] at h
      obtain ⟨left, right, hrest⟩ := List.append_of_mem h
      have hcs := intercalate_pieces separator cs
      rw [List.tail_cons] at hrest
      rw [hp, hrest, ← List.cons_append,
        intercalate_append (List.cons_ne_nil first left) (List.cons_ne_nil piece right)] at hcs
      cases right with
      | nil =>
        refine ⟨[separator].intercalate (first :: left), [], ?_, .inl rfl⟩
        rw [← hcs, List.intercalate_singleton, List.append_nil]
      | cons next right =>
        refine ⟨[separator].intercalate (first :: left),
          separator :: [separator].intercalate (next :: right), ?_, .inr rfl⟩
        rw [← hcs, List.intercalate_cons_cons, List.append_assoc]
        rfl
  · rintro ⟨hpiece, before, after, rfl, hafter⟩
    rw [pieces_append_cons, List.tail_append_of_ne_nil (pieces_ne_nil separator before)]
    refine List.mem_append_right _ ?_
    rcases hafter with rfl | hafter
    · rw [List.append_nil, pieces_of_notMem hpiece]
      exact List.mem_cons_self
    · obtain ⟨rest, rfl⟩ := List.head?_eq_some_iff.mp hafter
      rw [pieces_append_cons, pieces_of_notMem hpiece]
      exact List.mem_cons_self

/-- The pieces behind the first of the end of a text are pieces behind the first of the text. -/
theorem mem_tail_pieces_append {separator : Char} (before : List Char) {cs piece : List Char}
    (h : piece ∈ (pieces separator cs).tail) : piece ∈ (pieces separator (before ++ cs)).tail := by
  obtain ⟨hpiece, front, after, rfl, hafter⟩ := mem_tail_pieces_iff.mp h
  exact mem_tail_pieces_iff.mpr
    ⟨hpiece, before ++ front, after, (List.append_assoc _ _ _).symm, hafter⟩

/-! ## Words -/

theorem spacedWords_append_cons (before behind : List Char) :
    spacedWords (before ++ ' ' :: behind) = spacedWords before ++ spacedWords behind := by
  rw [spacedWords, pieces_append_cons, List.filter_append]
  rfl

theorem spacedWords_cons_space (cs : List Char) : spacedWords (' ' :: cs) = spacedWords cs :=
  spacedWords_append_cons [] cs

theorem spacedWords_of_forall_space {spaces : List Char} (h : ∀ c ∈ spaces, c = ' ') :
    spacedWords spaces = [] := by
  induction spaces with
  | nil => rfl
  | cons c spaces ih =>
    rw [h c List.mem_cons_self, spacedWords_cons_space]
    exact ih fun d hd => h d (List.mem_cons_of_mem _ hd)

theorem spacedWords_append_spaces (cs : List Char) {spaces : List Char}
    (h : ∀ c ∈ spaces, c = ' ') : spacedWords (cs ++ spaces) = spacedWords cs := by
  cases spaces with
  | nil => rw [List.append_nil]
  | cons c spaces =>
    rw [h c List.mem_cons_self, spacedWords_append_cons,
      spacedWords_of_forall_space fun d hd => h d (List.mem_cons_of_mem _ hd), List.append_nil]

theorem spacedWords_singleton {c : Char} (hc : c ≠ ' ') : spacedWords [c] = [[c]] := by
  rw [spacedWords, pieces_cons_of_ne hc]
  rfl

/-- A space ends the first word. -/
theorem spacedWords_cons_cons_space {c : Char} (hc : c ≠ ' ') (cs : List Char) :
    spacedWords (c :: ' ' :: cs) = [c] :: spacedWords cs := by
  have h := spacedWords_append_cons [c] cs
  rwa [spacedWords_singleton hc] at h

/-- Any other character goes on with it. -/
theorem spacedWords_cons_cons {c d : Char} (hc : c ≠ ' ') (hd : d ≠ ' ') (cs : List Char) :
    spacedWords (c :: d :: cs) = extendFirst c (spacedWords (d :: cs)) := by
  rw [spacedWords, pieces_cons_of_ne hc, spacedWords, pieces_cons_of_ne hd]
  cases pieces ' ' cs <;> rfl

theorem mem_spacedWords {cs word : List Char} :
    word ∈ spacedWords cs ↔ word ∈ pieces ' ' cs ∧ word ≠ [] := by
  simp [spacedWords]

theorem spacedWords_of_forall_ne_nil {cs : List Char} (h : ∀ piece ∈ pieces ' ' cs, piece ≠ []) :
    spacedWords cs = pieces ' ' cs := by
  rw [spacedWords, List.filter_eq_self]
  intro piece hp
  simpa using h piece hp

/-! ## Words between blanks -/

theorem words_intercalate (parts : List (List Char)) :
    words ([' '].intercalate parts) = parts.flatMap words :=
  filter_piecesBy_intercalate (by decide) parts

theorem words_append_cons {c : Char} (h : isBlank c) (before behind : List Char) :
    words (before ++ c :: behind) = words before ++ words behind := by
  rw [words, piecesBy_append_cons h, List.filter_append]
  rfl

theorem words_cons_blank {c : Char} (h : isBlank c) (cs : List Char) : words (c :: cs) = words cs :=
  words_append_cons h [] cs

theorem words_of_forall_not_blank {cs : List Char} (hne : cs ≠ [])
    (h : ∀ c ∈ cs, isBlank c = false) : words cs = [cs] := by
  rw [words, piecesBy_of_forall_not h]
  exact List.filter_eq_self.mpr (by simpa using hne)

/-! ## Trimming -/

/-- Neither the first nor the last character is blank, and there is one. -/
structure Solid (cs : List Char) : Prop where
  ne_nil : cs ≠ []
  head : ∀ c, cs.head? = some c → isBlank c = false
  last : ∀ c, cs.getLast? = some c → isBlank c = false

theorem trimStart_eq_self {cs : List Char} (h : ∀ c, cs.head? = some c → isBlank c = false) :
    trimStart cs = cs := by
  cases cs with
  | nil => rfl
  | cons c cs => rw [trimStart, List.dropWhile_cons, if_neg (by simp [h c rfl])]

theorem trimEnd_eq_self {cs : List Char} (h : ∀ c, cs.getLast? = some c → isBlank c = false) :
    trimEnd cs = cs := by
  have hr : trimStart cs.reverse = cs.reverse := trimStart_eq_self (by simpa using h)
  rw [trimEnd, ← trimStart, hr, List.reverse_reverse]

theorem trim_eq_self {cs : List Char} (h : Solid cs) : trim cs = cs := by
  rw [trim, trimStart_eq_self h.head, trimEnd_eq_self h.last]

theorem solid_singleton {c : Char} (h : isBlank c = false) : Solid [c] where
  ne_nil := List.cons_ne_nil c []
  head _ hd := by rwa [← Option.some.inj hd]
  last _ hd := by rwa [← Option.some.inj hd]

theorem solid_of_forall {cs : List Char} (hne : cs ≠ []) (h : ∀ c ∈ cs, isBlank c = false) :
    Solid cs where
  ne_nil := hne
  head c hc := h c (List.mem_of_mem_head? hc)
  last c hc := h c (List.mem_of_getLast? hc)

/-- Only the ends count. -/
theorem Solid.append {before behind : List Char} (hb : Solid before) (he : Solid behind)
    (middle : List Char) : Solid (before ++ (middle ++ behind)) where
  ne_nil := by simp [hb.ne_nil]
  head c hc := by
    cases before with
    | nil => exact absurd rfl hb.ne_nil
    | cons b before => exact hb.head c (by simpa using hc)
  last c hc := by
    refine he.last c ?_
    rw [← hc, ← List.append_assoc, List.getLast?_append]
    cases h : behind.getLast? with
    | none => exact absurd (List.getLast?_eq_none_iff.mp h) he.ne_nil
    | some d => rfl

section Blanks

variable {blanks : List Char} (h : ∀ c ∈ blanks, isBlank c)

include h

theorem trimStart_blanks_append (cs : List Char) : trimStart (blanks ++ cs) = trimStart cs :=
  List.dropWhile_append_of_pos h

theorem trimEnd_append_blanks (cs : List Char) : trimEnd (cs ++ blanks) = trimEnd cs := by
  have hreverse : ∀ c ∈ blanks.reverse, isBlank c := fun c hc => h c (List.mem_reverse.mp hc)
  rw [trimEnd, List.reverse_append, List.dropWhile_append_of_pos hreverse, trimEnd]

theorem trim_append_blanks (cs : List Char) : trim (cs ++ blanks) = trim cs := by
  rw [trim, trim, trimStart, List.dropWhile_append]
  split
  next hcs =>
    have hnone : blanks.dropWhile isBlank = [] := List.dropWhile_eq_nil_iff.mpr h
    rw [hnone, trimStart, List.isEmpty_iff.mp hcs]
  next => exact trimEnd_append_blanks h _

theorem trim_blanks_append (cs : List Char) : trim (blanks ++ cs) = trim cs := by
  rw [trim, trim, trimStart_blanks_append h]

end Blanks

theorem isBlank_of_head?_trimStart {cs : List Char} {c : Char} (h : (trimStart cs).head? = some c) :
    isBlank c = false := by
  have hnot := List.head?_dropWhile_not isBlank cs
  rw [← trimStart, h] at hnot
  exact hnot

theorem isBlank_of_getLast?_trimEnd {cs : List Char} {c : Char} (h : (trimEnd cs).getLast? = some c) :
    isBlank c = false := by
  rw [trimEnd, List.getLast?_reverse] at h
  exact isBlank_of_head?_trimStart h

/-- Nothing is left of blanks alone. -/
theorem trim_eq_nil_iff {cs : List Char} : trim cs = [] ↔ ∀ c ∈ cs, isBlank c := by
  constructor
  · intro h
    have hrest : ∀ c ∈ trimStart cs, isBlank c := by
      intro c hc
      exact List.dropWhile_eq_nil_iff.mp (List.reverse_eq_nil_iff.mp h) c (List.mem_reverse.mpr hc)
    cases hstart : trimStart cs with
    | nil => exact List.dropWhile_eq_nil_iff.mp hstart
    | cons c rest =>
      -- The first character that is left would have to be blank.
      have hblank := hrest c (hstart ▸ List.mem_cons_self)
      rw [isBlank_of_head?_trimStart (by rw [hstart]; rfl)] at hblank
      cases hblank
  · intro h
    have hstart : trimStart cs = [] := List.dropWhile_eq_nil_iff.mpr h
    rw [trim, hstart]
    rfl

/-- What is left of a text has no blanks at its ends. -/
theorem trim_eq_nil_or_solid (cs : List Char) : trim cs = [] ∨ Solid (trim cs) := by
  by_cases hnil : trim cs = []
  · exact .inl hnil
  · refine .inr ⟨hnil, fun c hc => ?_, fun c hc => isBlank_of_getLast?_trimEnd hc⟩
    -- Trimming the end leaves the first character in its place.
    have hbegins : trim cs <+: trimStart cs := by
      have hsuffix := List.dropWhile_suffix (l := (trimStart cs).reverse) isBlank
      exact List.reverse_suffix.mp (by rwa [trim, trimEnd, List.reverse_reverse])
    obtain ⟨rest, hrest⟩ := hbegins
    refine isBlank_of_head?_trimStart (?_ : (trimStart cs).head? = some c)
    rw [← hrest, List.head?_append, hc]
    rfl

theorem mem_of_mem_trim {cs : List Char} {c : Char} (h : c ∈ trim cs) : c ∈ cs := by
  rw [trim, trimEnd, List.mem_reverse] at h
  have hstart := List.mem_reverse.mp ((List.dropWhile_suffix isBlank).subset h)
  exact (List.dropWhile_suffix isBlank).subset hstart

/-- A character map that keeps blanks blank and others not can be moved out of trimming. -/
theorem trim_map {f : Char → Char} (h : ∀ c, isBlank (f c) = isBlank c) (cs : List Char) :
    trim (cs.map f) = (trim cs).map f := by
  have hf : isBlank ∘ f = isBlank := funext h
  rw [trim, trimEnd, trimStart, trim, trimEnd, trimStart, List.dropWhile_map, hf, ← List.map_reverse,
    List.dropWhile_map, hf, List.map_reverse]

end ItemCatalog.Text
