import ItemCatalog.Proofs.Expression.Compilation
import ItemCatalog.Proofs.Expression.Label

/-!
# The texts of trees

The canonical text of a tree puts every operation in brackets, its label leaves out the outermost
pair. Both are scanned back token by token: what a subtree is written as can be read behind any text
and in front of any text that does not go on with a name (`ReadsAs`).

Results:
1. `Tree.readsAs_written`, `Tree.readsAs_bare`: the texts are scanned as the tokens of the tree.
2. `Tree.derives_writtenTokens`, `Tree.derives_bareTokens`: those tokens are sums with that tree.
3. `Tree.toList_stripBrackets`, `Tree.balanced_bare`: stripping takes the outermost pair of brackets,
   and those left match among themselves.
-/

namespace ItemCatalog.Expression

/-! ## Definitions -/

/-- A text in brackets. -/
def inBrackets (text : List Char) : List Char :=
  '(' :: (text ++ [')'])

/-- Every bracket of the text has its partner in the text: there are as many of each, and no
beginning of the text closes more than it opens. -/
structure Balanced (text : List Char) : Prop where
  count_eq : text.count '(' = text.count ')'
  count_le : ∀ before behind, text = before ++ behind → before.count ')' ≤ before.count '('

namespace Tree

/-- The text of a tree: a name as it is, an operation in brackets. -/
def written : Tree String → List Char
  | leaf name => name.toList
  | negate t => inBrackets ('-' :: t.written)
  | add l r => inBrackets (l.written ++ ([' ', '+', ' '] ++ r.written))
  | subtract l r => inBrackets (l.written ++ ([' ', '-', ' '] ++ r.written))

/-- The text of a tree without brackets around the whole. -/
def bare : Tree String → List Char
  | leaf name => name.toList
  | negate t => '-' :: t.written
  | add l r => l.written ++ ([' ', '+', ' '] ++ r.written)
  | subtract l r => l.written ++ ([' ', '-', ' '] ++ r.written)

/-- The tokens of `written`. -/
def writtenTokens : Tree String → List Token
  | leaf name => [.operand name]
  | negate t => .opening :: (.minus :: t.writtenTokens) ++ [.closing]
  | add l r => .opening :: (l.writtenTokens ++ .plus :: r.writtenTokens) ++ [.closing]
  | subtract l r => .opening :: (l.writtenTokens ++ .minus :: r.writtenTokens) ++ [.closing]

/-- The tokens of `bare`. -/
def bareTokens : Tree String → List Token
  | leaf name => [.operand name]
  | negate t => .minus :: t.writtenTokens
  | add l r => l.writtenTokens ++ .plus :: r.writtenTokens
  | subtract l r => l.writtenTokens ++ .minus :: r.writtenTokens

/-- `t.ReadsAs text tokens`: the text holds the names and the operators of `t` and is scanned as
`tokens`, behind any names and signs that leave room for its own and in front of any text that does
not go on with its last name. -/
def ReadsAs (t : Tree String) (text : List Char) (tokens : List Token) : Prop :=
  ∀ (operators : Nat) (seen : List String) (rest : List Char) (tail : List Token),
    (∀ name ∈ t.leaves, IsOperandName name ∧ name ∉ seen) → t.leaves.Nodup →
    operators + t.operators ≤ maxOperators → Token.EndsName rest →
    Token.Scans (operators + t.operators) (t.leaves.reverse ++ seen) rest tail →
    Token.Scans operators seen (text ++ rest) (tokens ++ tail)

/-! ## Trees and their texts -/

theorem map_map {α β γ : Type} (f : α → β) (g : β → γ) (t : Tree α) :
    (t.map f).map g = t.map (g ∘ f) := by
  induction t with
  | leaf a => rfl
  | negate t ih => simp only [map, ih]
  | add l r ihl ihr | subtract l r ihl ihr => simp only [map, ihl, ihr]

theorem leaves_map {α β : Type} (f : α → β) (t : Tree α) : (t.map f).leaves = t.leaves.map f := by
  induction t with
  | leaf a => rfl
  | negate t ih => exact ih
  | add l r ihl ihr | subtract l r ihl ihr =>
    simp only [map, leaves, ihl, ihr, List.map_append]

theorem operators_map {α β : Type} (f : α → β) (t : Tree α) : (t.map f).operators = t.operators := by
  induction t with
  | leaf a => rfl
  | negate t ih => simp only [map, operators, ih]
  | add l r ihl ihr | subtract l r ihl ihr => simp only [map, operators, ihl, ihr]

/-- Renaming loses nothing when it tells the leaves apart. -/
theorem map_injOn {α β : Type} {f : α → β} {s : Set α} (hf : Set.InjOn f s) {t u : Tree α}
    (ht : ∀ a ∈ t.leaves, a ∈ s) (hu : ∀ a ∈ u.leaves, a ∈ s) (h : t.map f = u.map f) : t = u := by
  induction t generalizing u with
  | leaf a =>
    cases u with
    | leaf b =>
      rw [map, map, leaf.injEq] at h
      rw [hf (ht a List.mem_cons_self) (hu b List.mem_cons_self) h]
    | negate | add | subtract => cases h
  | negate t ih =>
    cases u with
    | negate u =>
      rw [map, map, negate.injEq] at h
      rw [ih (u := u) ht hu h]
    | leaf | add | subtract => cases h
  | add l r ihl ihr =>
    cases u with
    | add l' r' =>
      rw [map, map, add.injEq] at h
      rw [leaves, List.forall_mem_append] at ht hu
      rw [ihl ht.1 hu.1 h.1, ihr ht.2 hu.2 h.2]
    | leaf | negate | subtract => cases h
  | subtract l r ihl ihr =>
    cases u with
    | subtract l' r' =>
      rw [map, map, subtract.injEq] at h
      rw [leaves, List.forall_mem_append] at ht hu
      rw [ihl ht.1 hu.1 h.1, ihr ht.2 hu.2 h.2]
    | leaf | negate | add => cases h

/-- The text of an operation is in brackets. -/
theorem written_eq_bare_or (t : Tree String) :
    (∃ name, t = leaf name ∧ t.written = t.bare) ∨
      (∀ name, t ≠ leaf name) ∧ t.written = inBrackets t.bare := by
  cases t with
  | leaf name => exact .inl ⟨name, rfl, rfl⟩
  | negate | add | subtract => exact .inr ⟨nofun, rfl⟩

theorem toList_bracketed (left sign right : String) :
    (Expression.bracketed left sign right).toList =
      inBrackets (left.toList ++ ((' ' :: (sign.toList ++ [' '])) ++ right.toList)) := by
  simp [Expression.bracketed, inBrackets]

/-- What is computed from the leaves is this text. -/
theorem toList_evaluate_writing (label : String → String) (t : Tree String) :
    (t.evaluate label writing).toList = (t.map label).written := by
  induction t with
  | leaf name => rfl
  | negate t ih =>
    have h : t.negate.evaluate label writing = "(-" ++ t.evaluate label writing ++ ")" := rfl
    rw [h, String.toList_append, String.toList_append, ih]
    rfl
  | add l r ihl ihr =>
    have h : (l.add r).evaluate label writing =
        Expression.bracketed (l.evaluate label writing) "+" (r.evaluate label writing) := rfl
    rw [h, toList_bracketed, ihl, ihr]
    rfl
  | subtract l r ihl ihr =>
    have h : (l.subtract r).evaluate label writing =
        Expression.bracketed (l.evaluate label writing) "-" (r.evaluate label writing) := rfl
    rw [h, toList_bracketed, ihl, ihr]
    rfl

theorem map_toLower_inBrackets (text : List Char) :
    (inBrackets text).map Char.toLower = inBrackets (text.map Char.toLower) := by
  rw [inBrackets, List.map_cons, List.map_append]
  rfl

/-- The signs and brackets of a text have no case. -/
theorem map_toLower_written (t : Tree String) :
    t.written.map Char.toLower = (t.map inSmallLetters).written := by
  induction t with
  | leaf name => exact (toList_inSmallLetters name).symm
  | negate t ih =>
    rw [written, map_toLower_inBrackets, List.map_cons, ih]
    rfl
  | add l r ihl ihr | subtract l r ihl ihr =>
    rw [written, map_toLower_inBrackets, List.map_append, List.map_append, ihl, ihr]
    rfl

theorem map_toLower_bare (t : Tree String) :
    t.bare.map Char.toLower = (t.map inSmallLetters).bare := by
  cases t with
  | leaf name => exact (toList_inSmallLetters name).symm
  | negate t =>
    rw [bare, List.map_cons, map_toLower_written]
    rfl
  | add l r | subtract l r =>
    rw [bare, List.map_append, List.map_append, map_toLower_written, map_toLower_written]
    rfl

/-! ## Reading a text back -/

/-- Brackets are read around what stands in them. -/
theorem ReadsAs.inBrackets {t : Tree String} {text : List Char} {tokens : List Token}
    (h : t.ReadsAs text tokens) :
    t.ReadsAs (inBrackets text) (.opening :: tokens ++ [.closing]) := by
  intro operators seen rest tail hnames hnodup hk hrest hs
  have hclose := h operators seen (')' :: rest) (.closing :: tail) hnames hnodup hk
    (Token.endsName_cons (by decide) (by decide) rest) (.closing hs)
  simpa [Expression.inBrackets] using Token.Scans.opening hclose

theorem readsAs_leaf (name : String) : (leaf name).ReadsAs name.toList [.operand name] := by
  intro operators seen rest tail hnames _ _ hrest hs
  obtain ⟨hn, hseen⟩ := hnames name List.mem_cons_self
  exact Token.Scans.name hn hseen hrest hs

theorem ReadsAs.negate {t : Tree String} {text : List Char} {tokens : List Token}
    (h : t.ReadsAs text tokens) : t.negate.ReadsAs ('-' :: text) (.minus :: tokens) := by
  intro operators seen rest tail hnames hnodup hk hrest hs
  rw [Tree.operators, ← Nat.add_assoc, Nat.add_right_comm] at hk hs
  exact .minus (by omega) (h (operators + 1) seen rest tail hnames hnodup hk hrest hs)

/-- An operator between two texts is read between what they are read as. `parent` is the tree of the
whole: it may be a sum or a difference. -/
theorem ReadsAs.binary {l r parent : Tree String} {sign : Char} {token : Token}
    {left right : List Char} {leftTokens rightTokens : List Token}
    (hsign : ∀ {operators : Nat} {seen : List String} {rest : List Char} {tokens : List Token},
      operators < maxOperators → Token.Scans (operators + 1) seen rest tokens →
      Token.Scans operators seen (sign :: rest) (token :: tokens))
    (hends : sign ≠ ' ' ∧ Token.startsName sign = false)
    (hleaves : parent.leaves = l.leaves ++ r.leaves)
    (hcount : parent.operators = l.operators + r.operators + 1)
    (hl : l.ReadsAs left leftTokens) (hr : r.ReadsAs right rightTokens) :
    parent.ReadsAs (left ++ ([' ', sign, ' '] ++ right)) (leftTokens ++ token :: rightTokens) := by
  intro k seen rest tail hnames hnodup hk hrest hs
  rw [hleaves] at hnames hnodup hs
  rw [hcount] at hk hs
  rw [List.forall_mem_append] at hnames
  obtain ⟨hnodupl, hnodupr, hdisjoint⟩ := List.nodup_append.mp hnodup
  -- The names on the left are taken when the right side is read.
  have hright : ∀ name ∈ r.leaves, IsOperandName name ∧ name ∉ l.leaves.reverse ++ seen := by
    intro name hn
    refine ⟨(hnames.2 name hn).1, fun hm => ?_⟩
    rcases List.mem_append.mp hm with hm | hm
    · exact hdisjoint name (List.mem_reverse.mp hm) name hn rfl
    · exact (hnames.2 name hn).2 hm
  have hrights := hr (k + l.operators + 1) (l.leaves.reverse ++ seen) rest tail hright hnodupr
    (by omega) hrest (by
      have e : k + l.operators + 1 + r.operators = k + (l.operators + r.operators + 1) := by omega
      rw [e, ← List.append_assoc, ← List.reverse_append]
      exact hs)
  have hsigns := Token.Scans.space (hsign (by omega) hrights.space)
  have hlefts := hl k seen _ _ hnames.1 hnodupl (by omega)
    (Token.EndsName.space (Token.endsName_cons hends.1 hends.2 _)) hsigns
  simpa using hlefts

theorem readsAs_written (t : Tree String) : t.ReadsAs t.written t.writtenTokens := by
  induction t with
  | leaf name => exact readsAs_leaf name
  | negate t ih => exact ih.negate.inBrackets
  | add l r ihl ihr => exact (ReadsAs.binary .plus (by decide) rfl rfl ihl ihr).inBrackets
  | subtract l r ihl ihr => exact (ReadsAs.binary .minus (by decide) rfl rfl ihl ihr).inBrackets

theorem readsAs_bare (t : Tree String) : t.ReadsAs t.bare t.bareTokens := by
  cases t with
  | leaf name => exact readsAs_leaf name
  | negate t => exact t.readsAs_written.negate
  | add l r => exact .binary .plus (by decide) rfl rfl l.readsAs_written r.readsAs_written
  | subtract l r => exact .binary .minus (by decide) rfl rfl l.readsAs_written r.readsAs_written

/-- The text of an admissible tree is read from its beginning to its end. -/
theorem ReadsAs.scans {t : Tree String} {text : List Char} {tokens : List Token}
    (h : t.ReadsAs text tokens) (ht : t.Admissible) : Token.Scans 0 [] text tokens := by
  have hall := h 0 [] [] [] (fun name hn => ⟨ht.isOperandName name hn, List.not_mem_nil⟩) ht.nodup
    (by simpa using ht.operators_le) Token.endsName_nil .nil
  simpa using hall

/-! ## The tokens are sums -/

theorem derives_writtenTokens (t : Tree String) : Derives .atom t.writtenTokens t := by
  induction t with
  | leaf name => exact .operand name
  | negate t ih => exact .brackets (.single (.negate (.unsigned ih)))
  | add l r ihl ihr => exact .brackets (.add (.single (.unsigned ihl)) (.unsigned ihr))
  | subtract l r ihl ihr => exact .brackets (.subtract (.single (.unsigned ihl)) (.unsigned ihr))

theorem derives_bareTokens (t : Tree String) : Derives .sum t.bareTokens t := by
  cases t with
  | leaf name => exact .single (.unsigned (.operand name))
  | negate t => exact .single (.negate (.unsigned t.derives_writtenTokens))
  | add l r =>
    exact .add (.single (.unsigned l.derives_writtenTokens)) (.unsigned r.derives_writtenTokens)
  | subtract l r =>
    exact .subtract (.single (.unsigned l.derives_writtenTokens))
      (.unsigned r.derives_writtenTokens)

end Tree

/-! ## Matching brackets -/

theorem balanced_of_notMem {text : List Char} (hopen : '(' ∉ text) (hclose : ')' ∉ text) :
    Balanced text where
  count_eq := by rw [List.count_eq_zero_of_not_mem hopen, List.count_eq_zero_of_not_mem hclose]
  count_le before behind h := by
    subst h
    rw [List.count_eq_zero_of_not_mem fun hm => hclose (List.mem_append_left behind hm)]
    exact Nat.zero_le _

theorem Balanced.append {left right : List Char} (hl : Balanced left) (hr : Balanced right) :
    Balanced (left ++ right) where
  count_eq := by rw [List.count_append, List.count_append, hl.count_eq, hr.count_eq]
  count_le before behind h := by
    -- The beginning ends on the left, or it takes all of the left.
    rcases List.append_eq_append_iff.mp h with ⟨middle, rfl, hright⟩ | ⟨middle, hleft, rfl⟩
    · have hle := hr.count_le middle behind hright
      have heq := hl.count_eq
      rw [List.count_append, List.count_append]
      omega
    · exact hl.count_le before middle hleft

theorem Balanced.inBrackets {text : List Char} (h : Balanced text) : Balanced (inBrackets text) where
  count_eq := by simp [Expression.inBrackets, h.count_eq]
  count_le before behind hsplit := by
    cases before with
    | nil => exact Nat.le_refl _
    | cons c before =>
      rw [Expression.inBrackets, List.cons_append] at hsplit
      obtain ⟨rfl, htail⟩ := List.cons.inj hsplit
      rw [List.count_cons_self, List.count_cons_of_ne (by decide)]
      -- Only the last bracket can stand between the text and the end of the beginning.
      rcases List.append_eq_append_iff.mp htail with ⟨middle, rfl, hmiddle⟩ | ⟨middle, hleft, _⟩
      · have hle : middle.count ')' ≤ 1 := by
          have hone : (middle ++ behind).count ')' = 1 := by rw [← hmiddle]; rfl
          rw [List.count_append] at hone
          omega
        have heq := h.count_eq
        rw [List.count_append, List.count_append]
        omega
      · have hle := h.count_le before middle hleft
        omega

namespace Tree

theorem balanced_written_of_bare {t : Tree String} (h : Balanced t.bare) : Balanced t.written := by
  rcases t.written_eq_bare_or with ⟨_, _, e⟩ | ⟨_, e⟩
  · rwa [e]
  · rw [e]
    exact h.inBrackets

/-- A text written around names without brackets has matching brackets. -/
theorem balanced_bare {t : Tree String}
    (h : ∀ name ∈ t.leaves, '(' ∉ name.toList ∧ ')' ∉ name.toList) : Balanced t.bare := by
  induction t with
  | leaf name =>
    obtain ⟨hopen, hclose⟩ := h name List.mem_cons_self
    exact balanced_of_notMem hopen hclose
  | negate t ih =>
    have hsign : Balanced ['-'] := balanced_of_notMem (by decide) (by decide)
    exact hsign.append (balanced_written_of_bare (ih h))
  | add l r ihl ihr =>
    rw [leaves, List.forall_mem_append] at h
    have hsign : Balanced [' ', '+', ' '] := balanced_of_notMem (by decide) (by decide)
    exact (balanced_written_of_bare (ihl h.1)).append
      (hsign.append (balanced_written_of_bare (ihr h.2)))
  | subtract l r ihl ihr =>
    rw [leaves, List.forall_mem_append] at h
    have hsign : Balanced [' ', '-', ' '] := balanced_of_notMem (by decide) (by decide)
    exact (balanced_written_of_bare (ihl h.1)).append
      (hsign.append (balanced_written_of_bare (ihr h.2)))

/-! ## The ends of a text -/

theorem solid_inBrackets (text : List Char) : Text.Solid (inBrackets text) := by
  have hopen : Text.Solid ['('] := Text.solid_singleton (by decide)
  have hclose : Text.Solid [')'] := Text.solid_singleton (by decide)
  exact hopen.append hclose text

/-- Names and brackets stand at the ends, so there is nothing to trim. -/
theorem solid_written {t : Tree String} (h : ∀ name ∈ t.leaves, IsOperandName name) :
    Text.Solid t.written := by
  cases t with
  | leaf name => exact solid_of_isOperandName (h name List.mem_cons_self)
  | negate | add | subtract => exact solid_inBrackets _

theorem solid_bare {t : Tree String} (h : ∀ name ∈ t.leaves, IsOperandName name) :
    Text.Solid t.bare := by
  cases t with
  | leaf name => exact solid_of_isOperandName (h name List.mem_cons_self)
  | negate t =>
    have hsign : Text.Solid ['-'] := Text.solid_singleton (by decide)
    exact hsign.append (solid_written (t := t) h) []
  | add l r | subtract l r =>
    rw [leaves, List.forall_mem_append] at h
    exact (solid_written h.1).append (solid_written h.2) _

/-- What is stripped from the text of a tree is its outermost pair of brackets. -/
theorem toList_stripBrackets {t : Tree String} {text : String} (htext : text.toList = t.written)
    (h : ∀ name ∈ t.leaves, '(' ∉ name.toList) : (stripBrackets text).toList = t.bare := by
  rcases t.written_eq_bare_or with ⟨name, rfl, e⟩ | ⟨_, e⟩
  · have hne : ∀ rest, text.toList ≠ '(' :: rest := by
      intro rest hr
      refine h name List.mem_cons_self ?_
      have hname : name.toList = '(' :: rest := by rw [← hr, htext]; rfl
      exact hname ▸ List.mem_cons_self
    unfold stripBrackets
    split
    next rest hr => exact absurd hr (hne rest)
    next => rw [htext, e]
  · rw [e] at htext
    rw [stripBrackets, htext, inBrackets]
    simp

end Tree

end ItemCatalog.Expression
