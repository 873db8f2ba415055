import Mathlib.Data.List.TakeWhile
import ItemCatalog.Proofs.Expression.Grammar
import ItemCatalog.Proofs.Text.Letter
import ItemCatalog.Proofs.Text.Word

/-!
# Scanning sort expressions

`Token.Scans` lists what a scan can do at the beginning of a text; all laws of scanning follow from
it by induction.

Results:
1. `Token.Scans.noAdjacentOperands`, `Token.Scans.names_spec`, `Token.Scans.signs_le`: no name of a
   scanned list stands right behind another one, no name comes twice, and there are at most five
   signs.
2. `Token.Scans.run`, `Token.Scans.name`: a name is read back when nothing behind it can go on with
   it.
3. `Token.scan_of_scans`: the case of letters makes no difference.
-/

namespace ItemCatalog.Expression

/-! ## Definitions -/

/-- The names that a scan gives: one or more words over small letters and question marks, with single
spaces between them. -/
def IsOperandName (name : String) : Prop :=
  ∀ word ∈ Text.pieces ' ' name.toList, word ≠ [] ∧ ∀ c ∈ word, Token.startsName c

instance (name : String) : Decidable (IsOperandName name) :=
  decidable_of_iff ((Text.pieces ' ' name.toList).all fun word =>
    !word.isEmpty && word.all Token.startsName) (by simp [IsOperandName])

namespace Token

/-- The name of a stat, if the token is one. -/
def name? : Token → Option String
  | operand name => some name
  | _ => none

/-- The names in a list, in order. -/
def names (tokens : List Token) : List String :=
  tokens.filterMap name?

/-- Whether a token is a sign. -/
def isSign : Token → Bool
  | plus | minus => true
  | _ => false

/-- How many signs a list holds. -/
def signs (tokens : List Token) : Nat :=
  tokens.countP isSign

/-- `Scans operators seen cs tokens`: behind `operators` signs and the names `seen`, the text `cs` is
read as `tokens`. -/
inductive Scans : Nat → List String → List Char → List Token → Prop
  | nil {operators : Nat} {seen : List String} : Scans operators seen [] []
  | space {operators : Nat} {seen : List String} {rest : List Char} {tokens : List Token} :
      Scans operators seen rest tokens → Scans operators seen (' ' :: rest) tokens
  | plus {operators : Nat} {seen : List String} {rest : List Char} {tokens : List Token} :
      operators < maxOperators → Scans (operators + 1) seen rest tokens →
      Scans operators seen ('+' :: rest) (.plus :: tokens)
  | minus {operators : Nat} {seen : List String} {rest : List Char} {tokens : List Token} :
      operators < maxOperators → Scans (operators + 1) seen rest tokens →
      Scans operators seen ('-' :: rest) (.minus :: tokens)
  | opening {operators : Nat} {seen : List String} {rest : List Char} {tokens : List Token} :
      Scans operators seen rest tokens →
      Scans operators seen ('(' :: rest) (.opening :: tokens)
  | closing {operators : Nat} {seen : List String} {rest : List Char} {tokens : List Token} :
      Scans operators seen rest tokens →
      Scans operators seen (')' :: rest) (.closing :: tokens)
  | operand {operators : Nat} {seen : List String} {c : Char} {rest : List Char}
      {tokens : List Token} {name : String} :
      startsName c → nameOf (c :: rest.takeWhile continuesName) = name → name ∉ seen →
      Scans operators (name :: seen) (rest.dropWhile continuesName) tokens →
      Scans operators seen (c :: rest) (.operand name :: tokens)

/-- Nothing but spaces can go on with a name in front of the text. -/
def EndsName : List Char → Prop
  | [] => True
  | c :: rest => if c = ' ' then EndsName rest else startsName c = false

/-! ## What a scan does -/

theorem ok_of_bind_ok {ε α β : Type} {x : Except ε α} {f : α → β} {b : β}
    (h : (do return f (← x)) = Except.ok b) : ∃ a, x = .ok a ∧ b = f a := by
  cases x with
  | error e => simp [bind, Except.bind] at h
  | ok a => exact ⟨a, rfl, (Except.ok.inj h).symm⟩

theorem scans_of_scanFrom {operators : Nat} {seen : List String} {cs : List Char}
    {tokens : List Token} (h : scanFrom operators seen cs = .ok tokens) :
    Scans operators seen cs tokens := by
  fun_induction scanFrom operators seen cs generalizing tokens with
  | case1 =>
    cases h
    exact .nil
  | case2 _ _ _ ih => exact .space (ih h)
  | case3 => cases h
  | case4 operators seen c rest hs hsign hfew ih =>
    obtain ⟨tokens', h', rfl⟩ := ok_of_bind_ok h
    by_cases hc : c = '+'
    · subst hc
      exact .plus (Nat.lt_of_not_le hfew) (ih h')
    · obtain rfl : c = '-' := by simpa [hc] using hsign
      exact .minus (Nat.lt_of_not_le hfew) (ih h')
  | case5 operators seen rest _ _ ih =>
    obtain ⟨tokens', h', rfl⟩ := ok_of_bind_ok h
    exact .opening (ih h')
  | case6 operators seen rest _ _ _ ih =>
    obtain ⟨tokens', h', rfl⟩ := ok_of_bind_ok h
    exact .closing (ih h')
  | case7 => cases h
  | case8 operators seen c rest _ _ _ _ hc name hseen =>
    rename_i ih
    obtain ⟨tokens', h', rfl⟩ := ok_of_bind_ok h
    exact .operand hc rfl (by simpa using hseen) (ih h')
  | case9 => cases h

/-- Characters that start names are none of the others. -/
theorem ne_of_startsName {c d : Char} (h : startsName c) (hd : startsName d = false) : c ≠ d := by
  rintro rfl
  rw [h] at hd
  cases hd

theorem scanFrom_of_scans {operators : Nat} {seen : List String} {cs : List Char}
    {tokens : List Token} (h : Scans operators seen cs tokens) :
    scanFrom operators seen cs = .ok tokens := by
  induction h with
  | nil => rw [scanFrom]
  | space _ ih => rw [scanFrom, if_pos rfl, ih]
  | plus hk _ ih =>
    rw [scanFrom, if_neg (by decide), if_pos (by decide), if_neg (Nat.not_le_of_lt hk), ih]
    rfl
  | minus hk _ ih =>
    rw [scanFrom, if_neg (by decide), if_pos (by decide), if_neg (Nat.not_le_of_lt hk), ih]
    rfl
  | opening _ ih =>
    rw [scanFrom, if_neg (by decide), if_neg (by decide), if_pos rfl, ih]
    rfl
  | closing _ ih =>
    rw [scanFrom, if_neg (by decide), if_neg (by decide), if_neg (by decide), if_pos rfl, ih]
    rfl
  | @operand operators seen c rest tokens name hc hname hseen _ ih =>
    have hsign : ¬ (decide (c = '+') || decide (c = '-')) = true := by
      simp [ne_of_startsName hc (d := '+') (by decide), ne_of_startsName hc (d := '-') (by decide)]
    subst hname
    rw [scanFrom, if_neg (ne_of_startsName hc (by decide)), if_neg hsign,
      if_neg (ne_of_startsName hc (by decide)), if_neg (ne_of_startsName hc (by decide)), if_pos hc]
    rw [if_neg (by simpa using hseen), ih]
    rfl

/-! ## What is scanned -/

/-- A text that begins with a character that no name goes on with does not begin with a name. -/
theorem Scans.isOperand_head {operators : Nat} {seen : List String} {cs : List Char}
    {token : Token} {tokens : List Token} (h : Scans operators seen cs (token :: tokens))
    (hc : ∀ c, cs.head? = some c → continuesName c = false) : token.isOperand = false := by
  cases h with
  | space _ => exact absurd (hc ' ' rfl) (by decide)
  | plus _ _ => rfl
  | minus _ _ => rfl
  | opening _ => rfl
  | closing _ => rfl
  | operand hs _ _ _ =>
    have := hc _ rfl
    simp [continuesName, hs] at this

/-- A name takes all that could go on with it, so no name stands right behind it. -/
theorem Scans.noAdjacentOperands {operators : Nat} {seen : List String} {cs : List Char}
    {tokens : List Token} (h : Scans operators seen cs tokens) : NoAdjacentOperands tokens := by
  induction h with
  | nil => exact .nil
  | space _ ih => exact ih
  | plus _ _ ih => exact List.isChain_cons.mpr ⟨by simp [isOperand], ih⟩
  | minus _ _ ih => exact List.isChain_cons.mpr ⟨by simp [isOperand], ih⟩
  | opening _ ih => exact List.isChain_cons.mpr ⟨by simp [isOperand], ih⟩
  | closing _ ih => exact List.isChain_cons.mpr ⟨by simp [isOperand], ih⟩
  | @operand _ _ _ rest tokens _ _ _ _ h ih =>
    refine List.isChain_cons.mpr ⟨fun token ht => ?_, ih⟩
    cases tokens with
    | nil => cases ht
    | cons first tokens =>
      cases ht
      -- The text behind the name begins where no name goes on.
      have hf := h.isOperand_head fun c hc => by
        have hd := List.head?_dropWhile_not continuesName rest
        rwa [hc] at hd
      simp [hf]

theorem nameOf_isOperandName {c : Char} {rest : List Char} (hc : startsName c)
    (hrest : ∀ d ∈ rest, continuesName d) : IsOperandName (nameOf (c :: rest)) := by
  have hparts : ∀ part ∈ Text.spacedWords (c :: rest), ' ' ∉ part := fun part hp =>
    Text.separator_notMem_of_mem_pieces (Text.mem_spacedWords.mp hp).1
  -- The piece that `c` stands in is a word.
  have hne : Text.spacedWords (c :: rest) ≠ [] := by
    have hspace : c ≠ ' ' := ne_of_startsName hc (by decide)
    obtain ⟨piece, hp, hm⟩ :=
      Text.exists_mem_pieces (List.mem_cons_self : c ∈ c :: rest) hspace
    exact List.ne_nil_of_mem (Text.mem_spacedWords.mpr ⟨hp, List.ne_nil_of_mem hm⟩)
  intro word hw
  rw [nameOf, String.toList_ofList, Text.pieces_intercalate hne hparts] at hw
  refine ⟨(Text.mem_spacedWords.mp hw).2, fun d hd => ?_⟩
  have hmem : d ∈ c :: rest := (Text.of_mem_pieces (Text.mem_spacedWords.mp hw).1 hd).1
  rcases List.mem_cons.mp hmem with rfl | hmem
  · exact hc
  · have hne : d ≠ ' ' := fun e => hparts word hw (e ▸ hd)
    simpa [continuesName, hne] using hrest d hmem

/-- The names of a scanned list are new and well formed. -/
theorem Scans.names_spec {operators : Nat} {seen : List String} {cs : List Char}
    {tokens : List Token} (h : Scans operators seen cs tokens) :
    (names tokens).Nodup ∧ ∀ name ∈ names tokens, IsOperandName name ∧ name ∉ seen := by
  induction h with
  | nil => simp [names]
  | space _ ih => exact ih
  | plus _ _ ih => exact ih
  | minus _ _ ih => exact ih
  | opening _ ih => exact ih
  | closing _ ih => exact ih
  | @operand _ seen c rest tokens name hc hname hseen _ ih =>
    obtain ⟨hnodup, hall⟩ := ih
    -- Behind the name it is among those seen, so it does not come again.
    have hok : IsOperandName name := hname ▸ nameOf_isOperandName hc fun d hd =>
      List.mem_takeWhile_imp hd
    refine ⟨List.nodup_cons.mpr ⟨fun hm => (hall name hm).2 List.mem_cons_self, hnodup⟩, ?_⟩
    intro n hn
    rcases List.mem_cons.mp hn with rfl | hn
    · exact ⟨hok, hseen⟩
    · exact ⟨(hall n hn).1, fun hm => (hall n hn).2 (List.mem_cons_of_mem _ hm)⟩

/-- The signs that were read before count. -/
theorem Scans.signs_le {operators : Nat} {seen : List String} {cs : List Char}
    {tokens : List Token} (h : Scans operators seen cs tokens) (hk : operators ≤ maxOperators) :
    operators + signs tokens ≤ maxOperators := by
  induction h with
  | nil => simpa [signs] using hk
  | space _ ih => exact ih hk
  | plus hlt _ ih | minus hlt _ ih =>
    have := ih hlt
    simp only [signs, List.countP_cons, isSign, if_true] at this ⊢
    omega
  | opening _ ih | closing _ ih => simpa [signs, isSign] using ih hk
  | operand _ _ _ _ ih => simpa [signs, isSign] using ih hk

/-! ## Reading names back -/

theorem endsName_nil : EndsName [] := trivial

theorem EndsName.space {rest : List Char} (h : EndsName rest) : EndsName (' ' :: rest) := by
  rwa [EndsName, if_pos rfl]

theorem endsName_cons {c : Char} (hc : c ≠ ' ') (h : startsName c = false) (rest : List Char) :
    EndsName (c :: rest) := by
  rwa [EndsName, if_neg hc]

/-- Behind a name only spaces are taken along with it, and they may as well be read later. -/
theorem EndsName.spec {rest : List Char} (h : EndsName rest) :
    (∀ c ∈ rest.takeWhile continuesName, c = ' ') ∧
      ∀ {operators : Nat} {seen : List String} {tokens : List Token},
        Scans operators seen rest tokens →
        Scans operators seen (rest.dropWhile continuesName) tokens := by
  induction rest with
  | nil => exact ⟨by simp, fun hs => hs⟩
  | cons c rest ih =>
    by_cases hc : c = ' '
    · subst hc
      rw [EndsName, if_pos rfl] at h
      obtain ⟨hspaces, hdrop⟩ := ih h
      rw [List.takeWhile_cons_of_pos (by decide), List.dropWhile_cons_of_pos (by decide)]
      refine ⟨fun d hd => ?_, fun hs => ?_⟩
      · rcases List.mem_cons.mp hd with rfl | hd
        · rfl
        · exact hspaces d hd
      · cases hs with
        | space hs => exact hdrop hs
        | operand hstart _ _ _ => exact absurd hstart (by decide)
    · rw [EndsName, if_neg hc] at h
      have hcont : continuesName c = false := by simp [continuesName, h, hc]
      rw [List.takeWhile_cons_of_neg (by simp [hcont]),
        List.dropWhile_cons_of_neg (by simp [hcont])]
      exact ⟨by simp, fun hs => hs⟩

end Token

namespace IsOperandName

open Token

variable {name : String}

theorem pieces_eq (h : IsOperandName name) :
    Text.spacedWords name.toList = Text.pieces ' ' name.toList :=
  Text.spacedWords_of_forall_ne_nil fun word hw => (h word hw).1

/-- Every character is a space or one that names start with. -/
theorem startsName_of_mem (h : IsOperandName name) {c : Char} (hm : c ∈ name.toList)
    (hc : c ≠ ' ') : startsName c := by
  obtain ⟨piece, hp, hm⟩ := Text.exists_mem_pieces hm hc
  exact (h piece hp).2 c hm

theorem continuesName_of_mem (h : IsOperandName name) {c : Char} (hm : c ∈ name.toList) :
    continuesName c := by
  by_cases hc : c = ' '
  · simp [continuesName, hc]
  · simp [continuesName, h.startsName_of_mem hm hc]

theorem toList_ne_nil (h : IsOperandName name) : name.toList ≠ [] := by
  intro e
  exact (h [] (by simp [e])).1 rfl

theorem startsName_head (h : IsOperandName name) {c : Char} (hc : name.toList.head? = some c) :
    startsName c := by
  obtain ⟨rest, hr⟩ := List.head?_eq_some_iff.mp hc
  refine h.startsName_of_mem (hr ▸ List.mem_cons_self) ?_
  rintro rfl
  exact (h [] (by rw [hr, Text.pieces_cons_separator]; exact List.mem_cons_self)).1 rfl

theorem startsName_last (h : IsOperandName name) {c : Char} (hc : name.toList.getLast? = some c) :
    startsName c := by
  obtain ⟨before, hb⟩ := List.getLast?_eq_some_iff.mp hc
  refine h.startsName_of_mem (hb ▸ by simp) ?_
  rintro rfl
  exact (h [] (by rw [hb, Text.pieces_append_cons]; simp)).1 rfl

theorem nameOf_toList (h : IsOperandName name) : nameOf name.toList = name := by
  rw [nameOf, h.pieces_eq, Text.intercalate_pieces, String.ofList_toList]

end IsOperandName

namespace Token

/-- Spaces behind a name do not count. -/
theorem nameOf_append_spaces (cs : List Char) {spaces : List Char} (hs : ∀ c ∈ spaces, c = ' ') :
    nameOf (cs ++ spaces) = nameOf cs := by
  rw [nameOf, Text.spacedWords_append_spaces cs hs, nameOf]

/-- Characters that make up a name are read as one when nothing behind them can go on with it. -/
theorem Scans.run {operators : Nat} {seen : List String} {cs rest : List Char} {name : String}
    {tokens : List Token} (hne : cs ≠ []) (hstart : ∀ c, cs.head? = some c → startsName c)
    (hcont : ∀ c ∈ cs, continuesName c) (hname : nameOf cs = name) (hseen : name ∉ seen)
    (hrest : EndsName rest) (h : Scans operators (name :: seen) rest tokens) :
    Scans operators seen (cs ++ rest) (.operand name :: tokens) := by
  obtain ⟨hspaces, hdrop⟩ := hrest.spec
  cases cs with
  | nil => exact absurd rfl hne
  | cons c cs =>
    have hcont : ∀ d ∈ cs, continuesName d := (List.forall_mem_cons.mp hcont).2
    rw [List.cons_append]
    refine .operand (hstart c rfl) ?_ hseen ?_
    · rw [List.takeWhile_append_of_pos hcont, ← List.cons_append, nameOf_append_spaces _ hspaces,
        hname]
    · rw [List.dropWhile_append_of_pos hcont]
      exact hdrop h

/-- A name is read back. -/
theorem Scans.name {operators : Nat} {seen : List String} {name : String} {rest : List Char}
    {tokens : List Token} (hn : IsOperandName name) (hseen : name ∉ seen) (hrest : EndsName rest)
    (h : Scans operators (name :: seen) rest tokens) :
    Scans operators seen (name.toList ++ rest) (.operand name :: tokens) :=
  h.run hn.toList_ne_nil (fun _ => hn.startsName_head) (fun _ => hn.continuesName_of_mem)
    hn.nameOf_toList hseen hrest

/-! ## The text around an expression -/

/-- The case of letters makes no difference. -/
theorem scan_of_scans {source : String} {cs : List Char} {tokens : List Token}
    (hs : source.toList.map Char.toLower = cs) (hcs : Text.Solid cs) (h : Scans 0 [] cs tokens) :
    scan source = .ok tokens := by
  rw [scan, ← Text.trim_map Text.isBlank_toLower, hs, Text.trim_eq_self hcs]
  exact scanFrom_of_scans h

end Token

end ItemCatalog.Expression
