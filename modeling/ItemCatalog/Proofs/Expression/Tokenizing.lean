import ItemCatalog.Proofs.Expression.Faults
import ItemCatalog.Proofs.Expression.Label

/-!
# Scanning is exact

The outcome of a scan is told from the text alone: it fails with the fault that stands farthest to the
left, and without a fault it gives a well-formed list. Every well-formed list is what a scan gives: it
is read back from all texts that spell it, whatever spaces stand between its tokens and however wide
the spaces in its names are.

Results:
1. `Spells.exists_core`: the spaces around a spelled list can be taken away.
2. `WellFormed.scans`, `Scans.spells`: a well-formed list is scanned from all its spellings, and from
   nothing else.
3. `scan_eq_error_iff`, `exists_scan_eq_ok_iff`, `scan_eq_ok_iff`: the outcome of a scan.
4. `scan_exact`: when a scan succeeds, what it reports otherwise, and what it gives.
-/

namespace ItemCatalog.Expression.Token

/-! ## Definitions -/

/-- The text that is scanned: without the blanks around it and in small letters. -/
def smallText (source : String) : List Char :=
  (Text.trim source.toList).map Char.toLower

/-- What a scan gives: no name stands right behind another one, names are words with single spaces
between them, no name comes twice, and there are at most five signs. -/
structure WellFormed (tokens : List Token) : Prop where
  noAdjacentOperands : NoAdjacentOperands tokens
  isOperandName : ∀ name ∈ names tokens, IsOperandName name
  nodup : (names tokens).Nodup
  signs_le : signs tokens ≤ maxOperators

instance (tokens : List Token) : Decidable (WellFormed tokens) :=
  decidable_of_iff (NoAdjacentOperands tokens ∧ (∀ name ∈ names tokens, IsOperandName name) ∧
      (names tokens).Nodup ∧ signs tokens ≤ maxOperators)
    ⟨fun ⟨hadj, hnames, hnodup, hsigns⟩ => ⟨hadj, hnames, hnodup, hsigns⟩,
      fun h => ⟨h.noAdjacentOperands, h.isOperandName, h.nodup, h.signs_le⟩⟩

/-- The text is the name, with any number of spaces where the name has one. -/
inductive SpellsName : List Char → List Char → Prop
  | nil : SpellsName [] []
  | cons {c : Char} {name text : List Char} : SpellsName name text → SpellsName (c :: name) (c :: text)
  | widen {name text : List Char} : SpellsName (' ' :: name) text → SpellsName (' ' :: name) (' ' :: text)

/-- The text of one token. -/
inductive SpellsToken : Token → List Char → Prop
  | opening : SpellsToken .opening ['(']
  | closing : SpellsToken .closing [')']
  | plus : SpellsToken .plus ['+']
  | minus : SpellsToken .minus ['-']
  | operand {name : String} {text : List Char} :
      SpellsName name.toList text → SpellsToken (.operand name) text

/-- The texts of the tokens, one behind another, with any number of spaces between and around them. -/
inductive Spells : List Token → List Char → Prop
  | nil : Spells [] []
  | space {tokens : List Token} {text : List Char} : Spells tokens text → Spells tokens (' ' :: text)
  | token {token : Token} {written : List Char} {tokens : List Token} {text : List Char} :
      SpellsToken token written → Spells tokens text → Spells (token :: tokens) (written ++ text)

/-! ## Spelled names -/

namespace SpellsName

variable {name text : List Char}

theorem refl (name : List Char) : SpellsName name name := by
  induction name with
  | nil => exact .nil
  | cons c name ih => exact .cons ih

theorem mem (h : SpellsName name text) {c : Char} (hc : c ∈ text) : c ∈ name := by
  induction h with
  | nil => exact hc
  | cons _ ih =>
    rcases List.mem_cons.mp hc with rfl | hc
    · exact List.mem_cons_self
    · exact List.mem_cons_of_mem _ (ih hc)
  | widen _ ih =>
    rcases List.mem_cons.mp hc with rfl | hc
    · exact List.mem_cons_self
    · exact ih hc

theorem head?_eq (h : SpellsName name text) : text.head? = name.head? := by
  cases h <;> rfl

theorem ne_nil (h : SpellsName name text) (hname : name ≠ []) : text ≠ [] := by
  cases h with
  | nil => exact hname
  | cons _ => exact List.cons_ne_nil _ _
  | widen _ => exact List.cons_ne_nil _ _

theorem getLast?_eq (h : SpellsName name text) : text.getLast? = name.getLast? := by
  induction h with
  | nil => rfl
  | cons _ ih => rw [List.getLast?_cons, List.getLast?_cons, ih]
  | widen h ih =>
    rw [List.getLast?_cons, ih]
    rw [List.getLast?_cons, Option.getD_some]

/-- Wider spaces give no other words, whatever stands in front of them. -/
theorem spacedWords_append (h : SpellsName name text) (before : List Char) :
    Text.spacedWords (before ++ text) = Text.spacedWords (before ++ name) := by
  induction h generalizing before with
  | nil => rfl
  | @cons c name text _ ih =>
    have hnext := ih (before ++ [c])
    rwa [List.append_assoc, List.append_assoc] at hnext
  | @widen name text _ ih =>
    have hwords : Text.spacedWords text = Text.spacedWords (' ' :: name) := ih []
    rw [Text.spacedWords_append_cons, hwords, Text.spacedWords_cons_space,
      Text.spacedWords_append_cons]

theorem nameOf_eq (h : SpellsName name text) : nameOf text = nameOf name := by
  have hwords : Text.spacedWords text = Text.spacedWords name := h.spacedWords_append []
  rw [nameOf, hwords, nameOf]

/-- A space is made as wide as spaces stand behind it. -/
theorem widen_spaces (h : SpellsName name text) {spaces : List Char} (hs : ∀ c ∈ spaces, c = ' ') :
    SpellsName (' ' :: name) (' ' :: (spaces ++ text)) := by
  induction spaces with
  | nil => exact .cons h
  | cons c spaces ih =>
    obtain ⟨rfl, hspaces⟩ := List.forall_mem_cons.mp hs
    exact .widen (ih hspaces)

/-- A name that has not been seen is read from each of its spellings. -/
theorem scans {operators : Nat} {seen : List String} {name : String} {text rest : List Char}
    {tokens : List Token} (h : SpellsName name.toList text) (hname : IsOperandName name)
    (hseen : name ∉ seen) (hrest : EndsName rest) (hs : Scans operators (name :: seen) rest tokens) :
    Scans operators seen (text ++ rest) (.operand name :: tokens) := by
  refine hs.run (h.ne_nil hname.toList_ne_nil) (fun c hc => ?_) (fun c hc => ?_) ?_ hseen hrest
  · exact hname.startsName_head (h.head?_eq ▸ hc)
  · exact hname.continuesName_of_mem (h.mem hc)
  · rw [h.nameOf_eq, hname.nameOf_toList]

end SpellsName

/-- A character in front of a word goes on with it, and in front of spaces it is a word of its own. -/
theorem SpellsName.cons_words {c d : Char} {front rest text : List Char} (hc : c ≠ ' ') (hd : d ≠ ' ')
    (hfront : ∀ b ∈ front, b = ' ')
    (h : SpellsName ([' '].intercalate (Text.spacedWords (front ++ d :: rest))) (d :: text)) :
    SpellsName ([' '].intercalate (Text.spacedWords (c :: (front ++ d :: rest))))
      (c :: (front ++ d :: text)) := by
  cases front with
  | nil =>
    rw [List.nil_append, Text.spacedWords_cons_cons hc hd, Text.intercalate_extendFirst]
    exact .cons h
  | cons b front =>
    obtain ⟨rfl, hspaces⟩ := List.forall_mem_cons.mp hfront
    rw [List.cons_append, Text.spacedWords_cons_space] at h
    have hne : Text.spacedWords (front ++ d :: rest) ≠ [] := fun hnil => by
      rw [hnil] at h
      cases h
    rw [List.cons_append, Text.spacedWords_cons_cons_space hc, List.intercalate_cons_of_ne_nil hne]
    exact .cons (h.widen_spaces hspaces)

/-- Without the spaces around it a text spells its words with single spaces between them. -/
theorem exists_spelledName (cs : List Char) :
    ∃ front core back, cs = front ++ (core ++ back) ∧ (∀ c ∈ front, c = ' ') ∧
      (∀ c ∈ back, c = ' ') ∧ SpellsName ([' '].intercalate (Text.spacedWords cs)) core ∧
      core.head? ≠ some ' ' := by
  induction cs with
  | nil => exact ⟨[], [], [], rfl, by simp, by simp, .nil, by simp⟩
  | cons c cs ih =>
    obtain ⟨front, core, back, rfl, hfront, hback, hspells, hhead⟩ := ih
    by_cases hc : c = ' '
    · subst hc
      refine ⟨' ' :: front, core, back, rfl, ?_, hback, ?_, hhead⟩
      · exact List.forall_mem_cons.mpr ⟨rfl, hfront⟩
      · rwa [Text.spacedWords_cons_space]
    · cases core with
      | nil =>
        -- Only spaces stand behind `c`.
        have hspaces : ∀ d ∈ front ++ ([] ++ back), d = ' ' :=
          List.forall_mem_append.mpr ⟨hfront, hback⟩
        refine ⟨[], [c], front ++ ([] ++ back), rfl, by simp, hspaces, ?_, by simpa using hc⟩
        have hwords := Text.spacedWords_append_spaces [c] hspaces
        rw [List.singleton_append] at hwords
        rw [hwords, Text.spacedWords_singleton hc, List.intercalate_singleton]
        exact .refl [c]
      | cons d core =>
        have hd : d ≠ ' ' := fun e => hhead (by rw [e]; rfl)
        refine ⟨[], c :: (front ++ d :: core), back, by simp, by simp, hback, ?_, by simpa using hc⟩
        exact hspells.cons_words hc hd hfront

/-! ## Spelled lists -/

/-- The text of a token begins and ends with characters that are not blank. -/
theorem SpellsToken.solid {token : Token} {written : List Char} (h : SpellsToken token written)
    (hname : ∀ name, token = .operand name → IsOperandName name) : Text.Solid written := by
  cases h with
  | opening | closing | plus | minus => exact Text.solid_singleton (by decide)
  | @operand name _ h =>
    have hsolid := solid_of_isOperandName (hname name rfl)
    refine ⟨h.ne_nil hsolid.ne_nil, fun c hc => ?_, fun c hc => ?_⟩
    · exact hsolid.head c (h.head?_eq ▸ hc)
    · exact hsolid.last c (h.getLast?_eq ▸ hc)

namespace Spells

variable {tokens : List Token} {text : List Char}

theorem spaces_append (h : Spells tokens text) {spaces : List Char} (hs : ∀ c ∈ spaces, c = ' ') :
    Spells tokens (spaces ++ text) := by
  induction spaces with
  | nil => exact h
  | cons c spaces ih =>
    obtain ⟨rfl, hspaces⟩ := List.forall_mem_cons.mp hs
    exact .space (ih hspaces)

/-- What is left of a spelled list without the spaces around it spells the list too. -/
theorem exists_core (h : Spells tokens text) (hnames : ∀ name ∈ names tokens, IsOperandName name) :
    ∃ front core back, text = front ++ (core ++ back) ∧ (∀ c ∈ front, c = ' ') ∧
      (∀ c ∈ back, c = ' ') ∧ Spells tokens core ∧ (core = [] ∨ Text.Solid core) := by
  induction h with
  | nil => exact ⟨[], [], [], rfl, by simp, by simp, .nil, .inl rfl⟩
  | space _ ih =>
    obtain ⟨front, core, back, rfl, hfront, hrest⟩ := ih hnames
    exact ⟨' ' :: front, core, back, rfl, List.forall_mem_cons.mpr ⟨rfl, hfront⟩, hrest⟩
  | @token token written tokens text ht _ ih =>
    have hsolid : Text.Solid written := ht.solid fun name hname =>
      hnames name (List.mem_filterMap.mpr ⟨token, List.mem_cons_self, by rw [hname]; rfl⟩)
    have htail : ∀ name ∈ names tokens, IsOperandName name := fun name hn => by
      obtain ⟨other, hother, hname⟩ := List.mem_filterMap.mp hn
      exact hnames name (List.mem_filterMap.mpr ⟨other, List.mem_cons_of_mem _ hother, hname⟩)
    obtain ⟨front, core, back, rfl, hfront, hback, hcore, hends⟩ := ih htail
    rcases hends with rfl | hends
    · -- Only spaces stand behind the token.
      have hspells : Spells (token :: tokens) written := by
        simpa using Spells.token ht hcore
      exact ⟨[], written, front ++ back, by simp, by simp,
        List.forall_mem_append.mpr ⟨hfront, hback⟩, hspells, .inr hsolid⟩
    · exact ⟨[], written ++ (front ++ core), back, by simp, by simp, hback,
        .token ht (hcore.spaces_append hfront), .inr (hsolid.append hends front)⟩

/-- The blanks around a spelled list are spaces. -/
theorem trim (h : Spells tokens text) (hnames : ∀ name ∈ names tokens, IsOperandName name) :
    Spells tokens (Text.trim text) := by
  obtain ⟨front, core, back, rfl, hfront, hback, hcore, hends⟩ := h.exists_core hnames
  have hblank : ∀ {spaces : List Char}, (∀ c ∈ spaces, c = ' ') → ∀ c ∈ spaces, Text.isBlank c :=
    fun hs c hc => by rw [hs c hc]; decide
  rw [Text.trim_blanks_append (hblank hfront), Text.trim_append_blanks (hblank hback)]
  rcases hends with rfl | hends
  · exact hcore
  · rwa [Text.trim_eq_self hends]

/-- Nothing goes on with a name in front of a list that begins with none. -/
theorem endsName (h : Spells tokens text)
    (hfirst : ∀ token, tokens.head? = some token → token.isOperand = false) : EndsName text := by
  induction h with
  | nil => exact endsName_nil
  | space _ ih => exact (ih hfirst).space
  | @token token written _ text ht _ _ =>
    have hno := hfirst token rfl
    cases ht with
    | opening | closing | plus | minus => exact endsName_cons (by decide) (by decide) text
    | operand _ => cases hno

/-- A list is scanned from each of its spellings, behind signs and names that leave room for its own. -/
theorem scansBehind (h : Spells tokens text) {operators : Nat} {seen : List String}
    (hadj : NoAdjacentOperands tokens)
    (hnames : ∀ name ∈ names tokens, IsOperandName name ∧ name ∉ seen) (hnodup : (names tokens).Nodup)
    (hsigns : operators + signs tokens ≤ maxOperators) : Scans operators seen text tokens := by
  induction h generalizing operators seen with
  | nil => exact .nil
  | space _ ih => exact .space (ih hadj hnames hnodup hsigns)
  | @token token written tokens text ht h ih =>
    obtain ⟨hfirst, hchain⟩ := List.isChain_cons.mp hadj
    have hroom : operators + (if isSign token then 1 else 0) + signs tokens ≤ maxOperators := by
      rwa [signs, List.countP_cons, Nat.add_comm (tokens.countP isSign), ← Nat.add_assoc] at hsigns
    cases ht with
    | opening => exact .opening (ih hchain hnames hnodup hroom)
    | closing => exact .closing (ih hchain hnames hnodup hroom)
    | plus => exact .plus (Nat.le_of_add_right_le hroom) (ih hchain hnames hnodup hroom)
    | minus => exact .minus (Nat.le_of_add_right_le hroom) (ih hchain hnames hnodup hroom)
    | @operand name _ hw =>
      obtain ⟨⟨hname, hseen⟩, hnames⟩ := List.forall_mem_cons.mp hnames
      obtain ⟨hnew, hnodup⟩ := List.nodup_cons.mp hnodup
      have hends : EndsName text := h.endsName fun other hother => by
        simpa [isOperand] using hfirst other hother
      have hrest : ∀ other ∈ names tokens, IsOperandName other ∧ other ∉ name :: seen := by
        intro other hother
        refine ⟨(hnames other hother).1, fun hm => ?_⟩
        rcases List.mem_cons.mp hm with rfl | hm
        · exact hnew hother
        · exact (hnames other hother).2 hm
      exact hw.scans hname hseen hends (ih hchain hrest hnodup hroom)

end Spells

theorem WellFormed.scans {tokens : List Token} {text : List Char} (h : WellFormed tokens)
    (hs : Spells tokens text) : Scans 0 [] text tokens :=
  hs.scansBehind h.noAdjacentOperands (fun name hn => ⟨h.isOperandName name hn, List.not_mem_nil⟩)
    h.nodup (by simpa using h.signs_le)

theorem Scans.wellFormed {tokens : List Token} {text : List Char} (h : Scans 0 [] text tokens) :
    WellFormed tokens where
  noAdjacentOperands := h.noAdjacentOperands
  isOperandName name hn := (h.names_spec.2 name hn).1
  nodup := h.names_spec.1
  signs_le := by simpa using h.signs_le (Nat.zero_le _)

/-- Every text spells the list that it is scanned as. -/
theorem Scans.spells {operators : Nat} {seen : List String} {text : List Char} {tokens : List Token}
    (h : Scans operators seen text tokens) : Spells tokens text := by
  induction h with
  | nil => exact .nil
  | space _ ih => exact .space ih
  | plus _ _ ih => exact .token .plus ih
  | minus _ _ ih => exact .token .minus ih
  | opening _ ih => exact .token .opening ih
  | closing _ ih => exact .token .closing ih
  | @operand _ _ c rest tokens name hc hname _ _ ih =>
    obtain ⟨front, core, back, hrun, hfront, hback, hspells, -⟩ :=
      exists_spelledName (c :: rest.takeWhile continuesName)
    have hspells : SpellsName name.toList core := by
      rwa [← hname, nameOf, String.toList_ofList]
    cases front with
    | nil =>
      -- The spaces that the name has taken along stand behind it.
      have htext : c :: rest = core ++ (back ++ rest.dropWhile continuesName) := by
        rw [← List.append_assoc, ← List.nil_append (core ++ back), ← hrun, List.cons_append,
          List.takeWhile_append_dropWhile]
      rw [htext]
      exact .token (.operand hspells) (ih.spaces_append hback)
    | cons b front =>
      rw [List.cons_append] at hrun
      have hspace : c = ' ' := (List.cons.inj hrun).1.trans (hfront b List.mem_cons_self)
      exact absurd hspace (ne_of_startsName hc (by decide))

/-! ## The outcome of a scan -/

theorem verdict_scan (source : String) : Verdict (smallText source) (scan source) :=
  (Reads.start _).verdict fun hin => absurd hin not_inName_nil

/-- A scan fails with the fault that stands farthest to the left, and with no other. -/
theorem scan_eq_error_iff {source : String} {e : ExpressionError} :
    scan source = .error e ↔ LeftmostFault (smallText source) e := by
  have hverdict := verdict_scan source
  constructor
  · intro h
    rwa [h] at hverdict
  · intro hleft
    cases hscan : scan source with
    | error e' =>
      rw [hscan] at hverdict
      rw [LeftmostFault.unique hleft hverdict]
    | ok tokens =>
      rw [hscan] at hverdict
      obtain ⟨before, hf, -⟩ := hleft
      exact absurd hf (hverdict before e)

/-- A scan succeeds on clean texts, and on no others. -/
theorem exists_scan_eq_ok_iff {source : String} :
    (∃ tokens, scan source = .ok tokens) ↔ IsClean (smallText source) := by
  have hverdict := verdict_scan source
  rw [isClean_iff]
  constructor
  · rintro ⟨tokens, h⟩
    rwa [h] at hverdict
  · intro hclean
    cases hscan : scan source with
    | error e =>
      rw [hscan] at hverdict
      obtain ⟨before, hf, -⟩ := hverdict
      exact absurd hf (hclean before e)
    | ok tokens => exact ⟨tokens, rfl⟩

/-- What a scan gives is the well-formed list that the text spells. -/
theorem scan_eq_ok_iff {source : String} {tokens : List Token} :
    scan source = .ok tokens ↔ WellFormed tokens ∧ Spells tokens (smallText source) := by
  constructor
  · intro h
    have hscans := scans_of_scanFrom h
    exact ⟨hscans.wellFormed, hscans.spells⟩
  · rintro ⟨hw, hs⟩
    exact scanFrom_of_scans (hw.scans hs)

/-- A well-formed list is read back from all texts that spell it in small letters. -/
theorem scan_of_spells {source : String} {tokens : List Token} (hw : WellFormed tokens)
    (hs : Spells tokens (source.toList.map Char.toLower)) : scan source = .ok tokens := by
  have htrim := hs.trim hw.isOperandName
  rw [Text.trim_map Text.isBlank_toLower] at htrim
  exact scan_eq_ok_iff.mpr ⟨hw, htrim⟩

/-- A scan succeeds if and only if the text is clean, and otherwise it reports the leftmost fault. What
it gives is well formed, and every well-formed list is given for each text that spells it, in letters
of any case. -/
theorem scan_exact (source : String) :
    ((∃ tokens, scan source = .ok tokens) ↔ IsClean (smallText source)) ∧
    (∀ e, scan source = .error e ↔ LeftmostFault (smallText source) e) ∧
    (∀ tokens, scan source = .ok tokens → WellFormed tokens) ∧
    (∀ tokens, WellFormed tokens → Spells tokens (source.toList.map Char.toLower) →
      scan source = .ok tokens) :=
  ⟨exists_scan_eq_ok_iff, fun _ => scan_eq_error_iff, fun _ h => (scan_eq_ok_iff.mp h).1,
    fun _ => scan_of_spells⟩

/-- Signs, brackets and names in any case and with spaces of any width. -/
theorem scan_exact_wide_spaces :
    WellFormed [.minus, .opening, .operand "magic def", .closing, .plus, .operand "int"] ∧
    Spells [.minus, .opening, .operand "magic def", .closing, .plus, .operand "int"]
      (" -( Magic   Def)+INT ".toList.map Char.toLower) ∧
    scan " -( Magic   Def)+INT " =
      .ok [.minus, .opening, .operand "magic def", .closing, .plus, .operand "int"] := by
  have hw : WellFormed [.minus, .opening, .operand "magic def", .closing, .plus, .operand "int"] := by
    decide
  have hmagic : SpellsName "magic def".toList "magic   def".toList :=
    .cons (.cons (.cons (.cons (.cons (.widen (.widen (.refl _)))))))
  have hint : SpellsName "int".toList "int".toList := .refl _
  have hs : Spells [.minus, .opening, .operand "magic def", .closing, .plus, .operand "int"]
      (" -( Magic   Def)+INT ".toList.map Char.toLower) :=
    .space (.token .minus (.token .opening (.space (.token (.operand hmagic) (.token .closing
      (.token .plus (.token (.operand hint) (.space .nil))))))))
  exact ⟨hw, hs, (scan_exact " -( Magic   Def)+INT ").2.2.2 _ hw hs⟩

end ItemCatalog.Expression.Token
