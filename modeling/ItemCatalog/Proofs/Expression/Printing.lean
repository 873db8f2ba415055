import Mathlib.Data.List.Nodup
import ItemCatalog.Proofs.Expression.Writing

/-!
# Printed expressions are read back

The canonical text and the label of an expression are expressions again. Both have the tree of the
expression with the stats under the names that they are shown by, so a label loses nothing.

Results:
1. `SortExpression.compile_canonical`, `SortExpression.compile_label`: what the texts of a tree compile
   to.
2. `SortExpression.compile_keeps_printed`: the same for every expression that compiles, and equal
   labels belong to equal scores.
-/

namespace ItemCatalog

open Expression

namespace Expression

/-! ## Names of stats -/

/-- The name that a stat has in expressions. -/
def Attribute.operandName : Attribute → String
  | damage => "damage"
  | bonus key => key
  | resist key => key

/-- The stat that the label of a stat names. -/
def shownAttribute (stat : Attribute) : Attribute :=
  Attribute.ofName (shownName stat.operandName)

theorem Attribute.operandName_ofName (name : String) : (ofName name).operandName = name := by
  unfold ofName
  split
  next h => exact h.symm
  next => split <;> rfl

theorem Attribute.ofName_injective : Function.Injective Attribute.ofName :=
  Function.LeftInverse.injective Attribute.operandName_ofName

theorem shownAttribute_ofName (name : String) :
    shownAttribute (Attribute.ofName name) = Attribute.ofName (shownName name) := by
  rw [shownAttribute, Attribute.operandName_ofName]

/-- A label is a name in other letters, so it has no brackets. -/
theorem bracket_notMem_operandLabel {name : String} (h : IsOperandName name) {c : Char}
    (hlower : c.toLower = c) (hc : Token.continuesName c = false) :
    c ∉ (operandLabel name).toList := by
  intro hm
  have hshown : c ∈ (shownName name).toList := by
    rw [shownName, toList_inSmallLetters]
    exact List.mem_map.mpr ⟨c, hm, hlower⟩
  rw [(isOperandName_shownName h).continuesName_of_mem hshown] at hc
  cases hc

/-! ## Renamed trees -/

/-- Showing the stats of a tree keeps it admissible. -/
theorem Tree.Admissible.shown {t : Tree String} (h : t.Admissible) :
    (t.map shownName).Admissible where
  isOperandName name hn := by
    rw [Tree.leaves_map] at hn
    obtain ⟨n, hm, rfl⟩ := List.mem_map.mp hn
    exact isOperandName_shownName (h.isOperandName n hm)
  nodup := by
    rw [Tree.leaves_map]
    exact h.nodup.map_on fun a ha b hb e =>
      shownName_injOn (h.isOperandName a ha) (h.isOperandName b hb) e
  operators_le := by
    rw [Tree.operators_map]
    exact h.operators_le

theorem Tree.map_operandLabel_inSmallLetters (t : Tree String) :
    (t.map operandLabel).map inSmallLetters = t.map shownName :=
  t.map_map operandLabel inSmallLetters

/-- Names give stats and stats give the names back. -/
theorem Tree.map_ofName_injective :
    Function.Injective fun t : Tree String => t.map Attribute.ofName := by
  intro t u h
  exact Tree.map_injOn Attribute.ofName_injective.injOn (fun _ _ => Set.mem_univ _)
    (fun _ _ => Set.mem_univ _) h

end Expression

namespace SortExpression

variable {t : Expression.Tree String}

/-! ## The texts of a tree -/

theorem toList_canonical (t : Expression.Tree String) :
    (ofTree t).canonical.toList = (t.map operandLabel).written :=
  t.toList_evaluate_writing operandLabel

/-- The names of a shown tree have no brackets. -/
theorem brackets_notMem (h : t.Admissible) :
    ∀ name ∈ (t.map operandLabel).leaves, '(' ∉ name.toList ∧ ')' ∉ name.toList := by
  intro name hn
  rw [Tree.leaves_map] at hn
  obtain ⟨n, hm, rfl⟩ := List.mem_map.mp hn
  have hname := h.isOperandName n hm
  exact ⟨bracket_notMem_operandLabel hname (by decide) (by decide),
    bracket_notMem_operandLabel hname (by decide) (by decide)⟩

theorem toList_label (h : t.Admissible) : (ofTree t).label.toList = (t.map operandLabel).bare :=
  Tree.toList_stripBrackets (toList_canonical t) fun name hn => (brackets_notMem h name hn).1

/-- A text that is read as the tokens of a sum compiles to the expression of its tree. -/
theorem compile_of_readsAs {text : String} {cs : List Char} {tokens : List Token}
    (ht : t.Admissible) (htext : text.toList.map Char.toLower = cs) (hcs : Text.Solid cs)
    (hreads : t.ReadsAs cs tokens) (d : Derives .sum tokens t) :
    compile text = .ok (ofTree t) :=
  compile_of_derives (Token.scan_of_scans htext hcs (hreads.scans ht)) d

/-- The canonical text of a tree compiles to the tree with its names shown. -/
theorem compile_canonical (h : t.Admissible) :
    compile (ofTree t).canonical = .ok (ofTree (t.map shownName)) := by
  refine compile_of_readsAs h.shown ?_ (Tree.solid_written h.shown.isOperandName)
    (t.map shownName).readsAs_written
    (.single (.unsigned (t.map shownName).derives_writtenTokens))
  rw [toList_canonical, Tree.map_toLower_written, Tree.map_operandLabel_inSmallLetters]

/-- So does its label. -/
theorem compile_label (h : t.Admissible) :
    compile (ofTree t).label = .ok (ofTree (t.map shownName)) := by
  refine compile_of_readsAs h.shown ?_ (Tree.solid_bare h.shown.isOperandName)
    (t.map shownName).readsAs_bare (t.map shownName).derives_bareTokens
  rw [toList_label h, Tree.map_toLower_bare, Tree.map_operandLabel_inSmallLetters]

theorem score_shown (t : Expression.Tree String) :
    (ofTree (t.map shownName)).score = (ofTree t).score.map shownAttribute := by
  have h : Attribute.ofName ∘ shownName = shownAttribute ∘ Attribute.ofName := by
    funext name
    rw [Function.comp_apply, Function.comp_apply, shownAttribute_ofName]
  rw [ofTree, ofTree, Tree.map_map, Tree.map_map, h]

/-- Labels belong to one score. -/
theorem label_eq_iff {u : Expression.Tree String} (ht : t.Admissible) (hu : u.Admissible) :
    (ofTree t).label = (ofTree u).label ↔ (ofTree t).score = (ofTree u).score := by
  constructor
  · intro h
    have hcompile := compile_label ht
    rw [h, compile_label hu] at hcompile
    have hscore := congrArg SortExpression.score (Except.ok.inj hcompile)
    have hshown : u.map shownName = t.map shownName := Tree.map_ofName_injective hscore
    rw [Tree.map_injOn shownName_injOn hu.isOperandName ht.isOperandName hshown]
  · intro h
    have htree : t = u := Tree.map_ofName_injective h
    rw [htree]

/-! ## Expressions that compile -/

/-- What the texts of an expression keep. -/
structure KeepsPrinted (e : SortExpression) : Prop where
  /-- The stats of the score are named by the expression. -/
  isOperandName : ∀ stat ∈ e.score.leaves, IsOperandName stat.operandName
  /-- The canonical text compiles to the score with its stats shown. -/
  canonical : ∃ again, compile e.canonical = .ok again ∧ again.score = e.score.map shownAttribute
  /-- The label compiles to the score with its stats shown. -/
  label : ∃ again, compile e.label = .ok again ∧ again.score = e.score.map shownAttribute
  /-- The label is the canonical text of a lone stat. Else it is what stands between the first and
  the last character of the canonical text, and these are brackets that belong together: all
  brackets between them have their partners there. -/
  label_eq : (∃ stat, e.score = .leaf stat) ∧ e.label = e.canonical ∨
    (∀ stat, e.score ≠ .leaf stat) ∧ e.canonical = "(" ++ e.label ++ ")" ∧ Balanced e.label.toList

theorem label_eq_or (h : t.Admissible) :
    (∃ stat, (ofTree t).score = .leaf stat) ∧ (ofTree t).label = (ofTree t).canonical ∨
      (∀ stat, (ofTree t).score ≠ .leaf stat) ∧
        (ofTree t).canonical = "(" ++ (ofTree t).label ++ ")" ∧
        Balanced (ofTree t).label.toList := by
  have hbalanced := Tree.balanced_bare (brackets_notMem h)
  rcases (t.map operandLabel).written_eq_bare_or with ⟨label, hleaf, e⟩ | ⟨hne, e⟩
  · refine .inl ⟨?_, ?_⟩
    · cases t with
      | leaf name => exact ⟨Attribute.ofName name, rfl⟩
      | negate | add | subtract => cases hleaf
    · rw [← String.toList_inj, toList_label h, toList_canonical, e]
  · refine .inr ⟨?_, ?_, ?_⟩
    · cases t with
      | leaf name => exact absurd rfl (hne (operandLabel name))
      | negate | add | subtract => nofun
    · rw [← String.toList_inj, String.toList_append, String.toList_append, toList_label h,
        toList_canonical, e]
      rfl
    · rwa [toList_label h]

theorem keepsPrinted_ofTree (h : t.Admissible) : KeepsPrinted (ofTree t) where
  isOperandName stat hs := by
    rw [ofTree, Tree.leaves_map] at hs
    obtain ⟨name, hn, rfl⟩ := List.mem_map.mp hs
    rw [Attribute.operandName_ofName]
    exact h.isOperandName name hn
  canonical := ⟨_, compile_canonical h, score_shown t⟩
  label := ⟨_, compile_label h, score_shown t⟩
  label_eq := label_eq_or h

/-- The texts of every expression that compiles are read back as the expression with its stats shown,
and labels tell scores apart. -/
theorem compile_keeps_printed :
    (∀ source e, compile source = .ok e → KeepsPrinted e) ∧
      Set.InjOn shownName {name | IsOperandName name} ∧
      ∀ source source' e e', compile source = .ok e → compile source' = .ok e' →
        (e.label = e'.label ↔ e.score = e'.score) := by
  refine ⟨fun source e h => ?_, shownName_injOn, fun source source' e e' h h' => ?_⟩
  · obtain ⟨t, ht, rfl⟩ := exists_tree_of_compile h
    exact keepsPrinted_ofTree ht
  · obtain ⟨t, ht, rfl⟩ := exists_tree_of_compile h
    obtain ⟨u, hu, rfl⟩ := exists_tree_of_compile h'
    exact label_eq_iff ht hu

theorem compile_keeps_printed_negated_difference :
    ∃ e, compile "-(Fire - INT)" = .ok e ∧ e.label = "-(Fire Res - INT)" ∧ KeepsPrinted e := by
  have ht : Tree.Admissible (.negate (.subtract (.leaf "fire") (.leaf "int"))) :=
    ⟨by decide, by decide, by decide⟩
  have h : compile "-(Fire - INT)" =
      .ok (ofTree (.negate (.subtract (.leaf "fire") (.leaf "int")))) :=
    compile_of_readsAs ht (by decide) (Tree.solid_bare ht.isOperandName) (Tree.readsAs_bare _)
      (Tree.derives_bareTokens _)
  exact ⟨_, h, by decide +kernel, compile_keeps_printed.1 _ _ h⟩

end SortExpression

end ItemCatalog
