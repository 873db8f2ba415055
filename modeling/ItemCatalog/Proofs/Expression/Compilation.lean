import ItemCatalog.Expression.Sort
import ItemCatalog.Proofs.Expression.Conversion
import ItemCatalog.Proofs.Expression.Scanning

/-!
# Compiled expressions are trees

A text that compiles is a sum of the grammar, and its canonical text, its label and its score are
readings of one tree. A text that does not compile has a fault of its own: postfix notation that was
made from a text is never malformed.

Results:
1. `Tree.Admissible`: what the scan guarantees of the tree.
2. `SortExpression.compile_of_derives`: a text that scans to a sum compiles.
3. `SortExpression.compile_cases`: what becomes of any text; `SortExpression.exists_derives_of_compile`:
   what compiles was scanned to a sum.
4. `SortExpression.compile_fails_only_by_expression`: the folds of what a text gives do not fail.
-/

namespace ItemCatalog

open Expression

namespace Expression

/-! ## Admissible trees -/

/-- How many operators a tree holds. -/
def Tree.operators {α : Type} : Tree α → Nat
  | leaf _ => 0
  | negate t => t.operators + 1
  | add l r => l.operators + r.operators + 1
  | subtract l r => l.operators + r.operators + 1

/-- What the scan guarantees of the tree of an expression. -/
structure Tree.Admissible (t : Tree String) : Prop where
  isOperandName : ∀ name ∈ t.leaves, IsOperandName name
  nodup : t.leaves.Nodup
  operators_le : t.operators ≤ maxOperators

theorem Token.names_append (left right : List Token) :
    Token.names (left ++ right) = Token.names left ++ Token.names right :=
  List.filterMap_append

theorem Token.signs_append (left right : List Token) :
    Token.signs (left ++ right) = Token.signs left + Token.signs right :=
  List.countP_append

/-- The names of a phrase are the leaves of its tree. -/
theorem Derives.names_eq {N : Nonterminal} {tokens : List Token} {t : Tree String}
    (h : Derives N tokens t) : Token.names tokens = t.leaves := by
  induction h with
  | add _ _ ihl ihr | subtract _ _ ihl ihr =>
    rw [Token.names_append, ihl, Tree.leaves, ← ihr]
    rfl
  | single _ ih | plus _ ih | negate _ ih | unsigned _ ih => exact ih
  | operand name => rfl
  | brackets _ ih =>
    rw [Token.names_append]
    simpa [Token.names, Token.name?, List.filterMap_cons] using ih

/-- Every operator was a sign. -/
theorem Derives.operators_le {N : Nonterminal} {tokens : List Token} {t : Tree String}
    (h : Derives N tokens t) : t.operators ≤ Token.signs tokens := by
  induction h with
  | add _ _ ihl ihr | subtract _ _ ihl ihr =>
    rw [Token.signs_append]
    simp only [Token.signs, List.countP_cons, Token.isSign, Tree.operators] at ihl ihr ⊢
    simp only [if_true]
    omega
  | single _ ih | unsigned _ ih => exact ih
  | plus _ ih | negate _ ih =>
    simp only [Token.signs, List.countP_cons, Token.isSign, Tree.operators] at ih ⊢
    simp only [if_true]
    omega
  | operand name => exact Nat.zero_le _
  | brackets _ ih =>
    rw [Token.signs_append]
    simpa [Token.signs, Token.isSign] using ih

theorem Derives.admissible {cs : List Char} {tokens : List Token} {t : Tree String}
    (hs : Token.Scans 0 [] cs tokens) (h : Derives .sum tokens t) : t.Admissible where
  isOperandName name hn := (hs.names_spec.2 name (h.names_eq ▸ hn)).1
  nodup := h.names_eq ▸ hs.names_spec.1
  operators_le := by
    have := hs.signs_le (Nat.zero_le _)
    have := h.operators_le
    omega

end Expression

namespace SortExpression

/-! ## Compiling -/

/-- The expression with a tree. -/
def ofTree (t : Expression.Tree String) : SortExpression where
  canonical := t.evaluate operandLabel writing
  label := stripBrackets (t.evaluate operandLabel writing)
  score := t.map Attribute.ofName

theorem canonicalText_toPostfix (t : Expression.Tree String) :
    canonicalText t.toPostfix = .ok (t.evaluate operandLabel writing) :=
  foldPostfix_toPostfix _ _ t

theorem scoreOfPostfix_toPostfix (t : Expression.Tree String) :
    Score.ofPostfix t.toPostfix = .ok (t.map Attribute.ofName) := by
  rw [Score.ofPostfix, foldPostfix_toPostfix, Tree.evaluate_building]

/-- The canonical text and the score are computed from the tree. -/
theorem compile_of_postfix {source : String} {t : Expression.Tree String}
    (h : postfixOfSource source = .ok t.toPostfix) : compile source = .ok (ofTree t) := by
  have hne : t.toPostfix.isEmpty = false := by
    simpa using t.toPostfix_ne_nil
  simp [compile, folded, ofTree, h, hne, canonicalText_toPostfix, scoreOfPostfix_toPostfix,
    Except.mapError, bind, Except.bind, pure, Except.pure]

/-- A text that scans to a sum compiles. -/
theorem compile_of_derives {source : String} {tokens : List Token} {t : Expression.Tree String}
    (hs : Token.scan source = .ok tokens) (d : Derives .sum tokens t) :
    compile source = .ok (ofTree t) := by
  apply compile_of_postfix
  rw [postfixOfSource, hs]
  exact postfixOfTokens_of_derives d

/-- The steps of a text, if there are any, are those of the sum that it scans to. -/
theorem derives_of_postfixOfSource {source : String} {steps : List (Step String)}
    (h : postfixOfSource source = .ok steps) :
    steps = [] ∨ ∃ tokens t, Token.scan source = .ok tokens ∧ Derives .sum tokens t ∧
      t.Admissible ∧ steps = t.toPostfix := by
  rw [postfixOfSource] at h
  cases htokens : Token.scan source with
  | error fault => simp [htokens, bind, Except.bind] at h
  | ok tokens =>
    rw [htokens] at h
    have hscans := Token.scans_of_scanFrom htokens
    rcases derives_of_postfixOfTokens hscans.noAdjacentOperands h with ⟨hnil, _⟩ | ⟨t, d, ht⟩
    · exact .inl hnil
    · exact .inr ⟨tokens, t, rfl, d, d.admissible hscans, ht⟩

/-- A text has a fault, or it is nothing but plus signs, or it is a sum and compiles. -/
theorem compile_cases (source : String) :
    (∃ fault, postfixOfSource source = .error fault ∧
        compile source = .error (.expression fault)) ∨
      (postfixOfSource source = .ok [] ∧
        compile source = .error (.expression .emptyExpression)) ∨
      ∃ t, t.Admissible ∧ postfixOfSource source = .ok t.toPostfix ∧
        compile source = .ok (ofTree t) := by
  cases hpost : postfixOfSource source with
  | error fault =>
    refine .inl ⟨fault, rfl, ?_⟩
    simp [compile, hpost, Except.mapError, bind, Except.bind]
  | ok steps =>
    rcases derives_of_postfixOfSource hpost with rfl | ⟨_, t, _, _, ht, rfl⟩
    · refine .inr (.inl ⟨rfl, ?_⟩)
      simp [compile, hpost, Except.mapError, bind, Except.bind, throw, throwThe,
        MonadExceptOf.throw]
    · exact .inr (.inr ⟨t, ht, rfl, compile_of_postfix hpost⟩)

/-- What compiles is the expression of a tree. -/
theorem exists_tree_of_compile {source : String} {e : SortExpression}
    (h : compile source = .ok e) : ∃ t, t.Admissible ∧ e = ofTree t := by
  rcases compile_cases source with ⟨fault, _, hc⟩ | ⟨_, hc⟩ | ⟨t, ht, _, hc⟩ <;> rw [h] at hc
  · cases hc
  · cases hc
  · exact ⟨t, ht, Except.ok.inj hc⟩

/-- What compiles was scanned to a sum. -/
theorem exists_derives_of_compile {source : String} {e : SortExpression}
    (h : compile source = .ok e) :
    ∃ tokens t, Token.scan source = .ok tokens ∧ Derives .sum tokens t ∧ t.Admissible ∧
      e = ofTree t := by
  rcases compile_cases source with ⟨fault, _, hc⟩ | ⟨_, hc⟩ | ⟨t, _, hpost, hc⟩ <;> rw [h] at hc
  · cases hc
  · cases hc
  · rcases derives_of_postfixOfSource hpost with hnil | ⟨tokens, u, htokens, d, hu, hsteps⟩
    · exact absurd hnil t.toPostfix_ne_nil
    · obtain rfl := Tree.toPostfix_injective hsteps
      exact ⟨tokens, t, htokens, d, hu, Except.ok.inj hc⟩

/-- Every text compiles or has a fault that its user can mend. No two names of a scanned text are
neighbours, and the steps of a text, if there are any, are those of one tree, so that the printer and
the scorer both find one value in them and the text compiles. -/
theorem compile_fails_only_by_expression (source : String) :
    ((∃ e, compile source = .ok e) ∨ ∃ fault, compile source = .error (.expression fault)) ∧
      (∀ tokens, Token.scan source = .ok tokens → NoAdjacentOperands tokens) ∧
      ∀ steps, postfixOfSource source = .ok steps → steps ≠ [] →
        ∃ t : Expression.Tree String, steps = t.toPostfix ∧
          canonicalText steps = .ok (t.evaluate operandLabel writing) ∧
          Score.ofPostfix steps = .ok (t.map Attribute.ofName) ∧
          compile source = .ok (ofTree t) := by
  have hcases := compile_cases source
  refine ⟨?_, fun tokens h => (Token.scans_of_scanFrom h).noAdjacentOperands,
    fun steps hsteps hne => ?_⟩
  · rcases hcases with ⟨fault, _, hc⟩ | ⟨_, hc⟩ | ⟨t, _, _, hc⟩
    · exact .inr ⟨fault, hc⟩
    · exact .inr ⟨.emptyExpression, hc⟩
    · exact .inl ⟨ofTree t, hc⟩
  · rcases hcases with ⟨fault, hp, _⟩ | ⟨hp, _⟩ | ⟨t, _, hp, hc⟩ <;>
      rw [hp] at hsteps
    · cases hsteps
    · exact absurd (Except.ok.inj hsteps).symm hne
    · obtain rfl := Except.ok.inj hsteps
      exact ⟨t, rfl, canonicalText_toPostfix t, scoreOfPostfix_toPostfix t, hc⟩

/-- A plus sign in front of everything, a run of signs, and a name of two words. -/
theorem compile_fails_only_by_expression_signed_difference :
    Token.scan "+-(Pierce  Def - +INT)" = .ok [.plus, .minus, .opening, .operand "pierce def",
        .minus, .plus, .operand "int", .closing] ∧
      NoAdjacentOperands [.plus, .minus, .opening, .operand "pierce def", .minus, .plus,
        .operand "int", .closing] ∧
      ∃ t : Expression.Tree String, [.operand "pierce def", .operand "int", .operator .subtract,
          .operator .negate] = t.toPostfix ∧
        compile "+-(Pierce  Def - +INT)" = .ok (ofTree t) := by
  have hscan : Token.scan "+-(Pierce  Def - +INT)" = .ok [.plus, .minus, .opening,
      .operand "pierce def", .minus, .plus, .operand "int", .closing] := by decide +kernel
  have hpost : postfixOfSource "+-(Pierce  Def - +INT)" = .ok [.operand "pierce def",
      .operand "int", .operator .subtract, .operator .negate] := by
    rw [postfixOfSource, hscan]
    rfl
  have hall := compile_fails_only_by_expression "+-(Pierce  Def - +INT)"
  obtain ⟨t, ht, _, _, hc⟩ := hall.2.2 _ hpost (List.cons_ne_nil _ _)
  exact ⟨hscan, hall.2.1 _ hscan, t, ht, hc⟩

end SortExpression

end ItemCatalog
