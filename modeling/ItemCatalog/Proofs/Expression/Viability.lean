import ItemCatalog.Proofs.Expression.Conversion

/-!
# Faults are found as early as they can be

What the conversion has read is the beginning of a sum, whatever the state is (`Conversion.Reached`).
Every such beginning can be completed: where an operand is due a name is put, and then all open brackets
are closed. So the conversion stops at the first token that no expression can have in its place, and a
list that is only found wanting at its end is the beginning of an expression.

Results:
1. `Conversion.Awaits.completed`: a beginning of a sum and the phrase that is due are completed to a sum.
2. `Conversion.Reached.viable`: what has been read can be continued to an expression.
3. `postfixOfTokens_stops_at_hopeless`: where the conversion of a list fails.
-/

namespace ItemCatalog.Expression

/-! ## Definitions -/

/-- The conversion of a list that begins with `before` and `token` fails at `token`. -/
def FailsAt (before : List Token) (token : Token) (e : ExpressionError) : Prop :=
  ∃ s, before.foldlM Conversion.step Conversion.start = .ok s ∧ s.step token = .error e

/-- All tokens of a list are read, and the conversion fails behind the last one. -/
def FailsAtEnd (tokens : List Token) (e : ExpressionError) : Prop :=
  ∃ s, tokens.foldlM Conversion.step Conversion.start = .ok s ∧ s.finish = .error e

/-- The list can be continued to one that the conversion accepts and finds an expression in. -/
def Viable (tokens : List Token) : Prop :=
  ∃ more steps, NoAdjacentOperands (tokens ++ more) ∧ steps ≠ [] ∧
    postfixOfTokens (tokens ++ more) = .ok steps

/-! ## Sums have no neighbouring names -/

theorem NoAdjacentOperands.append_cons {left right : List Token} {token : Token}
    (hl : NoAdjacentOperands left) (ht : token.isOperand = false) (hr : NoAdjacentOperands right) :
    NoAdjacentOperands (left ++ token :: right) := by
  refine List.isChain_append.mpr ⟨hl, List.isChain_cons.mpr ⟨fun b _ => by simp [ht], hr⟩, ?_⟩
  intro a _ b hb
  obtain rfl : token = b := Option.some.inj hb
  simp [ht]

/-- Signs and brackets keep the names of a phrase apart. -/
theorem Derives.noAdjacentOperands {N : Nonterminal} {tokens : List Token} {t : Tree String}
    (h : Derives N tokens t) : NoAdjacentOperands tokens := by
  induction h with
  | add _ _ ihl ihr => exact ihl.append_cons rfl ihr
  | subtract _ _ ihl ihr => exact ihl.append_cons rfl ihr
  | single _ ih | unsigned _ ih => exact ih
  | plus _ ih => exact NoAdjacentOperands.append_cons .nil rfl ih
  | negate _ ih => exact NoAdjacentOperands.append_cons .nil rfl ih
  | operand name => exact .singleton _
  | brackets _ ih =>
    have hopened : NoAdjacentOperands (Token.opening :: _) := .append_cons .nil rfl ih
    exact hopened.append_cons rfl .nil

/-- The beginnings of sums are viable. -/
theorem viable_of_derives {tokens more : List Token} {t : Tree String}
    (h : Derives .sum (tokens ++ more) t) : Viable tokens :=
  ⟨more, t.toPostfix, h.noAdjacentOperands, t.toPostfix_ne_nil, postfixOfTokens_of_derives h⟩

namespace Conversion

/-! ## What is read can be completed -/

/-- The beginning of a sum and the phrase that is due are completed to a sum: what waits for the
phrase takes it up, and each open bracket in front of it is closed behind it. -/
theorem Awaits.completed {N : Nonterminal} {tokens phrase : List Token} {pending : List Pending}
    {output : List (Step String)} {t : Tree String} (h : Awaits N tokens pending output)
    (d : Derives N phrase t) : ∃ more u, Derives .sum (tokens ++ (phrase ++ more)) u := by
  induction h generalizing phrase t with
  | start => exact ⟨[], t, by simpa using d⟩
  | opening _ ih =>
    obtain ⟨more, u, hu⟩ := ih d.brackets.unsigned
    exact ⟨.closing :: more, u, by simpa using hu⟩
  | single _ ih => exact ih d.single
  | plus _ ih => simpa using ih d.plus
  | negate _ ih => simpa using ih d.negate
  | add _ dl ih => simpa using ih (dl.add d)
  | subtract _ dl ih => simpa using ih (dl.subtract d)

/-- What has been read can be continued to an expression. -/
theorem Reached.viable {tokens : List Token} {s : Conversion} (h : Reached tokens s) :
    Viable tokens := by
  have hdue : ∀ {tokens : List Token} {pending : List Pending} {output : List (Step String)},
      Awaits .signed tokens pending output → Viable tokens := by
    intro tokens pending output ha
    obtain ⟨more, u, hu⟩ := ha.completed (Derives.operand "damage").unsigned
    exact viable_of_derives hu
  cases h with
  | nothing _ ha => exact hdue ha
  | opening ha => exact hdue ha
  | operator ha => exact hdue ha
  | operand name ha =>
    obtain ⟨more, u, hu⟩ := ha.completed (Derives.operand name).unsigned
    rw [← List.append_assoc] at hu
    exact viable_of_derives hu
  | closing ha d =>
    obtain ⟨more, u, hu⟩ := ha.completed d.unsigned
    rw [← List.append_assoc] at hu
    exact viable_of_derives hu

/-! ## Where a conversion fails -/

/-- Reading fails at a token or not at all. -/
theorem foldlM_eq_error_iff {tokens : List Token} {s : Conversion} {e : ExpressionError} :
    tokens.foldlM step s = .error e ↔
      ∃ before token after s', tokens = before ++ token :: after ∧
        before.foldlM step s = .ok s' ∧ s'.step token = .error e := by
  constructor
  · intro h
    induction tokens generalizing s with
    | nil => cases h
    | cons token tokens ih =>
      cases hstep : s.step token with
      | error e' =>
        rw [List.foldlM_cons, hstep] at h
        cases h
        exact ⟨[], token, tokens, s, rfl, rfl, hstep⟩
      | ok s₁ =>
        rw [foldlM_cons_ok hstep] at h
        obtain ⟨before, last, after, s', rfl, hbefore, hlast⟩ := ih h
        exact ⟨token :: before, last, after, s', rfl, by rw [foldlM_cons_ok hstep, hbefore], hlast⟩
  · rintro ⟨before, token, after, s', rfl, hbefore, htoken⟩
    rw [foldlM_append_ok hbefore, List.foldlM_cons, htoken]
    rfl

theorem error_of_drain {output : List (Step String)} {pending : List Pending} {e : ExpressionError}
    (h : drain output pending = .error e) : e = .unbalancedBrackets := by
  induction pending generalizing output with
  | nil => cases h
  | cons p pending ih =>
    cases p with
    | opening => exact (Except.error.inj h).symm
    | operator op => exact ih h

/-- At the end only an operand or a closing bracket can be missing. -/
theorem error_of_finish {s : Conversion} {e : ExpressionError} (h : s.finish = .error e) :
    e = .trailingOperator ∨ e = .unbalancedBrackets := by
  unfold finish at h
  split at h
  · exact .inl (Except.error.inj h).symm
  · exact .inr (error_of_drain h)

end Conversion

/-- A conversion that fails has failed at a token, or behind the last one. -/
theorem postfixOfTokens_eq_error_iff {tokens : List Token} {e : ExpressionError} :
    postfixOfTokens tokens = .error e ↔
      (∃ before token after, tokens = before ++ token :: after ∧ FailsAt before token e) ∨
        FailsAtEnd tokens e := by
  have hread : (∃ before token after, tokens = before ++ token :: after ∧ FailsAt before token e) ↔
      tokens.foldlM Conversion.step Conversion.start = .error e := by
    rw [Conversion.foldlM_eq_error_iff]
    constructor
    · rintro ⟨before, token, after, htokens, s, hs, he⟩
      exact ⟨before, token, after, s, htokens, hs, he⟩
    · rintro ⟨before, token, after, s, htokens, hs, he⟩
      exact ⟨before, token, after, htokens, s, hs, he⟩
  rw [hread, postfixOfTokens, FailsAtEnd]
  cases h : tokens.foldlM Conversion.step Conversion.start with
  | error e' => simp [bind, Except.bind]
  | ok s => simp [bind, Except.bind]

/-- A conversion fails at the first token that no expression can have in its place: with that token
every list fails in the same way, whatever comes behind it, and without it the list can be continued to
an expression. When it fails only behind the last token, an operand or a closing bracket is missing,
and the whole list can be continued to an expression. -/
theorem postfixOfTokens_stops_at_hopeless {tokens : List Token} (hadj : NoAdjacentOperands tokens) :
    (∀ e, postfixOfTokens tokens = .error e ↔
      (∃ before token after, tokens = before ++ token :: after ∧ FailsAt before token e) ∨
        FailsAtEnd tokens e) ∧
    (∀ before token after e, tokens = before ++ token :: after → FailsAt before token e →
      (∀ more, postfixOfTokens (before ++ token :: more) = .error e) ∧ Viable before) ∧
    ∀ e, FailsAtEnd tokens e →
      (e = .trailingOperator ∨ e = .unbalancedBrackets) ∧ Viable tokens := by
  refine ⟨fun e => postfixOfTokens_eq_error_iff, ?_, ?_⟩
  · rintro before token after e rfl hfails
    refine ⟨fun more => ?_, ?_⟩
    · exact postfixOfTokens_eq_error_iff.mpr (.inl ⟨before, token, more, rfl, hfails⟩)
    · obtain ⟨s, hs, _⟩ := hfails
      exact (Conversion.reached_start.run hadj.left_of_append hs).viable
  · rintro e ⟨s, hs, he⟩
    exact ⟨Conversion.error_of_finish he, (Conversion.reached_start.run hadj hs).viable⟩

/-- In `(a -)` the closing bracket is hopeless and `(a -` is not, and `-(a` only lacks a bracket. -/
theorem postfixOfTokens_stops_at_closing_bracket :
    NoAdjacentOperands [.opening, .operand "a", .minus, .closing] ∧
      FailsAt [.opening, .operand "a", .minus] .closing .closeAfterOperator ∧
      Viable [.opening, .operand "a", .minus] ∧
      FailsAtEnd [.minus, .opening, .operand "a"] .unbalancedBrackets ∧
      Viable [.minus, .opening, .operand "a"] := by
  have hadj : NoAdjacentOperands [.opening, .operand "a", .minus, .closing] := by decide
  have hfails : FailsAt [.opening, .operand "a", .minus] .closing .closeAfterOperator :=
    ⟨⟨[.operand "a"], [.operator .subtract, .opening], .operator⟩, rfl, rfl⟩
  have hadj' : NoAdjacentOperands [.minus, .opening, .operand "a"] := by decide
  have hends : FailsAtEnd [.minus, .opening, .operand "a"] .unbalancedBrackets :=
    ⟨⟨[.operand "a"], [.opening, .operator .negate], .operand⟩, rfl, rfl⟩
  exact ⟨hadj, hfails, ((postfixOfTokens_stops_at_hopeless hadj).2.1 _ _ [] _ rfl hfails).2, hends,
    ((postfixOfTokens_stops_at_hopeless hadj').2.2 _ hends).2⟩

end ItemCatalog.Expression
