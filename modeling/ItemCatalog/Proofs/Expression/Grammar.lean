import Mathlib.Data.List.Chain
import ItemCatalog.Expression.Conversion

/-!
# The grammar of sort expressions

A sort expression is a sum. A sum adds and subtracts operands from left to right, an operand may have
signs in front of it, and behind the signs stands a name or a sum in brackets:

    sum    -> sum '+' signed | sum '-' signed | signed
    signed -> '+' signed | '-' signed | atom
    atom   -> name | '(' sum ')'

`Derives` is derivability in this grammar, together with the tree that a derivation stands for: its
brackets are resolved and its plus signs in front of operands are gone.

Results:
1. `Tree.toPostfix_injective`: postfix notation determines the tree.
2. `foldPostfix_toPostfix`: computing with the postfix notation of a tree evaluates the tree.
-/

namespace ItemCatalog.Expression

/-! ## Definitions -/

/-- The kinds of phrases. -/
inductive Nonterminal
  | sum
  | signed
  | atom
  deriving DecidableEq, Repr

/-- `Derives N tokens t`: the kind `N` derives `tokens`, and `t` is the parse tree without brackets
and without plus signs in front of operands. -/
inductive Derives : Nonterminal → List Token → Tree String → Prop
  | add {left right : List Token} {l r : Tree String} :
      Derives .sum left l → Derives .signed right r →
      Derives .sum (left ++ .plus :: right) (.add l r)
  | subtract {left right : List Token} {l r : Tree String} :
      Derives .sum left l → Derives .signed right r →
      Derives .sum (left ++ .minus :: right) (.subtract l r)
  | single {tokens : List Token} {t : Tree String} :
      Derives .signed tokens t → Derives .sum tokens t
  | plus {tokens : List Token} {t : Tree String} :
      Derives .signed tokens t → Derives .signed (.plus :: tokens) t
  | negate {tokens : List Token} {t : Tree String} :
      Derives .signed tokens t → Derives .signed (.minus :: tokens) (.negate t)
  | unsigned {tokens : List Token} {t : Tree String} :
      Derives .atom tokens t → Derives .signed tokens t
  | operand (name : String) : Derives .atom [.operand name] (.leaf name)
  | brackets {tokens : List Token} {t : Tree String} :
      Derives .sum tokens t → Derives .atom (.opening :: tokens ++ [.closing]) t

/-- Whether a token is the name of a stat. -/
def Token.isOperand : Token → Bool
  | .operand _ => true
  | _ => false

/-- No name stands right behind another one. -/
def NoAdjacentOperands (tokens : List Token) : Prop :=
  tokens.IsChain fun a b => ¬ (a.isOperand ∧ b.isOperand)

instance (tokens : List Token) : Decidable (NoAdjacentOperands tokens) :=
  inferInstanceAs (Decidable (tokens.IsChain fun a b => ¬ (a.isOperand ∧ b.isOperand)))

/-! ## Computing with postfix notation -/

/-- The steps of a tree leave its value on the stack, whatever is on it and whatever follows. The
statement is over both because the steps of an operand are followed by those of its operator. -/
theorem foldPostfixFrom_toPostfix_append {α β : Type} (value : α → β) (ops : Arithmetic β)
    (t : Tree α) (position : Nat) (stack : List β) (rest : List (Step α)) :
    foldPostfixFrom value ops position stack (t.toPostfix ++ rest) =
      foldPostfixFrom value ops (position + t.toPostfix.length)
        (t.evaluate value ops :: stack) rest := by
  induction t generalizing position stack rest with
  | leaf a => rfl
  | negate t ih =>
    rw [Tree.toPostfix, List.append_assoc, ih, List.length_append]
    rfl
  | add l r ihl ihr | subtract l r ihl ihr =>
    rw [Tree.toPostfix, List.append_assoc, List.append_assoc, ihl, ihr, List.length_append,
      List.length_append, ← Nat.add_assoc, ← Nat.add_assoc]
    rfl

/-- Computing with the postfix notation of a tree evaluates the tree. -/
theorem foldPostfix_toPostfix {α β : Type} (value : α → β) (ops : Arithmetic β) (t : Tree α) :
    foldPostfix value ops t.toPostfix = .ok (t.evaluate value ops) := by
  have h := foldPostfixFrom_toPostfix_append value ops t 0 [] []
  rw [List.append_nil] at h
  exact h

namespace Tree

/-- A tree evaluates to itself when its operators build trees. -/
theorem evaluate_building {α β : Type} (f : α → β) (t : Tree α) :
    t.evaluate (fun a => leaf (f a)) building = t.map f := by
  induction t with
  | leaf a => rfl
  | negate t ih => rw [evaluate, ih]; rfl
  | add l r ihl ihr => rw [evaluate, ihl, ihr]; rfl
  | subtract l r ihl ihr => rw [evaluate, ihl, ihr]; rfl

theorem map_id {α : Type} (t : Tree α) : t.map id = t := by
  induction t with
  | leaf a => rfl
  | negate t ih => rw [map, ih]
  | add l r ihl ihr => rw [map, ihl, ihr]
  | subtract l r ihl ihr => rw [map, ihl, ihr]

/-- Building a tree from its postfix notation gives the tree back. -/
theorem foldPostfix_building {α : Type} (t : Tree α) :
    foldPostfix leaf building t.toPostfix = .ok t := by
  rw [foldPostfix_toPostfix]
  have h := evaluate_building id t
  rw [map_id] at h
  exact congrArg Except.ok h

theorem toPostfix_injective {α : Type} : Function.Injective (toPostfix (α := α)) := by
  intro t u h
  have ht := foldPostfix_building t
  rw [h, foldPostfix_building u] at ht
  exact (Except.ok.inj ht).symm

theorem toPostfix_ne_nil {α : Type} (t : Tree α) : t.toPostfix ≠ [] := by
  cases t <;> simp [toPostfix]

end Tree

end ItemCatalog.Expression
