import Mathlib.Algebra.Ring.Int.Defs
import Mathlib.Algebra.Ring.Nat
import ItemCatalog.Proofs.Expression.Compilation

/-!
# Signs and what they govern

A minus sign governs the name or the bracket that it stands in front of, with or without other signs
between them, and with a bracket all names inside. This holds of signs between operands as well: what is
subtracted is the next operand only. So an expression over the integers is the sum of its operands, each
taken with the sign that the minus signs over it come to.

Results:
1. `Derives.governed_eq`: the minus signs over a name in the text are the negations and the differences
   over it in the tree.
2. `Tree.sum_governed`: the value of a tree is the signed sum of its leaves.
3. `Tree.natAbs_evaluate_le`: it is no larger than the leaves allow.
-/

namespace ItemCatalog.Expression

/-! ## Minus signs of a text -/

/-- The names of a list of tokens, each with the number of minus signs that govern it. `enclosing` holds
these numbers for the open brackets, for each without the brackets around it, and `run` counts the minus
signs since the last name or bracket. -/
def Token.governedFrom (enclosing : List Nat) (run : Nat) : List Token → List (String × Nat)
  | [] => []
  | .operand name :: rest => (name, enclosing.sum + run) :: governedFrom enclosing 0 rest
  | .opening :: rest => governedFrom (run :: enclosing) 0 rest
  | .closing :: rest => governedFrom enclosing.tail 0 rest
  | .plus :: rest => governedFrom enclosing run rest
  | .minus :: rest => governedFrom enclosing (run + 1) rest

def Token.governed (tokens : List Token) : List (String × Nat) :=
  governedFrom [] 0 tokens

/-- The leaves of a tree, each with the number of minus signs that govern it when `outer` of them govern
the tree. -/
def Tree.governed {α : Type} (outer : Nat) : Tree α → List (α × Nat)
  | leaf a => [(a, outer)]
  | negate t => t.governed (outer + 1)
  | add l r => l.governed outer ++ r.governed outer
  | subtract l r => l.governed outer ++ r.governed (outer + 1)

/-- What has been read in front of a phrase governs its tree. A sum starts behind a bracket or with the
text, so that no sign stands right in front of it. -/
theorem Derives.governedFrom_append {N : Nonterminal} {tokens : List Token} {t : Tree String}
    (h : Derives N tokens t) (enclosing : List Nat) {run : Nat} (hrun : N = .sum → run = 0)
    (rest : List Token) :
    Token.governedFrom enclosing run (tokens ++ rest) =
      t.governed (enclosing.sum + run) ++ Token.governedFrom enclosing 0 rest := by
  induction h generalizing enclosing run rest with
  | add _ _ ihl ihr | subtract _ _ ihl ihr =>
    obtain rfl := hrun rfl
    rw [List.append_assoc, List.cons_append, ihl enclosing (fun _ => rfl), Token.governedFrom,
      ihr enclosing nofun, Tree.governed, List.append_assoc]
  | single _ ih =>
    obtain rfl := hrun rfl
    exact ih enclosing nofun rest
  | plus _ ih => exact ih enclosing nofun rest
  | negate _ ih => exact ih enclosing nofun rest
  | unsigned _ ih => exact ih enclosing nofun rest
  | operand name => rfl
  | brackets _ ih =>
    rw [List.append_assoc, List.cons_append, Token.governedFrom, ih (run :: enclosing) fun _ => rfl,
      List.sum_cons, Nat.add_zero, Nat.add_comm]
    rfl

theorem Derives.governed_eq {tokens : List Token} {t : Tree String} (h : Derives .sum tokens t) :
    Token.governed tokens = t.governed 0 := by
  have happend := h.governedFrom_append [] (fun _ => rfl) []
  rwa [List.append_nil, Token.governedFrom, List.append_nil] at happend

/-! ## Values of trees -/

/-- The arithmetic of whole numbers. -/
def exactArithmetic : Arithmetic Int := ⟨(-·), (· + ·), (· - ·)⟩

/-- A number under so many minus signs. -/
def signed (minuses : Nat) (n : Int) : Int :=
  if minuses % 2 = 1 then -n else n

theorem signed_succ (minuses : Nat) (n : Int) : signed (minuses + 1) n = -signed minuses n := by
  unfold signed
  split_ifs <;> omega

theorem signed_neg (minuses : Nat) (n : Int) : signed minuses (-n) = -signed minuses n := by
  unfold signed
  split_ifs <;> omega

theorem signed_add (minuses : Nat) (m n : Int) :
    signed minuses (m + n) = signed minuses m + signed minuses n := by
  unfold signed
  split_ifs <;> omega

namespace Tree

variable {α : Type}

theorem map_fst_governed (t : Tree α) (outer : Nat) : (t.governed outer).map Prod.fst = t.leaves := by
  induction t generalizing outer with
  | leaf a => rfl
  | negate t ih => exact ih (outer + 1)
  | add l r ihl ihr | subtract l r ihl ihr => rw [governed, List.map_append, ihl, ihr, leaves]

/-- Over the integers a tree is the sum of its leaves, each with its sign. -/
theorem sum_governed (value : α → Int) (t : Tree α) (outer : Nat) :
    ((t.governed outer).map fun p => signed p.2 (value p.1)).sum =
      signed outer (t.evaluate value exactArithmetic) := by
  induction t generalizing outer with
  | leaf a => exact List.sum_singleton
  | negate t ih =>
    rw [governed, ih, signed_succ, ← signed_neg]
    rfl
  | add l r ihl ihr =>
    rw [governed, List.map_append, List.sum_append, ihl, ihr, ← signed_add]
    rfl
  | subtract l r ihl ihr =>
    rw [governed, List.map_append, List.sum_append, ihl, ihr, signed_succ, ← signed_neg, ← signed_add]
    rfl

theorem evaluate_map {β γ : Type} (f : α → β) (value : β → γ) (ops : Arithmetic γ) (t : Tree α) :
    (t.map f).evaluate value ops = t.evaluate (fun a => value (f a)) ops := by
  induction t with
  | leaf a => rfl
  | negate t ih => rw [map, evaluate, ih, evaluate]
  | add l r ihl ihr | subtract l r ihl ihr => rw [map, evaluate, ihl, ihr, evaluate]

/-! ## Sizes -/

theorem length_leaves_le (t : Tree α) : t.leaves.length ≤ t.operators + 1 := by
  induction t with
  | leaf a => exact Nat.le_refl 1
  | negate t ih => exact Nat.le_succ_of_le ih
  | add l r ihl ihr | subtract l r ihl ihr =>
    rw [leaves, List.length_append, operators]
    omega

theorem natAbs_evaluate_le {value : α → Int} {bound : Nat} (h : ∀ a, (value a).natAbs ≤ bound)
    (t : Tree α) : (t.evaluate value exactArithmetic).natAbs ≤ t.leaves.length * bound := by
  induction t with
  | leaf a =>
    rw [leaves, List.length_singleton, Nat.one_mul]
    exact h a
  | negate t ih => exact (Int.natAbs_neg _).trans_le ih
  | add l r ihl ihr =>
    rw [leaves, List.length_append, Nat.add_mul]
    exact (Int.natAbs_add_le _ _).trans (Nat.add_le_add ihl ihr)
  | subtract l r ihl ihr =>
    rw [leaves, List.length_append, Nat.add_mul]
    exact (Int.natAbs_sub_le _ _).trans (Nat.add_le_add ihl ihr)

/-! ## Parts -/

/-- A tree and all parts of it. -/
def subtrees : Tree α → List (Tree α)
  | leaf a => [leaf a]
  | negate t => negate t :: t.subtrees
  | add l r => add l r :: (l.subtrees ++ r.subtrees)
  | subtract l r => subtract l r :: (l.subtrees ++ r.subtrees)

theorem self_mem_subtrees (t : Tree α) : t ∈ t.subtrees := by
  cases t <;> exact List.mem_cons_self

/-- The leaves of a part stand together in the tree. -/
theorem leaves_infix_of_mem_subtrees {part t : Tree α} (h : part ∈ t.subtrees) :
    part.leaves <:+: t.leaves := by
  induction t with
  | leaf a =>
    obtain rfl := List.mem_singleton.mp h
    exact List.infix_rfl
  | negate t ih =>
    rcases List.mem_cons.mp h with rfl | h
    · exact List.infix_rfl
    · exact ih h
  | add l r ihl ihr | subtract l r ihl ihr =>
    rcases List.mem_cons.mp h with rfl | h
    · exact List.infix_rfl
    · rcases List.mem_append.mp h with h | h
      · exact (ihl h).trans (List.prefix_append _ _).isInfix
      · exact (ihr h).trans (List.suffix_append _ _).isInfix

end Tree

end ItemCatalog.Expression
