/-!
# Expression trees and postfix notation

A `Tree` is a sort expression with its brackets resolved. `Tree.evaluate` computes its value from the
values of its leaves. Postfix notation lists the tree bottom up, each operator after its operands:
`Tree.postfix` writes it, and `foldPostfix` computes with it on a stack, without building the tree.
-/

namespace ItemCatalog.Expression

/-- The operators of sort expressions. -/
inductive Operator
  | add
  | subtract
  | negate
  deriving DecidableEq, Repr

/-- An entry of postfix notation. -/
inductive Step (α : Type)
  | operand (leaf : α)
  | operator (op : Operator)
  deriving DecidableEq, Repr

/-- An expression over leaves of a kind. -/
inductive Tree (α : Type)
  | leaf (a : α)
  | negate (t : Tree α)
  | add (left right : Tree α)
  | subtract (left right : Tree α)
  deriving DecidableEq, Repr

/-- How the operators compute with values of a kind. -/
structure Arithmetic (β : Type) where
  negate : β → β
  add : β → β → β
  subtract : β → β → β

namespace Tree

/-- The value of an expression, from the values of its leaves. -/
def evaluate (value : α → β) (ops : Arithmetic β) : Tree α → β
  | leaf a => value a
  | negate t => ops.negate (t.evaluate value ops)
  | add l r => ops.add (l.evaluate value ops) (r.evaluate value ops)
  | subtract l r => ops.subtract (l.evaluate value ops) (r.evaluate value ops)

/-- The expression with its leaves renamed. -/
def map (f : α → β) : Tree α → Tree β
  | leaf a => leaf (f a)
  | negate t => negate (t.map f)
  | add l r => add (l.map f) (r.map f)
  | subtract l r => subtract (l.map f) (r.map f)

/-- The leaves from left to right. -/
def leaves : Tree α → List α
  | leaf a => [a]
  | negate t => t.leaves
  | add l r => l.leaves ++ r.leaves
  | subtract l r => l.leaves ++ r.leaves

/-- The expression in postfix notation. -/
def toPostfix : Tree α → List (Step α)
  | leaf a => [.operand a]
  | negate t => t.toPostfix ++ [.operator .negate]
  | add l r => l.toPostfix ++ r.toPostfix ++ [.operator .add]
  | subtract l r => l.toPostfix ++ r.toPostfix ++ [.operator .subtract]

/-- Trees as values: an operator builds the tree above its operands. -/
def building : Arithmetic (Tree α) := ⟨negate, add, subtract⟩

end Tree

/-- What an operator leaves on a stack of values, the last one first; nothing when operands are
missing. -/
def Operator.applyTo? (ops : Arithmetic β) : Operator → List β → Option (List β)
  | .negate, x :: stack => some (ops.negate x :: stack)
  | .add, y :: x :: stack => some (ops.add x y :: stack)
  | .subtract, y :: x :: stack => some (ops.subtract x y :: stack)
  | _, _ => none

/-- Carries out postfix steps on a stack, the first of them being at `position`. Fails with the place
of the first operator without operands, or with the place behind the last step when the stack does
not end with a single value. -/
def foldPostfixFrom (value : α → β) (ops : Arithmetic β) (position : Nat) (stack : List β) :
    List (Step α) → Except Nat β
  | [] =>
    match stack with
    | [x] => .ok x
    | _ => .error position
  | .operand a :: rest => foldPostfixFrom value ops (position + 1) (value a :: stack) rest
  | .operator op :: rest =>
    match op.applyTo? ops stack with
    | some stack' => foldPostfixFrom value ops (position + 1) stack' rest
    | none => .error position

/-- The value that postfix notation describes, or the place where it is malformed. -/
def foldPostfix (value : α → β) (ops : Arithmetic β) (steps : List (Step α)) : Except Nat β :=
  foldPostfixFrom value ops 0 [] steps

end ItemCatalog.Expression
